import Warren.Base.Values

/-!
`Dial` and `openPool` (`connection.go`) with the channel-max that each socket has negotiated.
Sockets come and go before `Dial` returns.
-/

namespace Dial

open Except (bind_ok)

inductive Err where
  | given (err : Nat)
  | noConnection (role : String) (lastErr : Option Nat)
  | invalidOptions (format : String) (args : List Int)
  deriving DecidableEq, Repr

structure ManagedConn where
  raw : Option UInt16
  bootDegraded : Bool
  deriving DecidableEq, Repr

namespace ManagedConn

def negotiatedChannelMax (mc : ManagedConn) : UInt16 := mc.raw.getD 0

end ManagedConn

abbrev Pool := List ManagedConn

structure Boot where
  pool : Pool
  connected : Nat
  lastErr : Option Nat

def Boot.next (b : Boot) : Except Nat UInt16 → Boot
  | .error err => { b with pool := b.pool ++ [⟨none, true⟩], lastErr := some err }
  | .ok channelMax =>
    { b with pool := b.pool ++ [⟨some channelMax, false⟩], connected := b.connected + 1 }

def openPool (role : String) (outcomes : List (Except Nat UInt16)) (ctxErr : Except Err Unit)
    : Except Err Pool := do
  let b := outcomes.foldl Boot.next ⟨[], 0, none⟩
  ctxErr
  if b.connected = 0 then .error (.noConnection role b.lastErr) else .ok b.pool

structure Redial where
  i : Nat
  raw : Option UInt16

def Pool.redial (pool : Pool) (r : Redial) : Pool := pool.modify r.i ({ · with raw := r.raw })

structure Env where
  validateConnOptions : Except Err Unit
  connectDelay : Except Err Unit
  publishers : List (Except Nat UInt16)
  consumers : List (Except Nat UInt16)
  publishersCtx : Except Err Unit
  consumersCtx : Except Err Unit
  beforeCheck : List Redial
  afterCheck : List Redial

structure Connection where
  pubConns : Pool
  conConns : Pool
  deriving DecidableEq, Repr

def checkChannelMax (channelPoolSize : Int) (pubConns : Pool) : Except Err Unit :=
  let negMax := (pubConns.head?.map ManagedConn.negotiatedChannelMax).getD 0
  if 0 < negMax ∧ negMax.toNat < channelPoolSize then
    .error (.invalidOptions
      "WithChannelPoolSize (%d) exceeds the broker-negotiated channel-max (%d)"
      [channelPoolSize, negMax.toNat])
  else
    .ok ()

def dial (channelPoolSize : Int) (env : Env) : Except Err Connection := do
  env.validateConnOptions
  env.connectDelay
  let pool ← openPool "publisher" env.publishers env.publishersCtx
  let pubConns := env.beforeCheck.foldl Pool.redial pool
  checkChannelMax channelPoolSize pubConns
  let conConns ← openPool "consumer" env.consumers env.consumersCtx
  return ⟨env.afterCheck.foldl Pool.redial pubConns, conConns⟩

def ManagedConn.booted : Except Nat UInt16 → ManagedConn
  | .error _ => ⟨none, true⟩
  | .ok channelMax => ⟨some channelMax, false⟩

variable {pool : Pool}

theorem pool_foldl (b : Boot) (outcomes : List (Except Nat UInt16))
    : (outcomes.foldl Boot.next b).pool = b.pool ++ outcomes.map ManagedConn.booted := by
  induction outcomes generalizing b with
  | nil => simp
  | cons outcome outcomes ih =>
    rw [List.foldl_cons, ih]
    cases outcome with
    | _ => simp [Boot.next, ManagedConn.booted]

theorem openPool_ok {role : String} {outcomes : List (Except Nat UInt16)} {ctxErr : Except Err Unit}
    (h : openPool role outcomes ctxErr = .ok pool) : pool = outcomes.map ManagedConn.booted := by
  have ⟨_, _, h⟩ := bind_ok h
  split at h
  . contradiction
  . cases h
    apply pool_foldl

-- the publisher sockets when `Dial` checks the pool size, and when it returns
def Env.atCheck (env : Env) : Pool :=
  env.beforeCheck.foldl Pool.redial (env.publishers.map ManagedConn.booted)

def Env.atReturn (env : Env) : Pool := env.afterCheck.foldl Pool.redial env.atCheck

def ManagedConn.Fits (channelPoolSize : Int) (mc : ManagedConn) : Prop :=
  ∀ n, mc.raw = some n → n = 0 ∨ channelPoolSize ≤ n.toNat

variable {channelPoolSize : Int} {env : Env}

theorem dial_ok {c : Connection} (h : dial channelPoolSize env = .ok c)
    : checkChannelMax channelPoolSize env.atCheck = .ok () ∧ c.pubConns = env.atReturn := by
  have ⟨_, _, h⟩ := bind_ok h
  have ⟨_, _, h⟩ := bind_ok h
  have ⟨pool, hopen, h⟩ := bind_ok h
  have ⟨_, hcheck, h⟩ := bind_ok h
  have ⟨_, _, h⟩ := bind_ok h
  cases h
  cases openPool_ok hopen
  exact ⟨hcheck, rfl⟩

theorem fits_of_checkChannelMax {mc : ManagedConn} (h : checkChannelMax channelPoolSize pool = .ok ())
    (hraw : mc.raw = pool.head?.bind (·.raw))
    : mc.Fits channelPoolSize := by
  intro n hn
  obtain ⟨first, hfirst, hsome⟩ := Option.bind_eq_some_iff.mp (hraw.symm.trans hn)
  rw [checkChannelMax, hfirst] at h
  simp only [Option.map_some, Option.getD_some, ManagedConn.negotiatedChannelMax, hsome] at h
  split at h
  . contradiction
  next hcheck =>
    rw [not_and, Int.not_lt] at hcheck
    by_cases hzero : n = 0
    . exact .inl hzero
    . exact .inr (hcheck (UInt16.pos_iff_ne_zero.mpr hzero))

/--
The check covers the value that the first socket has when it is made. So every live socket fits
exactly when the other ones do, and the first one does if it has been redialled since.
-/
theorem dial_fits (channelPoolSize : Int) (env : Env) (c : Connection)
    (h : dial channelPoolSize env = .ok c)
    : (∀ mc ∈ c.pubConns, mc.Fits channelPoolSize)
        ↔ (∀ mc ∈ env.atReturn.tail, mc.Fits channelPoolSize)
          ∧ ∀ mc ∈ env.atReturn.head?, mc.raw ≠ env.atCheck.head?.bind (·.raw) →
              mc.Fits channelPoolSize := by
  obtain ⟨hcheck, hpool⟩ := dial_ok h
  rw [hpool]
  cases env.atReturn with
  | nil => simp
  | cons first rest =>
    rw [List.forall_mem_cons, and_comm]
    apply and_congr_right
    intro _
    simp only [List.head?_cons, Option.mem_some_iff, forall_eq']
    constructor
    . intro hfits _
      exact hfits
    . intro hfits
      by_cases hraw : first.raw = env.atCheck.head?.bind (·.raw)
      . exact fits_of_checkChannelMax hcheck hraw
      . exact hfits hraw

def cluster (publishers : List (Except Nat UInt16)) : Env :=
  ⟨.ok (), .ok (), publishers, [.ok 2047], .ok (), .ok (), [], []⟩

theorem dial_fits_smaller
    : ∃ c, dial 8 (cluster [.ok 2047, .error 0, .ok 1024]) = .ok c
        ∧ ∀ mc ∈ c.pubConns, mc.Fits 8 := by
  refine ⟨_, rfl, (dial_fits 8 (cluster [.ok 2047, .error 0, .ok 1024]) _ rfl).mpr ?_⟩
  simp [cluster, Env.atReturn, Env.atCheck, ManagedConn.booted, ManagedConn.Fits]

-- the second socket allows less than the first one, and with the first one down nobody is asked
theorem dial_exceeds
    : dial 8 (cluster [.ok 2047, .ok 4])
          = .ok ⟨[⟨some 2047, false⟩, ⟨some 4, false⟩], [⟨some 2047, false⟩]⟩
        ∧ dial 8 (cluster [.error 0, .ok 4])
          = .ok ⟨[⟨none, true⟩, ⟨some 4, false⟩], [⟨some 2047, false⟩]⟩ :=
  ⟨rfl, rfl⟩

end Dial
