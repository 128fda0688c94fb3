import Warren.Base.Procs
import Warren.Publisher.Pool.Moves

namespace Pool

open Procs Nat

namespace CallPhase

def inAcquire : CallPhase → Bool
  | .getting => true
  | .taken _ _ => true
  | .discarding _ => true
  | .opening => true
  | .failing _ => true
  | _ => false

def holds : CallPhase → Bool
  | .holding _ _ => true
  | _ => false

def inRelease : CallPhase → Bool
  | .releasing _ => true
  | .handingBack _ => true
  | .closing _ => true
  | .returning => true
  | _ => false

def hasToken (p : CallPhase) : Bool := p.inAcquire || p.holds || p.inRelease

def entry : CallPhase → Option Nat
  | .taken e _ => some e
  | .discarding e => some e
  | .holding e _ => some e
  | .releasing e => some e
  | .handingBack e => some e
  | .closing e => some e
  | _ => none

def occupies (p : CallPhase) : Bool := p.entry.isSome || p = .opening

theorem hasToken_of_occupies {p : CallPhase} (h : p.occupies = true) : p.hasToken = true := by
  cases p with
  | saturated => contradiction
  | done => contradiction
  | _ => rfl

end CallPhase

namespace State

variable {size : Nat}

structure Counted (s : State size) : Prop where
  tokens_open : s.tokens.closed = false
  free_open : s.free.closed = false
  tokens : s.tokens.buf.length + s.calls.countP CallPhase.hasToken = size
  room : s.free.buf.length + s.calls.countP CallPhase.occupies ≤ size

variable {s s' t : State size}

theorem counted_init (size : Nat) : (init size).Counted where
  tokens_open := rfl
  free_open := rfl
  tokens := by simp [init]
  room := by simp [init]

theorem length_of_recv {α : Type} {cap : Nat} {c c' : Chan α cap} {v : Option α}
    (hopen : c.closed = false) (h : c.recv = some (v, c'))
    : c.buf.length = c'.buf.length + 1 ∧ c'.closed = false := by
  cases v with
  | none =>
    rw [(Chan.recv_eq_some_none_iff.mp h).2.1] at hopen
    contradiction
  | some v =>
    have ⟨hbuf, hclosed⟩ := Chan.recv_eq_some_some_iff.mp h
    rw [hbuf, List.length_cons]
    exact ⟨rfl, hclosed.trans hopen⟩

theorem length_of_trySend {α : Type} {cap : Nat} {c c' : Chan α cap} {v : α}
    (h : c.trySend v = some c') : c'.buf.length = c.buf.length + 1 ∧ c'.closed = c.closed := by
  have ⟨_, _, hbuf, hclosed⟩ := Chan.trySend_eq_some_iff.mp h
  rw [hbuf, List.length_append, List.length_singleton]
  exact ⟨rfl, hclosed⟩

theorem Counted.goto (h : s.Counted) {j : Nat} {p q : CallPhase} (hcall : s.calls[j]? = some p)
    (hcalls : t.calls = s.calls) (htokens : t.tokens.closed = false) (hfree : t.free.closed = false)
    (htoken : t.tokens.buf.length + q.hasToken.toNat = s.tokens.buf.length + p.hasToken.toNat)
    (hroom : t.free.buf.length + q.occupies.toNat ≤ s.free.buf.length + p.occupies.toNat ∨
      t.free.buf = []) : (t.goto j q).Counted := by
  have htokens' := countP_set CallPhase.hasToken hcall q
  have hoccupies' := countP_set CallPhase.occupies hcall q
  have h₁ := h.tokens
  have h₂ := h.room
  have hcalls' : (t.goto j q).calls = s.calls.set j q := by
    unfold State.goto
    rw [hcalls]
  have htoken' : t.tokens.buf.length + (t.goto j q).calls.countP CallPhase.hasToken = size := by
    rw [hcalls']
    omega
  refine ⟨htokens, hfree, htoken', ?_⟩
  show t.free.buf.length + (t.goto j q).calls.countP CallPhase.occupies ≤ size
  cases hroom with
  | inl hroom =>
    rw [hcalls']
    omega
  | inr hempty =>
    have hle : (t.goto j q).calls.countP CallPhase.occupies ≤ (t.goto j q).calls.countP CallPhase.hasToken :=
      List.countP_mono_left (fun p _ => CallPhase.hasToken_of_occupies)
    rw [hempty, List.length_nil]
    omega

theorem counted_of_callMove (h : s.Counted) {j : Nat} {a : CallAction} (hmove : s.CallMove j a s')
    : s'.Counted := by
  cases hmove with
  | token v tokens hcall hrecv =>
    have ⟨hlen, hopen⟩ := length_of_recv h.tokens_open hrecv
    exact h.goto hcall rfl hopen h.free_open hlen.symm (.inl (Nat.le_refl _))
  | take e free hcall hrecv =>
    have ⟨hlen, hopen⟩ := length_of_recv h.free_open hrecv
    exact h.goto hcall rfl h.tokens_open hopen rfl (.inl (Nat.le_of_eq hlen.symm))
  | openFn hcall hempty =>
    have ⟨hbuf, _⟩ := Chan.recv_eq_none_iff.mp hempty
    exact h.goto hcall rfl h.tokens_open h.free_open rfl (.inr hbuf)
  | giveBack r tokens hcall hsend | returnToken tokens hcall hsend =>
    have ⟨hlen, hopen⟩ := length_of_trySend hsend
    exact h.goto hcall rfl (hopen.trans h.tokens_open) h.free_open hlen (.inl (Nat.le_refl _))
  | handBack e free hcall hsend =>
    have ⟨hlen, hopen⟩ := length_of_trySend hsend
    exact h.goto hcall rfl h.tokens_open (hopen.trans h.free_open) rfl (.inl (Nat.le_of_eq hlen))
  | foundDead e pending entry closeCh hcall =>
    exact h.goto hcall rfl h.tokens_open h.free_open rfl (.inl (Nat.le_refl _))
  | releaseDead e entry closeCh hcall =>
    exact h.goto hcall rfl h.tokens_open h.free_open rfl (.inl (Nat.le_refl _))
  | discard e hcall | close e hcall | openErr hcall =>
    exact h.goto hcall rfl h.tokens_open h.free_open rfl (.inl (le_succ _))
  | openPanic hcall =>
    exact h.goto hcall rfl h.tokens_open h.free_open rfl (.inl (Nat.le_succ _))
  | opened hcall =>
    exact h.goto hcall rfl h.tokens_open h.free_open rfl (.inl (Nat.le_refl _))
  | cancel hcall => exact h.goto hcall rfl h.tokens_open h.free_open rfl (.inl (Nat.le_refl _))
  | releaseLive e hcall =>
    exact h.goto hcall rfl h.tokens_open h.free_open rfl (.inl (Nat.le_refl _))
  | noRoom e hcall => exact h.goto hcall rfl h.tokens_open h.free_open rfl (.inl (Nat.le_refl _))
  | _ _ _ hcall =>
    exact h.goto hcall rfl h.tokens_open h.free_open rfl (.inl (Nat.le_refl _))

theorem counted_step (h : s.Counted) {a : Action} (hstep : s.step a = some s') : s'.Counted := by
  cases step_move hstep with
  | acquire v tokens hrecv =>
    have ⟨hlen, hopen⟩ := length_of_recv h.tokens_open hrecv
    have htokens := h.tokens
    have hroom := h.room
    refine ⟨hopen, h.free_open, ?_, ?_⟩
    . rw [countP_concat, CallPhase.hasToken]
      simp only [CallPhase.inAcquire, Bool.true_or, Bool.toNat_true]
      omega
    . rw [countP_concat]
      exact hroom
  | saturated =>
    refine ⟨h.tokens_open, h.free_open, ?_, ?_⟩
    . rw [countP_concat]
      exact h.tokens
    . rw [countP_concat]
      exact h.room
  | call j a _ hmove => exact counted_of_callMove h hmove
  | drainTake j e free _ hrecv =>
    have ⟨hlen, hopen⟩ := length_of_recv h.free_open hrecv
    have hroom := h.room
    refine ⟨h.tokens_open, hopen, h.tokens, ?_⟩
    show free.buf.length + s.calls.countP CallPhase.occupies ≤ size
    omega
  | _ => exact ⟨h.tokens_open, h.free_open, h.tokens, h.room⟩

end State
end Pool
