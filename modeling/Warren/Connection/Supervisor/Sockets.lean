import Warren.Base.Procs
import Warren.Base.Run
import Warren.Connection.Supervisor.Moves

/-!
Every socket that a dial of the supervisor has returned.
-/

namespace Supervisor

open List Option

-- lost to the peer, or closed by the library; the client does the rest of a failing socket by itself
def Socket.closed : Socket → Bool
  | .connected => false
  | .failing => true
  | .gone => true

structure Ledger where
  supervisor : State
  earlier : List Socket

namespace Ledger

inductive Action where
  | supervisor (a : Supervisor.Action)
  | earlierGone (i : Nat)
  deriving DecidableEq, Repr

def boot (maxRetries : Nat) (connected : Bool) : Ledger := ⟨.boot maxRetries connected, []⟩

def leaves (s : State) : Supervisor.Action → List Socket
  | .dialOk => s.raw.toList
  | .barrierCap => (s.raw.map (fun _ => .gone)).toList
  | _ => []

def step (l : Ledger) : Action → Option Ledger
  | .supervisor a =>
    (l.supervisor.step a).map (fun supervisor => ⟨supervisor, l.earlier ++ leaves l.supervisor a⟩)
  | .earlierGone i =>
    match l.earlier[i]? with
    | some .failing => some { l with earlier := l.earlier.set i .gone }
    | _ => none

def sockets (l : Ledger) : List Socket := l.earlier ++ l.supervisor.raw.toList

end Ledger

def Pc.lost : Pc → Bool
  | .reconnect => true
  | .dialing _ => true
  | .backoff _ => true
  | .dialed connected => !connected
  | .exited => true
  | _ => false

namespace State

structure Informed (s : State) : Prop where
  close : ∀ ch, s.closeCh = some ch → ch.buf ≠ [] ∨ ch.closed = true → s.raw ≠ some .connected
  blocked : ∀ ch, s.blockedCh = some ch → ch.closed = true → s.raw ≠ some .connected
  lost : s.pc.lost = true → s.raw ≠ some .connected

variable {s s' : State} {a : Action}

theorem informed_boot (maxRetries : Nat) (connected : Bool) : (boot maxRetries connected).Informed where
  close := nofun
  blocked := nofun
  lost := nofun

theorem Informed.goto (h : s.Informed) (hclose : s'.closeCh = s.closeCh)
    (hblocked : s'.blockedCh = s.blockedCh) (hraw : s'.raw = s.raw)
    (hlost : s'.pc.lost = true → s.raw ≠ some .connected) : s'.Informed := by
  refine ⟨?_, ?_, ?_⟩
  . rw [hclose, hraw]
    exact h.close
  . rw [hblocked, hraw]
    exact h.blocked
  . rw [hraw]
    exact hlost

theorem informed_of_raw (h : s.raw ≠ some .connected) : s.Informed :=
  ⟨fun _ _ _ => h, fun _ _ _ => h, fun _ => h⟩

theorem raw_closeRaw (s : State) : s.closeRaw.raw ≠ some .connected := by
  unfold closeRaw
  cases s.raw with
  | none => nofun
  | some socket => nofun

theorem ne_connected_of_registered {α : Type} {cap : Nat} {raw : Option Socket} {ch : Chan α cap}
    (hch : raw.bind registered = some ch) (hclosed : ch.buf ≠ [] ∨ ch.closed = true)
    : raw ≠ some .connected := by
  rintro rfl
  simp only [registered, bind_some, some.injEq] at hch
  rw [← hch] at hclosed
  simp at hclosed

theorem ne_connected_of_closeCh (h : s.Informed) {ch : Chan Unit 1} {v : Option Unit}
    (hrecv : s.closeCh.bind Chan.recv = some (v, ch)) : s.raw ≠ some .connected := by
  have ⟨ch', hch', hrecv'⟩ := bind_eq_some_iff.mp hrecv
  refine h.close ch' hch' (Chan.recv_isSome_iff.mp ?_)
  rw [hrecv']
  rfl

theorem informed_step (h : s.Informed) (hstep : s.step a = some s') : s'.Informed := by
  cases step_move hstep with
  | readRawSome | reconnected | barrierDone | barrierShutdown => exact h.goto rfl rfl rfl nofun
  | readRawRedial _ hraw | readRawExit _ hraw => exact h.goto rfl rfl rfl (by simp [hraw])
  | notifyBlocked hpc hch =>
    refine ⟨h.close, ?_, nofun⟩
    intro ch heq hclosed
    rw [some.injEq] at heq
    exact ne_connected_of_registered (heq ▸ hch) (.inr hclosed)
  | notifyClose hpc hch =>
    refine ⟨?_, h.blocked, nofun⟩
    intro ch heq hclosed
    rw [some.injEq] at heq
    exact ne_connected_of_registered (heq ▸ hch) hclosed
  | watchCtx | socketGone => exact informed_of_raw s.raw_closeRaw
  | watchBlockedClosed hpc hrecv =>
    have ⟨ch, hch, hrecv⟩ := bind_eq_some_iff.mp hrecv
    have hclosed := (Chan.recv_eq_some_none_iff.mp hrecv).2.1
    exact h.goto rfl rfl rfl (fun _ => h.blocked ch hch hclosed)
  | watchBlocked hpc hrecv | watchUnblocked hpc hrecv | watchUnblockedStale hpc hrecv =>
    have ⟨ch, hch, hrecv⟩ := bind_eq_some_iff.mp hrecv
    have hkeep := (Chan.recv_eq_some_some_iff.mp hrecv).2
    refine ⟨h.close, ?_, by simp [hpc, Pc.lost]⟩
    intro ch' heq hclosed
    rw [some.injEq] at heq
    refine h.blocked ch hch ?_
    rw [← heq, hkeep] at hclosed
    exact hclosed
  | watchCloseClosed hpc hrecv =>
    exact h.goto rfl rfl rfl (fun _ => ne_connected_of_closeCh h hrecv)
  | watchCloseCtx hpc hrecv | watchClose hpc hrecv =>
    have hraw := ne_connected_of_closeCh h hrecv
    exact informed_of_raw hraw
  | watchForce => exact informed_of_raw (raw_closeRaw _)
  | enterReconnectExit hpc | enterReconnect hpc | backoffTimer hpc | backoffCtx hpc | dialErrStop hpc
  | dialErr hpc | exhausted hpc =>
    have hraw : s.raw ≠ some .connected := h.lost (by rw [hpc]; rfl)
    exact h.goto rfl rfl rfl (fun _ => hraw)
  | dialOk => exact ⟨nofun, nofun, nofun⟩
  | barrierCap | socketFails => exact informed_of_raw nofun
  | cancel | forceReconnect => exact h.goto rfl rfl rfl h.lost
  | brokerBlocked hraw hch hsend =>
    have ⟨_, _, _, hclosed⟩ := Chan.trySend_eq_some_iff.mp hsend
    refine ⟨h.close, ?_, h.lost⟩
    intro ch' heq hclosed'
    rw [some.injEq] at heq
    refine h.blocked _ hch ?_
    rw [← heq, hclosed] at hclosed'
    exact hclosed'

end State

namespace Ledger

variable {l l' : Ledger} {a : Action} {as : List Action} {maxRetries : Nat} {connected : Bool}

structure Kept (l : Ledger) : Prop where
  informed : l.supervisor.Informed
  earlier : ∀ socket ∈ l.earlier, socket.closed = true

theorem closed_of_ne {socket : Socket} (h : socket ≠ .connected) : socket.closed = true := by
  cases socket with
  | connected => contradiction
  | failing => rfl
  | gone => rfl

theorem closed_of_leaves (h : l.supervisor.Informed) {b : Supervisor.Action} {s : State}
    (hstep : l.supervisor.step b = some s) {socket : Socket} (hmem : socket ∈ leaves l.supervisor b)
    : socket.closed = true := by
  cases State.step_move hstep with
  | dialOk hpc =>
    have hraw : l.supervisor.raw ≠ some .connected := h.lost (by rw [hpc]; rfl)
    refine closed_of_ne ?_
    rintro rfl
    exact hraw (mem_toList.mp hmem)
  | barrierCap =>
    have ⟨_, _, hgone⟩ := map_eq_some_iff.mp (mem_toList.mp hmem)
    rw [← hgone]
    rfl
  | _ => contradiction

theorem kept_step (h : l.Kept) (hstep : l.step a = some l') : l'.Kept := by
  cases a with
  | supervisor b =>
    have ⟨s, hs, heq⟩ := map_eq_some_iff.mp hstep
    subst heq
    refine ⟨State.informed_step h.informed hs, ?_⟩
    intro socket hmem
    cases mem_append.mp hmem with
    | inl hold => exact h.earlier socket hold
    | inr hnew => exact closed_of_leaves h.informed hs hnew
  | earlierGone i =>
    simp only [step] at hstep
    split at hstep
    . rw [← some.inj hstep]
      refine ⟨h.informed, ?_⟩
      intro socket hmem
      cases mem_or_eq_of_mem_set hmem with
      | inl hold => exact h.earlier socket hold
      | inr heq => exact heq ▸ rfl
    . contradiction

theorem length_leaves {s s' : State} {b : Supervisor.Action} (hstep : s.step b = some s')
    : (leaves s b).length + s'.raw.toList.length = s.raw.toList.length + [b].count .dialOk := by
  cases State.step_move hstep with
  | dialOk => simp [leaves]
  | barrierCap => cases hraw : s.raw <;> simp [leaves, hraw]
  | watchCtx | watchForce | socketGone => cases hraw : s.raw <;> simp [leaves, State.closeRaw, hraw]
  | socketFails hraw => simp [leaves, hraw]
  | _ => simp [leaves]

theorem length_sockets_step (hstep : l.step a = some l')
    : l'.sockets.length = l.sockets.length + [a].count (.supervisor .dialOk) := by
  cases a with
  | supervisor b =>
    have ⟨s, hs, heq⟩ := map_eq_some_iff.mp hstep
    subst heq
    have hlength := length_leaves hs
    have hcount : [Action.supervisor b].count (.supervisor .dialOk) = [b].count .dialOk := by
      simp [count_cons]
    rw [hcount]
    simp only [sockets, length_append]
    omega
  | earlierGone i =>
    simp only [step] at hstep
    split at hstep
    . rw [← some.inj hstep]
      simp [sockets]
    . contradiction

theorem length_sockets_run (hrun : Run.run step l as = some l')
    : l'.sockets.length = l.sockets.length + as.count (.supervisor .dialOk) := by
  induction as generalizing l with
  | nil =>
    rw [Run.run_nil, some.injEq] at hrun
    simp [hrun]
  | cons a as ih =>
    have ⟨l₁, hstep, hrest⟩ := Run.exists_step_of_run_cons hrun
    have hcount : (a :: as).count (.supervisor .dialOk) =
        [a].count (.supervisor .dialOk) + as.count (.supervisor .dialOk) := by
      rw [← count_append, singleton_append]
    rw [ih hrest, length_sockets_step hstep, hcount]
    omega

/--
Once the supervisor has exited, every socket that a dial has returned is closed, by the peer or by
the library.
-/
theorem closed_of_exited (hrun : Run.run step (boot maxRetries connected) as = some l)
    (hexited : l.supervisor.pc = .exited)
    : l.sockets.length = connected.toNat + as.count (.supervisor .dialOk) ∧
        (∀ socket ∈ l.sockets, socket.closed = true) ∧
        (l.supervisor.raw = some .failing → (l.step (.supervisor .socketGone)).isSome = true) ∧
        ∀ i, l.earlier[i]? = some .failing → (l.step (.earlierGone i)).isSome = true := by
  have hkept : l.Kept :=
    Run.inv_of_steps (fun _ _ _ => kept_step) ⟨State.informed_boot _ _, forall_mem_nil _⟩ hrun
  refine ⟨?_, ?_, ?_, ?_⟩
  . rw [length_sockets_run hrun]
    cases connected <;> rfl
  . intro socket hmem
    cases mem_append.mp hmem with
    | inl hold => exact hkept.earlier socket hold
    | inr hraw =>
      have hne := hkept.informed.lost (by rw [hexited]; rfl)
      refine closed_of_ne ?_
      rintro rfl
      exact hne (mem_toList.mp hraw)
  . intro hraw
    simp [step, State.step, hraw]
  . intro i hi
    simp [step, hi]

def cancelledDialRun : List Action :=
  map .supervisor
    [.readRaw, .notifyBlocked, .notifyClose, .socketFails, .watchClose, .enterReconnect, .dialOk,
      .reconnectRawReturn, .barrierCap, .readRaw, .enterReconnect, .cancel, .dialOk,
      .reconnectRawReturn, .barrierShutdown, .readRaw, .notifyBlocked, .notifyClose, .watchCtx]

theorem closed_of_exited_cancelledDial
    : ∃ l, Run.run step (boot 0 true) cancelledDialRun = some l ∧
        l.earlier = [.failing, .gone] ∧ l.supervisor.raw = some .gone ∧
        (∀ socket ∈ l.sockets, socket.closed = true) ∧ l.sockets.length = 3 := by
  have ⟨l, hrun, hl⟩ := map_eq_some_iff.mp
    (by decide : (Run.run step (boot 0 true) cancelledDialRun).map
      (fun l => (l.supervisor.pc, l.earlier, l.supervisor.raw)) =
        some (.exited, [.failing, .gone], some .gone))
  simp only [Prod.mk.injEq] at hl
  have hclosed := closed_of_exited hrun hl.1
  exact ⟨l, hrun, hl.2.1, hl.2.2, hclosed.2.1, hclosed.1⟩

end Ledger
end Supervisor
