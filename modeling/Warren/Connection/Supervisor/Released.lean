import Warren.Connection.Supervisor.Moves
import Warren.Connection.WaitBarrier.Pending

/-!
The supervisor of a socket together with the callers of `waitBarrier` on it.
-/

namespace WaitBarrier.SuperAction

def broadcasts : SuperAction → Bool
  | .unblocked | .reconnected | .barrierCap => true
  | .blocked | .reconnect => false

def setFlags (a : SuperAction) (flags : Bool × Bool) : Bool × Bool :=
  match a with
  | .blocked => (flags.1, true)
  | .unblocked => (flags.1, false)
  | .reconnect => (true, false)
  | .reconnected => (false, flags.2)
  | .barrierCap => flags

theorem flags_superStep {s s' : State} {a : SuperAction} (hstep : s.superStep a = some s')
    : s'.flags = a.setFlags s.flags := by
  cases a <;>
  . simp only [State.superStep] at hstep
    split at hstep
    . cases hstep
      rfl
    . contradiction

end WaitBarrier.SuperAction

namespace Supervisor

def State.barrierSection (s : State) : Action → Option WaitBarrier.SuperAction
  | .watchBlocked =>
    match s.blockedCh.bind Chan.recv with
    | some (some true, _) => some .blocked
    | some (some false, _) => if s.blockedSince then some .unblocked else none
    | _ => none
  | .enterReconnect => if s.ctxDone then none else some .reconnect
  | .reconnectRawReturn => if s.pc = .dialed false then some .reconnected else none
  | .barrierDone => some .reconnected
  | .barrierShutdown => some .reconnected
  | .barrierCap => some .barrierCap
  | _ => none

structure ManagedConn where
  supervisor : State
  waiters : WaitBarrier.State
  unheard : Bool

namespace ManagedConn

inductive Action where
  | supervisor (a : Supervisor.Action)
  | waiter (a : WaitBarrier.Action)
  deriving DecidableEq, Repr

def boot (maxRetries reconnectBarrierTimeout : Nat) (connected : Bool) : ManagedConn where
  supervisor := .boot maxRetries connected
  waiters := .init reconnectBarrierTimeout (!connected)
  unheard := !connected

def superStep (c : ManagedConn) (a : Supervisor.Action) : Option ManagedConn :=
  match c.supervisor.step a with
  | none => none
  | some supervisor =>
    match c.supervisor.barrierSection a with
    | none => some { c with supervisor }
    | some b =>
      match c.waiters.superStep b with
      | none => none
      | some waiters => some { supervisor, waiters, unheard := !b.broadcasts }

def waiterStep (c : ManagedConn) (a : WaitBarrier.Action) : Option ManagedConn :=
  match a with
  | .super _ => none
  | a => (c.waiters.step a).map ({ c with waiters := · })

def step (c : ManagedConn) : Action → Option ManagedConn
  | .supervisor a => c.superStep a
  | .waiter a => c.waiterStep a

end ManagedConn

namespace State

def Exits (s : State) (a : Action) : Prop :=
  a ≠ .reconnectRawReturn ∧ s.pc ≠ .exited ∧ (s.step a).map (·.pc) = some .exited

def ExitsIdle (s : State) (a : Action) : Prop :=
  s.Exits a → s.raw.isSome ∧ s.blockedSince = false

instance (s : State) (a : Action) : Decidable (s.ExitsIdle a) :=
  inferInstanceAs (Decidable (_ ∧ _ ∧ _ → _))

def Flags (s : State) : Prop :=
  match s.pc with
  | .top => (s.raw.isSome → s.reconnecting = false) ∧ s.blocked = false
  | .notifyBlocked | .notifyClose => s.reconnecting = false ∧ s.blocked = false ∧ s.raw.isSome
  | .watch => s.reconnecting = false ∧ (s.blocked = true → s.blockedSince = true) ∧ s.raw.isSome
  | .reconnect =>
    (s.raw.isSome → s.reconnecting = false) ∧ (s.blocked = true → s.blockedSince = true)
  | .dialing _ | .backoff _ | .dialed false => s.blocked = false
  | .dialed true | .barrier => s.blocked = false ∧ s.raw.isSome
  | .exited => s.reconnecting = false ∧ s.blocked = false

theorem flags_boot (maxRetries : Nat) (connected : Bool) : (boot maxRetries connected).Flags := by
  cases connected <;> simp [Flags, boot]

theorem Flags.frame {s s' : State} (h : s.Flags) (hpc : s'.pc = s.pc)
    (hraw : s'.raw.isSome = s.raw.isSome) (hreconnecting : s'.reconnecting = s.reconnecting)
    (hblocked : s'.blocked = s.blocked) (hsince : s'.blockedSince = s.blockedSince) : s'.Flags := by
  unfold Flags
  rw [hpc, hraw, hreconnecting, hblocked, hsince]
  exact h

theorem isSome_raw_closeRaw (s : State) : s.closeRaw.raw.isSome = s.raw.isSome := by
  simp [closeRaw]

theorem flags_step {s s' : State} {a : Action} (h : s.Flags) (hidle : s.ExitsIdle a)
    (hstep : s.step a = some s') : s'.Flags := by
  have hexits (ha : a ≠ .reconnectRawReturn) (hpc : s.pc ≠ .exited) (hpc' : s'.pc = .exited)
      : s.raw.isSome ∧ s.blockedSince = false :=
    hidle ⟨ha, hpc, by rw [hstep, Option.map_some, hpc']⟩
  cases step_move hstep with
  | readRawSome hpc hraw =>
    simp only [Flags, hpc] at h
    exact ⟨h.1 hraw, h.2, hraw⟩
  | readRawRedial hpc hraw =>
    simp only [Flags, hpc] at h
    simp [Flags, h, hraw]
  | readRawExit hpc hraw =>
    have := hexits (by simp) (by simp [hpc]) rfl
    simp [hraw] at this
  | notifyBlocked hpc | dialErrStop hpc | dialErr hpc | backoffTimer hpc | backoffCtx hpc
  | reconnected hpc =>
    simp only [Flags, hpc] at h
    exact h
  | notifyClose hpc | dialOk hpc | barrierCap hpc =>
    simp only [Flags, hpc] at h
    simp [Flags, h]
  | watchCtx hpc =>
    simp only [Flags, hpc] at h
    have hsince := (hexits (by simp) (by simp [hpc]) rfl).2
    simp_all [Flags, closeRaw]
  | watchBlockedClosed hpc | watchClose hpc =>
    simp only [Flags, hpc] at h
    simp_all [Flags]
  | watchBlocked hpc | watchUnblocked hpc =>
    simp only [Flags, hpc] at h
    simp [Flags, hpc, h]
  | watchUnblockedStale hpc | cancel | forceReconnect | brokerBlocked =>
    exact h.frame rfl rfl rfl rfl rfl
  | watchCloseClosed hpc | watchCloseCtx hpc =>
    simp only [Flags, hpc] at h
    have hsince := (hexits (by simp) (by simp [hpc]) rfl).2
    simp_all [Flags]
  | watchForce hpc =>
    simp only [Flags, hpc] at h
    simp_all [Flags, closeRaw]
  | enterReconnectExit hpc =>
    simp only [Flags, hpc] at h
    have ⟨hraw, hsince⟩ := hexits (by simp) (by simp [hpc]) rfl
    simp_all [Flags]
  | enterReconnect hpc => simp [Flags]
  | exhausted hpc =>
    simp only [Flags, hpc] at h
    exact ⟨rfl, h⟩
  | barrierDone hpc | barrierShutdown hpc =>
    simp only [Flags, hpc] at h
    exact ⟨fun _ => rfl, h.1⟩
  | socketFails hraw => exact h.frame rfl (by simp [hraw]) rfl rfl rfl
  | socketGone => exact h.frame rfl (isSome_raw_closeRaw s) rfl rfl rfl

def flags (s : State) : Bool × Bool := (s.reconnecting, s.blocked)

theorem flags_eq_of_step {s s' : State} {a : Action} (hstep : s.step a = some s')
    : s'.flags = (s.barrierSection a).elim s.flags (·.setFlags s.flags) := by
  cases step_move hstep with
  | watchBlocked _ hrecv | watchBlockedClosed _ hrecv =>
    simp [barrierSection, hrecv, flags, WaitBarrier.SuperAction.setFlags]
  | watchUnblocked _ hrecv hsince | watchUnblockedStale _ hrecv hsince =>
    simp [barrierSection, hrecv, hsince, flags, WaitBarrier.SuperAction.setFlags]
  | enterReconnect _ hctx | enterReconnectExit _ hctx =>
    simp [barrierSection, hctx, flags, WaitBarrier.SuperAction.setFlags]
  | reconnected hpc | exhausted hpc =>
    simp [barrierSection, hpc, flags, WaitBarrier.SuperAction.setFlags]
  | _ => rfl

end State

open State

namespace ManagedConn

structure Inv (c : ManagedConn) : Prop where
  agrees : c.waiters.flags = c.supervisor.flags
  pending : c.waiters.Pending
  heard : c.unheard = true → c.supervisor.reconnecting = true ∨ c.supervisor.blocked = true
  flags : c.supervisor.Flags

def ExitsIdle (c : ManagedConn) : Action → Prop
  | .supervisor a => c.supervisor.ExitsIdle a
  | .waiter _ => True

instance (c : ManagedConn) (a : Action) : Decidable (c.ExitsIdle a) := by
  unfold ExitsIdle
  split <;> infer_instance

variable {c c' : ManagedConn}

theorem inv_boot (maxRetries reconnectBarrierTimeout : Nat) (connected : Bool)
    : (boot maxRetries reconnectBarrierTimeout connected).Inv where
  agrees := rfl
  pending := WaitBarrier.State.pending_init _ _
  heard := by simp [boot, State.boot]
  flags := flags_boot ..

theorem inv_superStep {a : Supervisor.Action} (h : c.Inv) (hidle : c.supervisor.ExitsIdle a)
    (hstep : c.superStep a = some c') : c'.Inv := by
  unfold superStep at hstep
  split at hstep
  . contradiction
  . next supervisor hsuper =>
    have hflags := flags_eq_of_step hsuper
    split at hstep
    . next hnone =>
      cases hstep
      rw [hnone, Option.elim_none] at hflags
      refine ⟨h.agrees.trans hflags.symm, h.pending, ?_, flags_step h.flags hidle hsuper⟩
      simp only [flags, Prod.mk.injEq] at hflags
      rw [hflags.1, hflags.2]
      exact h.heard
    . next b hb =>
      split at hstep
      . contradiction
      . next waiters hsection =>
        cases hstep
        rw [hb, Option.elim_some] at hflags
        refine ⟨?_, WaitBarrier.State.pending_superStep h.pending hsection, ?_,
          flags_step h.flags hidle hsuper⟩
        . rw [WaitBarrier.SuperAction.flags_superStep hsection, h.agrees, hflags]
        . -- only `blocked` and `reconnect` do not broadcast, and they set a flag
          cases b with
          | blocked | reconnect =>
            simp only [flags, WaitBarrier.SuperAction.setFlags, Prod.mk.injEq] at hflags
            simp [hflags]
          | _ => simp [WaitBarrier.SuperAction.broadcasts]

theorem inv_waiterStep {a : WaitBarrier.Action} (h : c.Inv) (hstep : c.waiterStep a = some c')
    : c'.Inv := by
  unfold waiterStep at hstep
  split at hstep
  . contradiction
  . next hnot =>
    have ⟨waiters, hwaiters, hc'⟩ := Option.map_eq_some_iff.mp hstep
    subst hc'
    exact ⟨(WaitBarrier.State.flags_step hnot hwaiters).trans h.agrees,
      WaitBarrier.State.pending_step h.pending hwaiters, h.heard, h.flags⟩

theorem inv_step (c : ManagedConn) (a : Action) (c' : ManagedConn) (h : c.Inv)
    (hidle : c.ExitsIdle a) (hstep : c.step a = some c') : c'.Inv := by
  cases a with
  | supervisor a => exact inv_superStep h hidle hstep
  | waiter a => exact inv_waiterStep h hstep

-- who sleeps has a broadcast coming to it, and who comes now does not wait at all
def Released (c : ManagedConn) : Prop :=
  c.supervisor.reconnecting = false ∧ c.supervisor.blocked = false ∧ c.unheard = false ∧
  (∀ i ticket w, (c.waiters.callers i).phase = .sleeping ticket w →
    c.waiters.barrierCond.woken ticket = true) ∧
  ∀ i, c.waiters.loop i = c.waiters.releaseMu i .readDegraded

theorem Inv.released (h : c.Inv) (hexited : c.supervisor.pc = .exited) : c.Released := by
  have hflags := h.flags
  simp only [Flags, hexited] at hflags
  have ⟨hreconnecting, hblocked⟩ := hflags
  have hagrees := h.agrees
  simp only [State.flags, WaitBarrier.State.flags, hreconnecting, hblocked,
    Prod.mk.injEq] at hagrees
  refine ⟨hreconnecting, hblocked, ?_, ?_, ?_⟩
  . rw [Bool.eq_false_iff]
    intro hunheard
    simpa [hreconnecting, hblocked] using h.heard hunheard
  . intro i ticket w hi
    rw [← Bool.not_eq_false]
    intro hasleep
    have := (h.pending i).waits (by rw [hi]; exact hasleep)
    simp [hagrees] at this
  . intro i
    simp [WaitBarrier.State.loop, hagrees]

end ManagedConn

theorem released_of_exitsIdle (maxRetries reconnectBarrierTimeout : Nat) (connected : Bool)
    (as : List ManagedConn.Action) (c : ManagedConn)
    (hidle : Run.Along ManagedConn.step ManagedConn.ExitsIdle
      (.boot maxRetries reconnectBarrierTimeout connected) as)
    (hrun : Run.run ManagedConn.step (.boot maxRetries reconnectBarrierTimeout connected) as =
      some c)
    (hexited : c.supervisor.pc = .exited) : c.Released := by
  have h := Run.inv_of_run ManagedConn.inv_step
    (ManagedConn.inv_boot maxRetries reconnectBarrierTimeout connected) hidle hrun
  exact h.released hexited

def blockedRun : List ManagedConn.Action :=
  [.supervisor .readRaw, .supervisor .notifyBlocked, .supervisor .notifyClose,
    .supervisor (.brokerBlocked true), .supervisor .watchBlocked, .waiter (.caller 0 .lock),
    .waiter (.caller 0 .loop), .waiter (.caller 0 .add), .waiter (.caller 0 .unlock)]

def unblockedRun : List ManagedConn.Action :=
  blockedRun ++ [.supervisor (.brokerBlocked false), .supervisor .watchBlocked, .supervisor .cancel,
    .supervisor .watchCtx]

theorem released_of_exitsIdle_unblockedRun
    : ∃ c, Run.run ManagedConn.step (.boot 0 30 true) unblockedRun = some c ∧
        c.supervisor.pc = .exited ∧ c.Released := by
  have ⟨c, hrun, hpc⟩ := Option.map_eq_some_iff.mp (by decide :
    (Run.run ManagedConn.step (.boot 0 30 true) unblockedRun).map (·.supervisor.pc) = some .exited)
  exact ⟨c, hrun, hpc, released_of_exitsIdle 0 30 true unblockedRun c (by decide) hrun hpc⟩

-- the connection is closed while the socket is blocked, and the caller is not told
def closeWhileBlockedRun : List ManagedConn.Action :=
  blockedRun ++ [.supervisor .cancel, .supervisor .watchCtx]

theorem closeWhileBlockedRun_not_released
    : ∃ c, Run.run ManagedConn.step (.boot 0 30 true) closeWhileBlockedRun = some c ∧
        c.supervisor.pc = .exited ∧ c.supervisor.blocked = true ∧
        (c.waiters.callers 0).phase = .sleeping 0 0 ∧ c.waiters.barrierCond.woken 0 = false ∧
        ¬c.Released := by
  have ⟨c, hrun, h⟩ := Option.map_eq_some_iff.mp (by decide :
    (Run.run ManagedConn.step (.boot 0 30 true) closeWhileBlockedRun).map (fun c =>
      (c.supervisor.pc, c.supervisor.blocked, (c.waiters.callers 0).phase,
        c.waiters.barrierCond.woken 0)) =
    some (.exited, true, .sleeping 0 0, false))
  simp only [Prod.mk.injEq] at h
  have ⟨hpc, hblocked, hphase, hwoken⟩ := h
  refine ⟨c, hrun, hpc, hblocked, hphase, hwoken, fun hreleased => ?_⟩
  simp [hreleased.2.1] at hblocked

end Supervisor
