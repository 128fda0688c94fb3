import Warren.Base.Run
import Warren.Connection.Supervisor.Moves

/-!
When the supervisor may exit.
-/

namespace Supervisor

open Option

def ErrorPending (raw : Option Socket) (closeCh : Option (Chan Unit 1)) : Prop :=
  match raw, closeCh with
  | some .connected, some ch => ch.buf = [] ∧ ch.closed = false
  | some .failing, some ch => ch.buf = [()] ∧ ch.closed = false
  | some .gone, some ch => ch.buf = [()]
  | _, _ => False

namespace State

def Supervised (s : State) : Prop :=
  match s.pc with
  | .top => s.raw = none → s.bootDegraded = true ∨ s.reconnecting = true ∨ s.ctxDone = true
  | .watch => ErrorPending s.raw s.closeCh
  | .dialing _ => s.reconnecting = true
  | .backoff _ => s.reconnecting = true
  | .dialed true => s.raw.isSome ∧ s.reconnecting = true
  | .barrier => s.raw.isSome ∧ s.reconnecting = true
  | .exited => s.ctxDone = true ∨ s.lastConnected = some false
  | _ => True

def RegistersInTime (s : State) : Action → Prop
  | .notifyClose => s.raw = some .connected
  | _ => True

instance (s : State) (a : Action) : Decidable (s.RegistersInTime a) := by
  unfold RegistersInTime
  split <;> infer_instance

theorem supervised_boot (maxRetries : Nat) (connected : Bool)
    : (boot maxRetries connected).Supervised := by
  cases connected <;> simp [Supervised, boot]

theorem not_closed_of_errorPending {raw : Option Socket} {closeCh : Option (Chan Unit 1)}
    {ch : Chan Unit 1} (h : ErrorPending raw closeCh)
    : closeCh.bind Chan.recv ≠ some (none, ch) := by
  unfold ErrorPending at h
  grind [Chan, Chan.recv_eq_some_none_iff]

theorem supervised_cancel {s : State} (h : s.Supervised)
    : Supervised { s with ctxDone := true } := by
  unfold Supervised at h ⊢
  split at h <;> simp_all

theorem supervised_socketFails {s : State} (h : s.Supervised) (hraw : s.raw = some .connected)
    {closeCh : Option (Chan Unit 1)}
    (hclose : ∀ ch, s.closeCh = some ch → ∃ ch', ch.trySend () = some ch' ∧ closeCh = some ch')
    : Supervised { s with raw := some .failing, closeCh } := by
  unfold Supervised at h ⊢
  dsimp only
  split at h
  . simp
  . simp only [ErrorPending, hraw] at h ⊢
    split at h
    . next ch hraw hch =>
      have ⟨ch', hsend, hch'⟩ := hclose ch hch
      rw [Chan.trySend_eq_some_iff] at hsend
      rw [hch']
      dsimp only
      rw [hsend.2.2.1, hsend.2.2.2, h.1, h.2]
      simp
    all_goals simp_all
  all_goals simp_all

theorem supervised_socketGone {s : State} (h : s.Supervised) (hraw : s.raw = some .failing)
    : s.closeRaw.Supervised := by
  unfold Supervised at h ⊢
  dsimp only [closeRaw]
  split at h
  . simp [hraw]
  . simp only [ErrorPending, hraw] at h ⊢
    split at h
    all_goals simp_all
  all_goals simp_all

theorem supervised_step {s s' : State} {a : Action} (h : s.Supervised) (ha : s.RegistersInTime a)
    (hstep : s.step a = some s') : s'.Supervised := by
  cases step_move hstep with
  | readRawExit hpc hraw hexit =>
    simp only [Supervised, hpc] at h
    left
    rcases h hraw with hboot | hreconnecting | hctx
    . apply hexit (.inl hboot)
    . apply hexit (.inr hreconnecting)
    . apply hctx
  | notifyClose hpc hch =>
    have hraw : s.raw = some .connected := ha
    rw [hraw] at hch
    cases hch
    simp [Supervised, ErrorPending, hraw]
  | watchCtx hpc hctx | watchCloseCtx hpc hrecv hctx | enterReconnectExit hpc hctx =>
    exact .inl hctx
  | watchBlocked hpc | watchUnblocked hpc | watchUnblockedStale hpc =>
    simpa [Supervised, hpc] using h
  | watchCloseClosed hpc hrecv =>
    simp only [Supervised, hpc] at h
    have hne := not_closed_of_errorPending h hrecv
    contradiction
  | enterReconnect => rfl
  | dialOk hpc =>
    simp only [Supervised, hpc] at h
    exact ⟨rfl, h⟩
  | dialErr hpc | backoffTimer hpc | reconnected hpc =>
    simp only [Supervised, hpc] at h
    apply h
  | exhausted => exact .inr rfl
  | barrierDone hpc =>
    simp only [Supervised, hpc] at h
    intro hnone
    have hraw : s.raw = none := hnone
    rw [hraw] at h
    cases h.1
  | barrierShutdown hpc hctx => exact fun _ => .inr (.inr hctx)
  | barrierCap hpc =>
    simp only [Supervised, hpc] at h
    exact fun _ => .inr (.inl h.2)
  | cancel => apply supervised_cancel h
  | forceReconnect => apply h
  | brokerBlocked => apply h
  | socketFails hraw hclose => apply supervised_socketFails h hraw hclose
  | socketGone hraw => apply supervised_socketGone h hraw
  | _ => trivial

end State

open State

/-!
The new socket is lost while the barrier still runs its hooks. Both notify channels come back
closed, and the `select` may take either of them.
-/

def lostInBarrierRun : List Action :=
  [.readRaw, .notifyBlocked, .notifyClose, .socketFails, .socketGone, .watchClose, .enterReconnect,
    .dialErr, .backoffTimer, .dialOk, .reconnectRawReturn, .socketFails, .socketGone, .barrierDone,
    .readRaw, .notifyBlocked, .notifyClose, .watchClose]

theorem lostInBarrierRun_exited
    : ∃ s, Run.run step (.boot 0 true) lostInBarrierRun = some s ∧ s.pc = .exited ∧
        s.ctxDone = false ∧ s.lastConnected = some true := by
  have hfinal : (Run.run step (.boot 0 true) lostInBarrierRun).map
      (fun s => (s.pc, s.ctxDone, s.lastConnected)) = some (.exited, false, some true) := by decide
  have ⟨s, hrun, hs⟩ := map_eq_some_iff.mp hfinal
  simp only [Prod.mk.injEq] at hs
  exact ⟨s, hrun, hs⟩

theorem exited_of_registersInTime {maxRetries : Nat} {connected : Bool} {as : List Action}
    {s : State}
    (hregisters : Run.Along step RegistersInTime (.boot maxRetries connected) as)
    (hrun : Run.run step (.boot maxRetries connected) as = some s)
    (hexited : s.pc = .exited) (hctx : s.ctxDone = false) : s.lastConnected = some false := by
  have h := Run.inv_of_run (fun s a s' => supervised_step)
    (supervised_boot maxRetries connected) hregisters hrun
  simp only [Supervised, hexited] at h
  simpa [hctx] using h

def exhaustedRun : List Action :=
  [.readRaw, .enterReconnect, .dialErr, .backoffTimer, .dialOk, .reconnectRawReturn, .barrierCap,
    .readRaw, .enterReconnect, .dialOk, .reconnectRawReturn, .barrierDone, .readRaw, .notifyBlocked,
    .notifyClose, .brokerBlocked true, .watchBlocked, .forceReconnect, .watchForce, .enterReconnect,
    .dialErr, .backoffTimer, .dialErr, .reconnectRawReturn]

theorem exited_of_registersInTime_exhaustedRun
    : ∃ s, Run.run step (.boot 2 false) exhaustedRun = some s ∧ s.pc = .exited ∧
        s.ctxDone = false ∧ s.lastConnected = some false := by
  have hfinal : (Run.run step (.boot 2 false) exhaustedRun).map
      (fun s => (s.pc, s.ctxDone)) = some (.exited, false) := by decide
  have ⟨s, hrun, hs⟩ := map_eq_some_iff.mp hfinal
  rw [Prod.mk.injEq] at hs
  exact ⟨s, hrun, hs.1, hs.2, exited_of_registersInTime (by decide) hrun hs.1 hs.2⟩

end Supervisor
