import Warren.Base.Run
import Warren.Consumer.Pause.Moves

/-!
Who closes `channelDone`.
-/

namespace Pause

def PumpPhase.foundDead : PumpPhase → Bool
  | .drainedClose death => death
  | .drainedCancel death => death
  | .closing => true
  | _ => false

namespace State

variable {prefetch : Nat}

def Dead (s : State prefetch) : Prop :=
  s.died = true ∨ s.brokerCancelled = true

structure Alive (s : State prefetch) : Prop where
  closeCh : s.closeCh.recv = none
  cancelCh : s.cancelCh.recv = none
  pumps : ∀ i sub, s.subs i = some sub → sub.pump.foundDead = false
  channelDone : s.channelDone = false
  suppressed : s.suppressed = []

theorem Alive.init (concurrency : Nat) : (init prefetch concurrency).Alive := by
  refine ⟨rfl, rfl, ?_, rfl, rfl⟩
  intro i sub hsub
  simp only [State.init, Function.update_apply] at hsub
  split at hsub
  . cases hsub
    rfl
  . contradiction

variable {s s' : State prefetch} {i : Nat} {sub : Sub prefetch}

theorem Alive.frame (h : s.Alive) (hcloseCh : s'.closeCh = s.closeCh)
    (hcancelCh : s'.cancelCh = s.cancelCh) (hsubs : s'.subs = s.subs)
    (hchannelDone : s'.channelDone = s.channelDone) (hsuppressed : s'.suppressed = s.suppressed)
    : s'.Alive :=
  ⟨hcloseCh ▸ h.closeCh, hcancelCh ▸ h.cancelCh, hsubs ▸ h.pumps, hchannelDone ▸ h.channelDone,
    hsuppressed ▸ h.suppressed⟩

theorem Alive.setSub (h : s.Alive) (hsub : sub.pump.foundDead = false)
    : (s.setSub i sub).Alive := by
  refine ⟨h.closeCh, h.cancelCh, ?_, h.channelDone, h.suppressed⟩
  intro j r hr
  simp only [State.setSub, Function.update_apply] at hr
  split at hr
  . cases hr
    exact hsub
  . exact h.pumps j r hr

theorem Alive.cancelActive (h : s.Alive) : s.cancelActive.Alive := by
  unfold State.cancelActive
  split
  . exact h
  . next i hi =>
    refine ⟨h.closeCh, h.cancelCh, ?_, h.channelDone, h.suppressed⟩
    intro j r hr
    simp only [Function.update_apply] at hr
    split at hr
    . have ⟨sub, hsub, heq⟩ := Option.map_eq_some_iff.mp hr
      rw [← heq]
      exact h.pumps i sub hsub
    . exact h.pumps j r hr

-- a pump reads a cleared flag only of a channel that is dead
def PausedWhenRead (s : State prefetch) : Action → Prop
  | .pump _ .readPaused => s.paused = true ∨ s.died = true ∨ s.brokerCancelled = true
  | _ => True

instance (s : State prefetch) (a : Action) : Decidable (s.PausedWhenRead a) := by
  unfold PausedWhenRead
  split <;> infer_instance

theorem Alive.pumpStep (h : s.Alive) (hdead : ¬s.Dead) {a : PumpAction}
    (ha : s.PausedWhenRead (.pump i a)) (hstep : s.pumpStep i a = some s') : s'.Alive := by
  have ⟨sub, hsub, hmove⟩ := pumpStep_move hstep
  have hfound := h.pumps i sub hsub
  cases hmove with
  | drainClose =>
    simp only [drainClose, h.closeCh]
    exact h.setSub rfl
  | drainCancel death hpump =>
    rw [hpump] at hfound
    simp only [drainCancel, h.cancelCh]
    exact h.setSub hfound
  | readPaused death hpump =>
    have hpaused : s.paused = true := ha.resolve_right hdead
    have hdeath : death = false := by
      rw [hpump] at hfound
      exact hfound
    simp only [readPaused, hpaused, hdeath, Bool.false_eq_true, reduceCtorEq, or_self, ↓reduceIte]
    exact h.setSub rfl
  | closeDone hpump =>
    rw [hpump] at hfound
    contradiction
  | recvCancel _ _ hrecv => simp [recvCancel, h.cancelCh] at hrecv
  | recvClose _ _ hrecv => simp [recvClose, h.closeCh] at hrecv
  | _ => exact h.setSub rfl

theorem Alive.muStep (h : s.Alive) {a : MuAction} (hstep : s.muStep a = some s') : s'.Alive := by
  cases muStep_move hstep with
  | cancel => exact h.cancelActive.frame rfl rfl rfl rfl rfl
  | resubscribe =>
    have hset : (s.setSub s.next ⟨[], false, .idle, .make⟩).Alive := h.setSub rfl
    exact hset.frame rfl rfl rfl rfl rfl
  | _ => exact h.frame rfl rfl rfl rfl rfl

theorem Alive.loopStep (h : s.Alive) {a : LoopAction} (hstep : s.loopStep a = some s')
    : s'.Alive := by
  cases loopStep_move hstep with
  | recv sub d out _ hsub =>
    have hset : (s.setSub s.cur { sub with out }).Alive := h.setSub (h.pumps s.cur sub hsub)
    exact hset.frame rfl rfl rfl rfl rfl
  | _ => exact h.frame rfl rfl rfl rfl rfl

theorem Alive.envStep (h : s.Alive) {a : EnvAction} (hstep : s.envStep a = some s')
    : s'.Alive ∨ s'.Dead := by
  cases envStep_move hstep with
  | deliver d i sub _ hsub =>
    have hset : (s.setSub i { sub with queue := sub.queue ++ [d] }).Alive :=
      h.setSub (h.pumps i sub hsub)
    exact .inl (hset.frame rfl rfl rfl rfl rfl)
  | settle | cancelCtx => exact .inl (h.frame rfl rfl rfl rfl rfl)
  | suppress _ _ hdone => simp [h.channelDone] at hdone
  | die => exact .inr (.inl rfl)
  | dieStreams hdied => exact .inr (.inl hdied)
  | cancelByBroker => exact .inr (.inr rfl)
  | cancelByBrokerStream => exact .inl h.cancelActive

theorem forwardCancelReason_dead (s : State prefetch) : s.forwardCancelReason.Dead ↔ s.Dead := by
  unfold forwardCancelReason
  split <;> rfl

theorem cancelActive_dead (s : State prefetch) : s.cancelActive.Dead ↔ s.Dead := by
  unfold cancelActive
  split <;> rfl

theorem drainCancel_dead (s : State prefetch) (i : Nat) (sub : Sub prefetch) (death : Bool)
    : (s.drainCancel i sub death).Dead ↔ s.Dead := by
  unfold drainCancel
  split
  . rfl
  . rfl
  . apply forwardCancelReason_dead

theorem recvCancel_dead (hrecv : s.recvCancel i sub = some s') : s'.Dead ↔ s.Dead := by
  unfold recvCancel at hrecv
  split at hrecv
  . contradiction
  . cases hrecv
    exact Iff.rfl
  . cases hrecv
    exact forwardCancelReason_dead _

theorem recvClose_dead (hrecv : s.recvClose i sub = some s') : s'.Dead ↔ s.Dead := by
  unfold recvClose at hrecv
  split at hrecv
  . contradiction
  . cases hrecv
    exact Iff.rfl

theorem Dead.pumpStep (h : s.Dead) {a : PumpAction} (hstep : s.pumpStep i a = some s')
    : s'.Dead := by
  have ⟨sub, _, hmove⟩ := pumpStep_move hstep
  cases hmove with
  | drainClose =>
    unfold drainClose
    split <;> exact h
  | drainCancel death => exact (drainCancel_dead s i sub death).mpr h
  | readPaused =>
    unfold readPaused
    split <;> exact h
  | recvCancel _ _ hrecv => exact (recvCancel_dead hrecv).mpr h
  | recvClose _ _ hrecv => exact (recvClose_dead hrecv).mpr h
  | _ => exact h

theorem Dead.step (h : s.Dead) {a : Action} (hstep : s.step a = some s') : s'.Dead := by
  cases a with
  | pump i a => exact h.pumpStep hstep
  | mu a =>
    cases muStep_move hstep with
    | cancel => exact (cancelActive_dead s).mpr h
    | _ => exact h
  | loop a => cases loopStep_move hstep <;> exact h
  | env a =>
    cases envStep_move hstep with
    | die => exact .inl rfl
    | cancelByBroker => exact .inr rfl
    | cancelByBrokerStream => exact (cancelActive_dead s).mpr h
    | _ => exact h

theorem alive_or_dead_step {a : Action} (h : s.Alive ∨ s.Dead) (ha : s.PausedWhenRead a)
    (hstep : s.step a = some s') : s'.Alive ∨ s'.Dead := by
  by_cases hdead : s.Dead
  . exact .inr (hdead.step hstep)
  . have halive : s.Alive := h.resolve_right hdead
    cases a with
    | pump i a => exact .inl (halive.pumpStep hdead ha hstep)
    | mu a => exact .inl (halive.muStep hstep)
    | loop a => exact .inl (halive.loopStep hstep)
    | env a => exact halive.envStep hstep

end State

open State

/-!
`Resume` clears the flag before the pump of the paused subscription has seen its stream closed. The
verdict on a delivery of the resumed subscription is dropped.
-/

def quickResumeRun : List Action :=
  [.mu .pauseBegin, .mu .pauseOk, .mu .resumeBegin, .mu .resumeConsumeOk, .mu .resumeSend,
    .mu .resumeClear, .pump 0 .seeClosed, .pump 0 .drainClose, .pump 0 .drainCancel,
    .pump 0 .readPaused, .pump 0 .closeDone, .loop .adopt, .env (.deliver 7), .pump 1 .take,
    .pump 1 .send, .loop .recv, .loop .acquire, .env (.suppress 7)]

theorem quickResumeRun_channelDone
    : ∃ s : State 64, Run.run step (.init 64 1) quickResumeRun = some s ∧
        s.channelDone = true ∧ s.suppressed = [7] ∧ s.died = false ∧ s.brokerCancelled = false := by
  have hfinal : (Run.run step (init 64 1) quickResumeRun).map
      (fun s => (s.channelDone, s.suppressed, s.died, s.brokerCancelled)) =
      some (true, [7], false, false) := by decide
  have ⟨s, hrun, hs⟩ := Option.map_eq_some_iff.mp hfinal
  simp only [Prod.mk.injEq] at hs
  exact ⟨s, hrun, hs⟩

theorem channelDone_only_if_dead {prefetch concurrency : Nat} {as : List Action}
    {s : State prefetch}
    (hpaused : Run.Along step PausedWhenRead (.init prefetch concurrency) as)
    (hrun : Run.run step (.init prefetch concurrency) as = some s)
    (hdone : s.channelDone = true ∨ s.suppressed ≠ []) : s.died = true ∨ s.brokerCancelled = true := by
  have h := Run.inv_of_run (I := fun s => s.Alive ∨ s.Dead) (fun s a s' => alive_or_dead_step)
    (.inl (Alive.init concurrency)) hpaused hrun
  cases h with
  | inl halive => simp [halive.channelDone, halive.suppressed] at hdone
  | inr hdead => exact hdead

def slowResumeRun : List Action :=
  [.mu .pauseBegin, .mu .pauseOk, .pump 0 .seeClosed, .pump 0 .drainClose, .pump 0 .drainCancel,
    .pump 0 .readPaused, .mu .resumeBegin, .mu .resumeConsumeOk, .mu .resumeSend, .mu .resumeClear,
    .loop .adopt, .env .die, .pump 1 .recvClose, .pump 1 .closeDone]

theorem channelDone_only_if_dead_slowResumeRun
    : ∃ s : State 64, Run.run step (.init 64 1) slowResumeRun = some s ∧
        s.channelDone = true ∧ (s.died = true ∨ s.brokerCancelled = true) := by
  have hfinal : (Run.run step (init 64 1) slowResumeRun).map channelDone =
      some true := by decide
  have ⟨s, hrun, hs⟩ := Option.map_eq_some_iff.mp hfinal
  exact ⟨s, hrun, hs, channelDone_only_if_dead (by decide) hrun (.inl hs)⟩

end Pause
