import Warren.Consumer.Pause.Impl

namespace Pause
namespace State

variable {prefetch : Nat}

inductive PumpMove (s : State prefetch) (i : Nat) (sub : Sub prefetch)
    : PumpAction → State prefetch → Prop where
  | take (d : Nat) (queue : List Nat) (hpump : sub.pump = .idle) (hqueue : sub.queue = d :: queue)
    : PumpMove s i sub .take (s.setSub i { sub with queue, pump := .holding d })
  | send (d : Nat) (out : Chan Nat prefetch) (hpump : sub.pump = .holding d)
    (hsend : sub.out.trySend d = some out)
    : PumpMove s i sub .send (s.setSub i { sub with out, pump := .idle })
  | seeClosed (hpump : sub.pump = .idle) (hqueue : sub.queue = []) (hclosed : sub.closed = true)
    : PumpMove s i sub .seeClosed (s.pumpGoto i sub .sawClosed)
  | drainClose (hpump : sub.pump = .sawClosed) : PumpMove s i sub .drainClose (s.drainClose i sub)
  | drainCancel (death : Bool) (hpump : sub.pump = .drainedClose death)
    : PumpMove s i sub .drainCancel (s.drainCancel i sub death)
  | readPaused (death : Bool) (hpump : sub.pump = .drainedCancel death)
    : PumpMove s i sub .readPaused (s.readPaused i sub death)
  | closeDone (hpump : sub.pump = .closing)
    : PumpMove s i sub .closeDone ({ s with channelDone := true }.pumpExit i sub)
  | recvCancel (s' : State prefetch) (hpump : sub.pump = .idle)
    (hrecv : s.recvCancel i sub = some s') : PumpMove s i sub .recvCancel s'
  | recvClose (s' : State prefetch) (hpump : sub.pump = .idle) (hrecv : s.recvClose i sub = some s')
    : PumpMove s i sub .recvClose s'
  | ctx (hpump : sub.pump = .idle ∨ ∃ d, sub.pump = .holding d) (hctx : s.ctxDone = true)
    : PumpMove s i sub .ctx (s.pumpExit i sub)

inductive MuMove (s : State prefetch) : State prefetch → Prop where
  | pauseBegin (hmu : s.mu = .free) (hpaused : s.paused = false)
    : MuMove s { s with paused := true, mu := .pausing }
  | cancel (hmu : s.mu = .pausing ∨ s.mu = .rollingBack) (hdied : s.died = false)
    : MuMove s { s.cancelActive with mu := .free }
  | pauseErr (hmu : s.mu = .pausing) : MuMove s { s with paused := false, mu := .free }
  | resumeBegin (hmu : s.mu = .free) (hpaused : s.paused = true)
    : MuMove s { s with mu := .resuming }
  | resubscribe (hmu : s.mu = .resuming) (hdied : s.died = false) (hactive : s.active = none)
    : MuMove s s.resubscribeLocked
  | send (i : Nat) (resubCh : Chan Nat 1) (hmu : s.mu = .subscribed i)
    (hsend : s.resubCh.trySend i = some resubCh) : MuMove s { s with resubCh, mu := .handedOver }
  | clear (hmu : s.mu = .handedOver) : MuMove s { s with paused := false, mu := .free }
  | rollback (i : Nat) (hmu : s.mu = .subscribed i) : MuMove s { s with mu := .rollingBack }
  | giveUp (hmu : s.mu = .resuming ∨ s.mu = .rollingBack) : MuMove s { s with mu := .free }

inductive LoopMove (s : State prefetch) : LoopAction → State prefetch → Prop where
  | adopt (i : Nat) (resubCh : Chan Nat 1) (hselect : s.inSelect) (hbuf : s.resubCh.buf = [i])
    (hempty : resubCh.buf = [])
    : LoopMove s .adopt { s with cur := i, resubCh, loop := .selecting }
  | recv (sub : Sub prefetch) (d : Nat) (out : Chan Nat prefetch) (hloop : s.loop = .selecting)
    (hsub : s.subs s.cur = some sub) (hrecv : sub.out.recv = some (some d, out))
    : LoopMove s .recv { s.setSub s.cur { sub with out } with loop := .acquiring d }
  | acquire (d : Nat) (hloop : s.loop = .acquiring d) (hslot : s.handlers.length < s.concurrency)
    : LoopMove s .acquire { s with
        handlers := s.handlers ++ [d]
        dispatched := s.dispatched ++ [d]
        loop := .selecting }
  | seeClosed (sub : Sub prefetch) (hloop : s.loop = .selecting) (hsub : s.subs s.cur = some sub)
    (hclosed : sub.out.closed = true) : LoopMove s .seeClosed { s with loop := .sawClosed }
  | readPaused (hloop : s.loop = .sawClosed)
    : LoopMove s .readPaused { s with loop := if s.paused then .parked else .recovering }
  | reopen (hloop : s.loop = .recovering) (hbuf : s.resubCh.buf = []) (hpaused : s.paused = false)
    : LoopMove s .reopen { s with loop := .reopened }
  | stop (hselect : s.inSelect) (hctx : s.ctxDone = true)
    : LoopMove s .stop { s with loop := .stopped }
  | brokerCancel (cancelReasonCh : Chan Unit 1) (hselect : s.inSelect)
    (hrecv : s.cancelReasonCh.recv = some (some (), cancelReasonCh))
    : LoopMove s .brokerCancel { s with cancelReasonCh, loop := .stopped }

inductive EnvMove (s : State prefetch) : EnvAction → State prefetch → Prop where
  | deliver (d i : Nat) (sub : Sub prefetch) (hactive : s.active = some i)
    (hsub : s.subs i = some sub) (hdied : s.died = false) (hfresh : d ∉ s.handed)
    : EnvMove s (.deliver d)
      { s.setSub i { sub with queue := sub.queue ++ [d] } with handed := s.handed ++ [d] }
  | settle (d : Nat) (hd : d ∈ s.handlers)
    : EnvMove s (.settle d)
      { s with handlers := s.handlers.erase d, settled := s.settled ++ [d] }
  | suppress (d : Nat) (hd : d ∈ s.handlers) (hdone : s.channelDone = true)
    : EnvMove s (.suppress d)
      { s with handlers := s.handlers.erase d, suppressed := s.suppressed ++ [d] }
  | cancelCtx : EnvMove s .cancelCtx { s with ctxDone := true }
  | die (closeCh : Chan Unit 1) (hdied : s.died = false)
    (hsend : s.closeCh.trySend () = some closeCh)
    : EnvMove s .die { s with died := true, closeCh := closeCh.close, cancelCh := s.cancelCh.close }
  | dieStreams (hdied : s.died = true)
    : EnvMove s .dieStreams { s with
        active := none
        subs := fun i => (s.subs i).map (fun sub => { sub with queue := [], closed := true }) }
  | cancelByBroker (cancelCh : Chan Unit 1) (hdied : s.died = false) (hactive : s.active ≠ none)
    (hsend : s.cancelCh.trySend () = some cancelCh)
    : EnvMove s .cancelByBroker { s with brokerCancelled := true, cancelCh }
  | cancelByBrokerStream (hcancelled : s.brokerCancelled = true)
    : EnvMove s .cancelByBrokerStream s.cancelActive

variable {s s' : State prefetch}

theorem pumpTake_move {i : Nat} {sub : Sub prefetch} (hpump : sub.pump = .idle)
    (hstep : s.pumpTake i sub = some s') : s.PumpMove i sub .take s' := by
  unfold pumpTake at hstep
  split at hstep
  . contradiction
  . next d queue hqueue =>
    cases hstep
    exact .take d queue hpump hqueue

theorem pumpSend_move {i d : Nat} {sub : Sub prefetch} (hpump : sub.pump = .holding d)
    (hstep : s.pumpSend i sub d = some s') : s.PumpMove i sub .send s' := by
  unfold pumpSend at hstep
  split at hstep
  . contradiction
  . next out hsend =>
    cases hstep
    exact .send d out hpump hsend

theorem pumpStep_move {i : Nat} {a : PumpAction} (hstep : s.pumpStep i a = some s')
    : ∃ sub, s.subs i = some sub ∧ s.PumpMove i sub a s' := by
  grind [PumpMove, pumpTake_move, pumpSend_move, pumpStep]

theorem muStep_move {a : MuAction} (hstep : s.muStep a = some s') : s.MuMove s' := by
  unfold muStep at hstep
  split at hstep
  . next hmu =>
    split at hstep
    . contradiction
    . next hpaused =>
      cases hstep
      exact .pauseBegin hmu (by simpa using hpaused)
  . next hmu =>
    split at hstep
    . contradiction
    . next hdied =>
      cases hstep
      exact .cancel (.inl hmu) (by simpa using hdied)
  . next hmu =>
    cases hstep
    exact .pauseErr hmu
  . next hmu =>
    split at hstep
    . next hpaused =>
      cases hstep
      exact .resumeBegin hmu hpaused
    . contradiction
  . next hmu =>
    split at hstep
    . contradiction
    . next hcond =>
      rw [not_or, Option.not_isSome_iff_eq_none, Bool.not_eq_true] at hcond
      cases hstep
      exact .resubscribe hmu hcond.1 hcond.2
  . next hmu =>
    cases hstep
    exact .giveUp (.inl hmu)
  . next i hmu =>
    split at hstep
    . contradiction
    . next resubCh hsend =>
      cases hstep
      exact .send i resubCh hmu hsend
  . next hmu =>
    cases hstep
    exact .clear hmu
  . next i hmu =>
    cases hstep
    exact .rollback i hmu
  . next ok hmu =>
    split at hstep
    . split at hstep
      . contradiction
      . next hdied =>
        cases hstep
        exact .cancel (.inr hmu) (by simpa using hdied)
    . cases hstep
      exact .giveUp (.inr hmu)
  . contradiction

theorem adopt_move (hselect : s.inSelect) (hstep : s.adopt = some s') : s.LoopMove .adopt s' := by
  unfold adopt at hstep
  split at hstep
  . next i resubCh hrecv =>
    rw [Chan.recv_eq_some_some_iff] at hrecv
    have hcap := s.resubCh.le_cap
    have hempty : resubCh.buf = [] := by
      rw [hrecv.1, List.length_cons] at hcap
      exact List.eq_nil_of_length_eq_zero (by omega)
    rw [Option.some.injEq] at hstep
    rw [hempty] at hrecv
    exact hstep ▸ .adopt i resubCh hselect hrecv.1 hempty
  . contradiction

theorem recvCur_move (hloop : s.loop = .selecting) (hstep : s.recvCur = some s')
    : s.LoopMove .recv s' := by
  grind [LoopMove, recvCur]

theorem seeCurClosed_move (hloop : s.loop = .selecting) (hstep : s.seeCurClosed = some s')
    : s.LoopMove .seeClosed s' := by
  grind [LoopMove, Chan.recv_eq_some_none_iff, seeCurClosed]

theorem loopStep_move {a : LoopAction} (hstep : s.loopStep a = some s') : s.LoopMove a s' := by
  unfold loopStep at hstep
  grind [LoopMove, adopt_move, recvCur_move, seeCurClosed_move]

theorem deliver_move {d : Nat} (hstep : s.envStep (.deliver d) = some s')
    : s.EnvMove (.deliver d) s' := by
  grind [EnvMove, envStep]

theorem envStep_move {a : EnvAction} (hstep : s.envStep a = some s') : s.EnvMove a s' := by
  cases a with
  | deliver d => exact deliver_move hstep
  | settle d =>
    simp only [envStep] at hstep
    split at hstep
    . next hd =>
      cases hstep
      exact .settle d hd
    . contradiction
  | suppress d =>
    simp only [envStep] at hstep
    split at hstep
    . next hcond =>
      cases hstep
      exact .suppress d hcond.1 hcond.2
    . contradiction
  | cancelCtx =>
    simp only [envStep, Option.some.injEq] at hstep
    exact hstep ▸ .cancelCtx
  | die =>
    simp only [envStep] at hstep
    split at hstep
    . contradiction
    . next hdied =>
      split at hstep
      . contradiction
      . next hsend =>
        cases hstep
        exact .die _ (by simpa using hdied) hsend
  | dieStreams =>
    simp only [envStep] at hstep
    split at hstep
    . next hdied =>
      cases hstep
      exact .dieStreams hdied
    . contradiction
  | cancelByBroker =>
    simp only [envStep] at hstep
    split at hstep
    . contradiction
    . next hcond =>
      rw [not_or, Bool.not_eq_true] at hcond
      split at hstep
      . contradiction
      . next hsend =>
        cases hstep
        exact .cancelByBroker _ hcond.1 hcond.2 hsend
  | cancelByBrokerStream =>
    simp only [envStep] at hstep
    split at hstep
    . next hcancelled =>
      cases hstep
      exact .cancelByBrokerStream hcancelled
    . contradiction

theorem cancelActive_eq (s : State prefetch)
    : s.cancelActive = { s with active := none, subs := s.cancelActive.subs } := by
  unfold cancelActive
  split
  . next hnone => rw [← hnone]
  . rfl

end State
end Pause
