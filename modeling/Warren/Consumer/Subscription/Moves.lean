import Warren.Consumer.Subscription.Impl

namespace Subscription

open Option
open Bool
namespace State

variable {prefetch : Nat}

inductive OpenMove (s : State prefetch) (who : Caller) : OpenAction → State prefetch → Prop where
  | rotate (hphase : s.openPhase who = some .rotating)
    : OpenMove s who .rotate (s.newCounter.openGoto who .reading)
  | notConnected (hphase : s.openPhase who = some .reading) (hraw : s.raw = none)
    : OpenMove s who .readRaw (s.openFail who)
  | readRaw (socket : Nat) (hphase : s.openPhase who = some .reading) (hraw : s.raw = some socket)
    : OpenMove s who .readRaw (s.openGoto who (.opening socket))
  | channelOk (socket : Nat) (hphase : s.openPhase who = some (.opening socket))
    (hup : s.up = some socket)
    : OpenMove s who .channelOk ((s.newChan socket).openGoto who (.subscribing s.nextChan))
  | channelErr (socket : Nat) (hphase : s.openPhase who = some (.opening socket))
    : OpenMove s who .channelErr (s.openFail who)
  | consumeOk (c : Nat) (hphase : s.openPhase who = some (.subscribing c))
    (hopen : s.chanOpen c = true)
    : OpenMove s who .consumeOk ((s.newSub c false).openGoto who (.publishing s.nextSub))
  | consumeErr (c : Nat) (hphase : s.openPhase who = some (.subscribing c))
    : OpenMove s who .consumeErr ((s.closeChan c).openFail who)
  | publish (i : Nat) (sub : Sub prefetch) (hphase : s.openPhase who = some (.publishing i))
    (hsub : s.subs i = some sub) (hmu : s.mu = .free)
    : OpenMove s who .publish (({ s with live := some sub.chan, paused := false }.setSub i
        { sub with started := true }).openReturn who i)

variable {s s' : State prefetch} {cfg : Config}

theorem openStep_move {who : Caller} {a : OpenAction} (hstep : s.openStep who a = some s')
    : s.OpenMove who a s' := by
  unfold openStep openPublish at hstep
  grind [OpenMove]

inductive LoopMove (cfg : Config) (s : State prefetch) : LoopAction → State prefetch → Prop where
  | registerHook (hloop : s.loop = .entered)
    : LoopMove cfg s .registerHook { s with registered := true, loop := .opening .rotating }
  | stop (hloop : s.loop = .selecting) (hctx : s.ctxDone = true)
    : LoopMove cfg s .ctxDone { s with loop := .stopping }
  | recoverStop (hselect : s.inRecoverSelect = true) (hctx : s.ctxDone = true)
    : LoopMove cfg s .ctxDone { s with loop := .recoverStop }
  | adopt (i : Nat) (resubCh : Chan Nat 1) (hselect : s.inSelect = true)
    (hbuf : s.resubCh.buf = [i]) (hempty : resubCh.buf = [])
    : LoopMove cfg s .adopt { s with cur := some i, resubCh, loop := .selecting }
  | brokerCancel (cancelReasonCh : Chan Unit 1) (hselect : s.inSelect = true)
    (hclosed : cancelReasonCh.closed = s.cancelReasonCh.closed)
    : LoopMove cfg s .brokerCancel { s with cancelReasonCh, loop := .brokerCancel }
  | recv (i : Nat) (sub : Sub prefetch) (d : Nat) (out : Chan Nat prefetch)
    (hloop : s.loop = .selecting) (hcur : s.cur = some i) (hsub : s.subs i = some sub)
    (hrecv : sub.out.recv = some (some d, out))
    : LoopMove cfg s .recv
        { s.setSub i { sub with out } with loop := .acquiring sub.chan d }
  | acquire (c d : Nat) (hloop : s.loop = .acquiring c d)
    (hslot : s.handlers.length < cfg.concurrency)
    : LoopMove cfg s .acquire
        { s with handlers := s.handlers ++ [⟨c, d, none, false⟩], loop := .selecting }
  | seeClosed (i : Nat) (sub : Sub prefetch) (hloop : s.loop = .selecting) (hcur : s.cur = some i)
    (hsub : s.subs i = some sub) (hbuf : sub.out.buf = []) (hclosed : sub.out.closed = true)
    : LoopMove cfg s .seeClosed { s with loop := .sawClosed }
  | park (recent : Bool) (hloop : s.loop = .sawClosed) (hpaused : s.paused = true)
    : LoopMove cfg s (.readPaused recent) { s with loop := .parked }
  | guard (hloop : s.loop = .sawClosed) (hpaused : s.paused = false) (hreopened : s.reopened = true)
    : LoopMove cfg s (.readPaused true) { s with loop := .guarding }
  | notRecent (hloop : s.loop = .sawClosed) (hpaused : s.paused = false)
    : LoopMove cfg s (.readPaused false) { s with loop := .polling }
  | guardElapsed (hloop : s.loop = .guarding) : LoopMove cfg s .guardElapsed { s with loop := .polling }
  | pollDefault (hloop : s.loop = .polling) (hctx : s.ctxDone = false)
    (hreason : s.cancelReasonCh.buf = []) (hresub : s.resubCh.buf = [])
    : LoopMove cfg s .pollDefault { s with loop := .polled }
  | seeReconnecting (hloop : s.loop = .polled) (hreconnecting : s.reconnecting = true)
    : LoopMove cfg s .checkReconnecting { s with loop := .backingOff }
  | seeConnected (hloop : s.loop = .polled) (hreconnecting : s.reconnecting = false)
    : LoopMove cfg s .checkReconnecting { s with loop := .notReconnecting }
  | seePaused (hloop : s.loop = .notReconnecting) (hpaused : s.paused = true)
    : LoopMove cfg s .checkPaused { s with loop := .backingOff }
  | reopen (hloop : s.loop = .notReconnecting) (hpaused : s.paused = false)
    : LoopMove cfg s .checkPaused { s with loop := .reopening .rotating }
  | backoffElapsed (hloop : s.loop = .backingOff)
    : LoopMove cfg s .backoffElapsed { s with loop := .polling }
  | waitStopping (hloop : s.loop = .stopping) (hhandlers : s.handlers = [])
    : LoopMove cfg s .wgWait { s with loop := .cancelling }
  | waitRecoverStop (hloop : s.loop = .recoverStop) (hhandlers : s.handlers = [])
    : LoopMove cfg s .wgWait { s with loop := .returned .ctxDone }
  | waitBrokerCancel (hloop : s.loop = .brokerCancel) (hhandlers : s.handlers = [])
    : LoopMove cfg s .wgWait { s with loop := .returned .cancelled }
  | noLive (hloop : s.loop = .cancelling) (hmu : s.mu = .free) (hlive : s.live = none)
    : LoopMove cfg s .readLive { s with loop := .draining }
  | readLive (c : Nat) (hloop : s.loop = .cancelling) (hmu : s.mu = .free) (hlive : s.live = some c)
    : LoopMove cfg s .readLive { s with loop := .cancelSent c }
  | cancelOk (c : Nat) (hloop : s.loop = .cancelSent c) (hopen : s.chanOpen c = true)
    : LoopMove cfg s (.cancel true) { s.cancelOn c with loop := .draining }
  | cancelErr (c : Nat) (hloop : s.loop = .cancelSent c)
    : LoopMove cfg s (.cancel false) { s with loop := .draining }
  | drain (i : Nat) (sub : Sub prefetch) (d : Nat) (out : Chan Nat prefetch)
    (hloop : s.loop = .draining) (hnoAck : cfg.consumer.brokerAutoAck = false)
    (hcur : s.cur = some i) (hsub : s.subs i = some sub)
    (hrecv : sub.out.recv = some (some d, out))
    : LoopMove cfg s .drain ((s.setSub i { sub with out }).sendFrame sub.chan d (.nack true))
  | drainErr (i : Nat) (sub : Sub prefetch) (d : Nat) (out : Chan Nat prefetch)
    (hloop : s.loop = .draining) (hcur : s.cur = some i) (hsub : s.subs i = some sub)
    (hrecv : sub.out.recv = some (some d, out)) (hopen : s.chanOpen sub.chan = false)
    : LoopMove cfg s .drainErr { s.setSub i { sub with out } with loop := .returned .ctxDone }
  | drainClosed (i : Nat) (sub : Sub prefetch) (hloop : s.loop = .draining) (hcur : s.cur = some i)
    (hsub : s.subs i = some sub) (hbuf : sub.out.buf = []) (hclosed : sub.out.closed = true)
    : LoopMove cfg s .drainClosed { s with loop := .returned .ctxDone }
  | drainDefault (hloop : s.loop = .draining)
    : LoopMove cfg s .drainDefault { s with loop := .returned .ctxDone }
  | drainSkip (hloop : s.loop = .draining) (hnoAck : cfg.consumer.brokerAutoAck = true)
    : LoopMove cfg s .drainSkip { s with loop := .returned .ctxDone }

theorem curSub_eq_some {i : Nat} {sub : Sub prefetch} (h : s.curSub = some (i, sub))
    : s.cur = some i ∧ s.subs i = some sub := by
  unfold curSub at h
  split at h
  . contradiction
  . next j hcur =>
    rw [map_eq_some_iff] at h
    have ⟨sub', hsub, heq⟩ := h
    cases heq
    exact ⟨hcur, hsub⟩

theorem recvCur_eq_some {c : Nat} {v : Option Nat} (h : s.recvCur = some (c, v, s'))
    : ∃ i sub out, s.cur = some i ∧ s.subs i = some sub ∧ sub.out.recv = some (v, out) ∧
        c = sub.chan ∧ s' = s.setSub i { sub with out } := by
  grind [curSub_eq_some, recvCur]

theorem loopRecv_move (hloop : s.loop = .selecting) (hstep : s.loopRecv = some s')
    : s.LoopMove cfg .recv s' := by
  grind [LoopMove, recvCur_eq_some, loopRecv]

theorem loopSeeClosed_move (hloop : s.loop = .selecting) (hstep : s.loopSeeClosed = some s')
    : s.LoopMove cfg .seeClosed s' := by
  unfold loopSeeClosed at hstep
  split at hstep
  . next c s₁ hrecvCur =>
    have ⟨i, sub, out, hcur, hsub, hrecv, _, _⟩ := recvCur_eq_some hrecvCur
    have ⟨hbuf, hclosed, _⟩ := Chan.recv_eq_some_none_iff.mp hrecv
    cases hstep
    exact .seeClosed i sub hloop hcur hsub hbuf hclosed
  . contradiction

theorem loopCtxDone_move (hstep : s.loopCtxDone = some s') : s.LoopMove cfg .ctxDone s' := by
  grind [LoopMove, loopCtxDone]

theorem loopAdopt_move (hstep : s.loopAdopt = some s') : s.LoopMove cfg .adopt s' := by
  unfold loopAdopt at hstep
  split at hstep
  . next hselect =>
    split at hstep
    . next i resubCh hrecv =>
      have ⟨hbuf, _⟩ := Chan.recv_eq_some_some_iff.mp hrecv
      have hempty : resubCh.buf = [] := by
        have hcap := s.resubCh.le_cap
        rw [hbuf, List.length_cons] at hcap
        exact List.length_eq_zero_iff.mp (by omega)
      rw [hempty] at hbuf
      cases hstep
      exact .adopt i resubCh hselect hbuf hempty
    . contradiction
  . contradiction

theorem loopBrokerCancel_move (hstep : s.loopBrokerCancel = some s')
    : s.LoopMove cfg .brokerCancel s' := by
  unfold loopBrokerCancel at hstep
  split at hstep
  . next hselect =>
    split at hstep
    . next cancelReasonCh hrecv =>
      cases hstep
      exact .brokerCancel cancelReasonCh hselect (Chan.recv_eq_some_some_iff.mp hrecv).2
    . contradiction
  . contradiction

theorem loopReadPaused_move {recent : Bool} (hloop : s.loop = .sawClosed)
    (hstep : s.loopReadPaused recent = some s') : s.LoopMove cfg (.readPaused recent) s' := by
  grind [LoopMove, loopReadPaused]

theorem loopPollDefault_move (hloop : s.loop = .polling) (hstep : s.loopPollDefault = some s')
    : s.LoopMove cfg .pollDefault s' := by
  unfold loopPollDefault at hstep
  split at hstep
  . next hcond =>
    cases hstep
    exact .pollDefault hloop hcond.1 hcond.2.1 hcond.2.2
  . contradiction

theorem loopWgWait_move (hstep : s.loopWgWait = some s') : s.LoopMove cfg .wgWait s' := by
  grind [LoopMove, loopWgWait]

theorem loopReadLive_move (hloop : s.loop = .cancelling) (hstep : s.loopReadLive = some s')
    : s.LoopMove cfg .readLive s' := by
  grind [LoopMove, loopReadLive]

theorem loopCancel_move {c : Nat} {ok : Bool} (hloop : s.loop = .cancelSent c)
    (hstep : s.loopCancel c ok = some s') : s.LoopMove cfg (.cancel ok) s' := by
  grind [LoopMove, loopCancel]

theorem loopDrain_move {a : LoopAction} (hloop : s.loop = .draining)
    (hstep : s.loopDrain cfg a = some s') : s.LoopMove cfg a s' := by
  unfold loopDrain at hstep
  split at hstep
  . next hnoAck =>
    split at hstep
    . next ha =>
      cases hstep
      exact ha ▸ .drainSkip hloop hnoAck
    . contradiction
  . next hnoAck =>
    rw [not_eq_true] at hnoAck
    split at hstep
    . next c d s₁ hrecvCur =>
      have ⟨i, sub, out, hcur, hsub, hrecv, hc, hs₁⟩ := recvCur_eq_some hrecvCur
      rw [some.injEq, hs₁, hc] at hstep
      exact hstep ▸ .drain i sub d out hloop hnoAck hcur hsub hrecv
    . next c d s₁ hrecvCur =>
      have ⟨i, sub, out, hcur, hsub, hrecv, hc, hs₁⟩ := recvCur_eq_some hrecvCur
      split at hstep
      . contradiction
      . next hopen =>
        rw [not_eq_true, hs₁, hc] at hopen
        rw [some.injEq, hs₁] at hstep
        exact hstep ▸ .drainErr i sub d out hloop hcur hsub hrecv hopen
    . next c s₁ hrecvCur =>
      have ⟨i, sub, out, hcur, hsub, hrecv, _, _⟩ := recvCur_eq_some hrecvCur
      have ⟨hbuf, hclosed, _⟩ := Chan.recv_eq_some_none_iff.mp hrecv
      cases hstep
      exact .drainClosed i sub hloop hcur hsub hbuf hclosed
    . cases hstep
      exact .drainDefault hloop
    . contradiction

theorem loopStep_move {a : LoopAction} (hstep : s.loopStep cfg a = some s')
    : s.LoopMove cfg a s' := by
  unfold loopStep loopAcquire at hstep
  grind [LoopMove, loopCtxDone_move, loopAdopt_move, loopBrokerCancel_move, loopRecv_move,
    loopSeeClosed_move, loopReadPaused_move, loopPollDefault_move, loopWgWait_move,
    loopReadLive_move, loopCancel_move, loopDrain_move]

inductive HookMove (s : State prefetch) (b : Nat) : HookAction → State prefetch → Prop where
  | jitterElapsed (run : HookRun) (hrun : s.hooks b = some run) (hphase : run.phase = .entered)
    : HookMove s b .jitterElapsed (s.hookGoto b (.opening .rotating))
  | quit (run : HookRun) (hrun : s.hooks b = some run) (hphase : run.phase = .entered)
    : HookMove s b .quit (s.hookGoto b .finished)
  | send (run : HookRun) (i : Nat) (resubCh : Chan Nat 1) (hrun : s.hooks b = some run)
    (hphase : run.phase = .sending i) (hempty : s.resubCh.buf = []) (hbuf : resubCh.buf = [i])
    : HookMove s b .send ({ s with resubCh }.hookGoto b .after)
  | sendCancelled (run : HookRun) (i : Nat) (hrun : s.hooks b = some run)
    (hphase : run.phase = .sending i)
    : HookMove s b .sendCancelled (s.hookGoto b .finished)
  | later (run : HookRun) (hrun : s.hooks b = some run) (hphase : run.phase = .after)
    : HookMove s b .later (s.hookGoto b .finished)

inductive MuMove (s : State prefetch) : MuAction → State prefetch → Prop where
  | pauseBegin (hmu : s.mu = .free) : MuMove s .pauseBegin { s with paused := true, mu := .pausing }
  | pauseOk (c : Nat) (hmu : s.mu = .pausing) (hlive : s.live = some c) (hopen : s.chanOpen c = true)
    : MuMove s .pauseOk { s.cancelOn c with mu := .free }
  | pauseErr (hmu : s.mu = .pausing) : MuMove s .pauseErr { s with paused := false, mu := .free }
  | resumeBegin (hmu : s.mu = .free) : MuMove s .resumeBegin { s with mu := .resuming }
  | resumeConsumeOk (c : Nat) (hmu : s.mu = .resuming) (hlive : s.live = some c)
    (hopen : s.chanOpen c = true) (hconsumes : s.consumes c = false)
    : MuMove s .resumeConsumeOk { s.newSub c true with mu := .subscribed s.nextSub }
  | resumeConsumeErr (hmu : s.mu = .resuming) : MuMove s .resumeConsumeErr { s with mu := .free }
  | resumeSwap (i : Nat) (hmu : s.mu = .subscribed i)
    : MuMove s .resumeSwap { s.newCounter with mu := .swapped i s.counterState }
  | resumeSend (i prevCounter : Nat) (resubCh : Chan Nat 1) (hmu : s.mu = .swapped i prevCounter)
    (hempty : s.resubCh.buf = []) (hbuf : resubCh.buf = [i])
    : MuMove s .resumeSend { s with resubCh, mu := .handedOver }
  | resumeClear (hmu : s.mu = .handedOver)
    : MuMove s .resumeClear { s with paused := false, mu := .free }
  | resumeRollback (i prevCounter : Nat) (hmu : s.mu = .swapped i prevCounter)
    : MuMove s .resumeRollback { s with counterState := prevCounter, mu := .rollingBack i }
  | rollbackOk (i c : Nat) (hmu : s.mu = .rollingBack i) (hlive : s.live = some c)
    (hopen : s.chanOpen c = true)
    : MuMove s (.resumeCancel true) { s.cancelOn c with mu := .free }
  | rollbackErr (i : Nat) (hmu : s.mu = .rollingBack i)
    : MuMove s (.resumeCancel false) { s with mu := .free }

theorem trySend_one {α : Type} {ch ch' : Chan α 1} {v : α} (h : ch.trySend v = some ch')
    : ch.buf = [] ∧ ch'.buf = [v] := by
  have ⟨_, hroom, hbuf, _⟩ := Chan.trySend_eq_some_iff.mp h
  have hempty : ch.buf = [] := List.length_eq_zero_iff.mp (by omega)
  rw [hempty, List.nil_append] at hbuf
  exact ⟨hempty, hbuf⟩

theorem hookStep_move {b : Nat} {a : HookAction} (hstep : s.hookStep b a = some s')
    : s.HookMove b a s' := by
  unfold hookStep hookSend at hstep
  grind [HookMove, trySend_one]

theorem cancelLive_eq_some (h : s.cancelLive = some s')
    : ∃ c, s.live = some c ∧ s.chanOpen c = true ∧ { s.cancelOn c with mu := .free } = s' := by
  unfold cancelLive at h
  split at h
  . contradiction
  . next c hlive =>
    split at h
    . next hopen =>
      rw [some.injEq] at h
      exact ⟨c, hlive, hopen, h⟩
    . contradiction

theorem resumeConsume_move (hmu : s.mu = .resuming) (hstep : s.resumeConsume = some s')
    : s.MuMove .resumeConsumeOk s' := by
  grind [MuMove, resumeConsume]

theorem muStep_move {a : MuAction} (hstep : s.muStep a = some s') : s.MuMove a s' := by
  unfold muStep at hstep
  grind [MuMove, cancelLive_eq_some, resumeConsume_move, trySend_one]

end State
end Subscription
