import Warren.Consumer.BatchLoop.Impl

namespace BatchLoop

open CounterB (RedeliveryCounter)
open Dispatch (Err Verdict)
open Errors (CtxErr)

namespace State

inductive FlushMove (c : Consumer) (s : State) (f : Flushing) : FlushAction → State → Prop where
  | handlerDone {handlerErr : Option Err} (hphase : f.phase = .handling)
      (hdone : f.handlerDone = some handlerErr)
    : FlushMove c s f .handlerDone (s.goto f (.verdict handlerErr))
  | timedOut (hphase : f.phase = .handling) (htimeout : c.handlerTimeout = true)
      (hctx : f.hCtx = some .deadlineExceeded)
    : FlushMove c s f .hCtxDone (s.goto f .timedOut)
  | canceled (hphase : f.phase = .handling) (htimeout : c.handlerTimeout = true)
      (hctx : f.hCtx = some .canceled)
    : FlushMove c s f .hCtxDone (s.goto f .draining)
  | bail {handlerErr : Option Err} (hphase : f.phase = .verdict handlerErr)
    (hacked : f.acked = true)
    : FlushMove c s f .applyBatchVerdict { s with loop := afterFlush f.last }
  | decides {handlerErr : Option Err} (hphase : f.phase = .verdict handlerErr)
      (hacked : f.acked = false)
    : FlushMove c s f .applyBatchVerdict (s.applyBatchVerdict c f handlerErr)
  | readAcked (hphase : f.phase = .timedOut)
    : FlushMove c s f .readAcked (s.goto f (if f.acked then .draining else .timeoutVerdict))
  | timeoutVerdict (hphase : f.phase = .timeoutVerdict)
    : FlushMove c s f .timeoutVerdict (s.timeoutVerdict c f)
  | send {v : Verdict} (hphase : f.phase = .sending v false)
    : FlushMove c s f .send { s.sendAll f.batch v with loop := afterFlush f.last }
  | sendDrain {v : Verdict} (hphase : f.phase = .sending v true)
    : FlushMove c s f .send ((s.sendAll f.batch v).goto f .draining)
  | drained (hphase : f.phase = .draining) (hdone : f.handlerDone.isSome = true)
    : FlushMove c s f .drain { s with loop := afterFlush f.last }

variable {c : Consumer} {s s' : State} {f : Flushing}

theorem flushStep_move {a : FlushAction} (h : s.flushStep c f a = some s')
    : FlushMove c s f a s' := by
  unfold flushStep at h
  grind [FlushMove]

inductive EnvMove (c : Consumer) (s : State) : EnvAction → State → Prop where
  | deliver {n : Nat} {d : Dispatch.Delivery}
    : EnvMove c s (.deliver n d) (s.setSub n { s.subs n with buffer := (s.subs n).buffer ++ [d] })
  | closeStream {n : Nat}
    : EnvMove c s (.closeStream n) (s.setSub n { s.subs n with streamClosed := true })
  | closeChannel {n : Nat}
    : EnvMove c s (.closeChannel n) (s.setSub n { s.subs n with channelClosed := true })
  | resetCounter : EnvMove c s .resetCounter { s with counterState := .new }
  | openSub
    : EnvMove c s .openSub { s with nextSub := s.nextSub + 1, hooked := s.hooked ++ [s.nextSub] }
  | sendSub {n : Nat}
    : EnvMove c s (.sendSub n) { s with hooked := s.hooked.erase n, resubCh := some n }
  | brokerCancel : EnvMove c s .brokerCancel { s with cancelReasonCh := true }
  | ctxEnds {e : CtxErr} : EnvMove c s (.ctxEnds e) (s.ctxEnds e)
  | timerFires (htimer : s.flushTimer = some false)
    : EnvMove c s .timerFires { s with flushTimer := some true }
  | handlerTimeout {f : Flushing} (hloop : s.loop = .flushing f)
    : EnvMove c s .handlerTimeout
        { s with loop := .flushing { f with hCtx := f.hCtx.or (some .deadlineExceeded) } }
  | handlerReturns {f : Flushing} {handlerErr : Option Err} (hloop : s.loop = .flushing f)
      (hdone : f.handlerDone = none)
    : EnvMove c s (.handlerReturns handlerErr)
        { s with loop := .flushing { f with handlerDone := some handlerErr } }
  | acked {f : Flushing} (hloop : s.loop = .flushing f)
    : EnvMove c s .acked { s with loop := .flushing { f with acked := true } }

theorem duringFlush_some {g : Flushing → Option Flushing} (h : s.duringFlush g = some s')
    : ∃ f f', s.loop = .flushing f ∧ g f = some f' ∧ s' = { s with loop := .flushing f' } := by
  unfold duringFlush at h
  split at h
  next f hloop =>
    rw [Option.map_eq_some_iff] at h
    have ⟨f', hg, hs'⟩ := h
    exact ⟨f, f', hloop, hg, hs'.symm⟩
  next => contradiction

theorem envStep_move {a : EnvAction} (h : s.envStep c a = some s') : EnvMove c s a s' := by
  unfold envStep at h
  grind [EnvMove, duringFlush_some]

-- `popBuffer` has left the rest of the current subscription's buffer
def setBuffer (s : State) (buffer : List Dispatch.Delivery) : State :=
  { s with subs := Function.update s.subs s.cur { s.subs s.cur with buffer } }

inductive LoopMove (c : Consumer) (s : State) : LoopAction → State → Prop where
  | ctxDone (hloop : s.loop = .selecting) : LoopMove c s .ctxDone (s.flush true)
  | resub {sub : Nat} (hloop : s.loop = .selecting)
    : LoopMove c s .resub { s.discard .selecting with
        toCollected := s.toCollected.discard.switchTo sub
        resubCh := none }
  | cancelled (hloop : s.loop = .selecting)
    : LoopMove c s .cancelled { s.discard .returned with cancelReasonCh := false }
  | flushTimer (hloop : s.loop = .selecting)
    : LoopMove c s .flushTimer
        ({ s with toCollected := s.toCollected.stopFlushTimer }.flush false)
  | accepts {raw : Dispatch.Delivery} {buffer : List Dispatch.Delivery} (hloop : s.loop = .selecting)
      (haccepts : c.accepts ⟨s.cur, raw⟩ = true)
    : LoopMove c s .receive { s.setBuffer buffer with
        toCollected := s.toCollected.receive c ⟨s.cur, raw⟩
        loop := .appended }
  | refuses {raw : Dispatch.Delivery} {buffer : List Dispatch.Delivery} (hloop : s.loop = .selecting)
      (hrefuses : c.accepts ⟨s.cur, raw⟩ = false)
    : LoopMove c s .receive ({ s.setBuffer buffer with
        toCollected := s.toCollected.receive c ⟨s.cur, raw⟩ }.nackOne ⟨s.cur, raw⟩ false)
  | streamClosed (hloop : s.loop = .selecting) : LoopMove c s .streamClosed (s.discard .closed)
  | flushes (hloop : s.loop = .appended) (hfull : c.size ≤ s.pending.length)
    : LoopMove c s .checkSize (s.flush false)
  | goesOn (hloop : s.loop = .appended) (hroom : s.pending.length < c.size)
    : LoopMove c s .checkSize { s with loop := .selecting }
  | returns {a : LoopAction} {cancelReasonCh : Bool}
      (hloop : s.loop = .closed ∨ s.loop = .requeueing)
    : LoopMove c s a { s with loop := .returned, cancelReasonCh }
  | reopens {sub : Nat} (hloop : s.loop = .closed)
    : LoopMove c s .resub { s with
        toCollected := s.toCollected.switchTo sub
        resubCh := none
        loop := .selecting }
  | requeueOne {raw : Dispatch.Delivery} {buffer : List Dispatch.Delivery} {loop : Loop}
      (hloop : s.loop = .requeueing) (hbuffer : (s.subs s.cur).buffer = raw :: buffer)
      (hloop' : loop = .requeueing ∨ loop = .returned)
    : LoopMove c s .requeueOne
        { (s.setBuffer buffer).nackOne ⟨s.cur, raw⟩ true with loop }

theorem popBuffer_some {raw : Dispatch.Delivery} {t : State} (h : s.popBuffer = some (raw, t))
    : ∃ buffer, (s.subs s.cur).buffer = raw :: buffer ∧ t = s.setBuffer buffer := by
  unfold popBuffer at h
  split at h
  next => contradiction
  next d buffer hbuffer =>
    cases h
    exact ⟨buffer, hbuffer, rfl⟩

theorem receive_move (hloop : s.loop = .selecting) (h : s.receive c = some s')
    : LoopMove c s .receive s' := by
  unfold receive at h
  split at h
  next => contradiction
  next raw t hpop =>
    obtain ⟨buffer, _, rfl⟩ := popBuffer_some hpop
    dsimp at h
    split at h
    next haccepts =>
      cases h
      exact .accepts hloop haccepts
    next hrefuses =>
      cases h
      exact .refuses hloop (eq_false_of_ne_true hrefuses)

theorem requeueOne_move (hloop : s.loop = .requeueing) (h : s.requeueOne = some s')
    : LoopMove c s .requeueOne s' := by
  unfold requeueOne at h
  split at h
  next => contradiction
  next raw t hpop =>
    obtain ⟨buffer, hbuffer, rfl⟩ := popBuffer_some hpop
    cases h
    refine .requeueOne hloop hbuffer ?_
    split
    . exact .inr rfl
    . exact .inl rfl

theorem loopStep_move {a : LoopAction} (h : s.loopStep c a = some s') : LoopMove c s a s' := by
  unfold loopStep at h
  split at h
  case h_2 hloop =>
    unfold resub at h
    split at h
    next => contradiction
    next =>
      cases h
      exact .resub hloop
  case h_5 hloop => exact receive_move hloop h
  case h_11 hloop => exact requeueOne_move hloop h
  all_goals grind [LoopMove, resub, checkSize]

inductive Move (c : Consumer) (s s' : State) : Action → Prop where
  | loop {a : LoopAction} (h : LoopMove c s a s') : Move c s s' (.loop a)
  | flush {f : Flushing} {a : FlushAction} (hloop : s.loop = .flushing f) (h : FlushMove c s f a s')
    : Move c s s' (.flush a)
  | env {a : EnvAction} (h : EnvMove c s a s') : Move c s s' (.env a)

theorem step_move {a : Action} (h : s.step c a = some s') : Move c s s' a := by
  unfold step at h
  split at h
  next => exact .loop (loopStep_move h)
  next =>
    split at h
    next f hloop => exact .flush hloop (flushStep_move h)
    next => contradiction
  next => exact .env (envStep_move h)

theorem applyBatchVerdict_eq (c : Consumer) (s : State) (f : Flushing) (handlerErr : Option Err)
    : s.applyBatchVerdict c f handlerErr
        =
      { s with
        loop := .flushing { f with
          acked := true
          phase := .sending (verdictOf (c.applyBatchCounterB s.counterState (f.batch.map (·.raw))
            handlerErr).2) false }
        counterState := (c.applyBatchCounterB s.counterState (f.batch.map (·.raw)) handlerErr).1
        decisions := s.decisions ++ [(s.batchNo, handlerErr, s.counterState)] } := rfl

theorem loop_ctxEnds (s : State) (e : CtxErr)
    : (s.ctxEnds e).loop = s.loop
        ∨ ∃ f, s.loop = .flushing f
            ∧ (s.ctxEnds e).loop = .flushing { f with hCtx := f.hCtx.or (some e) } := by
  unfold ctxEnds
  dsimp
  split
  next f hloop =>
    right
    exact ⟨f, hloop, rfl⟩
  next =>
    left
    rfl

theorem timeoutVerdict_cases (c : Consumer) (s : State) (f : Flushing)
    : ∃ counterState, s.timeoutVerdict c f = { s.goto f .draining with counterState }
        ∨ ∃ v, s.timeoutVerdict c f
          = { s.goto { f with acked := true } (.sending v true) with
              counterState
              timeouts := s.timeouts ++ [s.batchNo] } := by
  unfold timeoutVerdict
  split
  next =>
    refine ⟨s.counterState, ?_⟩
    split
    . left
      rfl
    . right
      exact ⟨_, rfl⟩
  next =>
    refine ⟨(c.applyBatchCounterB s.counterState (f.batch.map (·.raw)) (some ⟨[.requeue]⟩)).1, ?_⟩
    dsimp
    split
    . left
      rfl
    . right
      exact ⟨_, rfl⟩

theorem emit_cases (s : State) (sub : Nat) (fr : Frame)
    : s.emit sub fr = s ∨ s.emit sub fr = { s with frames := s.frames ++ [fr] } := by
  unfold emit
  split
  . left
    rfl
  . right
    rfl

theorem nackOne_cases (s : State) (d : Delivery) (requeue : Bool)
    : s.nackOne d requeue = s
        ∨ ∃ fr : Frame, fr.batch = none
            ∧ s.nackOne d requeue = { s with frames := s.frames ++ [fr] } := by
  cases s.emit_cases d.sub ⟨none, d.raw.deliveryTag, .nack requeue⟩ with
  | inl h => exact .inl h
  | inr h => exact .inr ⟨_, rfl, h⟩

theorem sendAll_cases (s : State) (batch : List Delivery) (v : Verdict)
    : s.sendAll batch v = s
        ∨ ∃ fr : Frame, fr.batch = some s.batchNo
            ∧ s.sendAll batch v = { s with frames := s.frames ++ [fr] } := by
  grind [Frame, s.emit_cases, sendAll]

section Sent

variable (s : State) (d : Delivery) (requeue : Bool) (batch : List Delivery) (v : Verdict)

@[simp]
theorem nackOne_eq
    : (s.nackOne d requeue).toCollected = s.toCollected ∧ (s.nackOne d requeue).loop = s.loop
      ∧ (s.nackOne d requeue).timeouts = s.timeouts
      ∧ (s.nackOne d requeue).decisions = s.decisions ∧ (s.nackOne d requeue).subs = s.subs := by
  rcases s.nackOne_cases d requeue with h | ⟨fr, _, h⟩
  all_goals simp [h]

@[simp]
theorem sendAll_eq
    : (s.sendAll batch v).toCollected = s.toCollected
      ∧ (s.sendAll batch v).timeouts = s.timeouts := by
  rcases s.sendAll_cases batch v with h | ⟨fr, _, h⟩
  all_goals simp [h]

end Sent

end State
end BatchLoop
