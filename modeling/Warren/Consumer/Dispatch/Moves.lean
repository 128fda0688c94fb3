import Warren.Consumer.Dispatch.Steps

namespace Dispatch
namespace Dispatching

variable {c : Consumer} {autoAck : Bool} {s s' : Dispatching} {a : StepAction}

inductive Move (c : Consumer) (autoAck : Bool) (s : Dispatching)
    : StepAction → Dispatching → Prop where
  | rawNack (hpc : s.pc = .decoding) (hauto : c.brokerAutoAck = false)
      (hdecodes : s.delivery.decodes = true →
        0 < c.maxRedeliveries ∧ c.maxRedeliveries ≤ s.delivery.deathCount)
    : Move c autoAck s .decode s.rawNack.finish
  | drop (hpc : s.pc = .decoding) (hauto : c.brokerAutoAck = true)
      (hdecodes : s.delivery.decodes = false)
    : Move c autoAck s .decode s.finish
  | callHandler (hpc : s.pc = .decoding) (hdecodes : s.delivery.decodes = true)
      (hcount : ¬(¬c.brokerAutoAck ∧ 0 < c.maxRedeliveries ∧
        c.maxRedeliveries ≤ s.delivery.deathCount))
    : Move c autoAck s .decode { s with handler := .running, hCtx := s.ctx, pc := .waiting }
  | handlerReturns (handlerErr : Option Err) (hrunning : s.handler = .running)
    : Move c autoAck s (.handlerReturns handlerErr) { s with handler := .returned handlerErr }
  | recvHandler {handlerErr : Option Err} (hpc : s.pc = .waiting)
      (hreturned : s.handler = .returned handlerErr)
    : Move c autoAck s .recvHandler { s with pc := .received handlerErr }
  | recvChanDone (hpc : s.pc = .waiting) (hchan : s.chanDone = true)
      (hselect : c.handlerTimeout = true)
    : Move c autoAck s .recvChanDone
        { s with pc := .draining, hCtx := s.hCtx.or (some .channelClosed) }
  | timeout (hpc : s.pc = .waiting) (hctx : s.hCtx = some .deadlineExceeded)
      (hauto : c.brokerAutoAck = false) (hselect : c.handlerTimeout = true)
    : Move c autoAck s .recvHCtx
        { s.setCall none (.swapping (.nack (c.timeoutVerdict = .nackRequeue))) with
          pc := .timingOut }
  | recvHCtx {e : CtxEnd} (hpc : s.pc = .waiting) (hctx : s.hCtx = some e)
      (hauto : e = .deadlineExceeded → c.brokerAutoAck = true) (hselect : c.handlerTimeout = true)
    : Move c autoAck s .recvHCtx { s with pc := .draining }
  | aborted {handlerErr : Option Err} (hpc : s.pc = .received handlerErr) (hchan : s.chanDone = true)
      (herr : handlerErr ≠ none)
    : Move c autoAck s .checkChan s.finish
  | unsettled {handlerErr : Option Err} (hpc : s.pc = .received handlerErr)
      (hauto : c.brokerAutoAck = true ∨ autoAck = false)
      (hchan : ¬(s.chanDone ∧ handlerErr ≠ none))
    : Move c autoAck s .checkChan s.finish
  | settle {handlerErr processedErr : Option Err} {cs : CounterB.RedeliveryCounter}
      (hpc : s.pc = .received handlerErr) (hauto : c.brokerAutoAck = false) (hconsume : autoAck = true)
      (hcounter : c.applyCounterB s.cs (c.counterBKey s.delivery autoAck) handlerErr =
        (cs, processedErr))
      (hchan : ¬(s.chanDone ∧ handlerErr ≠ none))
    : Move c autoAck s .checkChan
        { s.setCall none (.checking (verdictOf processedErr)) with cs, pc := .settling }
  | settled (hpc : s.pc = .settling) (hcall : s.calls none = .returned)
    : Move c autoAck s .settled s.finish
  | timedOut (hpc : s.pc = .timingOut) (hcall : s.calls none = .returned)
    : Move c autoAck s .settled { s with pc := .draining }
  | drained {handlerErr : Option Err} (hpc : s.pc = .draining)
      (hreturned : s.handler = .returned handlerErr)
    : Move c autoAck s .drained s.finish
  | begin (i : Nat) (v : Verdict) (hraw : autoAck = false) (hcalled : s.handler ≠ .notCalled)
      (hidle : s.calls (some i) = .idle)
    : Move c autoAck s (.begin i v) (s.setCall (some i) (.checking v))
  | refused {t : Option Nat} {v : Verdict} (hcall : s.calls t = .checking v)
      (hdone : s.delivery.done = true)
    : Move c autoAck s (.call t .check) (s.setCall t .returned)
  | checked {t : Option Nat} {v : Verdict} (hcall : s.calls t = .checking v)
      (hdone : s.delivery.done = false)
    : Move c autoAck s (.call t .check) (s.setCall t (.swapping v))
  | loses {t : Option Nat} {v : Verdict} (hcall : s.calls t = .swapping v)
      (hresolved : s.delivery.resolved = true)
    : Move c autoAck s (.call t .swap) (s.setCall t .returned)
  | wins {t : Option Nat} {v : Verdict} (hcall : s.calls t = .swapping v)
      (hresolved : s.delivery.resolved = false)
    : Move c autoAck s (.call t .swap)
        { s.setCall t (.sending v) with delivery := { s.delivery with resolved := true } }
  | sends {t : Option Nat} {v : Verdict} (hcall : s.calls t = .sending v)
    : Move c autoAck s (.call t .send) { s.setCall t .returned with frames := s.frames ++ [v] }
  | close
    : Move c autoAck s .close { s with delivery := { s.delivery with done := true } }
  | channelClose
    : Move c autoAck s .channelClose { s with chanDone := true }
  | ctxEnds (e : CtxEnd)
    : Move c autoAck s (.ctxEnds e) { s with
        ctx := s.ctx.or (some e)
        hCtx := if s.pc = .decoding then none else s.hCtx.or (some e)
        ctxEnded := s.ctxEnded || s.pc = .decoding || s.pc = .waiting }
  | handlerTimeout (hpc : s.pc ≠ .decoding)
    : Move c autoAck s .handlerTimeout { s with hCtx := s.hCtx.or (some .deadlineExceeded) }

theorem decode_move (hpc : s.pc = .decoding) : Move c autoAck s .decode (s.decode c) := by
  grind [Move, decode]

theorem checkChan_move {handlerErr : Option Err} (hpc : s.pc = .received handlerErr)
    (hchan : ¬(s.chanDone ∧ handlerErr ≠ none))
    : Move c autoAck s .checkChan (s.settleVerdict c autoAck handlerErr) := by
  grind [Move, settleVerdict]

theorem callStep_move {t : Option Nat} {b : CallAction} (hstep : s.callStep t b = some s')
    : Move c autoAck s (.call t b) s' := by
  unfold callStep at hstep
  grind [Move]

theorem step_move (hstep : s.step c autoAck a = some s') : Move c autoAck s a s' := by
  unfold step at hstep
  grind [Move, decode_move, checkChan_move, callStep_move, recvHCtx]

end Dispatching
end Dispatch
