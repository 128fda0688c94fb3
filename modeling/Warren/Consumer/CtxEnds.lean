import Warren.Consumer.BatchLoop.Numbered
import Warren.Consumer.Dispatch.Abort

/-!
The end of the context of `Consume` while a handler runs, in `Consumer.dispatch` and in the `flush`
of a `BatchConsumer`.
-/

namespace Dispatch

-- one of the handler's calls of `Ack`, `Nack` or `AckIf` sends its frame
def StepAction.handlerSends : StepAction → Bool
  | .call (some _) .send => true
  | _ => false

-- where the cancellation can leave `dispatch`; `told` says whether it may receive the handler's result
def Pc.spares (told : Bool) : Pc → Bool
  | .waiting | .draining | .finished => true
  | .received _ | .settling => told
  | .decoding | .timingOut => false

namespace Dispatching

variable {c : Consumer} {autoAck told : Bool} {s s' t : Dispatching} {a : StepAction}

structure Cancelled (told : Bool) (s : Dispatching) : Prop where
  hCtx : s.hCtx = some .canceled
  pc : s.pc.spares told = true
  idle : told = false → s.calls none = .idle

theorem Cancelled.goto (h : s.Cancelled told) {pc : Pc} (hctx : ∃ e, s'.hCtx = s.hCtx.or e)
    (hpc : s'.pc = pc) (hspares : pc.spares told = true)
    (hidle : told = false → s'.calls none = .idle) : s'.Cancelled told := by
  have ⟨e, he⟩ := hctx
  refine ⟨?_, hpc ▸ hspares, hidle⟩
  rw [he, h.hCtx]
  rfl

theorem Cancelled.ne {pc : Pc} (h : s.Cancelled told) (hpc : s.pc = pc)
    (hspares : pc.spares told = false) : False := by
  have hpc' := h.pc
  rw [hpc, hspares] at hpc'
  contradiction

theorem cancelled_step (h : s.Cancelled told) (ha : told = false → a ≠ .recvHandler)
    (hstep : s.step c autoAck a = some s') : s'.Cancelled told := by
  have hnone : s.hCtx = s.hCtx.or none := by rw [Option.or_none]
  have hcalls {u : Option Nat} {call : VerdictCall} (hcall : s.calls u ≠ .idle ∨ u ≠ none)
      (htold : told = false) : (s.setCall u call).calls none = .idle :=
    calls_none_setCall (h.idle htold) hcall
  cases step_move hstep with
  | rawNack hpc | drop hpc | callHandler hpc | timedOut hpc => exact (h.ne hpc rfl).elim
  | recvHandler =>
    refine h.goto ⟨none, hnone⟩ rfl ?_ h.idle
    cases told with
    | true => rfl
    | false => exact absurd rfl (ha rfl)
  | recvChanDone => exact h.goto ⟨some .channelClosed, rfl⟩ rfl rfl h.idle
  | timeout _ hctx =>
    rw [h.hCtx] at hctx
    contradiction
  | recvHCtx => exact h.goto ⟨none, hnone⟩ rfl rfl h.idle
  | aborted | unsettled | settled | drained => exact h.goto ⟨some .canceled, rfl⟩ rfl rfl h.idle
  | settle hpc =>
    have htold : told = true := by
      have hpc' := h.pc
      rwa [hpc] at hpc'
    exact h.goto ⟨none, hnone⟩ rfl htold (by simp [htold])
  | begin => exact ⟨h.hCtx, h.pc, hcalls (.inr nofun)⟩
  | refused hcall | checked hcall | loses hcall | wins hcall | sends hcall =>
    exact ⟨h.hCtx, h.pc, hcalls (.inl (by simp [hcall]))⟩
  | ctxEnds e =>
    have hcalled : s.pc ≠ .decoding := fun hpc => h.ne hpc rfl
    exact h.goto ⟨some e, by simp [hcalled]⟩ rfl h.pc h.idle
  | handlerTimeout => exact h.goto ⟨some .deadlineExceeded, rfl⟩ rfl h.pc h.idle
  | handlerReturns | close | channelClose => exact ⟨h.hCtx, h.pc, h.idle⟩

theorem cancelled_ctxEnds (hpc : s.pc = .waiting) (hctx : s.hCtx = none)
    (hidle : s.calls none = .idle) (hstep : s.step c autoAck (.ctxEnds .canceled) = some s')
    : s'.Cancelled told ∧ s'.frames = s.frames := by
  cases step_move hstep with
  | ctxEnds e =>
    refine ⟨⟨?_, ?_, fun _ => hidle⟩, rfl⟩
    . simp [hpc, hctx]
    . dsimp
      rw [hpc]
      rfl

theorem frames_step (h : s.Cancelled false) (hstep : s.step c autoAck a = some s')
    : s'.frames.length = s.frames.length + if a.handlerSends then 1 else 0 := by
  cases step_move hstep with
  | rawNack hpc => exact (h.ne hpc rfl).elim
  | @sends u v hcall =>
    cases u with
    | none =>
      rw [h.idle rfl] at hcall
      contradiction
    | some i => simp [StepAction.handlerSends]
  | refused | checked | loses | wins => simp [StepAction.handlerSends, setCall]
  | _ => rfl

theorem frames_of_run {as : List StepAction} (h : s.Cancelled false) (has : .recvHandler ∉ as)
    (hrun : Run.run (step c autoAck) s as = some t)
    : t.frames.length = s.frames.length + as.countP StepAction.handlerSends := by
  induction as generalizing s with
  | nil =>
    cases hrun
    rfl
  | cons a as ih =>
    have ⟨s', hstep, hrest⟩ := Run.exists_step_of_run_cons hrun
    have ⟨ha, has⟩ := List.ne_and_not_mem_of_not_mem_cons has
    rw [ih (cancelled_step h (fun _ => ha.symm) hstep) has hrest, frames_step h hstep,
      List.countP_cons]
    omega

end Dispatching
end Dispatch

namespace BatchLoop

open Dispatch (Verdict)

def FlushPhase.spares (told : Bool) : FlushPhase → Bool
  | handling | draining => true
  | verdict _ | sending _ _ => told
  | timedOut | timeoutVerdict => false

namespace State

variable {c : Consumer} {s s' : State} {n : Nat} {f : Flushing} {told : Bool}

structure Spared (told : Bool) (n : Nat) (s : State) : Prop where
  flushed : n < s.batches.length
  timeouts : n ∉ s.timeouts
  framed : told = false → ¬ s.Framed n
  hCtx : ∀ f, s.loop = .flushing f → s.batchNo = n →
    f.hCtx = some .canceled ∧ f.phase.spares told = true

theorem Spared.frame (h : Spared told n s) (htimeouts : s'.timeouts = s.timeouts)
    (hbatches : s'.batches = s.batches) (hframed : told = false → s'.Framed n → s.Framed n)
    (hloop : ∀ f', s'.loop = .flushing f' → s.batchNo = n →
      f'.hCtx = some .canceled ∧ f'.phase.spares told = true)
    : Spared told n s' := by
  constructor
  . rw [hbatches]
    apply h.flushed
  . rw [htimeouts]
    apply h.timeouts
  . exact fun htold hn => h.framed htold (hframed htold hn)
  . rw [batchNo, hbatches]
    exact hloop

theorem Spared.leave (h : Spared told n s) (htimeouts : s'.timeouts = s.timeouts)
    (hbatches : s'.batches = s.batches) (hframed : told = false → s'.Framed n → s.Framed n)
    (hloop : ∀ f, s'.loop ≠ .flushing f) : Spared told n s' :=
  h.frame htimeouts hbatches hframed (fun f' hf' => absurd hf' (hloop f'))

theorem Spared.goto (h : Spared told n s) {f' : Flushing} (hloop : s.loop = .flushing f)
    (htimeouts : s'.timeouts = s.timeouts) (hbatches : s'.batches = s.batches)
    (hframed : told = false → s'.Framed n → s.Framed n) (hloop' : s'.loop = .flushing f')
    (hctx : ∃ e, f'.hCtx = f.hCtx.or e)
    (hphase : s.batchNo = n → f.hCtx = some .canceled → f.phase.spares told = true →
      f'.phase.spares told = true)
    : Spared told n s' := by
  apply h.frame htimeouts hbatches hframed
  intro f'' hf'' hno
  rw [hloop', Loop.flushing.injEq] at hf''
  subst hf''
  have ⟨hcanceled, hspares⟩ := h.hCtx f hloop hno
  have ⟨e, he⟩ := hctx
  refine ⟨?_, hphase hno hcanceled hspares⟩
  rw [he, hcanceled]
  rfl

theorem Spared.ne (h : Spared told n s) (hloop : s.loop = .flushing f) {phase : FlushPhase}
    (hphase : f.phase = phase) (hspares : phase.spares told = false) : s.batchNo ≠ n := by
  intro hno
  have hphase' := (h.hCtx f hloop hno).2
  rw [hphase, hspares] at hphase'
  contradiction

theorem spared_flush (hflushed : n < s.batches.length) (htimeouts : n ∉ s.timeouts)
    (hframed : told = false → ¬ s.Framed n) (last : Bool) : Spared told n (s.flush last) := by
  have hframes : (s.flush last).frames = s.frames := by
    unfold State.flush
    split
    all_goals rfl
  grind [Spared, State.flush, afterFlush_ne_flushing, Collected.flush, batchNo, Framed]

theorem spared_loopEffect (h : Spared told n s) (heffect : LoopEffect s s') : Spared told n s' := by
  cases heffect with
  | flush t last hframes htimeouts hbatches hs' =>
    rw [hs']
    apply spared_flush
    . rw [hbatches]
      apply h.flushed
    . rw [htimeouts]
      apply h.timeouts
    . rw [Framed, hframes]
      apply h.framed
  | other hframed htimeouts hbatches hloop =>
    exact h.leave htimeouts hbatches (fun _ => hframed n) hloop

theorem spared_timeoutVerdict (h : Spared told n s) (hloop : s.loop = .flushing f)
    (hphase : f.phase = .timeoutVerdict) : Spared told n (s.timeoutVerdict c f) := by
  have hno := h.ne hloop hphase rfl
  rcases s.timeoutVerdict_cases c f with ⟨counterState, heq | ⟨v, heq⟩⟩
  . rw [heq]
    exact h.goto hloop rfl rfl (fun _ => id) rfl ⟨none, by simp⟩ (fun _ _ _ => rfl)
  . rw [heq]
    constructor
    . apply h.flushed
    . intro hmem
      cases List.mem_append.mp hmem with
      | inl hold => apply h.timeouts hold
      | inr hnew =>
        rw [List.mem_singleton] at hnew
        exact hno hnew.symm
    . apply h.framed
    . intro f' _ hno'
      exact absurd hno' hno

-- the frame of another batch
theorem Spared.framed_sendAll (h : Spared told n s) (hloop : s.loop = .flushing f) {v : Verdict}
    {drain : Bool} (hphase : f.phase = .sending v drain) (htold : told = false)
    (hframed : (s.sendAll f.batch v).Framed n) : s.Framed n := by
  rcases s.sendAll_cases f.batch v with heq | ⟨fr, hbatch, heq⟩
  . rwa [heq] at hframed
  . rw [heq] at hframed
    have ⟨x, hx, hxbatch⟩ := hframed
    cases List.mem_append.mp hx with
    | inl hold => exact ⟨x, hold, hxbatch⟩
    | inr hnew =>
      rw [List.mem_singleton.mp hnew, hbatch, Option.some.injEq] at hxbatch
      exact absurd hxbatch (h.ne hloop hphase htold)

theorem spared_flushMove {a : FlushAction} (h : Spared told n s)
    (ha : told = false → a = .handlerDone → s.batchNo ≠ n) (hloop : s.loop = .flushing f)
    (hmove : FlushMove c s f a s') : Spared told n s' := by
  cases hmove with
  | handlerDone =>
    refine h.goto hloop rfl rfl (fun _ => id) rfl ⟨none, by simp⟩ ?_
    intro hno _ _
    cases told with
    | true => rfl
    | false => exact absurd hno (ha rfl rfl)
  | timedOut _ _ hctx =>
    refine h.goto hloop rfl rfl (fun _ => id) rfl ⟨none, by simp⟩ ?_
    intro _ hcanceled
    rw [hctx] at hcanceled
    contradiction
  | canceled => exact h.goto hloop rfl rfl (fun _ => id) rfl ⟨none, by simp⟩ (fun _ _ _ => rfl)
  | bail | drained => exact h.leave rfl rfl (fun _ => id) (afterFlush_ne_flushing f.last)
  | decides hphase =>
    rw [applyBatchVerdict_eq]
    refine h.goto hloop rfl rfl (fun _ => id) rfl ⟨none, by simp⟩ ?_
    intro _ _ hspares
    rwa [hphase] at hspares
  | readAcked hphase =>
    refine h.goto hloop rfl rfl (fun _ => id) rfl ⟨none, by simp⟩ ?_
    intro hno
    exact absurd hno (h.ne hloop hphase rfl)
  | timeoutVerdict hphase => apply spared_timeoutVerdict h hloop hphase
  | send hphase =>
    exact h.leave (by simp) (by simp) (h.framed_sendAll hloop hphase)
      (afterFlush_ne_flushing f.last)
  | sendDrain hphase =>
    exact h.goto hloop (by simp [State.goto]) (by simp [State.goto]) (h.framed_sendAll hloop hphase)
      rfl ⟨none, by simp⟩ (fun _ _ _ => rfl)

theorem spared_envMove {a : EnvAction} (h : Spared told n s) (hmove : EnvMove c s a s')
    : Spared told n s' := by
  cases hmove with
  | @ctxEnds e =>
    rcases s.loop_ctxEnds e with hsame | ⟨f, hloop, hloop'⟩
    . exact ⟨h.flushed, h.timeouts, h.framed, fun f hf => h.hCtx f (hsame.symm.trans hf)⟩
    . exact h.goto hloop rfl rfl (fun _ => id) hloop' ⟨some e, rfl⟩ (fun _ _ => id)
  | handlerTimeout hloop =>
    exact h.goto hloop rfl rfl (fun _ => id) rfl ⟨some .deadlineExceeded, rfl⟩ (fun _ _ => id)
  | handlerReturns hloop | acked hloop =>
    exact h.goto hloop rfl rfl (fun _ => id) rfl ⟨none, by simp⟩ (fun _ _ => id)
  | _ => exact ⟨h.flushed, h.timeouts, h.framed, h.hCtx⟩

theorem spared_step {a : Action} (h : Spared told n s)
    (ha : told = false → a = .flush .handlerDone → s.batchNo ≠ n) (hstep : s.step c a = some s')
    : Spared told n s' := by
  cases step_move hstep with
  | loop hmove => exact spared_loopEffect h (loopEffect_of_loopMove hmove)
  | flush hloop hmove =>
    exact spared_flushMove h (fun htold heq => ha htold (congrArg Action.flush heq)) hloop hmove
  | env hmove => exact spared_envMove h hmove

theorem spared_ctxEnds (hnumbered : s.Numbered) (hloop : s.loop = .flushing f)
    (hphase : f.phase = .handling) (hctx : f.hCtx = none)
    : Spared told s.batchNo (s.ctxEnds .canceled) := by
  have hpos := hnumbered.pos hloop
  constructor
  . show s.batchNo < s.batches.length
    unfold batchNo
    omega
  . apply hnumbered.undecided f hloop
    rw [hphase]
    rfl
  . intro _
    apply hnumbered.unsent f hloop
    rw [hphase]
    rfl
  . intro f' hf' _
    unfold ctxEnds at hf'
    rw [hloop] at hf'
    dsimp at hf'
    rw [Loop.flushing.injEq] at hf'
    subst hf'
    simp [hctx, hphase, FlushPhase.spares]

end State
end BatchLoop

namespace Consumer

open Run (run Along)

theorem no_timeout_of_canceled (consumer : Dispatch.Consumer) (batchConsumer : BatchLoop.Consumer)
    : (∀ (autoAck chanDone : Bool) (d : Dispatch.Delivery) (cs : CounterB.RedeliveryCounter)
          (ctx : Option Dispatch.CtxEnd) (s t : Dispatch.Dispatching)
          (as bs : List Dispatch.StepAction),
          run (Dispatch.Dispatching.step consumer autoAck) (.init d cs chanDone ctx) as = some s →
          s.pc = .waiting → s.handler = .running → s.hCtx = none →
          run (Dispatch.Dispatching.step consumer autoAck) s (.ctxEnds .canceled :: bs) = some t →
          t.pc ≠ .timingOut
            ∧ (.recvHandler ∉ bs →
              t.frames.length = s.frames.length + bs.countP Dispatch.StepAction.handlerSends))
        ∧ (∀ (s t : BatchLoop.State) (f : BatchLoop.Flushing) (as bs : List BatchLoop.Action),
          run (BatchLoop.State.step batchConsumer) .init as = some s →
          s.loop = .flushing f → f.phase = .handling → f.handlerDone = none → f.hCtx = none →
          run (BatchLoop.State.step batchConsumer) s (.env (.ctxEnds .canceled) :: bs) = some t →
          s.batchNo ∉ t.timeouts
            ∧ (Along (BatchLoop.State.step batchConsumer)
                (fun u b => b = .flush .handlerDone → u.batchNo ≠ s.batchNo)
                (s.ctxEnds .canceled) bs →
              ∀ fr ∈ t.frames, fr.batch ≠ some s.batchNo)) := by
  constructor
  . intro autoAck chanDone d cs ctx s t as bs hinit hpc _ hctx hrun
    have ⟨s', hstep, hrest⟩ := Run.exists_step_of_run_cons hrun
    have hidle := (Dispatch.Dispatching.attending_of_run hinit).2.waiting hpc
    have hcancelled (told : Bool) : s'.Cancelled told ∧ s'.frames = s.frames :=
      Dispatch.Dispatching.cancelled_ctxEnds hpc hctx hidle hstep
    constructor
    . have ht : t.Cancelled true := by
        apply Run.inv_of_steps (I := Dispatch.Dispatching.Cancelled true) _ (hcancelled true).1 hrest
        intro s a s' h hstep
        exact Dispatch.Dispatching.cancelled_step h nofun hstep
      exact fun htimeout => ht.ne htimeout rfl
    . intro hbs
      rw [← (hcancelled false).2]
      exact Dispatch.Dispatching.frames_of_run (hcancelled false).1 hbs hrest
  . intro s t f as bs hinit hloop hphase _ hctx hrun
    have ⟨s', hstep, hrest⟩ := Run.exists_step_of_run_cons hrun
    have hnumbered := BatchLoop.State.numbered_of_run hinit
    cases hstep
    have hspared (told : Bool) : BatchLoop.State.Spared told s.batchNo (s.ctxEnds .canceled) :=
      BatchLoop.State.spared_ctxEnds hnumbered hloop hphase hctx
    constructor
    . have ht : BatchLoop.State.Spared true s.batchNo t := by
        apply Run.inv_of_steps (I := BatchLoop.State.Spared true s.batchNo) _ (hspared true) hrest
        intro s a s' h hstep
        exact BatchLoop.State.spared_step h nofun hstep
      exact ht.timeouts
    . intro halong fr hfr hbatch
      have ht : BatchLoop.State.Spared false s.batchNo t := by
        apply Run.inv_of_run (I := BatchLoop.State.Spared false s.batchNo) _ (hspared false) halong
          hrest
        intro s a s' h ha hstep
        exact BatchLoop.State.spared_step h (fun _ => ha) hstep
      exact ht.framed rfl ⟨fr, hfr, hbatch⟩

def promptConsumer : Dispatch.Consumer := ⟨[99], 3, false, false, true, .nackNoRequeue⟩

def promptDelivery : Dispatch.Delivery := ⟨[109], 1, true, 0, false, false⟩

def calledState : Dispatch.Dispatching :=
  (Dispatch.Dispatching.init promptDelivery .new false none).decode promptConsumer

def promptBatchConsumer : BatchLoop.Consumer where
  tag := [99]
  maxRedeliveries := 3
  counterBDisabled := false
  size := 1
  size_pos := by decide
  flushAfter := false
  handlerTimeout := true
  timeoutVerdict := .nackNoRequeue

def calledRun : List BatchLoop.Action :=
  [.env (.deliver 0 promptDelivery), .loop .receive, .loop .checkSize]

theorem no_timeout_of_canceled_called
    : (∃ t ∈ run (Dispatch.Dispatching.step promptConsumer true) calledState
          [.ctxEnds .canceled, .recvHCtx], t.pc ≠ .timingOut ∧ t.frames.length = 0)
        ∧ ∃ s ∈ run (BatchLoop.State.step promptBatchConsumer) .init calledRun,
          ∃ t ∈ run (BatchLoop.State.step promptBatchConsumer) s
            [.env (.ctxEnds .canceled), .flush .hCtxDone],
            s.batchNo ∉ t.timeouts ∧ ∀ fr ∈ t.frames, fr.batch ≠ some s.batchNo := by
  constructor
  . have ⟨t, hrun, _⟩ := (by decide :
      ∃ t ∈ run (Dispatch.Dispatching.step promptConsumer true) calledState
        [.ctxEnds .canceled, .recvHCtx], t.pc = .draining)
    have ht := (no_timeout_of_canceled promptConsumer promptBatchConsumer).1 true false
      promptDelivery .new none calledState t [.decode] _ rfl (by decide) (by decide) (by decide) hrun
    exact ⟨t, hrun, ht.1, ht.2 (by decide)⟩
  . have ⟨s, hs, hloop, t, ht, _⟩ := (by decide :
      ∃ s ∈ run (BatchLoop.State.step promptBatchConsumer) .init calledRun,
        s.loop = .flushing ⟨[⟨0, promptDelivery⟩], false, none, none, false, .handling⟩
          ∧ ∃ t ∈ run (BatchLoop.State.step promptBatchConsumer) s
            [.env (.ctxEnds .canceled), .flush .hCtxDone], t.frames = [])
    have hspared := (no_timeout_of_canceled promptConsumer promptBatchConsumer).2 s t _ _ _ hs hloop
      rfl rfl rfl ht
    exact ⟨s, hs, t, ht, hspared.1, hspared.2 (Run.along_singleton nofun)⟩

/--
With a deadline of the outer context the handlers are told to have timed out, and the delivery and
the batch are nacked.
-/
theorem timeout_of_deadlineExceeded
    : (∃ t ∈ run (Dispatch.Dispatching.step promptConsumer true) calledState
          [.ctxEnds .deadlineExceeded, .recvHCtx, .call none .swap, .call none .send],
        t.pc = .timingOut ∧ t.frames = [.nack false])
        ∧ ∃ t ∈ run (BatchLoop.State.step promptBatchConsumer) .init
          (calledRun ++ [.env (.ctxEnds .deadlineExceeded), .flush .hCtxDone, .flush .readAcked,
            .flush .timeoutVerdict, .flush .send]),
          t.timeouts = [0] ∧ t.frames = [⟨some 0, 1, .nack false⟩] := by
  decide

end Consumer
