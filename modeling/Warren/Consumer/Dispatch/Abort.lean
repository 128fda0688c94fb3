import Warren.Consumer.Dispatch.OneVerdict

/-!
The channel of a delivery closes while its handler runs.
-/

namespace Dispatch
namespace Dispatching

variable {c : Consumer} {autoAck : Bool} {s s' t : Dispatching} {a : StepAction}

structure Attending (s : Dispatching) : Prop where
  waiting : s.pc = .waiting → s.calls none = .idle
  running : s.handler = .running → s.hCtx = none → s.pc = .waiting

theorem attending_init (d : Delivery) (cs : CounterB.RedeliveryCounter) (chanDone : Bool)
    (ctx : Option CtxEnd) : (init d cs chanDone ctx).Attending := by
  constructor
  . nofun
  . nofun

theorem or_some_ne_none {α : Type} (o : Option α) (x : α) : o.or (some x) ≠ none := by
  cases o with
  | none => nofun
  | some y => nofun

theorem calls_none_setCall (hidle : s.calls none = .idle) {u : Option Nat} {call : VerdictCall}
    (hcall : s.calls u ≠ .idle ∨ u ≠ none) : (s.setCall u call).calls none = .idle := by
  rw [calls_setCall]
  split
  . next hu =>
    cases hcall with
    | inl hne => exact absurd (hu ▸ hidle) hne
    | inr hne => exact absurd hu.symm hne
  . exact hidle

theorem Attending.frame (h : s.Attending) (hpc : t.pc = s.pc) (hhandler : t.handler = s.handler)
    (hctx : t.hCtx = s.hCtx) (hidle : s.calls none = .idle → t.calls none = .idle)
    : t.Attending := by
  constructor
  . rw [hpc]
    exact fun hwaiting => hidle (h.waiting hwaiting)
  . rw [hpc, hhandler, hctx]
    exact h.running

theorem attending_step (honce : s.Once) (h : s.Attending) (hstep : s.step c autoAck a = some s')
    : s'.Attending := by
  -- the context has ended when `dispatch` leaves its `select` before the handler does
  have hleaves {pc : Pc} {hCtx : Option CtxEnd} {calls : Option Nat → VerdictCall}
      {cs : CounterB.RedeliveryCounter} (hpc : pc ≠ .waiting) (hctx : hCtx ≠ none)
      : Attending { s with pc, hCtx, calls, cs } :=
    ⟨fun hwaiting => absurd hwaiting hpc, fun _ hnone => absurd hnone hctx⟩
  cases step_move hstep with
  | rawNack | drop | aborted | unsettled | settled | drained =>
    exact ⟨nofun, fun _ hnone => absurd hnone (or_some_ne_none _ _)⟩
  | callHandler hpc =>
    have hcalled := (honce.decoding hpc).1
    exact ⟨fun _ => (honce.uncalled hcalled).2 none, fun _ _ => rfl⟩
  | handlerReturns handlerErr => exact ⟨h.waiting, nofun⟩
  | recvHandler hpc hreturned =>
    refine ⟨nofun, ?_⟩
    intro hrunning
    rw [hreturned] at hrunning
    contradiction
  | recvChanDone => exact hleaves nofun (or_some_ne_none _ _)
  | timeout hpc hctx | recvHCtx hpc hctx =>
    have hended : s.hCtx ≠ none := by simp [hctx]
    exact hleaves nofun hended
  | settle hpc | timedOut hpc =>
    refine ⟨nofun, ?_⟩
    intro hrunning hnone
    have := h.running hrunning hnone
    simp [hpc] at this
  | begin => exact h.frame rfl rfl rfl (fun hidle => calls_none_setCall hidle (.inr nofun))
  | refused hcall | checked hcall | loses hcall | wins hcall | sends hcall =>
    exact h.frame rfl rfl rfl (fun hidle => calls_none_setCall hidle (.inl (by simp [hcall])))
  | close | channelClose => exact h.frame rfl rfl rfl id
  | ctxEnds e =>
    refine ⟨h.waiting, ?_⟩
    intro hrunning hnone
    by_cases hpc : s.pc = .decoding
    . have := (honce.decoding hpc).1
      simp [this] at hrunning
    . simp only [hpc, if_false] at hnone
      exact absurd hnone (or_some_ne_none _ _)
  | handlerTimeout => exact ⟨h.waiting, fun _ hnone => absurd hnone (or_some_ne_none _ _)⟩

theorem attending_of_run {as : List StepAction} {d : Delivery} {cs : CounterB.RedeliveryCounter}
    {chanDone : Bool} {ctx : Option CtxEnd}
    (hrun : Run.run (step c autoAck) (init d cs chanDone ctx) as = some s)
    : s.Once ∧ s.Attending := by
  refine Run.inv_of_steps (I := fun s => Once s ∧ Attending s) ?_
    ⟨once_init d cs chanDone ctx, attending_init d cs chanDone ctx⟩ hrun
  intro s a s' h hstep
  exact ⟨once_step h.1 hstep, attending_step h.1 h.2 hstep⟩

-- while `dispatch` waits for the handler, the handler does not return nil and its deadline does not pass
def quiet (c : Consumer) (s : Dispatching) : StepAction → Bool
  | .handlerReturns handlerErr => s.pc ≠ .waiting ∨ handlerErr ≠ none
  | .ctxEnds e => s.pc ≠ .waiting ∨ e ≠ .deadlineExceeded ∨ c.handlerTimeout = false
  | .handlerTimeout => s.pc ≠ .waiting
  | _ => true

structure Quiet (c : Consumer) (s : Dispatching) : Prop where
  chanDone : s.chanDone = true
  idle : s.calls none = .idle
  pc : s.pc = .waiting ∨ (∃ handlerErr, s.pc = .received handlerErr ∧ handlerErr ≠ none) ∨
    s.pc = .draining ∨ s.pc = .finished
  returned : s.pc = .waiting → s.handler ≠ .returned none
  deadline : s.pc = .waiting → c.handlerTimeout = true → s.hCtx ≠ some .deadlineExceeded

theorem Quiet.ne_decoding (h : s.Quiet c) : s.pc ≠ .decoding := by
  rcases h.pc with hpc | ⟨_, hpc, _⟩ | hpc | hpc <;> simp [hpc]

theorem Quiet.leaves (h : s.Quiet c) {pc : Pc} {hCtx : Option CtxEnd}
    (hpc : (∃ handlerErr, pc = .received handlerErr ∧ handlerErr ≠ none) ∨ pc = .draining ∨
      pc = .finished)
    : Quiet c { s with pc, hCtx } := by
  have hne : pc ≠ .waiting := by
    rcases hpc with ⟨_, hpc, _⟩ | hpc | hpc <;> simp [hpc]
  exact ⟨h.chanDone, h.idle, .inr hpc, fun hpc => absurd hpc hne, fun hpc => absurd hpc hne⟩

theorem Quiet.frame (h : s.Quiet c) (hpc : t.pc = s.pc) (hhandler : t.handler = s.handler)
    (hctx : t.hCtx = s.hCtx) (hchan : t.chanDone = true) (hidle : t.calls none = .idle)
    : t.Quiet c := by
  refine ⟨hchan, hidle, ?_, ?_, ?_⟩
  . rw [hpc]
    exact h.pc
  . rw [hpc, hhandler]
    exact h.returned
  . rw [hpc, hctx]
    exact h.deadline

theorem quiet_step (h : s.Quiet c) (hquiet : quiet c s a = true)
    (hstep : s.step c autoAck a = some s') : s'.Quiet c := by
  cases step_move hstep with
  | rawNack hpc | drop hpc | callHandler hpc => exact absurd hpc h.ne_decoding
  | handlerReturns handlerErr =>
    refine ⟨h.chanDone, h.idle, h.pc, ?_, h.deadline⟩
    intro hpc heq
    have hne : s.pc ≠ .waiting ∨ handlerErr ≠ none := of_decide_eq_true hquiet
    exact hne.elim (fun hne => hne hpc) (fun hne => hne (HandlerPhase.returned.inj heq))
  | recvHandler hpc hreturned =>
    refine h.leaves (.inl ⟨_, rfl, ?_⟩)
    intro hnone
    exact h.returned hpc (hnone ▸ hreturned)
  | recvChanDone | recvHCtx | timedOut => exact h.leaves (.inr (.inl rfl))
  | timeout hpc hctx _ hselect => exact absurd hctx (h.deadline hpc hselect)
  | aborted | unsettled | settled | drained => exact h.leaves (.inr (.inr rfl))
  | settle hpc _ _ _ hchan =>
    rcases h.pc with hpc' | ⟨_, hpc', herr⟩ | hpc' | hpc'
    . simp [hpc] at hpc'
    . rw [hpc, Pc.received.injEq] at hpc'
      exact absurd ⟨h.chanDone, hpc' ▸ herr⟩ hchan
    all_goals simp [hpc] at hpc'
  | begin => exact h.frame rfl rfl rfl h.chanDone (calls_none_setCall h.idle (.inr nofun))
  | refused hcall | checked hcall | loses hcall | wins hcall | sends hcall =>
    exact h.frame rfl rfl rfl h.chanDone (calls_none_setCall h.idle (.inl (by simp [hcall])))
  | close => exact h.frame rfl rfl rfl h.chanDone h.idle
  | channelClose => exact h.frame rfl rfl rfl rfl h.idle
  | ctxEnds e =>
    refine ⟨h.chanDone, h.idle, h.pc, h.returned, ?_⟩
    intro hpc hselect heq
    have hne : s.pc ≠ .waiting ∨ e ≠ .deadlineExceeded ∨ c.handlerTimeout = false :=
      of_decide_eq_true hquiet
    simp only [h.ne_decoding, if_false] at heq
    rcases hne with hne | hne | hne
    . exact hne hpc
    . cases hctx : s.hCtx with
      | none =>
        rw [hctx] at heq
        exact hne (Option.some.inj heq)
      | some e' =>
        rw [hctx] at heq
        exact h.deadline hpc hselect (hctx.trans heq)
    . simp [hselect] at hne
  | handlerTimeout =>
    refine ⟨h.chanDone, h.idle, h.pc, h.returned, ?_⟩
    intro hpc
    exact absurd hpc (of_decide_eq_true hquiet)

-- while `dispatch` is in its `select`, the handler runs and its context has no other end than the close
def prompt (s : Dispatching) : StepAction → Bool
  | .handlerReturns _ => s.pc ≠ .waiting
  | .ctxEnds _ => s.pc ≠ .waiting
  | .handlerTimeout => s.pc ≠ .waiting
  | _ => true

theorem quiet_of_prompt (h : prompt s a = true) : quiet c s a = true := by
  cases a with
  | handlerReturns | ctxEnds => exact decide_eq_true (.inl (of_decide_eq_true h))
  | handlerTimeout => exact h
  | _ => rfl

inductive Aborts (s : Dispatching) : Prop where
  | pending (hpc : s.pc = .waiting) (hhandler : s.handler = .running) (hctx : s.hCtx = none)
  | cancelled (hpc : s.pc = .draining ∨ s.pc = .finished) (hcalled : s.handler ≠ .notCalled)
    (hctx : s.hCtx = some .channelClosed)

theorem Aborts.frame (h : s.Aborts) (hpc : t.pc = s.pc) (hhandler : t.handler = s.handler)
    (hctx : t.hCtx = s.hCtx) : t.Aborts := by
  cases h with
  | pending hpc' hhandler' hctx' =>
    exact .pending (hpc.trans hpc') (hhandler.trans hhandler') (hctx.trans hctx')
  | cancelled hpc' hcalled hctx' =>
    exact .cancelled (hpc ▸ hpc') (hhandler ▸ hcalled) (hctx.trans hctx')

theorem Aborts.ctxEnds (h : s.Aborts) (hprompt : s.pc ≠ .waiting) (e : CtxEnd) (hpc : t.pc = s.pc)
    (hhandler : t.handler = s.handler) (hctx : t.hCtx = s.hCtx.or (some e)) : t.Aborts := by
  cases h with
  | pending hpc' => exact absurd hpc' hprompt
  | cancelled hpc' hcalled hctx' =>
    refine .cancelled (hpc ▸ hpc') (hhandler ▸ hcalled) ?_
    rw [hctx, hctx']
    rfl

theorem Aborts.ne {pc : Pc} (h : s.Aborts) (hpc : s.pc = pc)
    (hne : pc ≠ .waiting ∧ pc ≠ .draining ∧ pc ≠ .finished) : False := by
  cases h with
  | pending hpc' => exact hne.1 (hpc.symm.trans hpc')
  | cancelled hpc' =>
    cases hpc' with
    | inl hdraining => exact hne.2.1 (hpc.symm.trans hdraining)
    | inr hfinished => exact hne.2.2 (hpc.symm.trans hfinished)

theorem aborts_step (h : s.Aborts) (hprompt : prompt s a = true)
    (hstep : s.step c autoAck a = some s') : s'.Aborts := by
  cases step_move hstep with
  | rawNack hpc | drop hpc | callHandler hpc | aborted hpc | unsettled hpc | settle hpc | settled hpc
  | timedOut hpc => exact (h.ne hpc (by simp)).elim
  | handlerReturns =>
    cases h with
    | pending hpc => exact absurd hpc (of_decide_eq_true hprompt)
    | cancelled hpc _ hctx => exact .cancelled hpc nofun hctx
  | recvHandler hpc hreturned =>
    cases h with
    | pending _ hrunning => simp [hrunning] at hreturned
    | cancelled hpc' => simp [hpc] at hpc'
  | recvChanDone hpc =>
    cases h with
    | pending _ hrunning hctx =>
      exact .cancelled (.inl rfl) (by simp [hrunning]) (by rw [hctx]; rfl)
    | cancelled hpc' => simp [hpc] at hpc'
  | timeout hpc hctx | recvHCtx hpc hctx =>
    cases h with
    | pending _ _ hnone => simp [hnone] at hctx
    | cancelled hpc' => simp [hpc] at hpc'
  | drained hpc =>
    cases h with
    | pending hpc' => simp [hpc] at hpc'
    | cancelled _ hcalled hctx => exact .cancelled (.inr rfl) hcalled (by simp [finish, hctx])
  | begin | refused | checked | loses | wins | sends | close | channelClose =>
    exact h.frame rfl rfl rfl
  | ctxEnds e =>
    have hne : s.pc ≠ .waiting := of_decide_eq_true hprompt
    refine h.ctxEnds hne e rfl rfl (if_neg ?_)
    intro hpc
    exact (h.ne hpc (by simp)).elim
  | handlerTimeout => exact h.ctxEnds (of_decide_eq_true hprompt) .deadlineExceeded rfl rfl rfl

theorem recvChanDone_of_waiting (htimeout : c.handlerTimeout = true) (hpc : s.pc = .waiting)
    (hchan : s.chanDone = true)
    : s.step c autoAck .recvChanDone =
        some { s with pc := .draining, hCtx := s.hCtx.or (some .channelClosed) } := by
  simp [step, hpc, htimeout, hchan]

/--
If the channel closes while the handler runs and `dispatch` sees that before anything else, the
context of the handler is cancelled with `ErrChannelClosed`, and `dispatch` has no verdict of its
own.
-/
theorem aborted_of_run {d : Delivery} {cs : CounterB.RedeliveryCounter} {chanDone : Bool}
    {ctx : Option CtxEnd} {as bs : List StepAction}
    (hreach : Run.run (step c autoAck) (init d cs chanDone ctx) as = some s)
    (hrunning : s.handler = .running) (hchan : s.chanDone = true) (hlive : s.hCtx = none)
    (hrun : Run.run (step c autoAck) s bs = some t)
    : (Run.Along (step c autoAck) (fun s a => quiet c s a = true) s bs → t.calls none = .idle) ∧
        (c.handlerTimeout = true → Run.Along (step c autoAck) (fun s a => prompt s a = true) s bs →
          t.calls none = .idle ∧
          ((t.handler = .running ∧
              ∃ u, t.step c autoAck .recvChanDone = some u ∧ u.handler = .running ∧
                u.hCtx = some .channelClosed) ∨
            (t.hCtx = some .channelClosed ∧ (t.handler = .running ∨ t.Finishes c autoAck)))) := by
  have ⟨honce, hattending⟩ := attending_of_run hreach
  have hpc := hattending.running hrunning hlive
  have hquiet : s.Quiet c := by
    refine ⟨hchan, hattending.waiting hpc, .inl hpc, ?_, ?_⟩
    . rw [hrunning]
      nofun
    . rw [hlive]
      nofun
  refine ⟨fun halong => (Run.inv_of_run (fun _ _ _ => quiet_step) hquiet halong hrun).idle, ?_⟩
  intro htimeout halong
  have ht : t.Quiet c :=
    Run.inv_of_run (fun _ _ _ h ha => quiet_step h (quiet_of_prompt ha)) hquiet halong hrun
  have haborts : t.Aborts :=
    Run.inv_of_run (fun _ _ _ => aborts_step) (.pending hpc hrunning hlive) halong hrun
  refine ⟨ht.idle, ?_⟩
  cases haborts with
  | pending hpc hhandler hctx =>
    refine .inl ⟨hhandler, _, recvChanDone_of_waiting htimeout hpc ht.chanDone, hhandler, ?_⟩
    rw [hctx]
    rfl
  | cancelled _ hcalled hctx =>
    refine .inr ⟨hctx, ?_⟩
    cases hhandler : t.handler with
    | running => exact .inl rfl
    | returned handlerErr =>
      have hwhole : Run.run (step c autoAck) (init d cs chanDone ctx) (as ++ bs) = some t := by
        rw [Run.run_append, hreach]
        exact hrun
      exact .inr (finishes_of_run hwhole hhandler)
    | notCalled => exact absurd hhandler hcalled

def abortedRun : List StepAction := [.recvChanDone, .handlerReturns none]

def selectingConsumer : Consumer where
  tag := [7]
  maxRedeliveries := 0
  counterBDisabled := false
  brokerAutoAck := false
  handlerTimeout := true
  timeoutVerdict := .nackRequeue

def inlineConsumer : Consumer := { selectingConsumer with handlerTimeout := false }

def closedWhileRunning : Dispatching :=
  { init ⟨[1], 1, true, 0, false, false⟩ .new true none with handler := .running, pc := .waiting }

theorem aborted_of_run_abortedRun
    : ∃ t, Run.run (step selectingConsumer true) closedWhileRunning abortedRun = some t ∧
        t.hCtx = some .channelClosed ∧ t.handler = .returned none ∧ t.calls none = .idle := by
  have hreach : Run.run (step selectingConsumer true)
      (init ⟨[1], 1, true, 0, false, false⟩ .new false none) [.decode, .channelClose] =
        some closedWhileRunning := rfl
  have ⟨t, hrun, ht⟩ := Option.map_eq_some_iff.mp (by decide :
    (Run.run (step selectingConsumer true) closedWhileRunning abortedRun).map
      (fun t => (t.hCtx, t.handler)) = some (some .channelClosed, .returned none))
  simp only [Prod.mk.injEq] at ht
  have halong : Run.Along (step selectingConsumer true) (fun s a => prompt s a = true)
      closedWhileRunning abortedRun := by decide
  exact ⟨t, hrun, ht.1, ht.2, ((aborted_of_run hreach rfl rfl rfl hrun).2 rfl halong).1⟩

def dispatchSteps : List StepAction :=
  [.decode, .recvHandler, .recvChanDone, .recvHCtx, .checkChan, .settled, .drained,
    .call none .check, .call none .swap, .call none .send]

def ackRun : List StepAction :=
  [.handlerReturns none, .recvHandler, .checkChan, .call none .check, .call none .swap,
    .call none .send, .settled]

theorem acked_after_close
    : Run.run (step inlineConsumer true) (init ⟨[1], 1, true, 0, false, false⟩ .new false none)
          [.decode, .channelClose] = some closedWhileRunning ∧
        closedWhileRunning.hCtx = none ∧
        (∀ a ∈ dispatchSteps, (closedWhileRunning.step inlineConsumer true a).isNone = true) ∧
        (Run.run (step inlineConsumer true) closedWhileRunning ackRun).map
          (fun t => (t.pc, t.frames)) = some (.finished, [.ack]) ∧
        (Run.run (step selectingConsumer true) closedWhileRunning ackRun).map
          (fun t => (t.pc, t.frames)) = some (.finished, [.ack]) := by
  refine ⟨rfl, rfl, ?_, ?_, ?_⟩
  all_goals decide

end Dispatching
end Dispatch
