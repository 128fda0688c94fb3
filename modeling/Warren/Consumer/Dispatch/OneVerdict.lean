import Warren.Consumer.Dispatch.BigStep

/-!
How many frames are sent for one delivery: whoever swaps `resolved` is the only one to send.
-/

namespace Dispatch

open Option
namespace Dispatching

variable {c : Consumer} {autoAck : Bool} {s s' : Dispatching} {a : StepAction}

structure Once (s : Dispatching) : Prop where
  decoding : s.pc = .decoding →
    s.handler = .notCalled ∧ s.frames = [] ∧ s.delivery.resolved = false
  uncalled : s.handler = .notCalled →
    (s.pc = .decoding ∨ s.pc = .finished) ∧ ∀ t, s.calls t = .idle
  unresolved : s.handler ≠ .notCalled → s.delivery.resolved = false →
    s.frames = [] ∧ ∀ t v, s.calls t ≠ .sending v
  sender : ∀ t v, s.calls t = .sending v → s.frames = []
  unique : ∀ t u v w, s.calls t = .sending v → s.calls u = .sending w → t = u
  atMost : s.frames.length ≤ 1

theorem once_init (d : Delivery) (cs : CounterB.RedeliveryCounter) (chanDone : Bool)
    (ctx : Option CtxEnd) : (init d cs chanDone ctx).Once := by
  constructor <;> simp [init]

theorem Once.frame (h : s.Once) (hcalls : s'.calls = s.calls) (hframes : s'.frames = s.frames)
    (hresolved : s'.delivery.resolved = s.delivery.resolved)
    (hhandler : s'.handler = .notCalled ↔ s.handler = .notCalled)
    (hpc : s'.pc = .decoding → s.pc = .decoding)
    (hpc' : s.handler = .notCalled → s'.pc = .decoding ∨ s'.pc = .finished) : s'.Once := by
  constructor
  . rw [hhandler, hframes, hresolved]
    exact fun h' => h.decoding (hpc h')
  . rw [hhandler, hcalls]
    exact fun h' => ⟨hpc' h', (h.uncalled h').2⟩
  . rw [Ne, hhandler, hframes, hresolved, hcalls]
    exact h.unresolved
  . rw [hcalls, hframes]
    exact h.sender
  . rw [hcalls]
    exact h.unique
  . rw [hframes]
    exact h.atMost

theorem Once.called (h : s.Once) (hpc : s.pc ≠ .decoding) (hpc' : s.pc ≠ .finished)
    : s.handler ≠ .notCalled := by
  intro hcalled
  exact (h.uncalled hcalled).1.elim hpc hpc'

variable {d : Delivery} {cs : CounterB.RedeliveryCounter} {t : Option Nat} {handlerErr : Option Err}

theorem Once.called_of_call (h : s.Once) {call : VerdictCall} (hcall : s.calls t = call)
    (hidle : call ≠ .idle) : s.handler ≠ .notCalled :=
  fun hcalled => hidle (hcall.symm.trans ((h.uncalled hcalled).2 t))

theorem calls_setCall (s : Dispatching) (t u : Option Nat) (call : VerdictCall)
    : (s.setCall t call).calls u = if u = t then call else s.calls u := by
  simp [setCall, Function.update_apply]

theorem Once.setCall (h : s.Once) {call : VerdictCall} (hcalled : s.handler ≠ .notCalled)
    (hcall : ∀ v, call ≠ .sending v) : (s.setCall t call).Once := by
  have sending {u : Option Nat} {v : Verdict} (hu : (s.setCall t call).calls u = .sending v)
      : s.calls u = .sending v := by
    rw [calls_setCall] at hu
    split at hu
    . exact absurd hu (hcall v)
    . exact hu
  constructor
  . exact h.decoding
  . intro hnot
    exact absurd hnot hcalled
  . intro _ hresolved
    have ⟨hframes, hnone⟩ := h.unresolved hcalled hresolved
    exact ⟨hframes, fun u v hu => hnone u v (sending hu)⟩
  . intro u v hu
    exact h.sender u v (sending hu)
  . intro u u' v w hu hu'
    exact h.unique u u' v w (sending hu) (sending hu')
  . exact h.atMost

theorem Once.wins (h : s.Once) {v : Verdict} (hcall : s.calls t = .swapping v)
    (hresolved : s.delivery.resolved = false)
    : Once { s.setCall t (.sending v) with delivery := { s.delivery with resolved := true } } := by
  have hcalled := h.called_of_call hcall (by simp)
  have ⟨hframes, hnone⟩ := h.unresolved hcalled hresolved
  have only {u : Option Nat} {w : Verdict} (hu : (s.setCall t (.sending v)).calls u = .sending w)
      : u = t := by
    rw [calls_setCall] at hu
    split at hu
    . assumption
    . exact absurd hu (hnone u w)
  constructor
  . intro hpc
    exact absurd (h.decoding hpc).1 hcalled
  . intro hnot
    exact absurd hnot hcalled
  . intro _ hfalse
    contradiction
  . intro u w hu
    exact hframes
  . intro u u' w w' hu hu'
    rw [only hu, only hu']
  . exact h.atMost

theorem Once.sends (h : s.Once) {v : Verdict} (hcall : s.calls t = .sending v)
    : Once { s.setCall t .returned with frames := s.frames ++ [v] } := by
  have hcalled := h.called_of_call hcall (by simp)
  have hframes := h.sender t v hcall
  have none {u : Option Nat} {w : Verdict} : (s.setCall t .returned).calls u ≠ .sending w := by
    rw [calls_setCall]
    split
    . simp
    . next hu => exact fun hu' => hu (h.unique u t w v hu' hcall)
  constructor
  . intro hpc
    exact absurd (h.decoding hpc).1 hcalled
  . intro hnot
    exact absurd hnot hcalled
  . intro _ hresolved
    exact absurd hcall ((h.unresolved hcalled hresolved).2 t v)
  . intro u w hu
    exact absurd hu none
  . intro u u' w w' hu
    exact absurd hu none
  . simp [hframes]

theorem Once.decode (h : s.Once) (hpc : s.pc = .decoding) {frames : List Verdict}
    (hframes : frames.length ≤ 1) {hCtx : Option CtxEnd}
    : Once { s with pc := .finished, hCtx, frames } := by
  grind [Once]

theorem once_step (h : s.Once) (hstep : s.step c autoAck a = some s') : s'.Once := by
  have hnext (hpc : s.pc ≠ .decoding) (hpc' : s.pc ≠ .finished) (s'' : Dispatching)
      (hcalls : s''.calls = s.calls) (hframes : s''.frames = s.frames)
      (hdelivery : s''.delivery = s.delivery) (hhandler : s''.handler = s.handler)
      (hnot : s''.pc ≠ .decoding) : s''.Once :=
    h.frame hcalls hframes (by rw [hdelivery]) (by rw [hhandler]) (fun h => absurd h hnot)
      (fun h' => absurd h' (h.called hpc hpc'))
  cases step_move hstep with
  | rawNack hpc =>
    have hlength : (s.frames ++ [Verdict.nack false]).length ≤ 1 := by simp [(h.decoding hpc).2.1]
    exact h.decode hpc hlength
  | drop hpc => exact h.decode hpc h.atMost
  | callHandler hpc =>
    have ⟨hcalled, hframes, hresolved⟩ := h.decoding hpc
    have hidle := (h.uncalled hcalled).2
    constructor <;> simp [hframes, hidle]
  | handlerReturns handlerErr hrunning =>
    have hcalled : s.handler ≠ .notCalled := by simp [hrunning]
    exact h.frame rfl rfl rfl (by simp [hrunning]) id (fun h' => absurd h' hcalled)
  | recvHandler hpc | recvChanDone hpc | recvHCtx hpc | aborted hpc | unsettled hpc | settled hpc
  | timedOut hpc | drained hpc =>
    exact hnext (by simp [hpc]) (by simp [hpc]) _ rfl rfl rfl rfl nofun
  | timeout hpc | settle hpc =>
    have hcalled := h.called (by simp [hpc]) (by simp [hpc])
    exact (h.setCall hcalled (by simp)).frame rfl rfl rfl Iff.rfl nofun (fun h' => absurd h' hcalled)
  | begin i v hraw hcalled => exact h.setCall hcalled (by simp)
  | refused hcall | loses hcall | checked hcall =>
    exact h.setCall (h.called_of_call hcall (by simp)) (by simp)
  | wins hcall hresolved => exact h.wins hcall hresolved
  | sends hcall => exact h.sends hcall
  | close | channelClose | ctxEnds | handlerTimeout =>
    exact h.frame rfl rfl rfl Iff.rfl id (fun h' => (h.uncalled h').1)

def Silences (c : Consumer) : Handling → Prop
  | .returned _ channelClosed => channelClosed = true
  | .chanDone => True
  | .ctxDone => c.handlerTimeout = true
  | .deadline => False

theorem verdict_of_handle (hauto : c.brokerAutoAck = false) {cs' : CounterB.RedeliveryCounter}
    {handling : Handling} {v : Option Verdict} (hresolved : d.resolved = false)
    (h : c.handle cs d true handling = some (cs', v))
    : v.isSome = true ∨ d.done = true ∨ Silences c handling := by
  cases handling with
  | chanDone => exact .inr (.inr trivial)
  | ctxDone =>
    simp only [Consumer.handle] at h
    split at h
    . next htimeout => exact .inr (.inr htimeout)
    . contradiction
  | deadline =>
    simp only [Consumer.handle] at h
    split at h
    . simp only [Consumer.timeout, hauto, Delivery.nackOnTimeout, hresolved, some.injEq,
        Prod.mk.injEq, Bool.false_eq_true, if_false] at h
      exact .inl (by simp [← h.2])
    . contradiction
  | returned handlerErr channelClosed =>
    simp only [Consumer.handle] at h
    split at h
    . next hclosed => exact .inr (.inr hclosed.1)
    . simp only [Consumer.settleVerdict, hauto, some.injEq, Prod.mk.injEq,
        Bool.false_eq_true, if_false, if_true] at h
      cases hdone : d.done with
      | true => exact .inr (.inl rfl)
      | false =>
        rw [ackIf_eq_verdictOf hresolved, hdone] at h
        exact .inl (by simp [← h.2])

-- the deliveries that never reach the handler are nacked
theorem verdict_of_dispatch (hauto : c.brokerAutoAck = false) {cs' : CounterB.RedeliveryCounter}
    {handling : Handling} {v : Option Verdict} (hresolved : d.resolved = false)
    (h : c.dispatch cs d true handling = some (cs', v))
    : v.isSome = true ∨ Handled c d ∧ (d.done = true ∨ Silences c handling) := by
  unfold Consumer.dispatch at h
  grind [verdict_of_handle, Handled]

def Called (c : Consumer) (s : Dispatching) : Prop :=
  s.pc ≠ .decoding → Handled c s.delivery → s.handler ≠ .notCalled

theorem called_step (hauto : c.brokerAutoAck = false) (h : s.Called c)
    (hstep : s.step c autoAck a = some s') : s'.Called c := by
  cases step_move hstep with
  | rawNack hpc _ hdecodes =>
    intro _ hhandled
    exact absurd ⟨by simp [hauto], hdecodes hhandled.1⟩ hhandled.2
  | drop hpc hauto' => simp [hauto] at hauto'
  | callHandler | handlerReturns => exact fun _ _ => nofun
  | recvHandler hpc | recvChanDone hpc | timeout hpc | recvHCtx hpc | aborted hpc | unsettled hpc
  | settle hpc | settled hpc | timedOut hpc | drained hpc => exact fun _ => h (by simp [hpc])
  | _ => exact h

theorem accounted_of_outcome (hauto : c.brokerAutoAck = false) (h : Outcome c d cs s)
    : s.frames.length = 1 ∨ Handled c d ∧
        (s.chanDone = true ∨ s.delivery.done = true ∨
          c.handlerTimeout = true ∧ s.ctxEnded = true) := by
  have ⟨done, v, hframes, hdone, handling, htold, hdispatch⟩ := h
  cases verdict_of_dispatch hauto rfl hdispatch with
  | inl hv =>
    have ⟨v, hv⟩ := isSome_iff_exists.mp hv
    exact .inl (by simp [hframes, hv])
  | inr h =>
    refine .inr ⟨h.1, ?_⟩
    cases h.2 with
    | inl h => exact .inr (.inl (hdone h))
    | inr h =>
      cases handling with
      | returned _ channelClosed => exact .inl (htold h)
      | chanDone => exact .inl htold
      | deadline => contradiction
      | ctxDone => exact .inr (.inr ⟨h, htold⟩)

variable {as : List StepAction} {chanDone : Bool} {ctx : Option CtxEnd}

theorem accounted_of_run (hauto : c.brokerAutoAck = false)
    (hrun : Run.run (step c true) (init d cs chanDone ctx) as = some s) (hpc : s.pc = .finished)
    : s.frames.length = 1 ∨ s.handler ≠ .notCalled ∧
        (s.chanDone = true ∨ s.delivery.done = true ∨
          c.handlerTimeout = true ∧ s.ctxEnded = true) := by
  have ⟨hfollows, houtcome⟩ := outcome_of_run hrun hpc
  have hcalled : s.Called c :=
    Run.inv_of_steps (fun _ _ _ => called_step hauto) (fun hpc => absurd rfl hpc) hrun
  refine (accounted_of_outcome hauto houtcome).imp_right (And.imp_left ?_)
  intro hhandled
  have ⟨done, resolved, hd⟩ := hfollows.delivery
  apply hcalled (by simp [hpc])
  rw [hd]
  exact hhandled

def Silent (s : Dispatching) : Prop :=
  s.frames = [] ∧ ∀ t, s.calls t = .idle

theorem silent_step (hauto : c.brokerAutoAck = true) (ha : ∀ i v, a ≠ .begin i v) (h : s.Silent)
    (hstep : s.step c autoAck a = some s') : s'.Silent := by
  cases step_move hstep with
  | rawNack _ hauto' | timeout _ _ hauto' | settle _ hauto' => simp [hauto] at hauto'
  | begin i v => exact absurd rfl (ha i v)
  | refused hcall | checked hcall | loses hcall | wins hcall | sends hcall =>
    simp [h.2] at hcall
  | _ => exact h

def StepAction.own : StepAction → Bool
  | .decode | .recvHandler | .checkChan | .settled | .drained | .call none _ => true
  | _ => false

def Finishes (c : Consumer) (autoAck : Bool) (s : Dispatching) : Prop :=
  ∃ bs s', (∀ b ∈ bs, StepAction.own b = true) ∧ Run.run (step c autoAck) s bs = some s' ∧
    s'.pc = .finished

theorem Finishes.of_step (ha : StepAction.own a = true) (hstep : s.step c autoAck a = some s')
    (h : Finishes c autoAck s') : Finishes c autoAck s := by
  have ⟨bs, t, hbs, hrun, hpc⟩ := h
  refine ⟨a :: bs, t, ?_, ?_, hpc⟩
  . simpa [ha] using hbs
  . rw [Run.run_cons_of_step _ hstep]
    exact hrun

theorem finishes_of_finished (hpc : s.pc = .finished) : Finishes c autoAck s :=
  ⟨[], s, by simp, rfl, hpc⟩

theorem finishes_of_draining (hhandler : s.handler = .returned handlerErr) (hpc : s.pc = .draining)
    : Finishes c autoAck s := by
  have hstep : s.step c autoAck .drained = some s.finish := by simp [step, hpc, hhandler]
  exact .of_step rfl hstep (finishes_of_finished rfl)

theorem finishes_of_returned (hhandler : s.handler = .returned handlerErr)
    (hpc : s.pc = .settling ∨ s.pc = .timingOut) (hcall : s.calls none = .returned)
    : Finishes c autoAck s := by
  cases hpc with
  | inl hpc =>
    have hstep : s.step c autoAck .settled = some s.finish := by simp [step, hpc, hcall]
    exact .of_step rfl hstep (finishes_of_finished rfl)
  | inr hpc =>
    have hstep : s.step c autoAck .settled = some { s with pc := .draining } := by
      simp [step, hpc, hcall]
    exact .of_step rfl hstep (finishes_of_draining hhandler rfl)

theorem finishes_of_call (hhandler : s.handler = .returned handlerErr)
    (hpc : s.pc = .settling ∨ s.pc = .timingOut) (hcall : s.calls none ≠ .idle)
    : Finishes c autoAck s := by
  have hsending (s : Dispatching) (hhandler : s.handler = .returned handlerErr)
      (hpc : s.pc = .settling ∨ s.pc = .timingOut) {v : Verdict} (hcall : s.calls none = .sending v)
      : Finishes c autoAck s := by
    have hstep : s.step c autoAck (.call none .send) =
        some { s.setCall none .returned with frames := s.frames ++ [v] } := by
      simp [step, callStep, hcall]
    exact .of_step rfl hstep (finishes_of_returned hhandler hpc (by simp [setCall]))
  have hswapping (s : Dispatching) (hhandler : s.handler = .returned handlerErr)
      (hpc : s.pc = .settling ∨ s.pc = .timingOut) {v : Verdict} (hcall : s.calls none = .swapping v)
      : Finishes c autoAck s := by
    cases hresolved : s.delivery.resolved with
    | true =>
      have hstep : s.step c autoAck (.call none .swap) = some (s.setCall none .returned) := by
        simp [step, callStep, hcall, hresolved]
      exact .of_step rfl hstep (finishes_of_returned hhandler hpc (by simp [setCall]))
    | false =>
      have hstep : s.step c autoAck (.call none .swap) = some { s.setCall none (.sending v) with
          delivery := { s.delivery with resolved := true } } := by
        simp [step, callStep, hcall, hresolved]
      exact .of_step rfl hstep (hsending _ hhandler hpc (by rw [calls_setCall, if_pos rfl]))
  cases hphase : s.calls none with
  | idle => exact absurd hphase hcall
  | returned => exact finishes_of_returned hhandler hpc hphase
  | sending v => exact hsending s hhandler hpc hphase
  | swapping v => exact hswapping s hhandler hpc hphase
  | checking v =>
    cases hdone : s.delivery.done with
    | true =>
      have hstep : s.step c autoAck (.call none .check) = some (s.setCall none .returned) := by
        simp [step, callStep, hphase, hdone]
      exact .of_step rfl hstep (finishes_of_returned hhandler hpc (by simp [setCall]))
    | false =>
      have hstep : s.step c autoAck (.call none .check) = some (s.setCall none (.swapping v)) := by
        simp [step, callStep, hphase, hdone]
      exact .of_step rfl hstep (hswapping _ hhandler hpc (by rw [calls_setCall, if_pos rfl]))

theorem finishes_of_received {handlerErr' : Option Err}
    (hhandler : s.handler = .returned handlerErr) (hpc : s.pc = .received handlerErr')
    : Finishes c autoAck s := by
  by_cases hchan : s.chanDone ∧ handlerErr' ≠ none
  . have hstep : s.step c autoAck .checkChan = some s.finish := by simp [step, hpc, hchan]
    exact .of_step rfl hstep (finishes_of_finished rfl)
  . have hstep : s.step c autoAck .checkChan = some (s.settleVerdict c autoAck handlerErr') := by
      simp only [step, hpc, hchan, if_false]
    apply Finishes.of_step rfl hstep
    unfold settleVerdict
    split
    . exact finishes_of_finished rfl
    . split
      . exact finishes_of_call hhandler (.inl rfl) (by simp [setCall])
      . exact finishes_of_finished rfl

def Calls (s : Dispatching) : Prop :=
  s.pc = .settling ∨ s.pc = .timingOut → s.calls none ≠ .idle

theorem calls_step (h : s.Calls) (hstep : s.step c autoAck a = some s') : s'.Calls := by
  have hset {t : Option Nat} {call : VerdictCall} (hcall : call ≠ .idle) (h : s.calls none ≠ .idle)
      : (s.setCall t call).calls none ≠ .idle := by
    rw [calls_setCall]
    split
    . exact hcall
    . exact h
  cases step_move hstep with
  | rawNack | drop | callHandler | recvHandler | recvChanDone | recvHCtx | aborted | unsettled
  | settled | timedOut | drained => simp [Calls, finish]
  | timeout | settle => simp [Calls, setCall]
  | begin | refused | checked | loses | wins | sends => exact fun hpc => hset (by simp) (h hpc)
  | handlerReturns | close | channelClose | ctxEnds | handlerTimeout => exact h

theorem finishes_of_run (hrun : Run.run (step c autoAck) (init d cs chanDone ctx) as = some s)
    (hhandler : s.handler = .returned handlerErr) : Finishes c autoAck s := by
  have hcalls : s.Calls :=
    Run.inv_of_steps (fun _ _ _ => calls_step) (by simp [Calls, init]) hrun
  have honce : s.Once :=
    Run.inv_of_steps (fun _ _ _ => once_step) (once_init d cs chanDone ctx) hrun
  cases hpc : s.pc with
  | decoding => simp [(honce.decoding hpc).1] at hhandler
  | waiting =>
    have hstep : s.step c autoAck .recvHandler = some { s with pc := .received handlerErr } := by
      simp [step, hpc, hhandler]
    exact .of_step rfl hstep (finishes_of_received hhandler rfl)
  | received handlerErr' => exact finishes_of_received hhandler hpc
  | settling => exact finishes_of_call hhandler (.inl hpc) (hcalls (.inl hpc))
  | timingOut => exact finishes_of_call hhandler (.inr hpc) (hcalls (.inr hpc))
  | draining => exact finishes_of_draining hhandler hpc
  | finished => exact finishes_of_finished hpc

theorem silent_of_run (hrun : Run.run (step c autoAck) (init d cs chanDone ctx) as = some s)
    (hauto : c.brokerAutoAck = true) (has : ∀ i v, .begin i v ∉ as) : s.Silent := by
  have halong : Run.Along (step c autoAck) (fun _ a => ∀ i v, a ≠ .begin i v)
      (init d cs chanDone ctx) as := by
    apply Run.along_of_forall_mem
    rintro a ha _ i v rfl
    exact has i v ha
  exact Run.inv_of_run (fun _ _ _ h ha hstep => silent_step hauto ha h hstep) (by simp [Silent, init])
    halong hrun

end Dispatching

open Dispatching in
theorem oneVerdict_of_run (c : Consumer) (autoAck : Bool) (d : Delivery)
    (cs : CounterB.RedeliveryCounter) (chanDone : Bool) (ctx : Option CtxEnd) (as : List StepAction)
    (s : Dispatching)
    (hrun : Run.run (Dispatching.step c autoAck) (.init d cs chanDone ctx) as = some s)
    : s.frames.length ≤ 1 ∧
      (autoAck = true → c.brokerAutoAck = false → s.pc = .finished →
        s.frames.length = 1 ∨ s.handler ≠ .notCalled ∧
          (s.chanDone = true ∨ s.delivery.done = true ∨
            c.handlerTimeout = true ∧ s.ctxEnded = true)) ∧
      (c.brokerAutoAck = true → (∀ i v, .begin i v ∉ as) → s.frames = []) ∧
      (∀ handlerErr, s.handler = .returned handlerErr → s.Finishes c autoAck) := by
  have honce := Run.inv_of_steps (fun _ _ _ => once_step) (once_init d cs chanDone ctx) hrun
  refine ⟨honce.atMost, ?_, ?_, ?_⟩
  . intro hconsume hauto hpc
    subst hconsume
    exact accounted_of_run hauto hrun hpc
  . intro hauto has
    exact (silent_of_run hrun hauto has).1
  . intro handlerErr hhandler
    exact finishes_of_run hrun hhandler

def ackAtDeadlineRun : List StepAction :=
  [.decode, .begin 0 .ack, .call (some 0) .check, .handlerTimeout, .recvHCtx, .call none .swap,
    .call (some 0) .swap, .call none .send, .settled, .handlerReturns none, .drained]

def ackAtDeadlineConsumer : Consumer where
  tag := [7]
  maxRedeliveries := 3
  counterBDisabled := false
  brokerAutoAck := false
  handlerTimeout := true
  timeoutVerdict := .nackRequeue

theorem oneVerdict_of_run_ackAtDeadlineRun
    : ∃ s, Run.run (Dispatching.step ackAtDeadlineConsumer false)
          (.init ⟨[1], 1, true, 0, false, false⟩ .new false none) ackAtDeadlineRun = some s ∧
        s.frames = [.nack true] ∧ s.pc = .finished ∧ s.Finishes ackAtDeadlineConsumer false := by
  have ⟨s, hs, h⟩ := map_eq_some_iff.mp (by decide :
    (Run.run (Dispatching.step ackAtDeadlineConsumer false)
        (.init ⟨[1], 1, true, 0, false, false⟩ .new false none) ackAtDeadlineRun).map
      (fun s => (s.frames, s.pc, s.handler)) =
    some ([.nack true], .finished, .returned none))
  simp only [Prod.mk.injEq] at h
  have hrun := oneVerdict_of_run ackAtDeadlineConsumer false ⟨[1], 1, true, 0, false, false⟩ .new
    false none ackAtDeadlineRun s hs
  exact ⟨s, hs, h.1, h.2.1, hrun.2.2.2 none h.2.2⟩

/--
The context was done before the handler was called, and nothing else ended: `dispatch` takes the
`hCtx.Done` arm and sends nothing.
-/
theorem no_verdict_of_canceled_before
    : ∃ s, Run.run (Dispatching.step ackAtDeadlineConsumer true)
          (.init ⟨[1], 1, true, 0, false, false⟩ .new false (some .canceled))
          [.decode, .recvHCtx, .handlerReturns none, .drained] = some s ∧
        s.pc = .finished ∧ s.frames = [] ∧ s.chanDone = false ∧ s.delivery.done = false := by
  exact ⟨_, rfl, by decide, by decide, by decide, by decide⟩

end Dispatch
