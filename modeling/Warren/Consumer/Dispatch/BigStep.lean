import Warren.Consumer.Dispatch.Moves

/-!
A `dispatch` of `Consume` that has come to its end has done what `Consumer.dispatch` says in one
step.
-/

namespace Dispatch

open Function
namespace Dispatching

variable {c : Consumer} {d : Delivery} {cs : CounterB.RedeliveryCounter} {s s' : Dispatching}
  {a : StepAction} {done : Bool} {v : Option Verdict}

def Told (s : Dispatching) : Handling → Prop
  | .returned _ channelClosed => channelClosed = true → s.chanDone = true
  | .chanDone => s.chanDone = true
  | .deadline => True
  | .ctxDone => s.ctxEnded = true

def Decides (c : Consumer) (d : Delivery) (cs : CounterB.RedeliveryCounter) (s : Dispatching)
    (done : Bool) (v : Option Verdict) : Prop :=
  ∃ h, s.Told h ∧ c.dispatch cs { d with done, resolved := false } true h = some (s.cs, v)

def Outcome (c : Consumer) (d : Delivery) (cs : CounterB.RedeliveryCounter) (s : Dispatching)
    : Prop :=
  ∃ done v, s.frames = v.toList ∧ (done = true → s.delivery.done = true) ∧ Decides c d cs s done v

def Deciding (c : Consumer) (d : Delivery) (cs : CounterB.RedeliveryCounter) (s : Dispatching)
    : Prop :=
  match s.calls none with
  | .idle => False
  | .checking v =>
    s.frames = [] ∧ s.delivery.resolved = false ∧ Decides c d cs s true none ∧
      Decides c d cs s false (some v)
  | .swapping v => s.frames = [] ∧ s.delivery.resolved = false ∧ Decides c d cs s false (some v)
  | .sending v => s.frames = [] ∧ Decides c d cs s false (some v)
  | .returned => Outcome c d cs s

def Handled (c : Consumer) (d : Delivery) : Prop :=
  d.decodes = true ∧
    ¬(¬c.brokerAutoAck ∧ 0 < c.maxRedeliveries ∧ c.maxRedeliveries ≤ d.deathCount)

def Undecided (cs : CounterB.RedeliveryCounter) (s : Dispatching) : Prop :=
  s.calls none = .idle ∧ s.frames = [] ∧ s.delivery.resolved = false ∧ s.cs = cs

structure Follows (c : Consumer) (d : Delivery) (cs : CounterB.RedeliveryCounter) (s : Dispatching)
    : Prop where
  users : ∀ i, s.calls (some i) = .idle
  delivery : ∃ done resolved, s.delivery = { d with done, resolved }
  ctx : s.pc = .decoding → s.ctx.isSome → s.ctxEnded = true
  hCtx : s.pc = .waiting → ∀ e, s.hCtx = some e → e = .deadlineExceeded ∨ s.ctxEnded = true
  phase : match s.pc with
    | .decoding => s.Undecided cs
    | .waiting | .received _ => s.Undecided cs ∧ Handled c d
    | .settling | .timingOut => Deciding c d cs s
    | .draining | .finished =>
      (s.calls none = .idle ∨ s.calls none = .returned) ∧ Outcome c d cs s

theorem follows_init (c : Consumer) (d : Delivery) (cs : CounterB.RedeliveryCounter)
    (chanDone : Bool) (ctx : Option CtxEnd) : Follows c d cs (init d cs chanDone ctx) := by
  refine ⟨fun _ => rfl, ⟨d.done, false, rfl⟩, fun _ h => h, nofun, ?_⟩
  simp [init, Undecided]

theorem dispatch_of_handled (h : Handled c d) (done : Bool) (handling : Handling)
    : c.dispatch cs { d with done, resolved := false } true handling =
        c.handle cs { d with done, resolved := false } true handling := by
  simp only [Consumer.dispatch, h.1, if_true, if_neg h.2]

theorem dispatch_of_rawNack (hauto : c.brokerAutoAck = false)
    (hdecodes : d.decodes = true → 0 < c.maxRedeliveries ∧ c.maxRedeliveries ≤ d.deathCount)
    (done : Bool) (handling : Handling)
    : c.dispatch cs { d with done, resolved := false } true handling =
        some (cs, some (.nack false)) := by
  unfold Consumer.dispatch
  split
  . next h => rw [if_pos ⟨by simp [hauto], hdecodes h⟩]
  . simp [hauto]

theorem ackIf_eq_verdictOf (hresolved : d.resolved = false) (err : Option Err)
    : d.ackIf err = if d.done then none else some (verdictOf err) := by
  cases err <;> simp [Delivery.ackIf, Delivery.ack, Delivery.nack, Delivery.settle, verdictOf,
    hresolved]

theorem dispatch_of_settle (hauto : c.brokerAutoAck = false) (h : Handled c d)
    {handlerErr processedErr : Option Err} {cs' : CounterB.RedeliveryCounter}
    (hcounter : c.applyCounterB cs (c.counterBKey d true) handlerErr = (cs', processedErr))
    (done channelClosed : Bool) (hchan : ¬(channelClosed ∧ handlerErr ≠ none))
    : c.dispatch cs { d with done, resolved := false } true (.returned handlerErr channelClosed) =
        some (cs', if done then none else some (verdictOf processedErr)) := by
  have hkey : c.counterBKey { d with done, resolved := false } true = c.counterBKey d true := rfl
  rw [dispatch_of_handled h]
  simp only [Consumer.handle, if_neg hchan, Consumer.settleVerdict, hauto, Bool.false_eq_true,
    if_false, if_true, hkey, hcounter]
  rw [ackIf_eq_verdictOf rfl]

theorem Decides.mono (h : Decides c d cs s done v) (hcs : s'.cs = s.cs)
    (hchan : s.chanDone = true → s'.chanDone = true)
    (hctx : s.ctxEnded = true → s'.ctxEnded = true) : Decides c d cs s' done v := by
  have ⟨handling, htold, hdispatch⟩ := h
  refine ⟨handling, ?_, hcs ▸ hdispatch⟩
  cases handling with
  | returned _ channelClosed => exact fun hclosed => hchan (htold hclosed)
  | chanDone => exact hchan htold
  | deadline => trivial
  | ctxDone => exact hctx htold

theorem Outcome.mono (h : Outcome c d cs s) (hframes : s'.frames = s.frames) (hcs : s'.cs = s.cs)
    (hdone : s.delivery.done = true → s'.delivery.done = true)
    (hchan : s.chanDone = true → s'.chanDone = true)
    (hctx : s.ctxEnded = true → s'.ctxEnded = true) : Outcome c d cs s' := by
  have ⟨done, v, hv, hd, hdecides⟩ := h
  exact ⟨done, v, hframes.trans hv, fun h => hdone (hd h), hdecides.mono hcs hchan hctx⟩

theorem Follows.frame (h : Follows c d cs s) (hpc : s'.pc = s.pc) (hcalls : s'.calls = s.calls)
    (hframes : s'.frames = s.frames) (hcs : s'.cs = s.cs)
    (hresolved : s'.delivery.resolved = s.delivery.resolved)
    (hdelivery : ∃ done resolved, s'.delivery = { d with done, resolved })
    (hdone : s.delivery.done = true → s'.delivery.done = true)
    (hchan : s.chanDone = true → s'.chanDone = true)
    (hended : s.ctxEnded = true → s'.ctxEnded = true)
    (hctx : s.pc = .decoding → s'.ctx.isSome → s'.ctxEnded = true)
    (hhCtx : s.pc = .waiting → ∀ e, s'.hCtx = some e → e = .deadlineExceeded ∨ s'.ctxEnded = true)
    : Follows c d cs s' := by
  refine ⟨hcalls ▸ h.users, hdelivery, hpc ▸ hctx, hpc ▸ hhCtx, ?_⟩
  have hphase := h.phase
  have hdeciding (hold : Deciding c d cs s) : Deciding c d cs s' := by
    unfold Deciding at hold ⊢
    rw [hcalls, hframes, hresolved]
    split at hold
    . exact hold
    . have ⟨hnil, hres, hdone, hopen⟩ := hold
      exact ⟨hnil, hres, hdone.mono hcs hchan hended, hopen.mono hcs hchan hended⟩
    . exact ⟨hold.1, hold.2.1, hold.2.2.mono hcs hchan hended⟩
    . exact ⟨hold.1, hold.2.mono hcs hchan hended⟩
    . exact Outcome.mono hold hframes hcs hdone hchan hended
  have houtcome (hold : Outcome c d cs s) : Outcome c d cs s' :=
    hold.mono hframes hcs hdone hchan hended
  unfold Undecided at hphase ⊢
  rw [hpc, hcalls, hframes, hresolved, hcs]
  split at hphase
  . exact hphase
  . exact hphase
  . exact hphase
  . exact hdeciding hphase
  . exact hdeciding hphase
  all_goals exact hphase.imp_right houtcome

theorem Follows.deciding (h : Follows c d cs s) {t : Option Nat} {call : VerdictCall}
    (hcall : s.calls t = call) (hidle : call ≠ .idle) (hreturned : call ≠ .returned)
    : t = none ∧ (s.pc = .settling ∨ s.pc = .timingOut) ∧ Deciding c d cs s := by
  have ht : t = none := by
    cases t with
    | none => rfl
    | some i => exact absurd (hcall.symm.trans (h.users i)) hidle
  subst ht
  have hphase := h.phase
  refine ⟨rfl, ?_⟩
  unfold Undecided at hphase
  split at hphase
  all_goals simp_all

theorem Follows.setCall (h : Follows c d cs s) {call : VerdictCall}
    (hpc : s.pc = .settling ∨ s.pc = .timingOut) {frames : List Verdict} {delivery : Delivery}
    (hdelivery : ∃ done resolved, delivery = { d with done, resolved })
    (hdeciding : Deciding c d cs { s.setCall none call with frames, delivery })
    : Follows c d cs { s.setCall none call with frames, delivery } := by
  refine ⟨fun i => ?_, hdelivery, ?_, ?_, ?_⟩
  . simpa [Dispatching.setCall] using h.users i
  . intro hpc'
    cases hpc with
    | _ hpc => simp [Dispatching.setCall, hpc] at hpc'
  . intro hpc'
    cases hpc with
    | _ hpc => simp [Dispatching.setCall, hpc] at hpc'
  . cases hpc with
    | _ hpc => simpa only [Dispatching.setCall, hpc] using hdeciding

theorem Follows.noFrame (h : Follows c d cs s) (hundecided : s.Undecided cs) {pc : Pc}
    (hpc : pc = .draining ∨ pc = .finished) {hCtx : Option CtxEnd} (handling : Handling)
    (htold : s.Told handling)
    (hdispatch : c.dispatch cs { d with done := false, resolved := false } true handling =
      some (cs, none))
    : Follows c d cs { s with pc, hCtx } := by
  have ⟨hcall, hframes, _, hcs⟩ := hundecided
  have houtcome : Outcome c d cs { s with pc, hCtx } :=
    ⟨false, none, hframes, nofun, handling, htold, hcs ▸ hdispatch⟩
  cases hpc with
  | _ hpc => subst hpc; exact ⟨h.users, h.delivery, nofun, nofun, .inl hcall, houtcome⟩

theorem follows_step (h : Follows c d cs s) (hstep : s.step c true a = some s')
    : Follows c d cs s' := by
  have hphase := h.phase
  have ⟨done, resolved, hd⟩ := h.delivery
  cases step_move hstep with
  | rawNack hpc hauto hdecodes =>
    simp only [hpc] at hphase
    have ⟨hcall, hframes, _, hcs⟩ := hphase
    rw [hd] at hdecodes
    refine ⟨h.users, h.delivery, nofun, nofun, .inl hcall, false, some (.nack false), ?_, nofun,
      .returned none false, nofun, ?_⟩
    . simp [finish, rawNack, hframes]
    . rw [dispatch_of_rawNack hauto hdecodes]
      simp [finish, rawNack, hcs]
  | drop hpc hauto hdecodes =>
    simp only [hpc] at hphase
    rw [hd] at hdecodes
    refine h.noFrame hphase (.inr rfl) (.returned none false) nofun ?_
    simp [Consumer.dispatch, hauto, show d.decodes = false from hdecodes]
  | callHandler hpc hdecodes hcount =>
    simp only [hpc] at hphase
    rw [hd] at hdecodes hcount
    refine ⟨h.users, h.delivery, nofun, ?_, hphase, hdecodes, hcount⟩
    intro _ e he
    have he : s.ctx = some e := he
    exact .inr (h.ctx hpc (by simp [he]))
  | handlerReturns =>
    exact h.frame rfl rfl rfl rfl rfl h.delivery id id id h.ctx h.hCtx
  | recvHandler hpc | drained hpc =>
    simp only [hpc] at hphase
    exact ⟨h.users, h.delivery, nofun, nofun, hphase⟩
  | recvChanDone hpc hchan hselect =>
    simp only [hpc] at hphase
    refine h.noFrame hphase.1 (.inl rfl) .chanDone hchan ?_
    simp [dispatch_of_handled hphase.2, Consumer.handle, hselect]
  | timeout hpc hctx hauto hselect =>
    simp only [hpc] at hphase
    have ⟨⟨hcall, hframes, hresolved, hcs⟩, hhandled⟩ := hphase
    refine ⟨fun i => ?_, h.delivery, nofun, nofun, ?_⟩
    . simpa [setCall] using h.users i
    . simp only [Deciding, setCall, update_self]
      refine ⟨hframes, hresolved, .deadline, trivial, ?_⟩
      simp [dispatch_of_handled hhandled, Consumer.handle, hselect, Consumer.timeout, hauto,
        Delivery.nackOnTimeout, hcs]
  | recvHCtx hpc hctx hdeadline hselect =>
    simp only [hpc] at hphase
    cases h.hCtx hpc _ hctx with
    | inl he =>
      refine h.noFrame hphase.1 (.inl rfl) .deadline trivial ?_
      simp [dispatch_of_handled hphase.2, Consumer.handle, hselect, Consumer.timeout, hdeadline he]
    | inr hended =>
      refine h.noFrame hphase.1 (.inl rfl) .ctxDone hended ?_
      simp [dispatch_of_handled hphase.2, Consumer.handle, hselect]
  | @aborted handlerErr hpc hchan herr =>
    simp only [hpc] at hphase
    refine h.noFrame hphase.1 (.inr rfl) (.returned handlerErr true) (fun _ => hchan) ?_
    simp [dispatch_of_handled hphase.2, Consumer.handle, herr]
  | @unsettled handlerErr hpc hauto hchan =>
    simp only [hpc] at hphase
    have hauto : c.brokerAutoAck = true := by simpa using hauto
    refine h.noFrame hphase.1 (.inr rfl) (.returned handlerErr false) nofun ?_
    simp [dispatch_of_handled hphase.2, Consumer.handle, Consumer.settleVerdict, hauto]
  | @settle handlerErr processedErr cs' hpc hauto _ hcounter hchan =>
    simp only [hpc] at hphase
    have ⟨⟨hcall, hframes, hresolved, hcs⟩, hhandled⟩ := hphase
    have hkey : c.counterBKey s.delivery true = c.counterBKey d true := by rw [hd]; rfl
    rw [hcs, hkey] at hcounter
    have hdispatch (done : Bool) :=
      dispatch_of_settle hauto hhandled hcounter done s.chanDone hchan
    refine ⟨fun i => ?_, h.delivery, nofun, nofun, ?_⟩
    . simpa [setCall] using h.users i
    . simp only [Deciding, setCall, update_self]
      exact ⟨hframes, hresolved, ⟨.returned handlerErr s.chanDone, id, hdispatch true⟩,
        ⟨.returned handlerErr s.chanDone, id, hdispatch false⟩⟩
  | begin i v hraw => contradiction
  | refused hcall hdone =>
    have ⟨ht, hpc, hdeciding⟩ := h.deciding hcall (by simp) (by simp)
    subst ht
    apply h.setCall hpc h.delivery
    simp only [Deciding, hcall] at hdeciding
    simp only [Deciding, setCall, update_self]
    exact ⟨true, none, hdeciding.1, fun _ => hdone, hdeciding.2.2.1⟩
  | checked hcall hdone =>
    have ⟨ht, hpc, hdeciding⟩ := h.deciding hcall (by simp) (by simp)
    subst ht
    apply h.setCall hpc h.delivery
    simp only [Deciding, hcall] at hdeciding
    simp only [Deciding, setCall, update_self]
    exact ⟨hdeciding.1, hdeciding.2.1, hdeciding.2.2.2⟩
  | loses hcall hresolved =>
    have ⟨ht, hpc, hdeciding⟩ := h.deciding hcall (by simp) (by simp)
    subst ht
    simp [Deciding, hcall, hresolved] at hdeciding
  | wins hcall hresolved =>
    have ⟨ht, hpc, hdeciding⟩ := h.deciding hcall (by simp) (by simp)
    subst ht
    apply h.setCall hpc ⟨done, true, by rw [hd]⟩
    simp only [Deciding, hcall] at hdeciding
    simp only [Deciding, setCall, update_self]
    exact ⟨hdeciding.1, hdeciding.2.2⟩
  | @sends t v hcall =>
    have ⟨ht, hpc, hdeciding⟩ := h.deciding hcall (by simp) (by simp)
    subst ht
    apply h.setCall hpc h.delivery
    simp only [Deciding, hcall] at hdeciding
    simp only [Deciding, setCall, update_self]
    exact ⟨false, some v, by simp [hdeciding.1], nofun, hdeciding.2⟩
  | close =>
    refine h.frame rfl rfl rfl rfl rfl ⟨true, resolved, by rw [hd]⟩ (fun _ => rfl) id id h.ctx h.hCtx
  | channelClose =>
    exact h.frame rfl rfl rfl rfl rfl h.delivery id (fun _ => rfl) id h.ctx h.hCtx
  | ctxEnds e =>
    refine h.frame rfl rfl rfl rfl rfl h.delivery id id ?_ ?_ ?_
    . intro hended
      simp [hended]
    . intro hpc
      simp [hpc]
    . intro hpc
      simp [hpc]
  | handlerTimeout hpc =>
    refine h.frame rfl rfl rfl rfl rfl h.delivery id id id h.ctx ?_
    intro hpc e he
    cases hctx : s.hCtx with
    | none => simp_all
    | some e' =>
      have hold := h.hCtx hpc e' hctx
      simp_all
  | _ hpc hcall =>
    simp only [hpc, Deciding, hcall] at hphase
    exact ⟨h.users, h.delivery, nofun, nofun, .inr hcall, hphase⟩

theorem outcome_of_run {as : List StepAction} {chanDone : Bool} {ctx : Option CtxEnd}
    (hrun : Run.run (step c true) (init d cs chanDone ctx) as = some s) (hpc : s.pc = .finished)
    : Follows c d cs s ∧ Outcome c d cs s := by
  have h := Run.inv_of_steps (fun _ _ _ => follows_step) (follows_init c d cs chanDone ctx) hrun
  have hphase := h.phase
  simp only [hpc] at hphase
  exact ⟨h, hphase.2⟩

end Dispatching
end Dispatch
