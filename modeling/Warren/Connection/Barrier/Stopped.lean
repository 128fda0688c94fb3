import Warren.Connection.Barrier.Lemmas

/-!
A consumer that has stopped, and the barriers that start after that.
-/

namespace Barrier

open Option

-- the barrier `b` was started after the `Consume` of `c` had returned
def Stale (log : List Event) (b c : Nat) : Prop :=
  [Event.returned c, .barrierStart b].Sublist log

instance (log : List Event) (b c : Nat) : Decidable (Stale log b c) :=
  inferInstanceAs (Decidable (List.Sublist _ _))

def Event.blames (b c : Nat) (e : Event) : Prop :=
  e = .consume b c ∨ e = .capped b c ∨ e = .degraded b c

def StaysStopped (log : List Event) : Prop :=
  ∀ b c e, e.blames b c → ¬[Event.returned c, .barrierStart b, e].Sublist log

variable {log : List Event} {e : Event} {c : Nat}

theorem stale_concat_iff {b : Nat}
    : Stale (log ++ [e]) b c ↔ Stale log b c ∨ (e = .barrierStart b ∧ .returned c ∈ log) := by
  have h := Trace.concat_sublist_concat_iff [Event.returned c] log (.barrierStart b) e
  rw [List.singleton_sublist, eq_comm (b := e)] at h
  exact h

theorem stale_concat_of_ne {b : Nat} (h : e ≠ .barrierStart b)
    : Stale (log ++ [e]) b c ↔ Stale log b c := by
  rw [stale_concat_iff]
  simp [h]

theorem StaysStopped.concat (h : StaysStopped log) (he : ∀ b c, e.blames b c → ¬Stale log b c)
    : StaysStopped (log ++ [e]) := by
  intro b c e' he' hsub
  have hiff := Trace.concat_sublist_concat_iff [Event.returned c, .barrierStart b] log e' e
  cases hiff.mp hsub with
  | inl hsub => exact h b c e' he' hsub
  | inr hsub =>
    rw [hsub.1] at he'
    exact he b c he' hsub.2

namespace State

structure Guarded (s : State) : Prop where
  lt_next : ∀ b run, s.barriers b = some run → b < s.nextBarrier
  subscribing : ∀ b run c rest, s.barriers b = some run → run.err = none →
    run.rest = .resubscribe c :: rest → run.pc ≠ .entered → ¬Stale s.log b c
  failed : ∀ b run c, s.barriers b = some run → s.active = some b →
    run.err = some (.resubscribe c) → ¬Stale s.log b c
  log : StaysStopped s.log

theorem Guarded.init : Guarded .init := by
  constructor
  . simp [State.init]
  . simp [State.init]
  . simp [State.init]
  . intro b c e _ hsub
    have := hsub.length_le
    simp [State.init] at this

variable {s s' : State} {b : Nat} {run : HookRun} {rest : List Hook}

theorem Guarded.emit (h : s.Guarded) {e : Event} (hstart : ∀ b, e ≠ .barrierStart b)
    (hblames : ∀ b c, e.blames b c → ¬Stale s.log b c) : (s.emit e).Guarded := by
  constructor
  . exact h.lt_next
  . intro b run c rest hb herr hrest hpc
    dsimp only [State.emit]
    rw [stale_concat_of_ne (hstart b)]
    exact h.subscribing b run c rest hb herr hrest hpc
  . intro b run c hb hactive herr
    dsimp only [State.emit]
    rw [stale_concat_of_ne (hstart b)]
    exact h.failed b run c hb hactive herr
  . exact h.log.concat hblames

theorem Guarded.frame (h : s.Guarded) (hlog : s'.log = s.log)
    (hnext : s'.nextBarrier = s.nextBarrier) (hactive : ∀ b, s'.active = some b → s.active = some b)
    (hbarriers : ∀ b run', s'.barriers b = some run' → ∃ run, s.barriers b = some run ∧
      run'.rest = run.rest ∧ run'.pc = run.pc ∧ run'.err = run.err)
    : s'.Guarded := by
  grind [Guarded]

theorem Guarded.setBarrier (h : s.Guarded) {run' : HookRun} (hrun : s.barriers b = some run)
    (hsubscribing : ∀ c rest, run'.err = none → run'.rest = .resubscribe c :: rest →
      run'.pc ≠ .entered → ¬Stale s.log b c)
    (hfailed : ∀ c, s.active = some b → run'.err = some (.resubscribe c) → ¬Stale s.log b c)
    : (s.setBarrier b run').Guarded := by
  have hcases : ∀ b' r, (s.setBarrier b run').barriers b' = some r →
      (b' = b ∧ r = run') ∨ s.barriers b' = some r := by
    intro b' r hr
    simp only [State.setBarrier, Function.update_apply] at hr
    split at hr
    . next hb =>
      rw [some.injEq] at hr
      exact .inl ⟨hb, hr.symm⟩
    . exact .inr hr
  constructor
  . intro b' r hr
    cases hcases b' r hr with
    | inl heq =>
      rw [heq.1]
      exact h.lt_next b run hrun
    | inr hr => exact h.lt_next b' r hr
  . intro b' r c rest hr herr hrest hpc
    cases hcases b' r hr with
    | inl heq =>
      rw [heq.2] at herr hrest hpc
      rw [heq.1]
      exact hsubscribing c rest herr hrest hpc
    | inr hr => exact h.subscribing b' r c rest hr herr hrest hpc
  . intro b' r c hr hactive herr
    cases hcases b' r hr with
    | inl heq =>
      rw [heq.2] at herr
      rw [heq.1] at hactive ⊢
      exact hfailed c hactive herr
    | inr hr => exact h.failed b' r c hr hactive herr
  . exact h.log

def StaleHook (s : State) (b : Nat) : Prop :=
  match s.barriers b with
  | some ⟨.resubscribe c :: _, _, _, _⟩ => Stale s.log b c
  | _ => False

instance (b : Nat) (s : State) : Decidable (s.StaleHook b) := by
  unfold StaleHook
  split <;> infer_instance

def JitterCut (s : State) : Action → Prop
  | .hook b .jitterElapsed => ¬s.StaleHook b
  | .hook b .jitterCancelled => s.active = some b → ¬s.StaleHook b
  | _ => True

instance (s : State) (a : Action) : Decidable (s.JitterCut a) := by
  unfold JitterCut
  split <;> infer_instance

theorem staleHook_iff (hrun : s.barriers b = some run) (hrest : run.rest = .resubscribe c :: rest)
    : s.StaleHook b ↔ Stale s.log b c := by
  rcases run with ⟨hooks, pc, err, ctxDone⟩
  dsimp only at hrest
  simp [StaleHook, hrun, hrest]

theorem Guarded.hookReturn (h : s.Guarded) (rest : List Hook) (hrun : s.barriers b = some run)
    (herr : run.err = none) : (s.hookReturn b run rest).Guarded := by
  apply h.setBarrier hrun
  . simp
  . simp [herr]

theorem Guarded.hookFail (h : s.Guarded) {hook : Hook} (hrun : s.barriers b = some run)
    (hstale : ∀ c, hook = .resubscribe c → s.active = some b → ¬Stale s.log b c)
    : (s.hookFail b run hook).Guarded := by
  apply h.setBarrier hrun
  . simp
  . intro c hactive herr
    simp only [some.injEq] at herr
    exact hstale c herr hactive

theorem Guarded.setConsumer (h : s.Guarded) (c : Nat) (k : Consumer)
    : (s.setConsumer c k).Guarded := ⟨h.lt_next, h.subscribing, h.failed, h.log⟩

theorem Guarded.startPump (h : s.Guarded) (c : Nat) (ctx : PumpCtx)
    : (s.startPump c ctx).Guarded := ⟨h.lt_next, h.subscribing, h.failed, h.log⟩

theorem blames_consume {b' c' : Nat} (h : (Event.consume b c).blames b' c') : b' = b ∧ c' = c := by
  simpa [Event.blames, eq_comm] using h

theorem Guarded.hookOpenSub (h : s.Guarded) {r : OpenResult} (hrun : s.barriers b = some run)
    (herr : run.err = none) (hrest : run.rest = .resubscribe c :: rest) (hpc : run.pc = .opening)
    (hstep : s.hookOpenSub b run c r = some s') : s'.Guarded := by
  have hstale : ¬Stale s.log b c := h.subscribing b run c rest hrun herr hrest (by simp [hpc])
  have hfail : (s.hookFail b run (.resubscribe c)).Guarded := by
    apply h.hookFail hrun
    intro c' hc' _
    cases hc'
    exact hstale
  have hblames : ∀ b' c', (Event.consume b c).blames b' c' → ¬Stale s.log b' c' := by
    intro b' c' hblames
    have heq := blames_consume hblames
    rw [heq.1, heq.2]
    exact hstale
  unfold State.hookOpenSub at hstep
  split at hstep
  . contradiction
  . next k hk =>
    dsimp only at hstep
    split at hstep
    . cases hstep
      apply Guarded.emit
      . apply (h.startPump c _).setBarrier hrun
        . intro c' rest' _ hrest' _
          dsimp only at hrest'
          rw [hrest, List.cons.injEq] at hrest'
          cases hrest'.1
          exact hstale
        . simp [herr]
      . simp
      . exact hblames
    . cases hstep
      apply hfail.emit
      . simp
      . exact hblames
    . cases hstep
      exact hfail

theorem Guarded.hookSend (h : s.Guarded) {sub : Nat} (hrun : s.barriers b = some run)
    (herr : run.err = none) (hstep : s.hookSend b run c sub rest = some s') : s'.Guarded := by
  unfold State.hookSend at hstep
  split at hstep
  . contradiction
  . split at hstep
    . contradiction
    . cases hstep
      apply (h.setConsumer c _).hookReturn rest hrun herr

theorem Guarded.hookStep (h : s.Guarded) {a : HookAction} (ha : s.JitterCut (.hook b a))
    (hstep : s.hookStep b a = some s') : s'.Guarded := by
  unfold State.hookStep at hstep
  split at hstep
  . contradiction
  . next run hrun =>
    split at hstep
    . contradiction
    . next herr =>
      rw [not_isSome_iff_eq_none] at herr
      split at hstep
      . cases hstep
        exact h.hookReturn _ hrun herr
      . cases hstep
        apply h.hookFail hrun
        simp
      . next hrest hpc =>
        cases hstep
        apply h.setBarrier hrun
        . intro c rest _ hrest' _
          rw [← staleHook_iff hrun hrest']
          exact ha
        . simp [herr]
      . next c rest hrest hpc =>
        split at hstep
        . cases hstep
          apply h.hookFail hrun
          intro c' hc' hactive
          cases hc'
          rw [← staleHook_iff hrun hrest]
          exact ha hactive
        . contradiction
      . next hrest hpc => exact h.hookOpenSub hrun herr hrest hpc hstep
      . exact h.hookSend hrun herr hstep
      . next c rest sub hrest hpc =>
        split at hstep
        . cases hstep
          apply h.hookFail hrun
          intro c' hc' _
          cases hc'
          exact h.subscribing b run c rest hrun herr hrest (by simp [hpc])
        . contradiction
      . contradiction

theorem Guarded.runBarrier (h : s.Guarded) : s.runBarrier.Guarded := by
  have hcases : ∀ b run, s.runBarrier.barriers b = some run →
      (b = s.nextBarrier ∧ run.pc = .entered ∧ run.err = none) ∨
        (b ≠ s.nextBarrier ∧ s.barriers b = some run) := by
    intro b run hrun
    simp only [State.runBarrier, Function.update_apply] at hrun
    split at hrun
    . next hb =>
      cases hrun
      exact .inl ⟨hb, rfl, rfl⟩
    . next hb => exact .inr ⟨hb, hrun⟩
  constructor
  . intro b run hrun
    dsimp only [State.runBarrier]
    cases hcases b run hrun with
    | inl hnew => omega
    | inr hold =>
      have := h.lt_next b run hold.2
      omega
  . intro b run c rest hrun herr hrest hpc
    cases hcases b run hrun with
    | inl hnew => exact absurd hnew.2.1 hpc
    | inr hold =>
      dsimp only [State.runBarrier]
      rw [stale_concat_of_ne (by simpa using Ne.symm hold.1)]
      exact h.subscribing b run c rest hold.2 herr hrest hpc
  . intro b run c hrun hactive herr
    cases hcases b run hrun with
    | inl hnew =>
      rw [hnew.2.2] at herr
      contradiction
    | inr hold =>
      simp only [State.runBarrier, some.injEq] at hactive
      exact absurd hactive.symm hold.1
  . apply h.log.concat
    simp [Event.blames]

theorem Guarded.cancelHookCtx (h : s.Guarded) (hrun : s.barriers b = some run)
    : (s.cancelHookCtx b run).Guarded := by
  apply h.frame
  . rfl
  . rfl
  . simp [State.cancelHookCtx]
  . intro b' run' hrun'
    simp only [State.cancelHookCtx, State.setBarrier, Function.update_apply] at hrun'
    split at hrun'
    . next hb =>
      rw [some.injEq] at hrun'
      rw [hb, ← hrun']
      exact ⟨run, hrun, rfl, rfl, rfl⟩
    . exact ⟨run', hrun', rfl, rfl, rfl⟩

theorem err_of_hookErr {hook : Hook} (h : hookErr run = some (some hook))
    : run.err = some hook := by
  unfold hookErr at h
  split at h
  . next herr =>
    rw [some.injEq] at h
    rw [herr, h]
  . simp at h
  . contradiction

theorem Guarded.barrierDone (h : s.Guarded) (hactive : s.active = some b)
    (hrun : s.barriers b = some run) (hstep : s.barrierDone b run = some s') : s'.Guarded := by
  have hcancel := h.cancelHookCtx hrun
  unfold State.barrierDone at hstep
  split at hstep
  . contradiction
  . next err herr =>
    have hdone : Guarded { s.cancelHookCtx b run with
        reconnecting := false, degraded := err.isSome } :=
      ⟨hcancel.lt_next, hcancel.subscribing, hcancel.failed, hcancel.log⟩
    split at hstep
    . next c =>
      cases hstep
      apply hdone.emit
      . simp
      . intro b' c' hblames
        simp only [Event.blames, reduceCtorEq, Event.degraded.injEq, false_or] at hblames
        rw [← hblames.1, ← hblames.2]
        exact h.failed b run c hrun hactive (err_of_hookErr herr)
    . cases hstep
      exact hdone

theorem Guarded.barrierCap (h : s.Guarded) (hrun : s.barriers b = some run)
    : (s.barrierCap b run).Guarded := by
  have hcancel := h.cancelHookCtx hrun
  have hend : (s.cancelHookCtx b run).endStreams.Guarded :=
    ⟨hcancel.lt_next, hcancel.subscribing, hcancel.failed, hcancel.log⟩
  unfold State.barrierCap
  split
  . next c rest sub herr hrest hpc =>
    apply hend.emit
    . simp
    . intro b' c' hblames
      simp only [Event.blames, reduceCtorEq, Event.capped.injEq, false_or, or_false] at hblames
      rw [← hblames.1, ← hblames.2]
      exact h.subscribing b run c rest hrun herr hrest (by simp [hpc])
  . exact hend

theorem Guarded.superStep (h : s.Guarded) {a : SuperAction} (hstep : s.superStep a = some s')
    : s'.Guarded := by
  unfold State.superStep at hstep
  split at hstep
  . cases hstep
    exact ⟨h.lt_next, h.subscribing, h.failed, h.log⟩
  . cases hstep
    exact ⟨h.lt_next, h.subscribing, h.failed, h.log⟩
  . split at hstep
    . contradiction
    . cases hstep
      exact ⟨h.lt_next, h.subscribing, h.failed, h.log⟩
  . split at hstep
    . cases hstep
      exact ⟨h.lt_next, h.subscribing, h.failed, h.log⟩
    . contradiction
  . split at hstep
    . cases hstep
      exact h.runBarrier
    . contradiction
  . next b run hactive hrun =>
    apply h.barrierDone hactive _ hstep
    rw [hactive] at hrun
    exact hrun
  . next b run hactive hrun =>
    rw [hactive] at hrun
    split at hstep
    . rw [some.injEq] at hstep
      have hcancel := h.cancelHookCtx hrun
      exact hstep ▸ ⟨hcancel.lt_next, hcancel.subscribing, hcancel.failed, hcancel.log⟩
    . contradiction
  . next b run hactive hrun =>
    rw [hactive] at hrun
    cases hstep
    exact h.barrierCap hrun
  . cases hstep
    apply h.frame
    . rfl
    . rfl
    . intro b
      exact id
    . intro b run' hrun'
      simp only [map_eq_some_iff] at hrun'
      have ⟨run, hrun, heq⟩ := hrun'
      rw [← heq]
      exact ⟨run, hrun, rfl, rfl, rfl⟩
  . contradiction

theorem Guarded.step (h : s.Guarded) {a : Action} (ha : s.JitterCut a) (hstep : s.step a = some s')
    : s'.Guarded := by
  cases a with
  | loop c a =>
    have ⟨hframe, hlog⟩ := loopStep_frame hstep
    have hsame : Guarded { s' with log := s.log } := by
      apply h.frame
      . rfl
      . exact hframe.nextBarrier
      . dsimp only
        rw [hframe.active]
        intro b
        exact id
      . dsimp only
        rw [hframe.barriers]
        intro b run hrun
        exact ⟨run, hrun, rfl, rfl, rfl⟩
    cases hlog with
    | inl hlog =>
      rw [← hlog] at hsame
      exact hsame
    | inr hlog =>
      have hemit := hsame.emit (e := .returned c) (by simp) (by simp [Event.blames])
      rw [State.emit, ← hlog] at hemit
      exact hemit
  | pump i a =>
    have ⟨hframe, _⟩ := pumpStep_frame hstep
    apply h.frame hframe.log hframe.nextBarrier
    . rw [hframe.active]
      intro b
      exact id
    . rw [hframe.barriers]
      intro b run hrun
      exact ⟨run, hrun, rfl, rfl, rfl⟩
  | hook b a => exact h.hookStep ha hstep
  | super a => exact h.superStep hstep

end State

open State

/-!
Three reconnects after a consumer has stopped: the first barrier subscribes for it, the second one
is stuck on the full `resubCh` until the cap, and the third one ends degraded.
-/

def stoppedRun : List Action :=
  [.loop 0 (.start .consumer), .loop 0 (.openFirst .ok), .loop 0 .cancelCtx, .loop 0 .stop,
    .super .socketLost, .super .reconnect, .super .runBarrier,
    .hook 0 .jitterElapsed, .hook 0 (.openSub .ok), .hook 0 .send, .super .done,
    .super .socketLost, .super .reconnect, .super .runBarrier,
    .hook 1 .jitterElapsed, .hook 1 (.openSub .ok), .super .cap,
    .super .runBarrier,
    .hook 2 .jitterElapsed, .hook 2 (.openSub .channelErr), .super .done]

theorem stoppedRun_not_staysStopped
    : ∃ s, Run.run step .init stoppedRun = some s ∧ ¬StaysStopped s.log ∧
        [Event.returned 0, .barrierStart 0, .consume 0 0].Sublist s.log ∧
        [Event.returned 0, .barrierStart 1, .capped 1 0].Sublist s.log ∧
        [Event.returned 0, .barrierStart 2, .degraded 2 0].Sublist s.log ∧ s.degraded = true := by
  have hfinal : (Run.run step .init stoppedRun).map (fun s => (s.log, s.degraded)) =
      some ([.returned 0, .barrierStart 0, .consume 0 0, .barrierStart 1, .consume 1 0, .capped 1 0,
        .barrierStart 2, .degraded 2 0], true) := by decide
  have ⟨s, hrun, hs⟩ := map_eq_some_iff.mp hfinal
  rw [Prod.mk.injEq] at hs
  have hconsume : [Event.returned 0, .barrierStart 0, .consume 0 0].Sublist s.log := by
    rw [hs.1]
    decide
  refine ⟨s, hrun, ?_, hconsume, ?_, ?_, hs.2⟩
  . intro hstays
    exact hstays 0 0 (.consume 0 0) (.inl rfl) hconsume
  . rw [hs.1]
    decide
  . rw [hs.1]
    decide

theorem staysStopped_of_jitterCut {as : List Action} {s : State}
    (hcut : Run.Along step JitterCut .init as)
    (hrun : Run.run step .init as = some s) : StaysStopped s.log := by
  have h := Run.inv_of_run (I := Guarded) (fun s a s' h ha hstep => h.step ha hstep)
    Guarded.init hcut hrun
  exact h.log

def jitterCutRun : List Action :=
  [.loop 1 (.start .batchConsumer), .loop 1 (.openFirst .ok), .loop 0 (.start .consumer),
    .loop 0 (.openFirst .ok), .loop 0 .cancelCtx, .loop 0 .stop,
    .super .socketLost, .super .reconnect, .super .runBarrier,
    .hook 0 .jitterElapsed, .hook 0 (.openSub .ok), .hook 0 .send, .super .cap,
    .hook 0 .jitterCancelled]

theorem staysStopped_of_jitterCut_jitterCutRun
    : ∃ s, Run.run step .init jitterCutRun = some s ∧ Stale s.log 0 0 ∧
        StaysStopped s.log := by
  have hfinal : (Run.run step .init jitterCutRun).map log =
      some [.returned 0, .barrierStart 0, .consume 0 1] := by decide
  have ⟨s, hrun, hs⟩ := map_eq_some_iff.mp hfinal
  refine ⟨s, hrun, ?_, staysStopped_of_jitterCut (by decide) hrun⟩
  rw [hs]
  decide

end Barrier
