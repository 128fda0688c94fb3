import Warren.Base.Passes
import Warren.Connection.Barrier.Lemmas
import Warren.Topology.Impl

/-!
The order in which a barrier runs the redeclare of the topology and the hooks of the consumers.
-/

namespace Barrier

open List

def HookRun.remaining (run : HookRun) : Option (List Hook) :=
  if run.err.isSome then none else some run.rest

namespace State

def passes (s : State) (log : List (Passes.Event Hook)) : Passes.State Hook :=
  ⟨s.hooks, fun b => (s.barriers b).bind HookRun.remaining, s.nextBarrier, log⟩

def hookEvents (b : Nat) (hook : Hook) : HookAction → List (Passes.Event Hook)
  | .otherReturn true => [.returned b hook]
  | .otherReturn false => [.failed b hook]
  | .jitterElapsed => []
  | .jitterCancelled => [.failed b hook]
  | .openSub .ok => [.acted b hook]
  | .openSub .consumeErr => [.acted b hook, .failed b hook]
  | .openSub .channelErr => [.failed b hook]
  | .openSub .qosErr => [.failed b hook]
  | .send => [.returned b hook]
  | .sendCancelled => [.failed b hook]

def events (s : State) : Action → List (Passes.Event Hook)
  | .loop c (.start _) => [.registered (.resubscribe c)]
  | .super (.registerHook id) => [.registered (.other id)]
  | .super .runBarrier => [.started s.nextBarrier]
  | .hook b a =>
    match (s.barriers b).bind (fun run => run.rest.head?) with
    | none => []
    | some hook => hookEvents b hook a
  | _ => []

variable {s s' : State} {log : List (Passes.Event Hook)}

variable {c b : Nat} {run : HookRun} {hook : Hook} {rest : List Hook}

theorem loopStart_hooks {kind : Kind} (hstep : s.loopStart c kind = some s')
    : s'.hooks = s.hooks ++ [.resubscribe c] := by
  unfold loopStart at hstep
  split at hstep
  . contradiction
  . cases hstep
    rfl

theorem loopStep_hooks {a : LoopAction} (ha : ∀ kind, a ≠ .start kind)
    (hstep : s.loopStep c a = some s') : s'.hooks = s.hooks := by
  unfold loopStep at hstep
  split at hstep
  . next kind => exact absurd rfl (ha kind)
  . contradiction
  . cases hstep
    rfl
  all_goals
    simp only [loopOpenFirst, loopStop, loopAdopt, loopBrokerCancel, loopClosed,
      loopReopen] at hstep
    repeat' split at hstep
    all_goals first | contradiction | cases hstep; rfl

theorem passes_loopStep {a : LoopAction} (hstep : s.loopStep c a = some s')
    : Run.run Passes.State.step (s.passes log) (s.events (.loop c a)) =
        some (s'.passes (log ++ s.events (.loop c a))) := by
  have hframe := (loopStep_frame hstep).1
  cases a with
  | start kind =>
    have hhooks := loopStart_hooks hstep
    simp [events, Run.run, Passes.State.step, Passes.State.effect, passes, hhooks, hframe.barriers,
      hframe.nextBarrier]
  | _ =>
    have hhooks := loopStep_hooks (by simp) hstep
    simp [events, passes, hhooks, hframe.barriers, hframe.nextBarrier]

theorem forwardCancelReason_hooks (s : State) (c : Nat)
    : (s.forwardCancelReason c).hooks = s.hooks := by
  unfold forwardCancelReason
  split
  . rfl
  . split <;> rfl

theorem pumpStep_hooks {i : Nat} {a : PumpAction} (hstep : s.pumpStep i a = some s')
    : s'.hooks = s.hooks := by
  unfold pumpStep at hstep
  split at hstep
  . contradiction
  . split at hstep
    . contradiction
    . cases hstep
      rfl
  . split at hstep
    . cases hstep
      split
      . apply forwardCancelReason_hooks
      . rfl
    . contradiction
  . split at hstep
    . cases hstep
      rfl
    . contradiction

section hooks

variable {b : Nat} {run run' : HookRun} {hook : Hook} {rest : List Hook}

theorem running_passes (hrun : s.barriers b = some run) (herr : run.err = none)
    : (s.passes log).running b = some run.rest := by
  simp [passes, hrun, HookRun.remaining, herr]

theorem current_passes (hrun : s.barriers b = some run) (herr : run.err = none)
    (hrest : run.rest = hook :: rest) : (s.passes log).current b = some hook := by
  simp [Passes.State.current, running_passes hrun herr, hrest]

theorem passes_setBarrier (s : State) (log : List (Passes.Event Hook)) (b : Nat) (run' : HookRun)
    : (s.setBarrier b run').passes log = (s.passes log).setRunning b run'.remaining := by
  have hremaining : (fun b' => ((s.setBarrier b run').barriers b').bind HookRun.remaining) =
      Function.update (fun b' => (s.barriers b').bind HookRun.remaining) b run'.remaining := by
    funext b'
    by_cases hb : b' = b
    all_goals simp [setBarrier, hb]
  simp only [passes, Passes.State.setRunning, hremaining]
  rfl

theorem passes_setBarrier_of_same (run' : HookRun) (hrun : s.barriers b = some run)
    (h : run'.remaining = run.remaining) : (s.setBarrier b run').passes log = s.passes log := by
  rw [passes_setBarrier, h]
  have : run.remaining = (s.passes log).running b := by simp [passes, hrun]
  rw [this]
  simp [Passes.State.setRunning]

theorem passes_returned (hrun : s.barriers b = some run) (herr : run.err = none)
    (hrest : run.rest = hook :: rest) (hrun' : run'.remaining = some rest)
    : (s.passes log).step (.returned b hook) =
        some ((s.setBarrier b run').passes (log ++ [.returned b hook])) := by
  rw [passes_setBarrier, hrun']
  simp [Passes.State.step, Passes.State.effect, current_passes hrun herr hrest,
    running_passes hrun herr, hrest]
  rfl

theorem passes_failed (hrun : s.barriers b = some run) (herr : run.err = none)
    (hrest : run.rest = hook :: rest) (hrun' : run'.remaining = none)
    : (s.passes log).step (.failed b hook) =
        some ((s.setBarrier b run').passes (log ++ [.failed b hook])) := by
  rw [passes_setBarrier, hrun']
  simp [Passes.State.step, Passes.State.effect, current_passes hrun herr hrest]
  rfl

theorem passes_acted (log : List (Passes.Event Hook)) (hrun : s.barriers b = some run)
    (herr : run.err = none) (hrest : run.rest = hook :: rest)
    : (s.passes log).step (.acted b hook) = some (s.passes (log ++ [.acted b hook])) := by
  simp [Passes.State.step, Passes.State.effect, current_passes hrun herr hrest]
  rfl

end hooks

theorem events_hook {a : HookAction} (hrun : s.barriers b = some run)
    (hrest : run.rest = hook :: rest) : s.events (.hook b a) = hookEvents b hook a := by
  simp [events, hrun, hrest]

theorem passes_hookReturn (hrun : s.barriers b = some run) (herr : run.err = none)
    (hrest : run.rest = hook :: rest)
    : Run.run Passes.State.step (s.passes log) [.returned b hook] =
        some ((s.hookReturn b run rest).passes (log ++ [.returned b hook])) :=
  Run.run_singleton_of_step
    (passes_returned hrun herr hrest (by simp [HookRun.remaining, herr]))

theorem passes_hookFail (hrun : s.barriers b = some run) (herr : run.err = none)
    (hrest : run.rest = hook :: rest)
    : Run.run Passes.State.step (s.passes log) [.failed b hook] =
        some ((s.hookFail b run hook).passes (log ++ [.failed b hook])) :=
  Run.run_singleton_of_step (passes_failed hrun herr hrest (by simp [HookRun.remaining]))

theorem passes_hookOpenSub {r : OpenResult} (hrun : s.barriers b = some run) (herr : run.err = none)
    (hrest : run.rest = .resubscribe c :: rest) (hstep : s.hookOpenSub b run c r = some s')
    : Run.run Passes.State.step (s.passes log) (hookEvents b (.resubscribe c) (.openSub r)) =
        some (s'.passes (log ++ hookEvents b (.resubscribe c) (.openSub r))) := by
  have hacted := passes_acted log hrun herr hrest
  unfold hookOpenSub at hstep
  split at hstep
  . contradiction
  . dsimp only at hstep
    cases r with
    | ok =>
      cases hstep
      rw [hookEvents, Run.run_singleton_of_step hacted]
      rw [← passes_setBarrier_of_same { run with pc := .sending s.nextSub } hrun rfl]
      rfl
    | consumeErr =>
      cases hstep
      rw [hookEvents, Run.run_cons_of_step _ hacted, passes_hookFail hrun herr hrest]
      simp only [append_assoc, cons_append, nil_append]
      rfl
    | channelErr | qosErr =>
      cases hstep
      exact passes_hookFail hrun herr hrest

theorem passes_hookStep {a : HookAction} (hstep : s.hookStep b a = some s')
    : Run.run Passes.State.step (s.passes log) (s.events (.hook b a)) =
        some (s'.passes (log ++ s.events (.hook b a))) := by
  unfold hookStep at hstep
  split at hstep
  . contradiction
  . next run hrun =>
    split at hstep
    . contradiction
    . next herr =>
      have herr : run.err = none := by simpa using herr
      split at hstep
      . next hrest =>
        cases hstep
        rw [events_hook hrun hrest]
        exact passes_hookReturn hrun herr hrest
      . next hrest =>
        cases hstep
        rw [events_hook hrun hrest]
        exact passes_hookFail hrun herr hrest
      . next hrest _ =>
        cases hstep
        rw [events_hook hrun hrest, hookEvents, append_nil, Run.run_nil,
          passes_setBarrier_of_same { run with pc := .opening } hrun rfl]
      . next hrest _ =>
        split at hstep
        . cases hstep
          rw [events_hook hrun hrest]
          exact passes_hookFail hrun herr hrest
        . contradiction
      . next hrest _ =>
        rw [events_hook hrun hrest]
        exact passes_hookOpenSub hrun herr hrest hstep
      . next c rest _ hrest _ =>
        rw [events_hook hrun hrest]
        unfold hookSend at hstep
        split at hstep
        . contradiction
        . split at hstep
          . contradiction
          . cases hstep
            exact passes_hookReturn hrun herr hrest
      . next hrest _ =>
        split at hstep
        . cases hstep
          rw [events_hook hrun hrest]
          exact passes_hookFail hrun herr hrest
        . contradiction
      . contradiction

theorem passes_cancelHookCtx (hrun : s.barriers b = some run)
    : (s.cancelHookCtx b run).passes log = s.passes log :=
  passes_setBarrier_of_same { run with hookCtxDone := true } hrun rfl

theorem passes_barrierDone (hrun : s.barriers b = some run) (hstep : s.barrierDone b run = some s')
    : s'.passes log = s.passes log := by
  rw [← passes_cancelHookCtx hrun]
  unfold barrierDone at hstep
  split at hstep
  . contradiction
  . dsimp only at hstep
    split at hstep
    . cases hstep
      rfl
    . cases hstep
      rfl

theorem passes_barrierCap (hrun : s.barriers b = some run)
    : (s.barrierCap b run).passes log = s.passes log := by
  rw [← passes_cancelHookCtx hrun]
  unfold barrierCap
  split <;> rfl

theorem passes_runBarrier (s : State) (log : List (Passes.Event Hook))
    : (s.passes log).step (.started s.nextBarrier) =
        some (s.runBarrier.passes (log ++ [.started s.nextBarrier])) := by
  have hset := passes_setBarrier s (log ++ [.started s.nextBarrier]) s.nextBarrier
    ⟨s.hooks, .entered, none, s.ctxDone⟩
  have hrunning : (s.runBarrier.passes (log ++ [.started s.nextBarrier])).running =
      ((s.passes log).setRunning s.nextBarrier (some s.hooks)).running :=
    (congrArg Passes.State.running hset :)
  simp only [Passes.State.step, Passes.State.effect, passes, if_true, Option.map_some] at hrunning ⊢
  rw [hrunning]
  rfl

theorem passes_close (s : State) (ctxDone : Bool)
    : State.passes { s with
        ctxDone
        barriers := fun b => (s.barriers b).map (fun run => { run with hookCtxDone := true }) }
      log = s.passes log := by
  have hremaining (b : Nat)
      : ((s.barriers b).map (fun run => { run with hookCtxDone := true })).bind HookRun.remaining =
        (s.barriers b).bind HookRun.remaining := by
    cases s.barriers b <;> rfl
  simp only [passes, hremaining]

theorem passes_superStep {a : SuperAction} (hstep : s.superStep a = some s')
    : Run.run Passes.State.step (s.passes log) (s.events (.super a)) =
        some (s'.passes (log ++ s.events (.super a))) := by
  unfold superStep at hstep
  split at hstep
  . cases hstep
    rfl
  . cases hstep
    simp only [events, append_nil, Run.run_nil]
    rfl
  . split at hstep
    . contradiction
    . cases hstep
      simp only [events, append_nil, Run.run_nil]
      rfl
  . split at hstep
    . cases hstep
      simp only [events, append_nil, Run.run_nil]
      rfl
    . contradiction
  . split at hstep
    . cases hstep
      exact Run.run_singleton_of_step (passes_runBarrier s log)
    . contradiction
  . next b run hactive hrun =>
    rw [hactive] at hrun
    simp only [events, append_nil, Run.run_nil]
    rw [passes_barrierDone hrun hstep]
  . next b run hactive hrun =>
    rw [hactive] at hrun
    split at hstep
    . cases hstep
      simp only [events, append_nil, Run.run_nil]
      rw [← passes_cancelHookCtx hrun]
      rfl
    . contradiction
  . next b run hactive hrun =>
    rw [hactive] at hrun
    cases hstep
    simp only [events, append_nil, Run.run_nil]
    rw [passes_barrierCap hrun]
  . cases hstep
    simp only [events, append_nil, Run.run_nil]
    rw [passes_close]
  . contradiction

theorem passes_step {a : Action} (hstep : s.step a = some s')
    : Run.run Passes.State.step (s.passes log) (s.events a) =
        some (s'.passes (log ++ s.events a)) := by
  cases a with
  | loop c a => exact passes_loopStep hstep
  | pump i a =>
    have hframe := (pumpStep_frame hstep).1
    simp [events, passes, pumpStep_hooks hstep, hframe.barriers, hframe.nextBarrier]
  | hook b a => exact passes_hookStep hstep
  | super a => exact passes_superStep hstep

end State
end Barrier

namespace Topology

namespace Attached

def events (s : Attached) : Action → List (Passes.Event Barrier.Hook)
  | .attachTo _ _ => []
  | .registerHook => [.registered redeclareHook]
  | .mc a => s.mc.events a

theorem passes_step {s s' : Attached} {a : Action} {log : List (Passes.Event Barrier.Hook)}
    (hstep : s.step a = some s')
    : Run.run Passes.State.step (s.mc.passes log) (s.events a) =
        some (s'.mc.passes (log ++ s.events a)) := by
  cases a with
  | attachTo t snapshot =>
    cases hstep
    simp only [events, List.append_nil, Run.run_nil]
    rfl
  | registerHook =>
    simp only [step] at hstep
    split at hstep
    . cases hstep
      rfl
    . contradiction
  | mc a =>
    simp only [step, mcStep] at hstep
    split at hstep
    . contradiction
    . obtain ⟨mc, hmc, hs'⟩ := Option.map_eq_some_iff.mp hstep
      subst hs'
      exact Barrier.State.passes_step hmc

theorem passes_of_run {s : Attached} {as : List Action} (hrun : Run.run step .init as = some s)
    : ∃ t, Run.run Passes.State.step .init (Run.observed step events .init as) = some t := by
  have hsim (s : Attached) (a : Action) (s' : Attached) (t : Passes.State Barrier.Hook)
      (ht : t = s.mc.passes t.log) (_ : True) (hstep : s.step a = some s')
      : ∃ t', Run.run Passes.State.step t (s.events a) = some t' ∧ t' = s'.mc.passes t'.log := by
    refine ⟨s'.mc.passes (t.log ++ s.events a), ?_, rfl⟩
    rw [ht]
    exact passes_step hstep
  have ⟨t, ht, _⟩ := Run.simulation_of_run hsim (s := init) (t := .init) rfl
    (Run.along_of_forall_mem (fun _ _ _ => trivial) _) hrun
  exact ⟨t, ht⟩

end Attached

def RedeclaredFirst (log : List (Passes.Event Barrier.Hook)) : Prop :=
  ∀ c, Passes.RunsFirst redeclareHook (.resubscribe c) log

theorem redeclaredFirst_of_attachedFirst (as : List Attached.Action) (s : Attached)
    (hrun : Run.run Attached.step .init as = some s)
    (hfirst : ∀ c, ¬[.registered (.resubscribe c), .registered redeclareHook].Sublist
      (Run.observed Attached.step Attached.events .init as))
    : RedeclaredFirst (Run.observed Attached.step Attached.events .init as) := by
  have ⟨t, ht⟩ := Attached.passes_of_run hrun
  intro c
  exact Passes.runsFirst_of_run (by simp [redeclareHook]) ht (hfirst c)

def reconnectRun : List Attached.Action :=
  [.mc (.loop 0 (.openFirst .ok)), .mc (.super .socketLost), .mc (.super .reconnect),
    .mc (.super .runBarrier)]

def attachFirstRun : List Attached.Action :=
  [.attachTo 7 (some 1), .registerHook, .mc (.loop 0 (.start .consumer))] ++ reconnectRun ++
    [.mc (.hook 0 (.otherReturn true)), .mc (.hook 0 .jitterElapsed), .mc (.hook 0 (.openSub .ok))]

theorem redeclaredFirst_of_attachedFirst_attachFirstRun
    : .acted 0 (.resubscribe 0) ∈ Run.observed Attached.step Attached.events .init attachFirstRun ∧
      RedeclaredFirst (Run.observed Attached.step Attached.events .init attachFirstRun) := by
  have hlog : Run.observed Attached.step Attached.events .init attachFirstRun =
      [.registered redeclareHook, .registered (.resubscribe 0), .started 0,
        .returned 0 redeclareHook, .acted 0 (.resubscribe 0)] := by decide
  have ⟨s, hs⟩ := Option.isSome_iff_exists.mp (by decide :
    (Run.run Attached.step .init attachFirstRun).isSome = true)
  refine ⟨by simp [hlog], redeclaredFirst_of_attachedFirst attachFirstRun s hs ?_⟩
  intro c hsub
  rw [hlog] at hsub
  have hc : c = 0 := by simpa [redeclareHook] using hsub.subset (List.mem_cons_self ..)
  subst hc
  revert hsub
  decide

-- the consumer was started before `AttachTo`, and its hook runs first
def consumeFirstRun : List Attached.Action :=
  [.mc (.loop 0 (.start .consumer)), .attachTo 7 (some 1), .registerHook] ++ reconnectRun ++
    [.mc (.hook 0 .jitterElapsed), .mc (.hook 0 (.openSub .ok))]

theorem consumeFirstRun_not_redeclaredFirst
    : (Run.run Attached.step .init consumeFirstRun).isSome ∧
      ¬RedeclaredFirst (Run.observed Attached.step Attached.events .init consumeFirstRun) := by
  refine ⟨by decide, ?_⟩
  intro h
  have hlog : Run.observed Attached.step Attached.events .init consumeFirstRun =
      [.registered (.resubscribe 0), .registered redeclareHook, .started 0] ++
        .acted 0 (.resubscribe 0) :: [] := by decide
  have := (h 0 0 _ _ hlog).1 (by decide)
  simp at this

end Topology
