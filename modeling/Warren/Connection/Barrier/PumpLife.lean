import Warren.Connection.Barrier.Lemmas

/-!
How long a delivery pump lives.
-/

namespace Barrier

open Option

namespace State

instance (s : State) (c : Nat) : Decidable (s.consumeCtxDone c) :=
  decidable_of_iff ((s.consumers c).any (·.ctxDone) = true) (by
    simp [consumeCtxDone, any_eq_true])

-- a pump that ended neither by its stream nor by a notification of its channel
def PumpsOutliveBarriers (s : State) : Prop :=
  ∀ i sub, s.subs i = some sub → sub.pump = .endedByCtx → s.consumeCtxDone sub.consumer

def cancels (s : State) (b : Nat) : Action → Bool
  | .super .done | .super .shutdown | .super .cap => s.active = some b
  | .super .close => true
  | _ => false

def SparesSub (s : State) (a : Action) (sub : Sub) : Prop :=
  match sub.ctx with
  | .consume => True
  | .hook b => s.cancels b a → sub.pump = .running → s.consumeCtxDone sub.consumer

instance (s : State) (a : Action) (sub : Sub) : Decidable (s.SparesSub a sub) := by
  unfold SparesSub
  split <;> infer_instance

def OpensLive (s : State) (b : Nat) : Prop :=
  match s.barriers b with
  | some ⟨.resubscribe c :: _, _, _, true⟩ =>
    ∀ k ∈ s.consumers c, k.kind = .batchConsumer → k.ctxDone
  | _ => True

instance (s : State) (b : Nat) : Decidable (s.OpensLive b) := by
  unfold OpensLive
  split <;> infer_instance

def HookCtxHarmless (s : State) (a : Action) : Prop :=
  (∀ i < s.nextSub, ∀ sub ∈ s.subs i, s.SparesSub a sub) ∧
  match a with
  | .hook b (.openSub .ok) => s.OpensLive b
  | _ => True

instance (s : State) (a : Action) : Decidable (s.HookCtxHarmless a) := by
  unfold HookCtxHarmless
  apply @instDecidableAnd _ _ inferInstance ?_
  split <;> infer_instance

structure Spared (s : State) : Prop where
  lt_next : ∀ i sub, s.subs i = some sub → i < s.nextSub
  owner : ∀ i sub b, s.subs i = some sub → sub.ctx = .hook b → b < s.nextBarrier
  running : ∀ i sub b run, s.subs i = some sub → sub.ctx = .hook b → sub.pump = .running →
    s.barriers b = some run → run.hookCtxDone → s.consumeCtxDone sub.consumer
  barrier_lt : ∀ b run, s.barriers b = some run → b < s.nextBarrier
  outlive : s.PumpsOutliveBarriers

theorem Spared.init : Spared .init := by
  constructor <;> simp [State.init, PumpsOutliveBarriers]

variable {s s' : State} {a : SuperAction}

-- a subscription of the next state is an old one, or a new one with a live context
theorem Spared.of_subs (h : s.Spared) (hnextSub : s.nextSub ≤ s'.nextSub)
    (hnextBarrier : s.nextBarrier ≤ s'.nextBarrier)
    (hctxDone : ∀ c, s.consumeCtxDone c → s'.consumeCtxDone c)
    (hbarriers : ∀ b run, s'.barriers b = some run → b < s'.nextBarrier)
    (hrunning : ∀ i sub b run, s.subs i = some sub → sub.ctx = .hook b → sub.pump = .running →
      s'.barriers b = some run → run.hookCtxDone → s.consumeCtxDone sub.consumer)
    (hsubs : ∀ i sub', s'.subs i = some sub' →
      (∃ sub, s.subs i = some sub ∧ sub'.consumer = sub.consumer ∧ sub'.ctx = sub.ctx ∧
        (sub'.pump = .running → sub.pump = .running) ∧
        (sub'.pump = .endedByCtx → s.consumeCtxDone sub.consumer)) ∨
      (i < s'.nextSub ∧ sub'.pump = .running ∧ ∀ b, sub'.ctx = .hook b → b < s'.nextBarrier ∧
        ∀ run, s'.barriers b = some run → run.hookCtxDone → s'.consumeCtxDone sub'.consumer))
    : s'.Spared := by
  refine ⟨?_, ?_, ?_, hbarriers, ?_⟩
  . intro i sub' hsub'
    rcases hsubs i sub' hsub' with ⟨sub, hsub, _⟩ | ⟨hlt, _⟩
    . exact Nat.lt_of_lt_of_le (h.lt_next i sub hsub) hnextSub
    . exact hlt
  . intro i sub' b hsub' hctx'
    rcases hsubs i sub' hsub' with ⟨sub, hsub, _, hctx, _⟩ | ⟨_, _, hnew⟩
    . exact Nat.lt_of_lt_of_le (h.owner i sub b hsub (hctx ▸ hctx')) hnextBarrier
    . exact (hnew b hctx').1
  . intro i sub' b run hsub' hctx' hpump' hrun hdone
    rcases hsubs i sub' hsub' with ⟨sub, hsub, hconsumer, hctx, hpump, _⟩ | ⟨_, _, hnew⟩
    . rw [hconsumer]
      exact hctxDone _ (hrunning i sub b run hsub (hctx ▸ hctx') (hpump hpump') hrun hdone)
    . exact (hnew b hctx').2 run hrun hdone
  . intro i sub' hsub' hpump'
    rcases hsubs i sub' hsub' with ⟨sub, _, hconsumer, _, _, hended⟩ | ⟨_, hpump, _⟩
    . rw [hconsumer]
      exact hctxDone _ (hended hpump')
    . rw [hpump] at hpump'
      contradiction

theorem Spared.loopStep (h : s.Spared) {c : Nat} {a : LoopAction} (hstep : s.loopStep c a = some s')
    : s'.Spared := by
  have hframe := (loopStep_frame hstep).1
  apply h.of_subs hframe.nextSub (Nat.le_of_eq hframe.nextBarrier.symm) hframe.ctxDone
  . rw [hframe.barriers, hframe.nextBarrier]
    exact h.barrier_lt
  . rw [hframe.barriers]
    exact h.running
  . intro i sub hsub
    cases hframe.subs i sub hsub with
    | inl hsub => exact .inl ⟨sub, hsub, rfl, rfl, id, h.outlive i sub hsub⟩
    | inr hsub => exact .inr ⟨hsub.1, hsub.2.1, by simp [hsub.2.2]⟩

theorem Spared.ctxDone_of_pumpCtxDone (h : s.Spared) {i : Nat} {sub : Sub}
    (hsub : s.subs i = some sub) (hpump : sub.pump = .running) (hctx : s.pumpCtxDone sub)
    : s.consumeCtxDone sub.consumer := by
  unfold pumpCtxDone at hctx
  split at hctx
  . simpa [consumeCtxDone, any_eq_true] using hctx
  . next b hb =>
    obtain ⟨run, hrun, hdone⟩ := (any_eq_true _ _).mp hctx
    exact h.running i sub b run hsub hb hpump hrun hdone

theorem Spared.pumpStep (h : s.Spared) {i : Nat} {a : PumpAction} (hstep : s.pumpStep i a = some s')
    : s'.Spared := by
  have ⟨hframe, sub, sub', hsub, hsub', hconsumer, hctx, hpump⟩ := pumpStep_frame hstep
  apply h.of_subs (Nat.le_of_eq hframe.nextSub.symm) (Nat.le_of_eq hframe.nextBarrier.symm)
    hframe.ctxDone
  . rw [hframe.barriers, hframe.nextBarrier]
    exact h.barrier_lt
  . rw [hframe.barriers]
    exact h.running
  . intro j r' hr'
    left
    by_cases hj : j = i
    . rw [hj, hsub', some.injEq] at hr'
      rw [hj, ← hr']
      refine ⟨sub, hsub, hconsumer, hctx, ?_, ?_⟩
      . intro hrunning
        rw [hrunning] at hpump
        simp only [reduceCtorEq, false_and, or_false] at hpump
        exact hpump.symm
      . intro hended
        rw [hended] at hpump
        simp only [reduceCtorEq, false_or, true_and] at hpump
        cases hpump with
        | inl hpump => exact h.outlive i sub hsub hpump.symm
        | inr hpump => exact h.ctxDone_of_pumpCtxDone hsub hpump.1 hpump.2
    . rw [hframe.subs j hj] at hr'
      exact ⟨r', hr', rfl, rfl, id, h.outlive j r' hr'⟩

theorem Spared.hookStep (h : s.Spared) {b : Nat} {a : HookAction}
    (ha : s.HookCtxHarmless (.hook b a)) (hstep : s.hookStep b a = some s') : s'.Spared := by
  have hframe := hookStep_frame hstep
  apply h.of_subs hframe.nextSub (Nat.le_of_eq hframe.nextBarrier.symm) hframe.ctxDone
  . intro b' run' hrun'
    have ⟨run, hrun, _⟩ := hframe.hookCtx b' run' hrun'
    rw [hframe.nextBarrier]
    exact h.barrier_lt b' run hrun
  . intro i sub b' run' hsub hctx hpump hrun' hdone
    have ⟨run, hrun, heq⟩ := hframe.hookCtx b' run' hrun'
    exact h.running i sub b' run hsub hctx hpump hrun (heq ▸ hdone)
  . intro i sub hsub
    cases hframe.subs i sub hsub with
    | inl hsub => exact .inl ⟨sub, hsub, rfl, rfl, id, h.outlive i sub hsub⟩
    | inr hsub =>
      have ⟨hlt, hpump, haction, run₀, rest, k, hrun₀, hrest, hk, hctx'⟩ := hsub
      refine .inr ⟨hlt, hpump, ?_⟩
      intro b' hctx
      rw [hctx] at hctx'
      split at hctx'
      . contradiction
      . next hkind =>
        rw [PumpCtx.hook.injEq] at hctx'
        rw [hctx', hframe.nextBarrier]
        refine ⟨h.barrier_lt b run₀ hrun₀, ?_⟩
        intro run' hrun' hdone
        have ⟨run, hrun, heq⟩ := hframe.hookCtx b run' hrun'
        rw [hrun₀, some.injEq] at hrun
        rw [heq, ← hrun] at hdone
        have hlive := ha.2
        rw [haction] at hlive
        rcases run₀ with ⟨hooks, pc, err, ctxDone⟩
        dsimp only at hrest hdone
        simp only [OpensLive, hrun₀, hrest, hdone] at hlive
        exact hframe.ctxDone _ ⟨k, hk, hlive k hk hkind⟩

structure SuperFrame (s s' : State) (a : SuperAction) : Prop where
  consumers : s'.consumers = s.consumers
  nextSub : s'.nextSub = s.nextSub
  nextBarrier : s.nextBarrier ≤ s'.nextBarrier
  subs : ∀ i sub', s'.subs i = some sub' → ∃ sub, s.subs i = some sub ∧
    sub'.consumer = sub.consumer ∧ sub'.ctx = sub.ctx ∧ sub'.pump = sub.pump
  barriers : ∀ b run', s'.barriers b = some run' →
    (b = s.nextBarrier ∧ b < s'.nextBarrier) ∨
      ∃ run, s.barriers b = some run ∧
        (run'.hookCtxDone → run.hookCtxDone = true ∨ s.cancels b (.super a) = true)

theorem SuperFrame.of_same (hconsumers : s'.consumers = s.consumers)
    (hnextSub : s'.nextSub = s.nextSub) (hnextBarrier : s'.nextBarrier = s.nextBarrier)
    (hsubs : s'.subs = s.subs ∨ s'.subs = s.endStreams.subs) (hbarriers : s'.barriers = s.barriers)
    : SuperFrame s s' a := by
  constructor
  . exact hconsumers
  . exact hnextSub
  . omega
  . intro i sub' hsub'
    cases hsubs with
    | inl hsubs =>
      rw [hsubs] at hsub'
      exact ⟨sub', hsub', rfl, rfl, rfl⟩
    | inr hsubs =>
      rw [hsubs] at hsub'
      have ⟨sub, hsub, heq⟩ := map_eq_some_iff.mp hsub'
      rw [← heq]
      exact ⟨sub, hsub, rfl, rfl, rfl⟩
  . intro b run hrun
    rw [hbarriers] at hrun
    exact .inr ⟨run, hrun, .inl⟩

theorem SuperFrame.of_cancel {b : Nat} {run : HookRun} (hrun : s.barriers b = some run)
    (hcancels : s.cancels b (.super a) = true) (hconsumers : s'.consumers = s.consumers)
    (hnextSub : s'.nextSub = s.nextSub) (hnextBarrier : s'.nextBarrier = s.nextBarrier)
    (hsubs : s'.subs = s.subs ∨ s'.subs = s.endStreams.subs)
    (hbarriers : s'.barriers = (s.cancelHookCtx b run).barriers) : SuperFrame s s' a := by
  have hsame : SuperFrame s { s' with barriers := s.barriers } a :=
    SuperFrame.of_same hconsumers hnextSub hnextBarrier hsubs rfl
  refine ⟨hsame.consumers, hsame.nextSub, hsame.nextBarrier, hsame.subs, ?_⟩
  intro b' run' hrun'
  right
  rw [hbarriers] at hrun'
  simp only [cancelHookCtx, setBarrier, Function.update_apply] at hrun'
  split at hrun'
  . next hb =>
    rw [hb]
    exact ⟨run, hrun, fun _ => .inr hcancels⟩
  . exact ⟨run', hrun', .inl⟩

theorem superStep_frame (hstep : s.superStep a = some s') : SuperFrame s s' a := by
  unfold superStep at hstep
  split at hstep
  . cases hstep
    exact SuperFrame.of_same rfl rfl rfl (.inl rfl) rfl
  . cases hstep
    exact SuperFrame.of_same rfl rfl rfl (.inr rfl) rfl
  . split at hstep
    . contradiction
    . cases hstep
      exact SuperFrame.of_same rfl rfl rfl (.inl rfl) rfl
  . split at hstep
    . cases hstep
      exact SuperFrame.of_same rfl rfl rfl (.inl rfl) rfl
    . contradiction
  . split at hstep
    . cases hstep
      refine ⟨rfl, rfl, Nat.le_succ _, fun i sub hsub => ⟨sub, hsub, rfl, rfl, rfl⟩, ?_⟩
      intro b run hrun
      simp only [runBarrier, Function.update_apply] at hrun
      split at hrun
      . next hb => exact .inl ⟨hb, hb ▸ Nat.lt_succ_self _⟩
      . exact .inr ⟨run, hrun, .inl⟩
    . contradiction
  . next b run hactive hrun =>
    rw [hactive] at hrun
    unfold barrierDone at hstep
    split at hstep
    . contradiction
    . dsimp only at hstep
      split at hstep
      all_goals
        rw [some.injEq] at hstep
        exact hstep ▸
          SuperFrame.of_cancel hrun (by simp [cancels, hactive]) rfl rfl rfl (.inl rfl) rfl
  . next b run hactive hrun =>
    rw [hactive] at hrun
    split at hstep
    . rw [some.injEq] at hstep
      exact hstep ▸
        SuperFrame.of_cancel hrun (by simp [cancels, hactive]) rfl rfl rfl (.inl rfl) rfl
    . contradiction
  . next b run hactive hrun =>
    rw [hactive] at hrun
    cases hstep
    unfold barrierCap
    split
    all_goals
      exact SuperFrame.of_cancel hrun (by simp [cancels, hactive]) rfl rfl rfl (.inr rfl) rfl
  . cases hstep
    refine ⟨rfl, rfl, Nat.le_refl _, fun i sub hsub => ⟨sub, hsub, rfl, rfl, rfl⟩, ?_⟩
    intro b run' hrun'
    have ⟨run, hrun, _⟩ := map_eq_some_iff.mp hrun'
    exact .inr ⟨run, hrun, fun _ => .inr rfl⟩
  . contradiction

theorem Spared.superStep (h : s.Spared) (ha : s.HookCtxHarmless (.super a))
    (hstep : s.superStep a = some s') : s'.Spared := by
  have hframe := superStep_frame hstep
  apply h.of_subs (Nat.le_of_eq hframe.nextSub.symm) hframe.nextBarrier
  . simp [consumeCtxDone, hframe.consumers]
  . intro b run' hrun'
    rcases hframe.barriers b run' hrun' with hnew | ⟨run, hrun, _⟩
    . exact hnew.2
    . exact Nat.lt_of_lt_of_le (h.barrier_lt b run hrun) hframe.nextBarrier
  . intro i sub b run' hsub hctx hpump hrun' hdone
    rcases hframe.barriers b run' hrun' with hnew | ⟨run, hrun, hcancels⟩
    . have := h.owner i sub b hsub hctx
      omega
    . cases hcancels hdone with
      | inl hdone => exact h.running i sub b run hsub hctx hpump hrun hdone
      | inr hcancels =>
        have hspares := ha.1 i (h.lt_next i sub hsub) sub hsub
        simp only [SparesSub, hctx] at hspares
        exact hspares hcancels hpump
  . intro i sub' hsub'
    have ⟨sub, hsub, hconsumer, hctx, hpump⟩ := hframe.subs i sub' hsub'
    rw [hpump]
    exact .inl ⟨sub, hsub, hconsumer, hctx, id, h.outlive i sub hsub⟩

theorem Spared.step (h : s.Spared) {a : Action} (ha : s.HookCtxHarmless a)
    (hstep : s.step a = some s') : s'.Spared := by
  cases a with
  | loop c a => exact h.loopStep hstep
  | pump i a => exact h.pumpStep hstep
  | hook b a => exact h.hookStep ha hstep
  | super a => exact h.superStep ha hstep

end State

open State

def batchReconnectRun : List Action :=
  [.loop 0 (.start .batchConsumer), .loop 0 (.openFirst .ok),
    .super .socketLost, .pump 0 .stream, .loop 0 .closed, .super .reconnect, .super .runBarrier,
    .hook 0 .jitterElapsed, .hook 0 (.openSub .ok), .hook 0 .send, .loop 0 .adopt, .super .done,
    .pump 1 .ctx, .loop 0 .closed]

theorem batchReconnectRun_not_outlive
    : ∃ s k, Run.run step .init batchReconnectRun = some s ∧ s.degraded = false ∧
        s.subs 1 = some ⟨0, .hook 0, false, false, .endedByCtx⟩ ∧ s.consumers 0 = some k ∧
        k.kind = .batchConsumer ∧ k.cur = some 1 ∧ k.ctxDone = false ∧ k.phase = .recovering ∧
        ¬s.PumpsOutliveBarriers := by
  have hfinal : (Run.run step .init batchReconnectRun).map
      (fun s => (s.degraded, s.subs 1, s.consumers 0)) =
      some (false, some ⟨0, .hook 0, false, false, .endedByCtx⟩,
        some ⟨.batchConsumer, false, .recovering, some 1, .make, .make⟩) := by decide
  have ⟨s, hrun, hs⟩ := map_eq_some_iff.mp hfinal
  simp only [Prod.mk.injEq] at hs
  refine ⟨s, _, hrun, hs.1, hs.2.1, hs.2.2, rfl, rfl, rfl, rfl, ?_⟩
  intro houtlive
  have ⟨k, hk, hdone⟩ := houtlive 1 _ hs.2.1 rfl
  rw [hs.2.2, some.injEq] at hk
  simp [← hk] at hdone

theorem pumpsOutliveBarriers_of_hookCtxHarmless {as : List Action} {s : State}
    (hharmless : Run.Along step HookCtxHarmless .init as)
    (hrun : Run.run step .init as = some s) : s.PumpsOutliveBarriers := by
  have h := Run.inv_of_run (I := Spared) (fun s a s' h ha hstep => h.step ha hstep)
    Spared.init hharmless hrun
  exact h.outlive

def stopDuringBarrierRun : List Action :=
  [.loop 0 (.start .consumer), .loop 0 (.openFirst .ok), .loop 1 (.start .batchConsumer),
    .loop 1 (.openFirst .ok), .super .socketLost, .super .reconnect, .super .runBarrier,
    .hook 0 .jitterElapsed, .hook 0 (.openSub .ok), .hook 0 .send,
    .hook 0 .jitterElapsed, .hook 0 (.openSub .ok), .hook 0 .send,
    .loop 1 .cancelCtx, .super .done, .pump 3 .ctx]

theorem pumpsOutliveBarriers_of_hookCtxHarmless_stopDuringBarrierRun
    : ∃ s, Run.run step .init stopDuringBarrierRun = some s ∧ s.PumpsOutliveBarriers ∧
        s.subs 2 = some ⟨0, .consume, false, false, .running⟩ ∧
        s.subs 3 = some ⟨1, .hook 0, false, false, .endedByCtx⟩ := by
  have hfinal : (Run.run step .init stopDuringBarrierRun).map
      (fun s => (s.subs 2, s.subs 3)) =
      some (some ⟨0, .consume, false, false, .running⟩,
        some ⟨1, .hook 0, false, false, .endedByCtx⟩) := by decide
  have ⟨s, hrun, hs⟩ := map_eq_some_iff.mp hfinal
  rw [Prod.mk.injEq] at hs
  exact ⟨s, hrun, pumpsOutliveBarriers_of_hookCtxHarmless (by decide) hrun, hs⟩

end Barrier
