import Warren.Base.Run
import Warren.Connection.Barrier.Impl

namespace Barrier

open Option
namespace State

def consumeCtxDone (s : State) (c : Nat) : Prop :=
  ∃ k, s.consumers c = some k ∧ k.ctxDone = true

structure LoopFrame (s s' : State) : Prop where
  barriers : s'.barriers = s.barriers
  active : s'.active = s.active
  nextBarrier : s'.nextBarrier = s.nextBarrier
  nextSub : s.nextSub ≤ s'.nextSub
  ctxDone : ∀ c, s.consumeCtxDone c → s'.consumeCtxDone c
  subs : ∀ i sub, s'.subs i = some sub →
    s.subs i = some sub ∨ (i < s'.nextSub ∧ sub.pump = .running ∧ sub.ctx = .consume)

theorem LoopFrame.refl (s : State) : LoopFrame s s :=
  ⟨rfl, rfl, rfl, Nat.le_refl _, fun _ => id, fun _ _ => .inl⟩

variable {s s' : State} {c b : Nat} {k : Consumer} {a : HookAction} {run : HookRun}

theorem LoopFrame.trans {s'' : State} (h : LoopFrame s s') (h' : LoopFrame s' s'')
    : LoopFrame s s'' := by
  grind [LoopFrame]

variable {k' : Consumer} {i : Nat}

theorem consumeCtxDone_setConsumer (hk : s.consumers c = some k)
    (hctx : k.ctxDone = true → k'.ctxDone = true) {x : Nat} (hx : s.consumeCtxDone x)
    : (s.setConsumer c k').consumeCtxDone x := by
  have ⟨l, hl, hdone⟩ := hx
  unfold consumeCtxDone setConsumer
  by_cases heq : x = c
  . rw [heq, hk, some.injEq] at hl
    refine ⟨k', by simp [heq], ?_⟩
    apply hctx
    rw [hl]
    exact hdone
  . exact ⟨l, by simp [heq, hl], hdone⟩

theorem LoopFrame.setConsumer (hk : s.consumers c = some k)
    (hctx : k.ctxDone = true → k'.ctxDone = true) : LoopFrame s (s.setConsumer c k') := by
  constructor
  . rfl
  . rfl
  . rfl
  . exact Nat.le_refl _
  . intro x hx
    exact consumeCtxDone_setConsumer hk hctx hx
  . intro i sub hsub
    exact .inl hsub

theorem startPump_subs {ctx : PumpCtx} {sub : Sub} (h : (s.startPump c ctx).subs i = some sub)
    : s.subs i = some sub ∨ (i = s.nextSub ∧ sub = ⟨c, ctx, false, false, .running⟩) := by
  simp only [startPump, setSub, Function.update_apply] at h
  split at h
  . next hi =>
    rw [some.injEq] at h
    exact .inr ⟨hi, h.symm⟩
  . exact .inl h

theorem LoopFrame.startPump (s : State) (c : Nat) : LoopFrame s (s.startPump c .consume) := by
  constructor
  . rfl
  . rfl
  . rfl
  . exact Nat.le_succ _
  . intro x
    exact id
  . intro i sub hsub
    cases startPump_subs hsub with
    | inl hsub => exact .inl hsub
    | inr hsub =>
      rw [hsub.1, hsub.2]
      exact .inr ⟨Nat.lt_succ_self _, rfl, rfl⟩

theorem LoopFrame.loopReturn (hk : s.consumers c = some k)
    (hctx : k.ctxDone = true → k'.ctxDone = true) : LoopFrame s (s.loopReturn c k') := by
  have h : LoopFrame s (s.setConsumer c { k' with phase := .returned }) :=
    LoopFrame.setConsumer hk hctx
  exact ⟨h.barriers, h.active, h.nextBarrier, h.nextSub, h.ctxDone, h.subs⟩

theorem LoopFrame.loopStart {kind : Kind} (h : s.loopStart c kind = some s') : LoopFrame s s' := by
  unfold State.loopStart at h
  split at h
  . contradiction
  . next hnone =>
    cases h
    refine ⟨rfl, rfl, rfl, Nat.le_refl _, ?_, fun _ _ => .inl⟩
    intro x ⟨k, hk, hdone⟩
    refine ⟨k, ?_, hdone⟩
    have hx : x ≠ c := by
      intro hx
      rw [hx, hnone] at hk
      contradiction
    simp [State.setConsumer, hx, hk]

theorem LoopFrame.open (hk : s.consumers c = some k)
    : LoopFrame s ((s.startPump c .consume).setConsumer c
        { k with phase := .selecting, cur := some s.nextSub }) := by
  apply (LoopFrame.startPump s c).trans
  apply LoopFrame.setConsumer (k := k)
  . exact hk
  . exact id

theorem loopStep_frame {a : LoopAction} (h : s.loopStep c a = some s')
    : LoopFrame s s' ∧ (s'.log = s.log ∨ s'.log = s.log ++ [.returned c]) := by
  unfold loopStep at h
  split at h
  . have hframe := LoopFrame.loopStart h
    unfold loopStart at h
    split at h
    . contradiction
    . rw [some.injEq] at h
      exact ⟨hframe, .inl (h ▸ rfl)⟩
  . contradiction
  . next k hk =>
    cases h
    exact ⟨LoopFrame.setConsumer hk (fun _ => rfl), .inl rfl⟩
  . next k hk =>
    unfold loopOpenFirst at h
    repeat' split at h
    all_goals simp only [some.injEq, reduceCtorEq] at h
    . exact h ▸ ⟨LoopFrame.open hk, .inl rfl⟩
    . exact h ▸ ⟨LoopFrame.loopReturn hk id, .inr rfl⟩
  . next k hk =>
    unfold loopStop at h
    split at h
    . cases h
      exact ⟨LoopFrame.loopReturn hk id, .inr rfl⟩
    . contradiction
  . next k hk =>
    unfold loopAdopt at h
    repeat' split at h
    all_goals simp only [some.injEq, reduceCtorEq] at h
    exact h ▸ ⟨LoopFrame.setConsumer hk id, .inl rfl⟩
  . next k hk =>
    unfold loopBrokerCancel at h
    repeat' split at h
    all_goals simp only [some.injEq, reduceCtorEq] at h
    exact h ▸ ⟨LoopFrame.loopReturn hk id, .inr rfl⟩
  . next k hk =>
    unfold loopClosed at h
    repeat' split at h
    all_goals simp only [some.injEq, reduceCtorEq] at h
    exact h ▸ ⟨LoopFrame.setConsumer hk id, .inl rfl⟩
  . next k hk =>
    unfold loopReopen at h
    repeat' split at h
    all_goals simp only [some.injEq, reduceCtorEq] at h
    . exact h ▸ ⟨LoopFrame.open hk, .inl rfl⟩
    . exact h ▸ ⟨LoopFrame.refl s, .inl rfl⟩

structure PumpFrame (s s' : State) (i : Nat) : Prop where
  barriers : s'.barriers = s.barriers
  active : s'.active = s.active
  nextBarrier : s'.nextBarrier = s.nextBarrier
  nextSub : s'.nextSub = s.nextSub
  log : s'.log = s.log
  ctxDone : ∀ c, s.consumeCtxDone c → s'.consumeCtxDone c
  subs : ∀ j, j ≠ i → s'.subs j = s.subs j

theorem PumpFrame.setSub (s : State) (i : Nat) (sub : Sub) : PumpFrame s (s.setSub i sub) i := by
  refine ⟨rfl, rfl, rfl, rfl, rfl, fun _ => id, ?_⟩
  intro j hj
  simp [State.setSub, hj]

theorem PumpFrame.forwardCancelReason (h : PumpFrame s s' i) (c : Nat)
    : PumpFrame s (s'.forwardCancelReason c) i := by
  unfold State.forwardCancelReason
  split
  . exact h
  . next k hk =>
    split
    . exact h
    . refine ⟨h.barriers, h.active, h.nextBarrier, h.nextSub, h.log, ?_, h.subs⟩
      intro x hx
      apply consumeCtxDone_setConsumer hk
      . exact id
      . exact h.ctxDone x hx

theorem forwardCancelReason_subs (s : State) (c : Nat)
    : (s.forwardCancelReason c).subs = s.subs := by
  unfold forwardCancelReason
  split
  . rfl
  . split <;> rfl

theorem pumpStep_frame {a : PumpAction} (h : s.pumpStep i a = some s')
    : PumpFrame s s' i ∧
        ∃ sub sub', s.subs i = some sub ∧ s'.subs i = some sub' ∧
          sub'.consumer = sub.consumer ∧ sub'.ctx = sub.ctx ∧
          (sub'.pump = sub.pump ∨ sub'.pump = .endedByStream ∨
            (sub'.pump = .endedByCtx ∧ sub.pump = .running ∧ s.pumpCtxDone sub)) := by
  unfold pumpStep at h
  split at h
  . contradiction
  . next cancelled sub hsub =>
    split at h
    . contradiction
    . cases h
      refine ⟨PumpFrame.setSub .., sub, { sub with streamEnded := true, cancelled }, hsub, ?_,
        rfl, rfl, .inl rfl⟩
      exact Function.update_self ..
  . next sub hsub =>
    split at h
    . cases h
      refine ⟨?_, sub, { sub with pump := .endedByStream }, hsub, ?_, rfl, rfl, .inr (.inl rfl)⟩
      . split
        . apply PumpFrame.forwardCancelReason
          apply PumpFrame.setSub
        . apply PumpFrame.setSub
      . split
        . rw [forwardCancelReason_subs]
          simp [setSub]
        . simp [setSub]
    . contradiction
  . next sub hsub =>
    split at h
    . next hctx =>
      cases h
      refine ⟨PumpFrame.setSub .., sub, { sub with pump := .endedByCtx }, hsub, ?_, rfl, rfl, ?_⟩
      . simp [setSub]
      . exact .inr (.inr ⟨rfl, hctx⟩)
    . contradiction

structure HookFrame (s s' : State) (b : Nat) (a : HookAction) : Prop where
  nextBarrier : s'.nextBarrier = s.nextBarrier
  nextSub : s.nextSub ≤ s'.nextSub
  hookCtx : ∀ b' run', s'.barriers b' = some run' →
    ∃ run, s.barriers b' = some run ∧ run'.hookCtxDone = run.hookCtxDone
  ctxDone : ∀ c, s.consumeCtxDone c → s'.consumeCtxDone c
  subs : ∀ i sub, s'.subs i = some sub → s.subs i = some sub ∨
    (i < s'.nextSub ∧ sub.pump = .running ∧ a = .openSub .ok ∧
      ∃ run rest k, s.barriers b = some run ∧ run.rest = .resubscribe sub.consumer :: rest ∧
        s.consumers sub.consumer = some k ∧
        sub.ctx = match k.kind with
          | .consumer => .consume
          | .batchConsumer => .hook b)

theorem HookFrame.setBarrier {run' : HookRun} (hrun : s.barriers b = some run)
    (hctx : run'.hookCtxDone = run.hookCtxDone) : HookFrame s (s.setBarrier b run') b a := by
  refine ⟨rfl, Nat.le_refl _, ?_, fun _ => id, fun _ _ => .inl⟩
  intro b' r hr
  simp only [State.setBarrier, Function.update_apply] at hr
  split at hr
  . next hb =>
    rw [some.injEq] at hr
    rw [hb, ← hr]
    exact ⟨run, hrun, hctx⟩
  . exact ⟨r, hr, rfl⟩

theorem HookFrame.emit (h : HookFrame s s' b a) (e : Event) : HookFrame s (s'.emit e) b a :=
  ⟨h.nextBarrier, h.nextSub, h.hookCtx, h.ctxDone, h.subs⟩

theorem HookFrame.hookOpenSub {rest : List Hook} {r : OpenResult} (hrun : s.barriers b = some run)
    (hrest : run.rest = .resubscribe c :: rest) (hstep : s.hookOpenSub b run c r = some s')
    : HookFrame s s' b (.openSub r) := by
  have hfail : HookFrame s (s.hookFail b run (.resubscribe c)) b (.openSub r) :=
    HookFrame.setBarrier hrun rfl
  unfold State.hookOpenSub at hstep
  split at hstep
  . contradiction
  . next k hk =>
    dsimp only at hstep
    split at hstep
    . cases hstep
      apply HookFrame.emit
      have hset : HookFrame s (s.setBarrier b { run with pc := .sending s.nextSub }) b
        (.openSub .ok) := HookFrame.setBarrier hrun rfl
      refine ⟨rfl, Nat.le_succ _, hset.hookCtx, hset.ctxDone, ?_⟩
      intro i sub hsub
      cases startPump_subs hsub with
      | inl hsub => exact .inl hsub
      | inr hsub =>
        right
        rw [hsub.1, hsub.2]
        exact ⟨Nat.lt_succ_self _, rfl, rfl, run, rest, k, hrun, hrest, hk, rfl⟩
    . cases hstep
      exact hfail.emit _
    . cases hstep
      exact hfail

theorem HookFrame.hookSend {sub : Nat} {rest : List Hook} (hrun : s.barriers b = some run)
    (hstep : s.hookSend b run c sub rest = some s') : HookFrame s s' b a := by
  unfold State.hookSend at hstep
  split at hstep
  . contradiction
  . next k hk =>
    split at hstep
    . contradiction
    . next resubCh hsend =>
      cases hstep
      have hset : HookFrame s (s.hookReturn b run rest) b a := HookFrame.setBarrier hrun rfl
      refine ⟨rfl, Nat.le_refl _, hset.hookCtx, ?_, fun _ _ => .inl⟩
      intro x hx
      have hk' : k.ctxDone = true → { k with resubCh }.ctxDone = true := id
      exact consumeCtxDone_setConsumer hk hk' hx

theorem hookStep_frame (hstep : s.hookStep b a = some s') : HookFrame s s' b a := by
  unfold hookStep at hstep
  split at hstep
  . contradiction
  . next run hrun =>
    split at hstep
    . contradiction
    . split at hstep
      . cases hstep
        exact HookFrame.setBarrier hrun rfl
      . cases hstep
        exact HookFrame.setBarrier hrun rfl
      . cases hstep
        exact HookFrame.setBarrier hrun rfl
      . split at hstep
        . cases hstep
          exact HookFrame.setBarrier hrun rfl
        . contradiction
      . next hrest hpc => exact HookFrame.hookOpenSub hrun hrest hstep
      . exact HookFrame.hookSend hrun hstep
      . split at hstep
        . cases hstep
          exact HookFrame.setBarrier hrun rfl
        . contradiction
      . contradiction

end State
end Barrier
