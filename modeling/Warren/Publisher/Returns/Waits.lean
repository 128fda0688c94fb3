import Warren.Base.Run
import Warren.Confirms.Tracker.Refinement
import Warren.Publisher.Returns.Impl

/-!
The steps of a `Wait` in terms of the specification of the tracker.
-/

namespace Publisher

open Function Option

variable {σ σ' : Confirms.Spec} {tag : Nat} {err : Option Confirms.Err}

def WaitMove (σ σ' : Confirms.Spec) (tag : Nat) : Prop :=
  (σ'.entries = σ.entries ∧ σ'.kept = σ.kept ∧ σ'.results = σ.results ∧
    ∀ x, σ'.waiting x = true → σ.waiting x = true ∨ x = tag) ∨
  ∃ err, σ' = σ.finish tag err ∧ (σ.left tag = some err ∨ err = some .timeout ∨ err = some .ctx)

theorem WaitMove.refl (σ : Confirms.Spec) (tag : Nat) : WaitMove σ σ tag :=
  .inl ⟨rfl, rfl, rfl, fun _ => .inl⟩

theorem waitBegin_eq (h : σ.waitBegin tag = some σ')
    : σ' = { σ with waiting := update σ.waiting tag true } := by
  unfold Confirms.Spec.waitBegin at h
  split at h
  . contradiction
  . rw [some.injEq] at h
    exact h.symm

theorem WaitMove.of_waitBegin (h : σ.waitBegin tag = some σ') : WaitMove σ σ' tag := by
  left
  rw [waitBegin_eq h]
  refine ⟨rfl, rfl, rfl, ?_⟩
  intro x hx
  dsimp only at hx
  rw [update_apply] at hx
  split at hx
  . next heq => exact .inr heq
  . exact .inl hx

theorem WaitMove.of_waitEnd (h : σ.waitEnd tag err = some σ') : WaitMove σ σ' tag := by
  unfold Confirms.Spec.waitEnd at h
  split at h
  . next hleft =>
    rw [some.injEq] at h
    exact .inr ⟨err, h.symm, hleft.2⟩
  . contradiction

theorem WaitMove.of_waitBegin_waitEnd {σ₁ : Confirms.Spec} (hbegin : σ.waitBegin tag = some σ₁)
    (hend : σ₁.waitEnd tag err = some σ') : WaitMove σ σ' tag := by
  have hσ₁ := waitBegin_eq hbegin
  unfold Confirms.Spec.waitEnd at hend
  split at hend
  . next hleft =>
    rw [some.injEq] at hend
    rw [hσ₁] at hend hleft
    refine .inr ⟨err, ?_, hleft.2⟩
    rw [← hend]
    simp [Confirms.Spec.finish, Confirms.Spec.remove]
  . contradiction

theorem exists_waitMove {c c' : Confirms.State} (h : c.Models σ) {w : WaitStep} {timeout : Int}
    (hstep : c.step (w.action tag timeout) = some c') : ∃ σ', c'.Models σ' ∧ WaitMove σ σ' tag := by
  cases w with
  | begin =>
    obtain ⟨σ', hrun, hmodels⟩ := h.step_waitBegin hstep
    refine ⟨σ', hmodels, ?_⟩
    simp only [Confirms.State.specActions] at hrun
    split at hrun
    . obtain ⟨σ₁, hbegin, hrest⟩ := Run.exists_step_of_run_cons hrun
      obtain ⟨σ₂, hend, hnil⟩ := Run.exists_step_of_run_cons hrest
      rw [Run.run_nil] at hnil
      cases hnil
      exact WaitMove.of_waitBegin_waitEnd hbegin hend
    . obtain ⟨σ₁, hbegin, hnil⟩ := Run.exists_step_of_run_cons hrun
      rw [Run.run_nil] at hnil
      cases hnil
      exact WaitMove.of_waitBegin hbegin
  | done => exact ⟨σ, h.step_waitDone hstep, WaitMove.refl σ tag⟩
  | timer => exact ⟨σ, h.step_waitExpire (.inl rfl) hstep, WaitMove.refl σ tag⟩
  | ctx => exact ⟨σ, h.step_waitExpire (.inr rfl) hstep, WaitMove.refl σ tag⟩
  | delete =>
    obtain ⟨σ', hrun, hmodels⟩ := h.step_waitDelete hstep
    refine ⟨σ', hmodels, ?_⟩
    simp only [Confirms.State.specActions] at hrun
    split at hrun
    . obtain ⟨σ₁, hend, hnil⟩ := Run.exists_step_of_run_cons hrun
      rw [Run.run_nil] at hnil
      cases hnil
      exact WaitMove.of_waitEnd hend
    . obtain ⟨σ₁, hend, hnil⟩ := Run.exists_step_of_run_cons hrun
      rw [Run.run_nil] at hnil
      cases hnil
      exact WaitMove.of_waitEnd hend
    . rw [Run.run_nil] at hrun
      cases hrun
      exact WaitMove.refl σ tag

end Publisher
