import Warren.Confirms.Tracker.Refinement

/-!
What a nil from `Wait` says: an ack of the broker has covered the tag since it was registered.
-/

namespace Confirms

open Function Option

namespace Spec

variable {σ σ' : Spec} {tag x : Nat}

theorem left_of_mapEntries {covered : Nat → Bool} {f : Entry → Entry}
    (hf : ∀ e, covered x = true → (f e).verdict = some none → e.verdict = some none)
    (h : (σ.mapEntries covered f).left x = some none) : σ.left x = some none := by
  unfold left mapEntries at h
  unfold left
  grind

theorem verdict_of_resolve {e : Entry} {err : Err}
    (h : (e.resolve (some err)).verdict = some none) : e.verdict = some none := by
  unfold Entry.resolve at h
  cases hverdict : e.verdict with
  | some v => simpa [hverdict] using h
  | none => simp [hverdict, Entry.outcome] at h

theorem verdict_of_close {e : Entry} (h : e.close.verdict = some none) : e.verdict = some none := by
  unfold Entry.close at h
  cases hverdict : e.verdict with
  | some v => simpa [hverdict] using h
  | none => simp [hverdict] at h

theorem left_of_finish {err : Option Err} (h : (σ.finish tag err).left x = some none)
    : σ.left x = some none := by
  unfold left finish remove at h
  by_cases hx : x = tag
  . simp [hx] at h
  . unfold left
    simpa [hx] using h

theorem left_of_cancel (hkept : ∀ e, σ.entries tag = some e → σ.kept tag = none)
    (h : (σ.cancel tag).left x = some none) : σ.left x = some none := by
  by_cases hx : x = tag
  . subst hx
    unfold cancel at h
    split at h
    . exact h
    . next e hentry =>
      have hnone := hkept e hentry
      split at h
      . have hclose : e.close.verdict = some none := by
          simpa [left, remove, Entry.close] using h
        simpa only [left, hnone, hentry] using verdict_of_close hclose
      . simp [left, remove, hnone] at h
  . obtain ⟨hentry, hkept⟩ := σ.cancel_of_ne hx
    unfold left at h ⊢
    rwa [hentry, hkept] at h

def Action.waits : Action → Bool
  | .waitBegin _ => true
  | .waitEnd _ _ => true
  | _ => false

theorem left_of_waits {as : List Action} (has : ∀ a ∈ as, a.waits = true)
    (hrun : Run.run step σ as = some σ') (h : σ'.left x = some none) : σ.left x = some none := by
  have hstep : ∀ τ a τ', (τ.left x = some none → σ.left x = some none) → a.waits = true →
      step τ a = some τ' → τ'.left x = some none → σ.left x = some none := by
    intro τ a τ' ih ha hstep hleft
    cases a with
    | waitBegin tag =>
      simp only [step, waitBegin] at hstep
      split at hstep
      . contradiction
      . rw [← some.inj hstep] at hleft
        exact ih hleft
    | waitEnd tag err =>
      simp only [step, waitEnd] at hstep
      split at hstep
      . rw [← some.inj hstep] at hleft
        exact ih (left_of_finish hleft)
      . contradiction
    | _ => contradiction
  have halong : Run.Along step (fun _ a => Action.waits a = true) σ as :=
    Run.along_of_forall_mem (fun a ha _ => has a ha) σ
  exact Run.inv_of_run (I := fun τ => τ.left x = some none → σ.left x = some none) hstep id halong
    hrun h

end Spec

namespace State

variable {s s' : State} {σ : Spec} {acked : Nat → Bool}

variable {tag : Nat} {a : Action}

theorem Models.kept_of_entry (h : s.Models σ) {e : Entry} (hentry : σ.entries tag = some e)
    : σ.kept tag = none := by
  have htag := h.tags tag
  cases hpending : s.tracker.pending.lookup tag with
  | some p => exact (htag.registered p hpending).1
  | none =>
    have ⟨v, _, hfixed⟩ := htag.removed hpending
    exact (hfixed.entry e hentry).2

-- the tags that an ack has covered since they were registered
def ackedAfter (s : State) (acked : Nat → Bool) : Action → Nat → Bool
  | .register tag => if s.tracker.closed then acked else update acked tag false
  | .ack tag multiple => fun x => acked x || Spec.covers tag multiple x
  | _ => acked

def Acked (s : State) (acked : Nat → Bool) : Prop := ∀ tag, s.left tag = some none → acked tag = true

theorem acked_init : State.init.Acked (fun _ => false) := by
  intro tag h
  have hclosed : init.left tag = some (some .closed) := left_of_absent rfl rfl
  rw [hclosed] at h
  contradiction

theorem Acked.of_spec (hacked : s.Acked acked) (h : s.Models σ) {σ' : Spec} (h' : s'.Models σ')
    (hleft : ∀ x, σ'.left x = some none → σ.left x = some none) : s'.Acked acked := by
  intro x hx
  rw [(h'.tags x).left_eq] at hx
  refine hacked x ?_
  rw [(h.tags x).left_eq]
  exact hleft x hx

theorem Acked.register (hacked : s.Acked acked) (h : s.Models σ) (hwait : s.waits tag = none)
    : Acked { s with tracker := (s.tracker.register tag).1 } (s.ackedAfter acked (.register tag)) := by
  have hkept := (h.tags tag).kept hwait
  have h' := h.register hwait
  intro x hx
  rw [(h'.tags x).left_eq] at hx
  unfold Spec.register at hx
  dsimp only [ackedAfter]
  rw [h.closed] at hx
  split at hx
  . next hclosed =>
    rw [if_pos hclosed]
    exact hacked x ((h.tags x).left_eq.trans hx)
  . next hclosed =>
    rw [if_neg hclosed]
    unfold Spec.left at hx
    by_cases heq : x = tag
    . subst heq
      simp [hkept, Entry.fresh] at hx
    . rw [update_of_ne heq]
      refine hacked x ((h.tags x).left_eq.trans ?_)
      unfold Spec.left
      simpa [heq] using hx

theorem Acked.ack (hacked : s.Acked acked) (h : s.Models σ) {multiple : Bool} {σ' : Spec}
    (h' : s'.Models σ') (hσ : σ' = σ.frame tag multiple none)
    : s'.Acked (s.ackedAfter acked (.ack tag multiple)) := by
  intro x hx
  rw [(h'.tags x).left_eq, hσ] at hx
  cases hcovers : Spec.covers tag multiple x with
  | true => simp [ackedAfter, hcovers]
  | false =>
    have hleft := Spec.left_of_mapEntries (fun e hcovered => by simp [hcovers] at hcovered) hx
    simp [ackedAfter, hacked x ((h.tags x).left_eq.trans hleft)]

theorem Acked.step (hacked : s.Acked acked) (h : s.Models σ) (ha : s.Registrable a)
    (hstep : s.step a = some s') : ∃ σ', s'.Models σ' ∧ s'.Acked (s.ackedAfter acked a) := by
  have ⟨σ', hrun, h'⟩ := h.step ha hstep
  refine ⟨σ', h', ?_⟩
  cases a with
  | register tag =>
    rw [← some.inj hstep]
    exact hacked.register h ha
  | ack tag multiple => exact hacked.ack h h' (some.inj hrun).symm
  | markReturned tag replyCode =>
    refine hacked.of_spec h h' ?_
    rw [← some.inj hrun]
    exact fun x => Spec.left_of_mapEntries (fun _ _ => id)
  | nack tag multiple =>
    refine hacked.of_spec h h' ?_
    rw [← some.inj hrun]
    exact fun x => Spec.left_of_mapEntries (fun _ _ => Spec.verdict_of_resolve)
  | closeAll =>
    refine hacked.of_spec h h' ?_
    rw [← some.inj hrun]
    intro x hx
    have hleft : (σ.mapEntries (fun _ => true) Entry.close).left x = some none := hx
    exact Spec.left_of_mapEntries (fun _ _ => Spec.verdict_of_close) hleft
  | cancel tag =>
    refine hacked.of_spec h h' ?_
    rw [← some.inj hrun]
    exact fun x => Spec.left_of_cancel (fun _ => h.kept_of_entry)
  | waitBegin tag timeout =>
    refine hacked.of_spec h h' (fun x => Spec.left_of_waits ?_ hrun)
    simp only [specActions]
    split
    all_goals simp [Spec.Action.waits]
  | waitDelete tag =>
    refine hacked.of_spec h h' (fun x => Spec.left_of_waits ?_ hrun)
    simp only [specActions]
    split
    . simp [Spec.Action.waits]
    . simp [Spec.Action.waits]
    . simp
  | waitDone tag | waitTimer tag | waitCtx tag =>
    refine hacked.of_spec h h' ?_
    rw [← some.inj hrun]
    exact fun x => id

theorem waits_of_step (hstep : s.step a = some s') (hwait : s'.waits tag ≠ none)
    : s.waits tag ≠ none ∨ ∃ timeout, a = .waitBegin tag timeout := by
  have hset {x : Nat} {c : WaitCall} {w : Option WaitCall} (hx : s.waits x = some c)
      (hupdate : update s.waits x w tag ≠ none) : s.waits tag ≠ none := by
    by_cases heq : tag = x
    . rw [heq, hx]
      nofun
    . rwa [update_of_ne heq] at hupdate
  cases a with
  | waitBegin x timeout =>
    simp only [step, waitBegin] at hstep
    split at hstep
    . contradiction
    . split at hstep
      . rw [← some.inj hstep] at hwait
        exact .inl hwait
      . rw [← some.inj hstep] at hwait
        by_cases heq : tag = x
        . exact .inr ⟨timeout, by rw [heq]⟩
        . simp only [setWait, update_of_ne heq] at hwait
          exact .inl hwait
  | waitDone x =>
    simp only [step, waitDone] at hstep
    split at hstep
    . next hx =>
      split at hstep
      . rw [← some.inj hstep] at hwait
        exact .inl (hset hx hwait)
      . contradiction
    . contradiction
  | waitTimer x | waitCtx x =>
    simp only [step, waitExpire] at hstep
    split at hstep
    . next hx =>
      split at hstep
      . rw [← some.inj hstep] at hwait
        exact .inl (hset hx hwait)
      . contradiction
    . contradiction
  | waitDelete x =>
    simp only [step, waitDelete] at hstep
    split at hstep
    . next hx =>
      rw [← some.inj hstep] at hwait
      exact .inl (hset hx hwait)
    . next hx =>
      rw [← some.inj hstep] at hwait
      exact .inl (hset hx hwait)
    . contradiction
  | _ =>
    rw [← some.inj hstep] at hwait
    exact .inl hwait

theorem drop_results_of_eq (h : s'.results = s.results) : s'.results.drop s.results.length = [] := by
  rw [h, List.drop_length]

theorem left_of_result (hstep : s.step a = some s') {x : Nat} {rest : List (Nat × Option Err)}
    (hresult : s'.results.drop s.results.length = (x, none) :: rest)
    : ∃ tag, a = .waitDelete tag ∧ s.left tag = some none := by
  have hsame (h : s'.results = s.results) : False := by
    rw [drop_results_of_eq h] at hresult
    contradiction
  have hnew {tag : Nat} {err : Option Err} (h : s'.results = s.results ++ [(tag, err)])
      : err = none := by
    rw [h, List.drop_left, List.cons.injEq, Prod.mk.injEq] at hresult
    exact hresult.1.2
  cases a with
  | waitBegin tag timeout =>
    simp only [step, waitBegin] at hstep
    split at hstep
    . contradiction
    . split at hstep
      . rw [← some.inj hstep] at hnew
        exact absurd (hnew rfl) (Option.some_ne_none _)
      . exact (hsame (by rw [← some.inj hstep]; rfl)).elim
  | waitDone tag =>
    simp only [step, waitDone] at hstep
    split at hstep
    . split at hstep
      . exact (hsame (by rw [← some.inj hstep]; rfl)).elim
      . contradiction
    . contradiction
  | waitTimer tag | waitCtx tag =>
    simp only [step, waitExpire] at hstep
    split at hstep
    . split at hstep
      . exact (hsame (by rw [← some.inj hstep]; rfl)).elim
      . contradiction
    . contradiction
  | waitDelete tag =>
    refine ⟨tag, rfl, ?_⟩
    simp only [step, waitDelete] at hstep
    split at hstep
    . next hwait =>
      rw [← some.inj hstep] at hnew
      simp [left, hwait, hnew rfl]
    . rw [← some.inj hstep] at hnew
      exact absurd (hnew rfl) (Option.some_ne_none _)
    . contradiction
  | _ => exact (hsame (by rw [← some.inj hstep])).elim

end State
end Confirms
