import Mathlib.Data.List.Basic

/-!
Runs of a system that is given by a partial step function: `step s a = none` says that `a` is not
enabled in `s`.
-/

namespace Run

variable {σ α : Type}

def run (step : σ → α → Option σ) : σ → List α → Option σ
  | s, [] => some s
  | s, a :: as =>
    match step s a with
    | none => none
    | some s' => run step s' as

def Along (step : σ → α → Option σ) (P : σ → α → Prop) : σ → List α → Prop
  | _, [] => True
  | s, a :: as =>
    P s a ∧
    match step s a with
    | none => True
    | some s' => Along step P s' as

instance Along.decidable (step : σ → α → Option σ) (P : σ → α → Prop) [∀ s a, Decidable (P s a)]
    : ∀ s as, Decidable (Along step P s as)
  | _, [] => inferInstanceAs (Decidable True)
  | s, a :: as =>
    match h : step s a with
    | none => decidable_of_iff (P s a) (by simp [Along, h])
    | some s' =>
      have := Along.decidable step P s' as
      decidable_of_iff (P s a ∧ Along step P s' as) (by simp [Along, h])

variable {step : σ → α → Option σ} {P : σ → α → Prop} {I : σ → Prop}

@[simp]
theorem run_nil (s : σ) : run step s [] = some s := rfl

variable {a : α} {as : List α}

theorem run_cons_of_step {s s' : σ} (as : List α) (h : step s a = some s')
    : run step s (a :: as) = run step s' as := by
  simp [run, h]

theorem run_singleton_of_step {s s' : σ} (h : step s a = some s') : run step s [a] = some s' := by
  simp [run, h]

theorem exists_step_of_run_cons {s t : σ} (h : run step s (a :: as) = some t)
    : ∃ s', step s a = some s' ∧ run step s' as = some t := by
  unfold run at h
  split at h
  . contradiction
  . next s' hs => exact ⟨s', hs, h⟩

theorem run_append (s : σ) (as bs : List α)
    : run step s (as ++ bs) = (run step s as).bind (fun t => run step t bs) := by
  induction as generalizing s with
  | nil => simp
  | cons a as ih =>
    rw [List.cons_append]
    cases hs : step s a with
    | none => simp [run, hs]
    | some s' =>
      rw [run_cons_of_step _ hs, run_cons_of_step _ hs]
      apply ih

theorem along_cons_of_step {s s' : σ} (h : step s a = some s')
    : Along step P s (a :: as) ↔ P s a ∧ Along step P s' as := by
  simp [Along, h]

theorem along_singleton {s : σ} (h : P s a) : Along step P s [a] := by
  cases hs : step s a with
  | none => simp [Along, hs, h]
  | some s' => simp [Along, hs, h]

theorem along_of_forall_mem (h : ∀ a ∈ as, ∀ s, P s a) (s : σ) : Along step P s as := by
  induction as generalizing s with
  | nil => trivial
  | cons a as ih =>
    have ha : P s a := h a (by simp) s
    cases hs : step s a with
    | none => simp [Along, hs, ha]
    | some s' =>
      rw [along_cons_of_step hs]
      exact ⟨ha, ih (fun b hb => h b (by simp [hb])) s'⟩

theorem inv_of_run (hI : ∀ s a s', I s → P s a → step s a = some s' → I s') {s t : σ} (hs : I s)
    (hP : Along step P s as) (hrun : run step s as = some t) : I t := by
  induction as generalizing s with
  | nil =>
    simp only [run_nil, Option.some.injEq] at hrun
    rwa [← hrun]
  | cons a as ih =>
    have ⟨s', hstep, hrest⟩ := exists_step_of_run_cons hrun
    rw [along_cons_of_step hstep] at hP
    exact ih (hI s a s' hs hP.1 hstep) hP.2 hrest

theorem inv_of_steps (hI : ∀ s a s', I s → step s a = some s' → I s') {s t : σ} (hs : I s)
    (hrun : run step s as = some t) : I t :=
  inv_of_run (P := fun _ _ => True) (fun s a s' h _ => hI s a s' h) hs
    (along_of_forall_mem (fun _ _ _ => trivial) s) hrun

def Reaches (step : σ → α → Option σ) (A : α → Prop) (s t : σ) : Prop :=
  ∃ as, (∀ a ∈ as, A a) ∧ run step s as = some t

variable {A : α → Prop} {s t u : σ}

theorem Reaches.refl (s : σ) : Reaches step A s s := ⟨[], by simp, rfl⟩

theorem Reaches.of_step (ha : A a) (hstep : step s a = some t) : Reaches step A s t :=
  ⟨[a], by simpa using ha, run_singleton_of_step hstep⟩

theorem Reaches.trans (hst : Reaches step A s t) (htu : Reaches step A t u)
    : Reaches step A s u := by
  have ⟨as, has, hrun⟩ := hst
  have ⟨bs, hbs, hrun'⟩ := htu
  refine ⟨as ++ bs, ?_, ?_⟩
  . intro a ha
    cases List.mem_append.mp ha with
    | inl ha => exact has a ha
    | inr ha => exact hbs a ha
  . rw [run_append, hrun]
    exact hrun'

variable {τ β : Type} {step' : τ → β → Option τ} {obs : σ → α → List β} {R : σ → τ → Prop}

def observed (step : σ → α → Option σ) (obs : σ → α → List β) : σ → List α → List β
  | _, [] => []
  | s, a :: as =>
    obs s a ++
    match step s a with
    | none => []
    | some s' => observed step obs s' as

theorem observed_cons_of_step {s s' : σ} (as : List α) (h : step s a = some s')
    : observed step obs s (a :: as) = obs s a ++ observed step obs s' as := by
  simp [observed, h]

theorem simulation_of_run
    (hR : ∀ s a s' t, R s t → P s a → step s a = some s' →
      ∃ t', run step' t (obs s a) = some t' ∧ R s' t') {s s' : σ} {t : τ} (hs : R s t)
    (hP : Along step P s as) (hrun : run step s as = some s')
    : ∃ t', run step' t (observed step obs s as) = some t' ∧ R s' t' := by
  induction as generalizing s t with
  | nil =>
    simp only [run_nil, Option.some.injEq] at hrun
    exact ⟨t, rfl, hrun ▸ hs⟩
  | cons a as ih =>
    have ⟨u, hstep, hrest⟩ := exists_step_of_run_cons hrun
    rw [along_cons_of_step hstep] at hP
    have ⟨v, hv, huv⟩ := hR s a u t hs hP.1 hstep
    have ⟨t', ht', hst⟩ := ih huv hP.2 hrest
    refine ⟨t', ?_, hst⟩
    rw [observed_cons_of_step _ hstep, run_append, hv]
    exact ht'

end Run

namespace Trace

theorem concat_sublist_concat_iff {α : Type} (l log : List α) (x e : α)
    : (l ++ [x]).Sublist (log ++ [e]) ↔ (l ++ [x]).Sublist log ∨ (x = e ∧ l.Sublist log) := by
  grind [List.reverse_append, List.reverse_cons, List.reverse_nil, List.singleton_append]

theorem split_of_concat_eq {α : Type} {log pre post : List α} {x e : α}
    (h : log ++ [e] = pre ++ x :: post)
    : (pre = log ∧ x = e) ∨ ∃ post', log = pre ++ x :: post' := by
  cases post.eq_nil_or_concat with
  | inl hnil =>
    rw [hnil, List.append_singleton_inj] at h
    exact .inl ⟨h.1.symm, h.2.symm⟩
  | inr hconcat =>
    have ⟨post', y, hpost⟩ := hconcat
    rw [hpost, List.concat_eq_append, ← List.cons_append, ← List.append_assoc,
      List.append_singleton_inj] at h
    exact .inr ⟨post', h.1⟩

end Trace
