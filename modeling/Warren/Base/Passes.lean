import Mathlib.Data.List.Basic
import Mathlib.Logic.Function.Basic
import Warren.Base.Run

/-!
Tasks that are called in the order of their registration. A pass calls the tasks that are registered
when it starts, up to the first one that fails.
-/

namespace Passes

open List Option

variable {κ : Type}

-- a task may act any number of times while it runs
inductive Event (κ : Type) where
  | registered (k : κ)
  | started (p : Nat)
  | acted (p : Nat) (k : κ)
  | returned (p : Nat) (k : κ)
  | failed (p : Nat) (k : κ)
  deriving DecidableEq, Repr

structure State (κ : Type) where
  tasks : List κ
  running : Nat → Option (List κ)
  next : Nat
  log : List (Event κ)

namespace State

def init : State κ := ⟨[], fun _ => none, 0, []⟩

def current (s : State κ) (p : Nat) : Option κ := (s.running p).bind head?

def setRunning (s : State κ) (p : Nat) (rest : Option (List κ)) : State κ :=
  { s with running := Function.update s.running p rest }

def effect [DecidableEq κ] (s : State κ) : Event κ → Option (State κ)
  | .registered k => some { s with tasks := s.tasks ++ [k] }
  | .started p =>
    if p = s.next then some { s.setRunning p (some s.tasks) with next := p + 1 } else none
  | .acted p k => if s.current p = some k then some s else none
  | .returned p k =>
    if s.current p = some k then some (s.setRunning p ((s.running p).map tail)) else none
  | .failed p k => if s.current p = some k then some (s.setRunning p none) else none

def step [DecidableEq κ] (s : State κ) (e : Event κ) : Option (State κ) :=
  (s.effect e).map (fun t => { t with log := s.log ++ [e] })

end State

namespace Event

def pass? : Event κ → Option Nat
  | .registered _ => none
  | .started p | .acted p _ | .returned p _ | .failed p _ => some p

end Event

def RunsFirst (x y : κ) (log : List (Event κ)) : Prop :=
  ∀ p pre post, log = pre ++ .acted p y :: post →
    ([.registered x, .started p].Sublist pre → .returned p x ∈ pre) ∧ .failed p x ∉ log

structure Serves (x y : κ) (log : List (Event κ)) (p : Nat) (rest : List κ) : Prop where
  ordered : ¬[y, x].Sublist rest
  pending : [.registered x, .started p].Sublist log → x ∈ rest ∨ .returned p x ∈ log
  acted : .acted p y ∈ log → x ∉ rest
  failed : .failed p x ∉ log

namespace State

structure Inv (x y : κ) (s : State κ) : Prop where
  tasks : ∀ k, k ∈ s.tasks ↔ .registered k ∈ s.log
  ordered : ¬[y, x].Sublist s.tasks
  fresh : ∀ p, s.next ≤ p → s.running p = none ∧ ∀ e ∈ s.log, e.pass? ≠ some p
  serves : ∀ p rest, s.running p = some rest → Serves x y s.log p rest
  runsFirst : RunsFirst x y s.log

end State

variable {x y : κ} {log : List (Event κ)} {e : Event κ} {p : Nat} {rest : List κ}

theorem sublist_concat_of_ne (hp : e ≠ .started p)
    : [.registered x, .started p].Sublist (log ++ [e]) ↔
      [.registered x, .started p].Sublist log := by
  have := Trace.concat_sublist_concat_iff [.registered x] log (.started p) e
  simp only [cons_append, nil_append] at this
  rw [this]
  simp [Ne.symm hp]

theorem Serves.concat (h : Serves x y log p rest) (hp : e.pass? ≠ some p)
    : Serves x y (log ++ [e]) p rest := by
  have hne (e' : Event κ) (he' : e'.pass? = some p) : e' ≠ e := by
    rintro rfl
    exact hp he'
  refine ⟨h.ordered, ?_, ?_, ?_⟩
  . rw [sublist_concat_of_ne (hne (.started p) rfl).symm]
    intro hreg
    exact (h.pending hreg).imp_right (mem_append_left _)
  . simpa [hne (.acted p y) rfl] using h.acted
  . simpa [hne (.failed p x) rfl] using h.failed

theorem RunsFirst.concat (h : RunsFirst x y log) (hacted : ∀ p, e ≠ .acted p y)
    (hfailed : ∀ p, e = .failed p x → .acted p y ∉ log) : RunsFirst x y (log ++ [e]) := by
  intro p pre post heq
  cases Trace.split_of_concat_eq heq with
  | inl hlast => exact absurd hlast.2.symm (hacted p)
  | inr hold =>
    have ⟨post', hlog⟩ := hold
    refine ⟨(h p pre post' hlog).1, ?_⟩
    have hmem : .acted p y ∈ log := by simp [hlog]
    have hne : .failed p x ≠ e := fun he => hfailed p he.symm hmem
    simpa [hne] using (h p pre post' hlog).2

theorem Serves.acts (h : Serves x y log p (y :: rest)) (hxy : x ≠ y) : x ∉ y :: rest := by
  intro hmem
  apply h.ordered
  have hrest : x ∈ rest := (mem_cons.mp hmem).resolve_left hxy
  exact (singleton_sublist.mpr hrest).cons_cons y

namespace State

variable {s : State κ}

theorem inv_init (x y : κ) : (init : State κ).Inv x y := by
  constructor <;> simp [init, RunsFirst]

variable {k : κ}

theorem Inv.registered (h : s.Inv x y) (hfirst : k = x → .registered y ∉ s.log)
    : Inv x y { s with tasks := s.tasks ++ [k], log := s.log ++ [.registered k] } := by
  constructor
  . intro k'
    simp [h.tasks k']
  . have := Trace.concat_sublist_concat_iff [y] s.tasks x k
    simp only [cons_append, nil_append] at this
    rw [this]
    intro hsub
    cases hsub with
    | inl hold => exact h.ordered hold
    | inr hlast => exact hfirst hlast.1.symm ((h.tasks y).mp (singleton_sublist.mp hlast.2))
  . intro p hp
    refine ⟨(h.fresh p hp).1, ?_⟩
    simpa [or_imp, forall_and, Event.pass?] using (h.fresh p hp).2
  . intro p rest hrun
    exact (h.serves p rest hrun).concat (by simp [Event.pass?])
  . exact h.runsFirst.concat (by simp) (by simp)

theorem Inv.setRunning (h : s.Inv x y) {next : Nat} (hp : p < next) (hnext : s.next ≤ next)
    (he : e.pass? = some p) {rest : Option (List κ)}
    (hrest : ∀ r, rest = some r → Serves x y (s.log ++ [e]) p r)
    (hfirst : RunsFirst x y (s.log ++ [e]))
    : Inv x y { s.setRunning p rest with next, log := s.log ++ [e] } := by
  constructor
  . intro k
    have hne : .registered k ≠ e := by
      rintro rfl
      simp [Event.pass?] at he
    simp [State.setRunning, h.tasks k, hne]
  . exact h.ordered
  . intro q hq
    have hle : next ≤ q := hq
    have hne : q ≠ p := Nat.ne_of_gt (Nat.lt_of_lt_of_le hp hle)
    have hfresh := h.fresh q (Nat.le_trans hnext hle)
    refine ⟨by simpa [State.setRunning, hne] using hfresh.1, ?_⟩
    intro e' he'
    cases mem_append.mp he' with
    | inl hold => exact hfresh.2 e' hold
    | inr hlast =>
      rw [mem_singleton.mp hlast, he]
      simp [hne.symm]
  . intro q r hr
    by_cases hq : q = p
    . subst hq
      simp only [State.setRunning, Function.update_self] at hr
      exact hrest r hr
    . simp only [State.setRunning, Function.update_of_ne hq] at hr
      exact (h.serves q r hr).concat (by simp [he, Ne.symm hq])
  . exact hfirst

theorem Inv.lt_next (h : s.Inv x y) (hp : s.running p = some rest) : p < s.next := by
  by_contra hle
  simp [(h.fresh p (Nat.le_of_not_lt hle)).1] at hp

theorem exists_of_current (h : s.current p = some k) : ∃ rest, s.running p = some (k :: rest) := by
  have ⟨l, hl, hhead⟩ := bind_eq_some_iff.mp h
  cases l with
  | nil => contradiction
  | cons k' rest =>
    cases hhead
    exact ⟨rest, hl⟩

theorem Inv.started (h : s.Inv x y)
    : Inv x y { s.setRunning s.next (some s.tasks) with
        next := s.next + 1, log := s.log ++ [.started s.next] } := by
  have hfresh (e : Event κ) (he : e.pass? = some s.next) : e ∉ s.log :=
    fun hmem => (h.fresh s.next (Nat.le_refl _)).2 e hmem he
  apply h.setRunning (Nat.lt_succ_self _) (Nat.le_succ _) rfl
  . rintro r ⟨⟩
    refine ⟨h.ordered, ?_, ?_, ?_⟩
    . intro hreg
      have hmem : .registered x ∈ s.log := by
        simpa using hreg.subset (mem_cons_self ..)
      exact .inl ((h.tasks x).mpr hmem)
    . simp [hfresh (.acted s.next y) rfl]
    . simp [hfresh (.failed s.next x) rfl]
  . exact h.runsFirst.concat (by simp) (by simp)

theorem Inv.acted (h : s.Inv x y) (hxy : x ≠ y) (hp : s.running p = some (k :: rest))
    : Inv x y { s with log := s.log ++ [.acted p k] } := by
  have hserves := h.serves p _ hp
  have hsame : s = s.setRunning p (some (k :: rest)) := by
    simp [State.setRunning, ← hp]
  rw [hsame]
  refine h.setRunning (h.lt_next hp) (Nat.le_refl _) rfl ?_ ?_
  . rintro r ⟨⟩
    refine ⟨hserves.ordered, ?_, ?_, by simpa using hserves.failed⟩
    . rw [sublist_concat_of_ne (by simp)]
      intro hreg
      exact (hserves.pending hreg).imp_right (mem_append_left _)
    . intro hacted
      cases mem_append.mp hacted with
      | inl hold => exact hserves.acted hold
      | inr hlast =>
        simp only [mem_singleton, Event.acted.injEq, true_and] at hlast
        subst hlast
        exact hserves.acts hxy
  . intro q pre post heq
    cases Trace.split_of_concat_eq heq with
    | inl hlast =>
      have ⟨hpre, hq⟩ := hlast
      simp only [Event.acted.injEq] at hq
      rw [hq.1, hpre]
      rw [← hq.2] at hserves
      refine ⟨?_, by simpa using hserves.failed⟩
      intro hreg
      exact (hserves.pending hreg).resolve_left (hserves.acts hxy)
    | inr hold =>
      have ⟨post', hlog⟩ := hold
      simpa using h.runsFirst q pre post' hlog

theorem Inv.returned (h : s.Inv x y) (hp : s.running p = some (k :: rest))
    : Inv x y { s.setRunning p (some rest) with log := s.log ++ [.returned p k] } := by
  have hserves := h.serves p _ hp
  refine h.setRunning (h.lt_next hp) (Nat.le_refl _) rfl ?_ (h.runsFirst.concat (by simp) (by simp))
  rintro r ⟨⟩
  refine ⟨?_, ?_, ?_, by simpa using hserves.failed⟩
  . intro hsub
    exact hserves.ordered (hsub.cons k)
  . rw [sublist_concat_of_ne (by simp)]
    intro hreg
    have := hserves.pending hreg
    simp only [mem_cons] at this
    simp only [mem_append, mem_singleton, Event.returned.injEq, true_and]
    tauto
  . intro hacted hmem
    exact hserves.acted (by simpa using hacted) (mem_cons_of_mem _ hmem)

theorem Inv.failed (h : s.Inv x y) (hp : s.running p = some (k :: rest))
    : Inv x y { s.setRunning p none with log := s.log ++ [.failed p k] } := by
  have hserves := h.serves p _ hp
  refine h.setRunning (h.lt_next hp) (Nat.le_refl _) rfl nofun (h.runsFirst.concat (by simp) ?_)
  intro q hq hacted
  simp only [Event.failed.injEq] at hq
  apply hserves.acted (hq.1 ▸ hacted)
  simp [hq.2]

theorem inv_step [DecidableEq κ] {s' : State κ} (hxy : x ≠ y) (h : s.Inv x y)
    (hfirst : e = .registered x → .registered y ∉ s.log) (hstep : s.step e = some s')
    : s'.Inv x y := by
  have ⟨t, ht, hs'⟩ := map_eq_some_iff.mp hstep
  subst hs'
  cases e with
  | registered k =>
    cases ht
    exact h.registered (fun hk => hfirst (by rw [hk]))
  | started p =>
    simp only [effect] at ht
    split at ht
    . next hp =>
      cases ht
      subst hp
      exact h.started
    . contradiction
  | acted p k =>
    simp only [effect] at ht
    split at ht
    . next hp =>
      cases ht
      have ⟨rest, hrest⟩ := exists_of_current hp
      exact h.acted hxy hrest
    . contradiction
  | returned p k =>
    simp only [effect] at ht
    split at ht
    . next hp =>
      cases ht
      have ⟨rest, hrest⟩ := exists_of_current hp
      simpa [hrest] using h.returned hrest
    . contradiction
  | failed p k =>
    simp only [effect] at ht
    split at ht
    . next hp =>
      cases ht
      have ⟨rest, hrest⟩ := exists_of_current hp
      exact h.failed hrest
    . contradiction

end State

theorem log_of_run [DecidableEq κ] {s t : State κ} {es : List (Event κ)}
    (hrun : Run.run State.step s es = some t) : t.log = s.log ++ es := by
  induction es generalizing s with
  | nil =>
    simp only [Run.run_nil, some.injEq] at hrun
    simp [hrun]
  | cons e es ih =>
    have ⟨s', hstep, hrest⟩ := Run.exists_step_of_run_cons hrun
    have ⟨u, _, hs'⟩ := map_eq_some_iff.mp hstep
    rw [ih hrest, ← hs']
    simp

theorem runsFirst_of_run [DecidableEq κ] {t : State κ} {es : List (Event κ)} (hxy : x ≠ y)
    (hrun : Run.run State.step .init es = some t)
    (hfirst : ¬[.registered y, .registered x].Sublist es) : RunsFirst x y es := by
  let I (s : State κ) : Prop := ¬[.registered y, .registered x].Sublist s.log → s.Inv x y
  have hI (s : State κ) (e : Event κ) (s' : State κ) (hs : I s)
      (hstep : s.step e = some s') : I s' := by
    intro hfirst'
    have ⟨u, _, hs'⟩ := map_eq_some_iff.mp hstep
    have hlog : s'.log = s.log ++ [e] := by rw [← hs']
    have hconcat := Trace.concat_sublist_concat_iff [.registered y] s.log (.registered x) e
    rw [hlog] at hfirst'
    simp only [cons_append, nil_append, singleton_sublist] at hconcat
    rw [hconcat, not_or, not_and] at hfirst'
    exact State.inv_step hxy (hs hfirst'.1) (fun he => hfirst'.2 he.symm) hstep
  have hlog : t.log = es := by simpa [State.init] using log_of_run hrun
  have hinit : I .init := fun _ => State.inv_init x y
  have ht : I t := Run.inv_of_steps hI hinit hrun
  have := (ht (hlog ▸ hfirst)).runsFirst
  rwa [hlog] at this

end Passes
