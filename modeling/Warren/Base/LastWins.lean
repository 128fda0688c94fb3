import Mathlib.Data.List.Basic
import Mathlib.Logic.Function.Basic

/-!
The value that is left after a list of writers, each of which may leave it alone.
-/

namespace LastWins

open List

variable {α β : Type*} {w : α → Option β} {as : List α} {init : Option β}

def last (w : α → Option β) (as : List α) (init : Option β) : Option β :=
  as.foldl (fun v a => (w a).or v) init

@[simp]
theorem last_nil (w : α → Option β) (init : Option β) : last w [] init = init :=
  rfl

@[simp]
theorem last_cons (w : α → Option β) (a : α) (as : List α) (init : Option β)
    : last w (a :: as) init = last w as ((w a).or init) :=
  rfl

theorem last_congr {w' : α → Option β} (h : ∀ a ∈ as, w a = w' a)
    : last w as init = last w' as init := by
  induction as generalizing init with
  | nil => rfl
  | cons a as ih =>
    rw [last_cons, last_cons, h a mem_cons_self]
    apply ih
    intro b hb
    apply h b (mem_cons_of_mem a hb)

theorem last_of_forall_none (h : ∀ a ∈ as, w a = none) : last w as init = init := by
  induction as generalizing init with
  | nil => rfl
  | cons a as ih =>
    rw [forall_mem_cons] at h
    rw [last_cons, h.1, Option.none_or, ih h.2]

theorem last_eq_none : last w as init = none ↔ init = none ∧ ∀ a ∈ as, w a = none := by
  induction as generalizing init with
  | nil => simp
  | cons a as ih =>
    simp only [last_cons, ih, Option.or_eq_none_iff, forall_mem_cons]
    tauto

theorem last_eq_some {v : β} (h : last w as init = some v)
    : (init = some v ∧ ∀ a ∈ as, w a = none)
        ∨ ∃ before a after, as = before ++ a :: after ∧ w a = some v ∧ ∀ b ∈ after, w b = none := by
  induction as generalizing init with
  | nil => exact .inl ⟨h, by simp⟩
  | cons a as ih =>
    rw [last_cons] at h
    cases ih h with
    | inr hlater =>
      have ⟨before, b, after, has, hb, hafter⟩ := hlater
      right
      exact ⟨a :: before, b, after, by rw [has]; rfl, hb, hafter⟩
    | inl hnow =>
      have ⟨hor, hnone⟩ := hnow
      cases ha : w a with
      | none =>
        rw [ha, Option.none_or] at hor
        left
        exact ⟨hor, by simpa [ha] using hnone⟩
      | some u =>
        rw [ha, Option.some_or] at hor
        right
        exact ⟨[], a, as, rfl, ha.trans hor, hnone⟩

theorem last_append_cons {before after : List α} {a : α} (h : ∀ b ∈ after, w b = none)
    : last w (before ++ a :: after) init = (w a).or (last w before init) := by
  unfold last
  rw [foldl_append, foldl_cons]
  apply last_of_forall_none h

theorem foldl_update {κ : Type*} [DecidableEq κ] (key : α → κ) (val : α → β) (as : List α)
    (init : κ → Option β) (k : κ)
    : as.foldl (fun m a => Function.update m (key a) (some (val a))) init k
        = last (fun a => if key a = k then some (val a) else none) as (init k) := by
  induction as generalizing init with
  | nil => rfl
  | cons a as ih =>
    rw [foldl_cons, ih, last_cons]
    by_cases hk : key a = k
    . subst hk
      simp
    . rw [Function.update_of_ne (Ne.symm hk)]
      simp [hk]

end LastWins
