import Mathlib.Data.List.Basic

/-!
Any number of processes of one kind in a list.
-/

namespace Procs

open List

variable {α : Type} {ps : List α} {i j : Nat} {p q : α}

theorem getElem?_set_eq_some (h : (ps.set i p)[j]? = some q)
    : (j = i ∧ q = p) ∨ (j ≠ i ∧ ps[j]? = some q) := by
  grind

theorem getElem?_set_of_eq_some (h : ps[i]? = some p) (q : α) : (ps.set i q)[i]? = some q := by
  rw [getElem?_set_self', h]
  rfl

theorem getElem?_concat_eq_some (h : (ps ++ [p])[j]? = some q)
    : (j = ps.length ∧ q = p) ∨ ps[j]? = some q := by
  grind

theorem getElem?_concat_of_eq_some (h : ps[i]? = some p) (q : α) : (ps ++ [q])[i]? = some p := by
  have ⟨hi, _⟩ := List.getElem?_eq_some_iff.mp h
  rwa [List.getElem?_append_left hi]

variable (f : α → Bool)

theorem countP_cons (p : α) (ps : List α) : (p :: ps).countP f = ps.countP f + (f p).toNat := by
  rw [List.countP_cons]
  cases f p
  . rfl
  . rfl

theorem countP_set (h : ps[i]? = some p) (q : α)
    : (ps.set i q).countP f + (f p).toNat = ps.countP f + (f q).toNat := by
  grind [countP_cons]

theorem countP_concat (ps : List α) (q : α) : (ps ++ [q]).countP f = ps.countP f + (f q).toNat := by
  rw [countP_append, countP_singleton]
  cases f q
  . rfl
  . rfl

theorem toNat_le_countP (h : ps[i]? = some p) : (f p).toNat ≤ ps.countP f := by
  cases hp : f p with
  | false => exact Nat.zero_le _
  | true => exact countP_pos_iff.mpr ⟨p, mem_of_getElem? h, hp⟩

theorem eq_of_countP_le_one {f : α → Bool} (hi : ps[i]? = some p) (hj : ps[j]? = some q)
    (hp : f p = true) (hq : f q = true) (h : ps.countP f ≤ 1) : i = j := by
  induction ps generalizing i j with
  | nil => contradiction
  | cons r ps ih =>
    rw [countP_cons] at h
    cases i with
    | zero =>
      cases j with
      | zero => rfl
      | succ j =>
        rw [getElem?_cons_zero, Option.some.injEq] at hi
        rw [getElem?_cons_succ] at hj
        have hpos := toNat_le_countP f hj
        rw [hi, hp, Bool.toNat_true] at h
        rw [hq, Bool.toNat_true] at hpos
        omega
    | succ i =>
      rw [getElem?_cons_succ] at hi
      cases j with
      | zero =>
        rw [getElem?_cons_zero, Option.some.injEq] at hj
        have hpos := toNat_le_countP f hi
        rw [hj, hq, Bool.toNat_true] at h
        rw [hp, Bool.toNat_true] at hpos
        omega
      | succ j =>
        rw [getElem?_cons_succ] at hj
        rw [ih hi hj (by omega)]

theorem countP_eq_add {f g h : α → Bool} (hsum : ∀ p, (f p).toNat = (g p).toNat + (h p).toNat)
    (ps : List α) : ps.countP f = ps.countP g + ps.countP h := by
  induction ps with
  | nil => rfl
  | cons p ps ih =>
    have hp := hsum p
    rw [countP_cons, countP_cons, countP_cons]
    omega

end Procs
