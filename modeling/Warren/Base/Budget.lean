import Mathlib.Data.List.Basic
import Mathlib.Data.List.Infix

/-!
A counter that allows `n` events, refuses the next one and starts again.
-/

namespace Budget

open List

def allow (n : Nat) : Nat → List Bool → List Bool
  | _, [] => []
  | k, false :: es => true :: allow n k es
  | k, true :: es => if k < n then true :: allow n (k + 1) es else false :: allow n 0 es

theorem length_allow (n k : Nat) (es : List Bool) : (allow n k es).length = es.length := by
  induction es generalizing k with
  | nil => rfl
  | cons e es ih =>
    cases e with
    | false => simp [allow, ih]
    | true =>
      unfold allow
      split
      all_goals simp [ih]

variable {n : Nat} {es : List Bool}

theorem allow_append {k : Nat} (fs : List Bool) (h : k + es.count true ≤ n)
    : allow n k (es ++ fs) =
        replicate es.length true ++ allow n (k + es.count true) fs := by
  induction es generalizing k with
  | nil => simp
  | cons e es ih =>
    cases e with
    | false =>
      rw [count_cons_of_ne (by decide)] at h ⊢
      simp [allow, ih h, replicate_succ]
    | true =>
      rw [count_cons_self] at h ⊢
      have hlt : k < n := by omega
      rw [cons_append, allow, if_pos hlt, ih (by omega), length_cons,
        replicate_succ, cons_append]
      congr 3
      omega

theorem allow_full_append (n : Nat) (es : List Bool)
    : allow n 0 (replicate (n + 1) true ++ es) =
        replicate n true ++ false :: allow n 0 es := by
  have hcount : 0 + (replicate n true).count true ≤ n := by simp
  rw [replicate_succ', append_assoc, allow_append _ hcount]
  simp [allow]

theorem replicate_infix_cons_iff {m : Nat} (h : m ≤ n) (es : List Bool)
    : replicate (n + 1) true <:+: replicate m true ++ false :: es ↔
        replicate (n + 1) true <:+: es := by
  induction m with
  | zero => simp [infix_cons_iff, replicate_succ]
  | succ m ih =>
    have hhead : ¬replicate (n + 1) true <+: replicate (m + 1) true ++ false :: es := by
      intro ⟨t, ht⟩
      have hget := congrArg (fun l => l[m + 1]?) ht
      have hlt : m + 1 < n + 1 := by omega
      simp [getElem?_append, hlt] at hget
    rw [replicate_succ (n := m), cons_append] at hhead ⊢
    rw [infix_cons_iff, ih (by omega)]
    simp [hhead]

theorem replicate_infix_allow_append (hlen : es.length = n + 1) (hne : es ≠ replicate (n + 1) true)
    (fs : List Bool) : replicate (n + 1) true <:+: allow n 0 (es ++ fs) := by
  have hcount : es.count true ≠ n + 1 := by
    intro heq
    apply hne
    rw [eq_replicate_iff]
    refine ⟨hlen, ?_⟩
    intro e he
    exact (count_eq_length.mp (heq.trans hlen.symm) e he).symm
  have hle : es.count true ≤ es.length := count_le_length
  rw [allow_append fs (by omega), hlen]
  exact infix_append [] _ _

theorem charged_append_iff (hlen : es.length = n + 1) (fs : List Bool)
    : (∀ i < (es ++ fs).length / (n + 1) * (n + 1), (es ++ fs)[i]? = some true) ↔
        es = replicate (n + 1) true ∧
        ∀ i < fs.length / (n + 1) * (n + 1), fs[i]? = some true := by
  have hdiv : (es ++ fs).length / (n + 1) * (n + 1) =
      fs.length / (n + 1) * (n + 1) + (n + 1) := by
    rw [length_append, hlen, Nat.add_div_left _ (Nat.succ_pos n), Nat.succ_mul]
  rw [hdiv]
  constructor
  . intro h
    constructor
    . apply ext_getElem?
      intro i
      by_cases hi : i < n + 1
      . have hget := h i (by omega)
        rw [getElem?_append_left (by omega)] at hget
        simp [hget, hi]
      . rw [getElem?_eq_none (by omega), getElem?_eq_none (by simp; omega)]
    . intro i hi
      have hget := h (i + (n + 1)) (by omega)
      rwa [getElem?_append_right (by omega), hlen, Nat.add_sub_cancel] at hget
  . intro ⟨hes, hfs⟩ i hi
    by_cases hin : i < n + 1
    . rw [getElem?_append_left (by omega), hes]
      simp [hin]
    . rw [getElem?_append_right (by omega), hlen]
      exact hfs (i - (n + 1)) (by omega)

theorem not_replicate_infix_allow_iff (n : Nat) (es : List Bool)
    : ¬replicate (n + 1) true <:+: allow n 0 es ↔
        ∀ i < es.length / (n + 1) * (n + 1), es[i]? = some true := by
  induction hlen : es.length using Nat.strong_induction_on generalizing es with
  | _ len ih =>
    rw [← hlen]
    by_cases hshort : es.length < n + 1
    . have hrow : ¬replicate (n + 1) true <:+: allow n 0 es := by
        intro hrow
        have hle := hrow.length_le
        rw [length_replicate, length_allow] at hle
        omega
      simp [hrow, Nat.div_eq_of_lt hshort]
    . have htake : (es.take (n + 1)).length = n + 1 := by
        rw [length_take]
        omega
      rw [← take_append_drop (n + 1) es, charged_append_iff htake]
      by_cases hfull : es.take (n + 1) = replicate (n + 1) true
      . rw [hfull, allow_full_append, replicate_infix_cons_iff (Nat.le_refl n)]
        simp only [true_and]
        apply ih (es.drop (n + 1)).length
        . rw [length_drop]
          omega
        . rfl
      . have hrow := replicate_infix_allow_append htake hfull (es.drop (n + 1))
        simp only [hfull, hrow, not_true_eq_false, false_and]

end Budget
