import Mathlib.Algebra.GroupWithZero.Nat
import Mathlib.Algebra.Order.BigOperators.Group.List
import Mathlib.Algebra.Ring.Int.Defs
import Mathlib.Data.List.Induction
import Warren.Consumer.XDeath.Impl

/-!
What `ParseXDeath` counts.
-/

namespace XDeath

open Bytes (lit)
open List

namespace Width

theorem wrap_of_le (w : Width) {n : Int} (h : 0 ≤ n) (h' : n ≤ w.maxInt) : w.wrap n = n := by
  unfold wrap maxInt at *
  cases w
  all_goals
    simp only [bits] at *
    apply Int.bmod_eq_of_le
    all_goals omega

theorem maxInt_nonneg (w : Width) : 0 ≤ w.maxInt := by
  cases w
  all_goals decide

end Width

variable {w : Width} {queue : Bytes}

theorem addSaturated_min {total count : Int} (htotal : 0 ≤ total) (hcount : 0 ≤ count)
    : addSaturated w (min w.maxInt total) (min w.maxInt count) = min w.maxInt (total + count) := by
  have hmax := w.maxInt_nonneg
  unfold addSaturated
  rw [w.wrap_of_le (n := w.maxInt - min w.maxInt total) (by omega) (by omega),
    w.wrap_of_le (n := min w.maxInt count) (by omega) (by omega)]
  split
  . omega
  . rw [w.wrap_of_le (by omega) (by omega)]
    omega

def entryOf (queue : Bytes) : Value → Option (Bytes × Int)
  | .table entry =>
    if stringOf (entry (lit "queue")) = queue then
      some (normalizeReason (stringOf (entry (lit "reason"))), max 0 (int64Of (entry (lit "count"))))
    else
      none
  | _ => none

def elems (tbl : Table) : List Value :=
  match tbl (lit "x-death") with
  | some (.array entries) => entries
  | _ => []

def matching (queue : Bytes) (entries : List Value) : List (Bytes × Int) :=
  entries.filterMap (entryOf queue)

def total (p : Bytes → Bool) (matched : List (Bytes × Int)) : Int :=
  ((matched.filter (fun e => p e.1)).map (·.2)).sum

def isCounted (reason : Bytes) : Bool := reason = lit "rejected" || reason = lit "delivery-limit"

section

variable {matched matched' : List (Bytes × Int)} {p : Bytes → Bool} {e : Bytes × Int}

theorem total_append : total p (matched ++ [e]) = total p matched + if p e.1 then e.2 else 0 := by
  unfold total
  rw [filter_append, map_append, sum_append]
  cases hp : p e.1 with
  | true => simp [hp]
  | false => simp [hp]

theorem total_nonneg (h : ∀ e ∈ matched, 0 ≤ e.2) : 0 ≤ total p matched := by
  apply sum_nonneg
  intro n hn
  have ⟨e, he, hen⟩ := mem_map.mp hn
  rw [← hen]
  apply h e (mem_filter.mp he).1

theorem total_perm (h : matched.Perm matched') : total p matched = total p matched' := by
  apply List.Perm.sum_eq
  apply List.Perm.map
  apply List.Perm.filter
  apply h

theorem total_of_not_mem {reason : Bytes} (h : reason ∉ matched.map (·.1))
    : total (· = reason) matched = 0 := by
  have hfilter : matched.filter (fun e => decide (e.1 = reason)) = [] := by
    rw [filter_eq_nil_iff]
    intro e he hreason
    apply h
    rw [mem_map]
    exact ⟨e, he, by simpa using hreason⟩
  unfold total
  rw [hfilter]
  rfl

theorem nonneg_of_mem_matching {entries : List Value} (h : e ∈ matching queue entries)
    : 0 ≤ e.2 := by
  have ⟨v, _, hv⟩ := mem_filterMap.mp h
  unfold entryOf at hv
  split at hv
  . rw [Option.ite_none_right_eq_some, Option.some.injEq] at hv
    rw [← hv.2]
    exact le_max_left _ _
  . contradiction

end

structure Counts (w : Width) (matched : List (Bytes × Int)) (r : XDeathResult) : Prop where
  count : r.count = min w.maxInt (total isCounted matched)
  byReason : ∀ reason, r.byReason reason
    = if reason ∈ matched.map (·.1) then some (min w.maxInt (total (· = reason) matched)) else none
  reasons : r.reasons = (matched.map (·.1)).eraseDups

theorem counts_zero (w : Width) : Counts w [] .zero := by
  refine ⟨?_, ?_, rfl⟩
  . exact (min_eq_right w.maxInt_nonneg).symm
  . intro reason
    simp [XDeathResult.zero]

theorem eraseDups_append_singleton (reasons : List Bytes) (reason : Bytes)
    : (reasons ++ [reason]).eraseDups
        = if reason ∈ reasons then reasons.eraseDups else reasons.eraseDups ++ [reason] := by
  rw [eraseDups_append]
  split
  next h => simp [removeAll, h]
  next h =>
    have hremove : [reason].removeAll reasons = [reason] := by simp [removeAll, h]
    rw [hremove]
    rfl

variable {matched : List (Bytes × Int)} {r : XDeathResult} {v : Value}

theorem Counts.addEntry_of_none (h : Counts w matched r) (hv : entryOf queue v = none)
    : Counts w matched (addEntry w queue r v) := by
  unfold addEntry
  unfold entryOf at hv
  split
  next entry =>
    simp only [ite_eq_right_iff, reduceCtorEq, imp_false] at hv
    rw [if_pos hv]
    apply h
  next => apply h

theorem clampCount (w : Width) (count : Int)
    : (if w.maxInt < (if count < 0 then 0 else count) then w.maxInt
        else (if count < 0 then 0 else count)) = min w.maxInt (max 0 count) := by
  have hmax := w.maxInt_nonneg
  omega

theorem addEntry_eq {e : Bytes × Int} (hv : entryOf queue v = some e)
    : addEntry w queue r v
        = { count :=
              if isCounted e.1 then addSaturated w r.count (min w.maxInt e.2) else r.count
            reasons := if (r.byReason e.1).isSome then r.reasons else r.reasons ++ [e.1]
            byReason :=
              Function.update r.byReason e.1
                (some (addSaturated w ((r.byReason e.1).getD 0) (min w.maxInt e.2))) } := by
  unfold entryOf at hv
  split at hv
  next entry =>
    rw [Option.ite_none_right_eq_some, Option.some.injEq] at hv
    have ⟨hqueue, he⟩ := hv
    subst he
    unfold addEntry isCounted
    simp only [hqueue, ne_eq, not_true_eq_false, if_false, clampCount, Bool.or_eq_true,
      decide_eq_true_eq]
  next => contradiction

theorem Counts.addEntry_of_some {e : Bytes × Int} (h : Counts w matched r)
    (hv : entryOf queue v = some e) (he : 0 ≤ e.2) (hmatched : ∀ e ∈ matched, 0 ≤ e.2)
    : Counts w (matched ++ [e]) (addEntry w queue r v) := by
  rw [addEntry_eq hv]
  have hgetD : (r.byReason e.1).getD 0 = min w.maxInt (total (· = e.1) matched) := by
    rw [h.byReason]
    split
    next => rfl
    next hnew =>
      rw [total_of_not_mem hnew]
      exact (min_eq_right w.maxInt_nonneg).symm
  refine ⟨?_, ?_, ?_⟩
  . rw [total_append, h.count]
    split
    next => apply addSaturated_min (total_nonneg hmatched) he
    next => rw [Int.add_zero]
  . intro reason
    dsimp only
    by_cases hreason : reason = e.1
    . subst hreason
      rw [Function.update_self, hgetD, addSaturated_min (total_nonneg hmatched) he, total_append]
      simp
    . have hmem : reason ∈ (matched ++ [e]).map (·.1) ↔ reason ∈ matched.map (·.1) := by
        simp only [map_append, map_singleton, mem_append, mem_singleton,
          hreason, or_false]
      rw [Function.update_of_ne hreason, h.byReason, total_append]
      simp only [hmem, Ne.symm hreason, decide_false, Bool.false_eq_true, if_false, Int.add_zero]
  . have hseen : (r.byReason e.1).isSome ↔ e.1 ∈ matched.map (·.1) := by
      rw [h.byReason]
      split
      all_goals simp_all
    rw [map_append, map_singleton, eraseDups_append_singleton, h.reasons]
    simp only [hseen]

theorem counts_foldl (w : Width) (queue : Bytes) (entries : List Value)
    : Counts w (matching queue entries) (entries.foldl (addEntry w queue) .zero) := by
  induction entries using reverseRecOn with
  | nil => apply counts_zero
  | append_singleton entries v ih =>
    rw [foldl_append, foldl_cons, foldl_nil]
    unfold matching
    rw [filterMap_append]
    cases hv : entryOf queue v with
    | none =>
      rw [filterMap_cons_none hv, filterMap_nil, append_nil]
      apply ih.addEntry_of_none hv
    | some e =>
      rw [filterMap_cons_some hv, filterMap_nil]
      apply ih.addEntry_of_some hv
      . have he : e ∈ matching queue [v] := by simp [matching, hv]
        apply nonneg_of_mem_matching he
      . intro e' he'
        apply nonneg_of_mem_matching he'

theorem parseXDeath_eq (w : Width) (tbl : Table) (queue : Bytes)
    : parseXDeath w tbl queue = (elems tbl).foldl (addEntry w queue) .zero := by
  unfold parseXDeath elems
  cases tbl (lit "x-death") with
  | none => rfl
  | some v =>
    cases v
    all_goals rfl

theorem counts_parseXDeath (w : Width) (tbl : Table) (queue : Bytes)
    : Counts w (matching queue (elems tbl)) (parseXDeath w tbl queue) := by
  rw [parseXDeath_eq]
  apply counts_foldl

theorem Counts.countByReason (h : Counts w matched r) (reason : Bytes)
    : r.countByReason reason
        = min w.maxInt (total (· = normalizeReason reason) matched) := by
  unfold XDeathResult.countByReason
  rw [h.byReason]
  split
  next => rfl
  next hnew =>
    rw [total_of_not_mem hnew]
    exact (min_eq_right w.maxInt_nonneg).symm

/--
The count, the count of each reason and the reasons of a queue, at every width of `int`. The order of
the entries does not matter for the counts, and no count is negative.
-/
theorem parseXDeath_sums (w : Width) (tbl : Table) (queue : Bytes)
    : (parseXDeath w tbl queue).count
          = min w.maxInt (total isCounted (matching queue (elems tbl)))
        ∧ (∀ reason, (parseXDeath w tbl queue).countByReason reason
          = min w.maxInt (total (· = normalizeReason reason) (matching queue (elems tbl))))
        ∧ (parseXDeath w tbl queue).reasons
          = ((matching queue (elems tbl)).map (·.1)).eraseDups
        ∧ (∀ tbl', (elems tbl).Perm (elems tbl') →
          (parseXDeath w tbl' queue).count = (parseXDeath w tbl queue).count
            ∧ ∀ reason, (parseXDeath w tbl' queue).countByReason reason
              = (parseXDeath w tbl queue).countByReason reason)
        ∧ 0 ≤ (parseXDeath w tbl queue).count
        ∧ ∀ reason, 0 ≤ (parseXDeath w tbl queue).countByReason reason := by
  have h := counts_parseXDeath w tbl queue
  have hnonneg : ∀ p, 0 ≤ total p (matching queue (elems tbl)) := fun p =>
    total_nonneg (fun _ => nonneg_of_mem_matching)
  have hmin : ∀ p, 0 ≤ min w.maxInt (total p (matching queue (elems tbl))) := fun p =>
    le_min w.maxInt_nonneg (hnonneg p)
  refine ⟨h.count, h.countByReason, h.reasons, ?_, ?_, ?_⟩
  . intro tbl' hperm
    have h' := counts_parseXDeath w tbl' queue
    have hmatching : (matching queue (elems tbl)).Perm (matching queue (elems tbl')) :=
      hperm.filterMap _
    refine ⟨?_, ?_⟩
    . rw [h.count, h'.count, total_perm hmatching]
    . intro reason
      rw [h.countByReason, h'.countByReason, total_perm hmatching]
  . rw [h.count]
    apply hmin
  . intro reason
    rw [h.countByReason]
    apply hmin

def hostile : List Value :=
  [.table (fun k => if k = lit "queue" then some (.string (lit "orders"))
    else if k = lit "reason" then some (.string (lit "delivery_limit"))
    else if k = lit "count" then some (.int64 Int64.maxValue) else none),
  .table (fun k => if k = lit "queue" then some (.string (lit "audit"))
    else if k = lit "count" then some (.int64 1) else none),
  .table (fun k => if k = lit "queue" then some (.string (lit "orders"))
    else if k = lit "reason" then some (.string (lit "delivery-limit"))
    else if k = lit "count" then some (.int64 Int64.maxValue) else none)]

def headerOf (entries : List Value) : Table := fun k =>
  if k = lit "x-death" then some (.array entries) else none

theorem parseXDeath_sums_hostile
    : (parseXDeath .w64 (headerOf hostile) (lit "orders")).count = 2 ^ 63 - 1
        ∧ (parseXDeath .w64 (headerOf hostile.reverse) (lit "orders")).count = 2 ^ 63 - 1 := by
  have ⟨hcount, _, _, hperm, _⟩ := parseXDeath_sums .w64 (headerOf hostile) (lit "orders")
  have hvalue : (parseXDeath .w64 (headerOf hostile) (lit "orders")).count = 2 ^ 63 - 1 := by
    rw [hcount]
    decide
  refine ⟨hvalue, ?_⟩
  rw [(hperm (headerOf hostile.reverse) (reverse_perm hostile).symm).1, hvalue]

end XDeath
