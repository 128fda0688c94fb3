import Warren.Publisher.Encode.Headers

namespace Encode

open FieldTree (Within Occurs Reordered)

def Leaf.Accepted (a : Leaf) : Prop := ∀ type, a ≠ .other type

def Leaf.coerce : Leaf → Leaf
  | .int n => .scalar (.int64 n)
  | .uint n => .scalar (.uint64 n)
  | a => a

theorem Leaf.coerce_coerce (a : Leaf) : a.coerce.coerce = a.coerce := by
  cases a <;> rfl

theorem Leaf.Accepted.coerce {a : Leaf} (h : a.Accepted) : a.coerce.Accepted := by
  cases a with
  | other type => exact absurd rfl (h type)
  | _ => simp [Leaf.coerce, Leaf.Accepted]

structure Checks {α : Type} (r : Option Err × α) (P : Prop) (after : α) : Prop where
  ok : r.1 = none ↔ P
  leaves : r.1 = none → r.2 = after

variable {key : String} {v : Value} {h : Headers} {xs : List Value} {depth : Nat}

theorem Checks.next {α : Type} {r : Option Err × α} {loop : Option Err × List α} {P Q : Prop} {a : α}
    {as rest : List α} (hr : Checks r P a) (hloop : Checks loop Q as)
    : Checks (next r rest loop) (P ∧ Q) (a :: as) := by
  grind [Checks, Encode.next]

def visit (key : String) (depth : Nat) : Value → Option Err × Value
  | .leaf (.int n) => (none, .leaf (.scalar (.int64 n)))
  | .leaf (.uint n) => (none, .leaf (.scalar (.uint64 n)))
  | v => validateHeaderValue key v depth

theorem rangeHeaders_cons :
    rangeHeaders ((key, v) :: h) depth
      =
    next ((visit key depth v).1, (key, (visit key depth v).2)) h (rangeHeaders h depth) := by
  unfold visit
  split
  . rw [rangeHeaders]
  . rw [rangeHeaders]
  . rw [rangeHeaders] <;> assumption

theorem rangeArray_cons {x : Value} {i : Nat} :
    rangeArray key i (x :: xs) depth
      =
    next (visit s!"{key}[{i}]" depth x) xs (rangeArray key (i + 1) xs depth) := by
  unfold visit
  split
  . rw [rangeArray]
  . rw [rangeArray]
  . rw [rangeArray] <;> assumption

abbrev Fits (d : Nat) (v : Value) : Prop := Within Leaf.Accepted maxHeaderDepth d v

abbrev Visits (v : Value) : Prop :=
  ∀ key depth, Checks (visit key depth v) (Fits (depth + 1) v) (v.map Leaf.coerce)

theorem rangeHeaders_checks (depth : Nat) (hvisits : ∀ e ∈ h, Visits e.2) :
    Checks (rangeHeaders h depth) (∀ e ∈ h, Fits (depth + 1) e.2)
      (FieldTree.mapTable Leaf.coerce h) := by
  induction h with
  | nil => simpa [rangeHeaders, FieldTree.mapTable] using ⟨by simp, by simp⟩
  | cons e h ih =>
    obtain ⟨he, hh⟩ := List.forall_mem_cons.mp hvisits
    rw [rangeHeaders_cons, List.forall_mem_cons]
    apply Checks.next _ (ih hh)
    exact ⟨(he e.1 depth).ok, fun hnone => congrArg _ ((he e.1 depth).leaves hnone)⟩

theorem rangeArray_checks (key : String) (i depth : Nat) (hvisits : ∀ x ∈ xs, Visits x) :
    Checks (rangeArray key i xs depth) (∀ x ∈ xs, Fits (depth + 1) x)
      (FieldTree.mapArray Leaf.coerce xs) := by
  induction xs generalizing i with
  | nil => simpa [rangeArray, FieldTree.mapArray] using ⟨by simp, by simp⟩
  | cons x xs ih =>
    obtain ⟨hx, hxs⟩ := List.forall_mem_cons.mp hvisits
    rw [rangeArray_cons, List.forall_mem_cons]
    exact (hx _ depth).next (ih (i + 1) hxs)

theorem validateHeadersDepth_checks (depth : Nat) (hvisits : ∀ e ∈ h, Visits e.2) :
    Checks (validateHeadersDepth h depth) (Fits depth (.table h))
      (FieldTree.mapTable Leaf.coerce h) := by
  have hloop := rangeHeaders_checks depth hvisits
  rw [Fits, FieldTree.within_table]
  unfold validateHeadersDepth guardDepth
  split
  next hlt => constructor <;> simp [Nat.not_le.mpr hlt]
  next hle => simpa [Nat.not_lt.mp hle] using hloop

theorem visits (v : Value) : Visits v := by
  induction v using FieldTree.induct with
  | leaf a =>
    intro key depth
    cases a <;> constructor <;>
      simp [visit, validateHeaderValue, Leaf.unsupported, Leaf.Accepted, FieldTree.map, Leaf.coerce]
  | table h ih =>
    intro key depth
    have hchecks := validateHeadersDepth_checks (depth + 1) ih
    exact ⟨hchecks.ok, fun hnone => congrArg _ (hchecks.leaves hnone)⟩
  | array xs ih =>
    intro key depth
    have hchecks := rangeArray_checks key 0 depth ih
    rw [← FieldTree.within_array] at hchecks
    exact ⟨hchecks.ok, fun hnone => congrArg _ (hchecks.leaves hnone)⟩

theorem validateHeaders_checks (h : Headers) :
    Checks (validateHeaders h) (Fits 0 (.table h)) (FieldTree.mapTable Leaf.coerce h) := by
  exact validateHeadersDepth_checks 0 (fun e _ => visits e.2)

theorem validateHeaders_coerced (h : Headers) (hfits : Fits 0 (.table h)) :
    validateHeaders (FieldTree.mapTable Leaf.coerce h)
      =
    (none, FieldTree.mapTable Leaf.coerce h) := by
  have hchecks := validateHeaders_checks (FieldTree.mapTable Leaf.coerce h)
  have hnone := hchecks.ok.mpr (hfits.map (f := Leaf.coerce) fun _ => .coerce)
  have hidem := FieldTree.map_map Leaf.coerce_coerce (.table h)
  rw [FieldTree.map, FieldTree.map, FieldTree.table.injEq] at hidem
  exact Prod.ext hnone ((hchecks.leaves hnone).trans hidem)

/--
`validateHeaders` accepts the trees with leaves of the listed types and with no `Headers` inside of
more than 10 others, and leaves them with every `int` and every `uint` coerced.
-/
theorem validateHeaders_normalises (h : Headers) :
    ((validateHeaders h).1 = none
      ↔ (∀ n a, Occurs (.leaf a) n (.table h) → a.Accepted)
        ∧ ∀ n t, Occurs (.table t) n (.table h) → n ≤ 10)
    ∧ ((validateHeaders h).1 = none →
        (validateHeaders h).2 = FieldTree.mapTable Leaf.coerce h
        ∧ validateHeaders (validateHeaders h).2 = (none, (validateHeaders h).2))
    ∧ ∀ h', Reordered (.table h) (.table h')
        → ((validateHeaders h').1 = none ↔ (validateHeaders h).1 = none) := by
  have hchecks := validateHeaders_checks h
  refine ⟨?_, fun hnone => ?_, fun h' hperm => ?_⟩
  . rw [hchecks.ok]
    constructor
    . intro hfits
      exact ⟨hfits.leaves, fun n t ht => Nat.zero_add n ▸ hfits.tables n t ht⟩
    . intro ⟨hleaves, htables⟩
      exact ⟨hleaves, fun n t ht => (Nat.zero_add n).symm ▸ htables n t ht⟩
  . rw [hchecks.leaves hnone]
    exact ⟨rfl, validateHeaders_coerced h (hchecks.ok.mp hnone)⟩
  . rw [hchecks.ok, (validateHeaders_checks h').ok]
    exact hperm.within.symm

end Encode
