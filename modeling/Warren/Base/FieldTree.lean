import Mathlib.Data.List.Perm.Basic

/-!
Trees of tables and arrays over leaves of any type. A table is the list of its entries in the order
in which they are visited.
-/

inductive FieldTree (K α : Type) where
  | leaf (a : α)
  | table (t : List (K × FieldTree K α))
  | array (xs : List (FieldTree K α))

namespace FieldTree

open List

variable {K α : Type}

@[induction_eliminator]
theorem induct {motive : FieldTree K α → Prop} (leaf : ∀ a, motive (.leaf a))
    (table : ∀ t, (∀ e ∈ t, motive e.2) → motive (.table t))
    (array : ∀ xs, (∀ x ∈ xs, motive x) → motive (.array xs)) (v : FieldTree K α) : motive v := by
  apply @FieldTree.rec K α motive (fun t => ∀ e ∈ t, motive e.2) (fun xs => ∀ x ∈ xs, motive x)
    (fun e => motive e.2) leaf table array
  . simp
  . intro e t he ht
    simpa using ⟨he, fun k v => ht (k, v)⟩
  . simp
  . intro x xs hx hxs
    simpa using ⟨hx, hxs⟩
  . intro _ _ hv
    exact hv

mutual

def map (f : α → α) : FieldTree K α → FieldTree K α
  | .leaf a => .leaf (f a)
  | .table t => .table (mapTable f t)
  | .array xs => .array (mapArray f xs)

def mapTable (f : α → α) : List (K × FieldTree K α) → List (K × FieldTree K α)
  | [] => []
  | (k, v) :: t => (k, v.map f) :: mapTable f t

def mapArray (f : α → α) : List (FieldTree K α) → List (FieldTree K α)
  | [] => []
  | x :: xs => x.map f :: mapArray f xs

end

theorem mapTable_eq {f : α → α} (t : List (K × FieldTree K α)) :
    mapTable f t = t.map (fun e => (e.1, e.2.map f)) := by
  induction t with
  | nil => rfl
  | cons e t ih => rw [mapTable, ih, map_cons]

theorem mapArray_eq {f : α → α} (xs : List (FieldTree K α)) : mapArray f xs = xs.map (map f) := by
  induction xs with
  | nil => rfl
  | cons x xs ih => rw [mapArray, ih, map_cons]

theorem map_map {f : α → α} (hf : ∀ a, f (f a) = f a) (v : FieldTree K α)
    : (v.map f).map f = v.map f := by
  induction v with
  | leaf a => simp [map, hf]
  | table t ih => simpa [map, mapTable_eq] using fun k v hv => ih (k, v) hv
  | array xs ih => simpa [map, mapArray_eq] using ih

/--
`Occurs w n v`: the value `w` occurs in `v`, inside of `n` of its tables.
-/
inductive Occurs (w : FieldTree K α) : Nat → FieldTree K α → Prop where
  | self : Occurs w 0 w
  | entry {n e t} (hmem : e ∈ t) (h : Occurs w n e.2) : Occurs w (n + 1) (.table t)
  | elem {n x xs} (hmem : x ∈ xs) (h : Occurs w n x) : Occurs w n (.array xs)

/--
A value inside of `d` tables: its leaves are fine, and none of its tables is inside of more than
`max` tables.
-/
structure Within (ok : α → Prop) (max d : Nat) (v : FieldTree K α) : Prop where
  leaves : ∀ n a, Occurs (.leaf a) n v → ok a
  tables : ∀ n t, Occurs (.table t) n v → d + n ≤ max

/--
The entries of some tables, at any depth, are visited in another order.
-/
inductive Reordered : FieldTree K α → FieldTree K α → Prop where
  | perm {t u} (h : t.Perm u) : Reordered (.table t) (.table u)
  | entry {v w} (t u : List (K × FieldTree K α)) (k : K) (h : Reordered v w)
    : Reordered (.table (t ++ (k, v) :: u)) (.table (t ++ (k, w) :: u))
  | elem {v w} (xs ys : List (FieldTree K α)) (h : Reordered v w)
    : Reordered (.array (xs ++ v :: ys)) (.array (xs ++ w :: ys))
  | trans {u v w} (huv : Reordered u v) (hvw : Reordered v w) : Reordered u w

variable {v w : FieldTree K α} {t : List (K × FieldTree K α)} {xs : List (FieldTree K α)}
  {ok : α → Prop} {max d : Nat} {f : α → α}

@[simp]
theorem within_leaf {a : α} : Within ok max d (.leaf a : FieldTree K α) ↔ ok a := by
  constructor
  . intro h
    exact h.leaves 0 a .self
  . intro ha
    constructor
    . rintro _ _ ⟨⟩
      exact ha
    . rintro _ _ ⟨⟩

@[simp]
theorem within_array : Within ok max d (.array xs) ↔ ∀ x ∈ xs, Within ok max d x := by
  constructor
  . intro h x hx
    exact ⟨fun n a ha => h.leaves n a (.elem hx ha), fun n t ht => h.tables n t (.elem hx ht)⟩
  . intro h
    constructor
    . rintro n a (_ | _ | ⟨hx, ha⟩)
      exact (h _ hx).leaves n a ha
    . rintro n t (_ | _ | ⟨hx, ht⟩)
      exact (h _ hx).tables n t ht

@[simp]
theorem within_table :
    Within ok max d (.table t) ↔ d ≤ max ∧ ∀ e ∈ t, Within ok max (d + 1) e.2 := by
  constructor
  . intro h
    refine ⟨h.tables 0 t .self, fun e he => ⟨fun n a ha => h.leaves (n + 1) a (.entry he ha), ?_⟩⟩
    intro n u hu
    have := h.tables (n + 1) u (.entry he hu)
    omega
  . intro ⟨hd, h⟩
    constructor
    . rintro _ a (_ | ⟨he, ha⟩)
      exact (h _ he).leaves _ a ha
    . rintro _ u (_ | ⟨he, hu⟩)
      . exact hd
      . have := (h _ he).tables _ u hu
        omega

theorem Within.map {ok' : α → Prop} (hf : ∀ a, ok a → ok' (f a))
    : Within ok max d v → Within ok' max d (v.map f) := by
  induction v generalizing d with
  | leaf a => simpa [FieldTree.map] using hf a
  | table t ih =>
    simp only [FieldTree.map, mapTable_eq, within_table, forall_mem_map]
    exact fun ⟨hd, h⟩ => ⟨hd, fun e he => ih e he (h e he)⟩
  | array xs ih =>
    simp only [FieldTree.map, mapArray_eq, within_array, forall_mem_map]
    exact fun h x hx => ih x hx (h x hx)

theorem Reordered.within (h : Reordered v w) : Within ok max d v ↔ Within ok max d w := by
  induction h generalizing d with
  | perm h => simp only [within_table, h.mem_iff]
  | entry t u k _ ih =>
    simp only [within_table, mem_append, mem_cons, or_imp, forall_and, forall_eq, ih]
  | elem xs ys _ ih =>
    simp only [within_array, mem_append, mem_cons, or_imp, forall_and, forall_eq, ih]
  | trans _ _ ihuv ihvw => rw [ihuv, ihvw]

end FieldTree
