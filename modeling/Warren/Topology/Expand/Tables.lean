import Warren.Topology.Expand.Memory
import Warren.Topology.Expand.Walk

namespace Expand

open TableHeap (Cell Keeps Shallow Like deref copy)
open Function List

def mapType : Nat := 0

def CellHolds : Cell Value → Value → Prop
  | .val v, v' => v = v'
  | .map _, v' => ∃ printed, v' = .other mapType printed

def Holds (h : Heap) (m : Option Nat) (args : Args) : Prop :=
  ∃ t, deref h m = some t ∧ ∀ k, Option.Rel CellHolds (t.lookup k) (args k)

section

variable {h h' : Heap} {m : Option Nat} {args : Args} {r : Nat}

theorem CellHolds.like {c c' : Cell Value} {v : Value} (hc : CellHolds c v) (hlike : Like c c')
    : CellHolds c' v := by
  cases c with
  | val v' =>
    cases c' with
    | val v'' =>
      have heq : v' = v'' := hlike
      rw [← heq]
      apply hc
    | map m => contradiction
  | map m =>
    cases c' with
    | val v' => contradiction
    | map m' => apply hc

theorem rel_like {c c' : Option (Cell Value)} {v : Option Value} (hc : Option.Rel CellHolds c v)
    (hlike : Option.Rel Like c c') : Option.Rel CellHolds c' v := by
  cases hc with
  | none =>
    cases hlike
    exact .none
  | some hc =>
    cases hlike with
    | some hlike => exact .some (hc.like hlike)

theorem Holds.keeps (hholds : Holds h m args) (hkeeps : Keeps h h') : Holds h' m args := by
  have ⟨t, ht, hlookup⟩ := hholds
  exact ⟨t, hkeeps.deref ht, hlookup⟩

theorem Holds.lt_length (hholds : Holds h (some r) args) : r < h.length := by
  have ⟨t, ht, _⟩ := hholds
  apply (List.getElem?_eq_some_iff.mp ht).1

theorem holds_nil (h : Heap) : Holds h none .nil := by
  refine ⟨∅, rfl, ?_⟩
  intro k
  rw [AList.lookup_empty]
  exact .none

theorem Holds.write (hholds : Holds h (some r) args) (k : Str) (v : Value)
    : Holds (TableHeap.write h r k (.val v)) (some r) (args.set k v) := by
  have ⟨t, ht, hlookup⟩ := hholds
  refine ⟨_, TableHeap.getElem?_write_self ht k (.val v), ?_⟩
  intro k'
  by_cases hk : k' = k
  . subst hk
    rw [AList.lookup_insert, Args.set_self]
    exact .some rfl
  . rw [AList.lookup_insert_ne hk, Args.set_of_ne _ _ hk]
    apply hlookup

theorem Holds.write_of_ne {r' : Nat} (hholds : Holds h m args) (hne : m ≠ some r') (k : Str)
    (c : Cell Value) : Holds (TableHeap.write h r' k c) m args := by
  have ⟨t, ht, hlookup⟩ := hholds
  refine ⟨t, ?_, hlookup⟩
  cases m with
  | none => apply ht
  | some r =>
    have hr : r' ≠ r := fun heq => hne (by rw [heq])
    have hget := TableHeap.getElem?_write_of_ne hr h k c
    apply hget.trans ht

end

def Args.setAll (args : Args) (kvs : List (Str × Value)) : Args :=
  kvs.foldl (fun args kv => args.set kv.1 kv.2) args

namespace Memory

variable {h₀ : Heap} {args₀ : Pos → Option Nat} {todo : List Pos} {A : Pos → Args} {s : Memory}
  {p : Pos} {n : Nat}

structure Sim (h₀ : Heap) (args₀ : Pos → Option Nat) (todo : List Pos) (A : Pos → Args) (s : Memory)
    : Prop where
  keeps : Keeps h₀ s.heap
  holds : ∀ p, Holds s.heap (s.args p) (A p)
  shared : ∀ p ∈ todo, s.args p = args₀ p
  own : ∀ p r, p ∉ todo → s.args p = some r → h₀.length ≤ r
  inj : ∀ p p' r, h₀.length ≤ r → s.args p = some r → s.args p' = some r → p = p'

def assign (s : Memory) (p : Pos) (heap : Heap) : Memory :=
  { s with heap, args := update s.args p (some s.heap.length) }

theorem assign_self (s : Memory) (p : Pos) (heap : Heap)
    : (s.assign p heap).args p = some s.heap.length :=
  update_self ..

theorem assign_of_ne {p' : Pos} (hne : p' ≠ p) (s : Memory) (heap : Heap)
    : (s.assign p heap).args p' = s.args p' :=
  update_of_ne hne ..

theorem Sim.ne_length (hsim : Sim h₀ args₀ todo A s) (p : Pos) : s.args p ≠ some s.heap.length := by
  intro hp
  have hholds := hsim.holds p
  rw [hp] at hholds
  exact Nat.lt_irrefl _ hholds.lt_length

theorem Sim.assign {heap : Heap} {todo' : List Pos} (hsim : Sim h₀ args₀ todo A s)
    (hkeeps : Keeps s.heap heap) (hholds : Holds heap (some s.heap.length) (A p))
    (hp : p ∉ todo') (hsub : ∀ q ∈ todo', q ∈ todo) (hrest : ∀ q ∈ todo, q ∈ todo' ∨ q = p)
    : Sim h₀ args₀ todo' A (s.assign p heap) := by
  have hcases : ∀ q r, (s.assign p heap).args q = some r →
      q = p ∧ r = s.heap.length ∨ q ≠ p ∧ s.args q = some r := by
    intro q r hq
    by_cases hqp : q = p
    . rw [hqp, assign_self] at hq
      exact .inl ⟨hqp, (Option.some.inj hq).symm⟩
    . rw [assign_of_ne hqp] at hq
      exact .inr ⟨hqp, hq⟩
  refine ⟨hsim.keeps.trans hkeeps, ?_, ?_, ?_, ?_⟩
  . intro q
    by_cases hqp : q = p
    . subst hqp
      rw [assign_self]
      apply hholds
    . rw [assign_of_ne hqp]
      apply (hsim.holds q).keeps hkeeps
  . intro q hq
    rw [assign_of_ne (ne_of_mem_of_not_mem hq hp)]
    apply hsim.shared q (hsub q hq)
  . intro q r hq hr
    rcases hcases q r hr with ⟨_, hr⟩ | ⟨hqp, hr⟩
    . rw [hr]
      apply hsim.keeps.length_le
    . apply hsim.own q r _ hr
      intro hmem
      cases hrest q hmem with
      | _ hmem => contradiction
  . intro q q' r hr h₁ h₂
    have hne := hsim.ne_length
    rcases hcases q r h₁ with ⟨hq, hr₁⟩ | ⟨_, h₁⟩
    . rcases hcases q' r h₂ with ⟨hq', _⟩ | ⟨_, h₂⟩
      . rw [hq, hq']
      . exact absurd (hr₁ ▸ h₂) (hne q')
    . rcases hcases q' r h₂ with ⟨_, hr₂⟩ | ⟨_, h₂⟩
      . exact absurd (hr₂ ▸ h₁) (hne q)
      . apply hsim.inj q q' r hr h₁ h₂

theorem Sim.make (hsim : Sim h₀ args₀ todo A s) (hp : p ∉ todo)
    : Sim h₀ args₀ todo A (s.make p) := by
  unfold Memory.make
  split
  next => apply hsim
  next hnil =>
    apply hsim.assign (TableHeap.keeps_append s.heap ∅) _ hp (fun _ => id) (fun _ => .inl)
    have ⟨t, ht, hlookup⟩ := hsim.holds p
    rw [hnil] at ht
    cases ht
    exact ⟨∅, by simp [deref], hlookup⟩

theorem exists_make (s : Memory) (p : Pos) : ∃ r, (s.make p).args p = some r := by
  unfold Memory.make
  split
  next r hr => exact ⟨r, hr⟩
  next => exact ⟨_, update_self ..⟩

theorem Sim.put (hsim : Sim h₀ args₀ todo A s) (hp : p ∉ todo) {r : Nat} (hr : s.args p = some r)
    (kv : Str × Value) : Sim h₀ args₀ todo (update A p ((A p).set kv.1 kv.2)) (put p s kv) := by
  have hown := hsim.own p r hp hr
  unfold Memory.put
  rw [hr]
  refine ⟨hsim.keeps.write hown _ _, ?_, hsim.shared, hsim.own, hsim.inj⟩
  intro p'
  by_cases hp' : p' = p
  . subst hp'
    have hholds := hsim.holds p'
    rw [hr] at hholds
    simp only [update_self, hr]
    apply hholds.write
  . rw [update_of_ne hp']
    apply (hsim.holds p').write_of_ne
    intro hp'r
    apply hp' (hsim.inj p' p r hown hp'r hr)

@[simp]
theorem put_args (p : Pos) (s : Memory) (kv : Str × Value) : (put p s kv).args = s.args := by
  unfold Memory.put
  split
  all_goals rfl

theorem Sim.putAll (hsim : Sim h₀ args₀ todo A s) (hp : p ∉ todo) {r : Nat}
    (hr : s.args p = some r) (kvs : List (Str × Value))
    : Sim h₀ args₀ todo (update A p ((A p).setAll kvs)) (kvs.foldl (Memory.put p) s) := by
  induction kvs generalizing A s with
  | nil =>
    unfold Args.setAll
    rw [foldl_nil, foldl_nil, update_eq_self]
    apply hsim
  | cons kv kvs ih =>
    have hsim' := ih (hsim.put hp hr kv) (by rw [put_args, hr])
    rw [update_idem, update_self] at hsim'
    apply hsim'

theorem Sim.write (hsim : Sim h₀ args₀ todo A s) (hp : p ∉ todo) (kvs : List (Str × Value))
    : Sim h₀ args₀ todo (update A p ((A p).setAll kvs)) (s.write p kvs) := by
  unfold Memory.write
  split
  next hnil =>
    subst hnil
    unfold Args.setAll
    rw [foldl_nil, update_eq_self]
    apply hsim
  next =>
    have ⟨r, hr⟩ := exists_make s p
    apply (hsim.make hp).putAll hp hr

@[simp]
theorem out_write (s : Memory) (p : Pos) (kvs : List (Str × Value))
    : (s.write p kvs).out = s.out := by
  have hput : ∀ s : Memory, (kvs.foldl (Memory.put p) s).out = s.out := by
    induction kvs with
    | nil =>
      intro s
      rfl
    | cons kv kvs ih =>
      intro s
      rw [foldl_cons, ih]
      unfold Memory.put
      split
      all_goals rfl
  unfold Memory.write
  split
  next => rfl
  next =>
    rw [hput]
    unfold Memory.make
    split
    all_goals rfl

def updateAll (f : Pos → Args → Args) (ps : List Pos) (A : Pos → Args) : Pos → Args :=
  ps.foldl (fun A p => update A p (f p (A p))) A

theorem updateAll_of_not_mem {f : Pos → Args → Args} {ps : List Pos} (hp : p ∉ ps)
    : updateAll f ps A p = A p := by
  induction ps generalizing A with
  | nil => rfl
  | cons p' ps ih =>
    rw [mem_cons, not_or] at hp
    unfold updateAll
    rw [foldl_cons]
    apply (ih hp.2).trans
    apply update_of_ne hp.1

theorem updateAll_of_mem {f : Pos → Args → Args} {ps : List Pos} (hnodup : ps.Nodup) (hp : p ∈ ps)
    : updateAll f ps A p = f p (A p) := by
  induction ps generalizing A with
  | nil => contradiction
  | cons p' ps ih =>
    rw [nodup_cons] at hnodup
    unfold updateAll
    rw [foldl_cons]
    cases mem_cons.mp hp with
    | inl hhead =>
      subst hhead
      apply (updateAll_of_not_mem hnodup.1).trans
      apply update_self
    | inr htail =>
      apply (ih hnodup.2 htail).trans
      have hne : p ≠ p' := ne_of_mem_of_not_mem htail hnodup.1
      rw [update_of_ne hne]

theorem Sim.copyArgs (hsim : Sim h₀ args₀ (p :: todo) A s) (hp : p ∉ todo)
    (hshallow : ∀ r, args₀ p = some r → Shallow h₀ n (.map (some r)))
    : ∃ s', s.copyArgs n p = some s' ∧ Sim h₀ args₀ todo A s' ∧ s'.out = s.out := by
  have hshared := hsim.shared p mem_cons_self
  unfold Memory.copyArgs
  cases hr : s.args p with
  | none =>
    refine ⟨s, rfl, ⟨hsim.keeps, hsim.holds, ?_, ?_, hsim.inj⟩, rfl⟩
    . intro q hq
      apply hsim.shared q (mem_cons_of_mem p hq)
    . intro q r hq hqr
      have hne : q ≠ p := by
        intro heq
        rw [heq, hr] at hqr
        contradiction
      apply hsim.own q r _ hqr
      rw [mem_cons, not_or]
      exact ⟨hne, hq⟩
  | some r =>
    have hsh := hshallow r (by rw [← hshared, hr])
    have ⟨t, ht⟩ : ∃ t, deref h₀ (some r) = some t := by
      cases n with
      | zero => contradiction
      | succ n =>
        have ⟨t, ht, _⟩ := hsh
        exact ⟨t, ht⟩
    have ⟨h', t', hcopy, hkeeps, ht', hlike⟩ :=
      TableHeap.copies h₀ n s.heap (some r) t hsim.keeps hsh ht
    simp only [hcopy]
    refine ⟨s.assign p h', rfl, ?_, rfl⟩
    apply hsim.assign hkeeps _ hp (fun _ => mem_cons_of_mem p)
      (fun q hq => (mem_cons.mp hq).symm)
    have ⟨t₁, ht₁, hlookup⟩ := hsim.holds p
    rw [hr, hsim.keeps.deref ht] at ht₁
    cases ht₁
    refine ⟨t', ht', ?_⟩
    intro k
    apply rel_like (hlookup k) (hlike k)

theorem Sim.copyElems {ps : List Pos} (hsim : Sim h₀ args₀ ps A s) (hnodup : ps.Nodup)
    (hshallow : ∀ p r, args₀ p = some r → Shallow h₀ n (.map (some r)))
    : ∃ s', ps.foldlM (Memory.copyElem n) s = some s'
        ∧ Sim h₀ args₀ [] (updateAll (fun p args => args.setAll (writesAt s.out p)) ps A) s'
        ∧ s'.out = s.out := by
  induction ps generalizing A s with
  | nil => exact ⟨s, rfl, hsim, rfl⟩
  | cons p ps ih =>
    rw [nodup_cons] at hnodup
    have ⟨s₁, hcopy, hsim₁, hout₁⟩ := hsim.copyArgs hnodup.1 (hshallow p)
    have ⟨s', hloop, hsim', hout⟩ := ih (hsim₁.write hnodup.1 (writesAt s₁.out p)) hnodup.2
    rw [out_write, hout₁] at hsim' hout
    refine ⟨s', ?_, hsim', hout⟩
    rw [foldlM_cons]
    unfold Memory.copyElem
    rw [hcopy]
    apply hloop

end Memory
end Expand
