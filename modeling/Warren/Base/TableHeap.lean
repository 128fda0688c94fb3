import Mathlib.Data.List.AList

/-!
Tables in memory, known by their references. A table may be a value of another one.
-/

namespace TableHeap

open List

-- a value of a table; `map none` is a table that is nil
inductive Cell (V : Type) where
  | val (v : V)
  | map (m : Option Nat)
  deriving DecidableEq

abbrev Table (K V : Type) := AList (fun _ : K => Cell V)

abbrev Heap (K V : Type) := List (Table K V)

variable {K V : Type}

def deref (h : Heap K V) : Option Nat → Option (Table K V)
  | none => some ∅
  | some r => h[r]?

def Keeps (h h' : Heap K V) : Prop := ∀ (r : Nat) t, h[r]? = some t → h'[r]? = some t

section

variable {h h' h'' : Heap K V} {t : Table K V}

theorem Keeps.refl (h : Heap K V) : Keeps h h :=
  fun _ _ => id

theorem Keeps.trans (hkeeps : Keeps h h') (hkeeps' : Keeps h' h'') : Keeps h h'' :=
  fun r t hr => hkeeps' r t (hkeeps r t hr)

theorem keeps_append (h : Heap K V) (t : Table K V) : Keeps h (h ++ [t]) := by
  intro r t' hr
  rw [List.getElem?_append_left (List.getElem?_eq_some_iff.mp hr).1, hr]

theorem Keeps.length_le (hkeeps : Keeps h h') : h.length ≤ h'.length := by
  cases hlength : h.length with
  | zero => apply Nat.zero_le
  | succ l =>
    have hlt : l < h.length := by omega
    have hlast := hkeeps l h[l] (getElem?_eq_getElem hlt)
    apply (List.getElem?_eq_some_iff.mp hlast).1

theorem Keeps.deref {m : Option Nat} (hkeeps : Keeps h h') (hm : deref h m = some t)
    : TableHeap.deref h' m = some t := by
  cases m with
  | none => apply hm
  | some r => apply hkeeps r t hm

end

variable [DecidableEq K]

def write (h : Heap K V) (r : Nat) (k : K) (c : Cell V) : Heap K V := h.modify r (·.insert k c)

def copyEntry (copy : Heap K V → Option Nat → Option (Heap K V × Nat)) (t : Table K V) (dst : Nat)
    (h : Heap K V) (k : K) : Option (Heap K V) :=
  match t.lookup k with
  | none => some h
  | some (.val v) => some (write h dst k (.val v))
  | some (.map m) =>
    match copy h m with
    | none => none
    | some (h, r) => some (write h dst k (.map (some r)))

def copy : Nat → Heap K V → Option Nat → Option (Heap K V × Nat)
  | 0, _, _ => none
  | n + 1, h, m =>
    match deref h m with
    | none => none
    | some t =>
      match t.keys.foldlM (copyEntry (copy n) t h.length) (h ++ [∅]) with
      | none => none
      | some h' => some (h', h.length)

def Shallow (h : Heap K V) : Nat → Cell V → Prop
  | _, .val _ => True
  | 0, .map _ => False
  | n + 1, .map m => ∃ t, deref h m = some t ∧ ∀ k c, t.lookup k = some c → Shallow h n c

def Like : Cell V → Cell V → Prop
  | .val v, .val v' => v = v'
  | .map _, .map _ => True
  | _, _ => False

section

variable {h h' : Heap K V} {t : Table K V} {r : Nat}

theorem Keeps.write (hkeeps : Keeps h h') (hr : h.length ≤ r) (k : K) (c : Cell V)
    : Keeps h (write h' r k c) := by
  intro r' t' hr'
  have hlt := (List.getElem?_eq_some_iff.mp hr').1
  have hne : r ≠ r' := by omega
  unfold TableHeap.write
  rw [getElem?_modify_ne _ _ hne]
  apply hkeeps r' t' hr'

theorem getElem?_write_self (hr : h[r]? = some t) (k : K) (c : Cell V)
    : (write h r k c)[r]? = some (t.insert k c) := by
  unfold write
  rw [getElem?_modify_eq, hr]
  rfl

theorem getElem?_write_of_ne {r' : Nat} (hne : r ≠ r') (h : Heap K V) (k : K) (c : Cell V)
    : (write h r k c)[r']? = h[r']? := by
  unfold write
  rw [getElem?_modify_ne _ _ hne]

end

section

variable {h h₁ : Heap K V} {t t₀ : Table K V} {n dst : Nat}

def Copies (h : Heap K V) (n : Nat) : Prop :=
  ∀ h₁ m t, Keeps h h₁ → Shallow h n (.map m) → deref h m = some t →
    ∃ h' t', copy n h₁ m = some (h', h₁.length) ∧ Keeps h₁ h' ∧ h'[h₁.length]? = some t'
      ∧ ∀ k, Option.Rel Like (t.lookup k) (t'.lookup k)

theorem copyEntry_spec {hc : Heap K V} {k : K} {c : Cell V} (hcopies : Copies h n)
    (hkeeps : Keeps h hc) (hdst : hc[dst]? = some t₀) (hk : t.lookup k = some c)
    (hshallow : Shallow h n c)
    : ∃ h' t', copyEntry (copy n) t dst hc k = some h' ∧ h'[dst]? = some t'
        ∧ (∀ r tr, r ≠ dst → hc[r]? = some tr → h'[r]? = some tr)
        ∧ Option.Rel Like (t.lookup k) (t'.lookup k)
        ∧ ∀ k', k' ≠ k → t'.lookup k' = t₀.lookup k' := by
  unfold copyEntry
  rw [hk]
  cases c with
  | val v =>
    refine ⟨_, _, rfl, getElem?_write_self hdst k (.val v), ?_, ?_, ?_⟩
    . intro r tr hne hr
      rw [getElem?_write_of_ne hne.symm, hr]
    . rw [AList.lookup_insert]
      exact .some rfl
    . intro k' hne
      apply AList.lookup_insert_ne hne
  | map m =>
    have ⟨tm, hm⟩ : ∃ tm, deref h m = some tm := by
      cases n with
      | zero => contradiction
      | succ n =>
        have ⟨tm, hm, _⟩ := hshallow
        exact ⟨tm, hm⟩
    have ⟨h', _, hcopy, hkeeps', _⟩ := hcopies hc m tm hkeeps hshallow hm
    simp only [hcopy]
    refine ⟨_, _, rfl, getElem?_write_self (hkeeps' dst t₀ hdst) k _, ?_, ?_, ?_⟩
    . intro r tr hne hr
      rw [getElem?_write_of_ne hne.symm, hkeeps' r tr hr]
    . rw [AList.lookup_insert]
      exact .some trivial
    . intro k' hne
      apply AList.lookup_insert_ne hne

theorem copyLoop_spec {hc : Heap K V} {ks : List K} (hcopies : Copies h n) (hkeeps : Keeps h hc)
    (hlt : h.length ≤ dst) (hdst : hc[dst]? = some t₀)
    (hks : ∀ k ∈ ks, ∃ c, t.lookup k = some c ∧ Shallow h n c)
    : ∃ h' t', ks.foldlM (copyEntry (copy n) t dst) hc = some h' ∧ h'[dst]? = some t'
        ∧ (∀ r tr, r ≠ dst → hc[r]? = some tr → h'[r]? = some tr)
        ∧ ∀ k, (k ∈ ks → Option.Rel Like (t.lookup k) (t'.lookup k))
          ∧ (k ∉ ks → t'.lookup k = t₀.lookup k) := by
  induction ks generalizing hc t₀ with
  | nil => exact ⟨hc, t₀, rfl, hdst, fun _ _ _ => id, fun k => ⟨nofun, fun _ => rfl⟩⟩
  | cons k ks ih =>
    rw [forall_mem_cons] at hks
    have ⟨⟨c, hk, hshallow⟩, hks⟩ := hks
    have ⟨h₁, t₁, hentry, hdst₁, hframe₁, hlike₁, hother₁⟩ :=
      copyEntry_spec hcopies hkeeps hdst hk hshallow
    have hkeeps₁ : Keeps h h₁ := by
      intro r tr hr
      have hrlt := (List.getElem?_eq_some_iff.mp hr).1
      apply hframe₁ r tr (by omega) (hkeeps r tr hr)
    have ⟨h', t', hloop, hdst', hframe, hlookup⟩ := ih hkeeps₁ hdst₁ hks
    refine ⟨h', t', ?_, hdst', ?_, ?_⟩
    . rw [foldlM_cons, hentry]
      apply hloop
    . intro r tr hne hr
      apply hframe r tr hne (hframe₁ r tr hne hr)
    . intro k'
      have ⟨hlike, hother⟩ := hlookup k'
      by_cases hmem : k' ∈ ks
      . exact ⟨fun _ => hlike hmem, fun hnot => absurd (mem_cons_of_mem k hmem) hnot⟩
      . rw [hother hmem]
        refine ⟨?_, ?_⟩
        . intro hcons
          cases mem_cons.mp hcons with
          | inl heq =>
            subst heq
            apply hlike₁
          | inr htail => contradiction
        . intro hnot
          apply hother₁
          intro heq
          subst heq
          apply hnot mem_cons_self

theorem copies (h : Heap K V) (n : Nat) : Copies h n := by
  induction n with
  | zero =>
    intro h₁ m t _ hshallow
    contradiction
  | succ n ih =>
    intro h₁ m t hkeeps hshallow hm
    have ⟨t₁, hm₁, hcells⟩ := hshallow
    rw [hm] at hm₁
    cases hm₁
    have hks : ∀ k ∈ t.keys, ∃ c, t.lookup k = some c ∧ Shallow h n c := by
      intro k hk
      have ⟨c, hc⟩ := Option.isSome_iff_exists.mp (AList.lookup_isSome.mpr (AList.mem_keys.mpr hk))
      exact ⟨c, hc, hcells k c hc⟩
    have hdst : (h₁ ++ [(∅ : Table K V)])[h₁.length]? = some ∅ := by simp
    have ⟨h', t', hloop, hdst', hframe, hlookup⟩ :=
      copyLoop_spec ih (hkeeps.trans (keeps_append h₁ ∅)) hkeeps.length_le hdst hks
    refine ⟨h', t', ?_, ?_, hdst', ?_⟩
    . unfold copy
      simp only [hkeeps.deref hm, hloop]
    . intro r tr hr
      have hlt := (List.getElem?_eq_some_iff.mp hr).1
      apply hframe r tr (by omega)
      apply keeps_append h₁ ∅ r tr hr
    . intro k
      have ⟨hlike, hother⟩ := hlookup k
      by_cases hk : k ∈ t.keys
      . apply hlike hk
      . rw [hother hk, AList.lookup_empty, AList.lookup_eq_none.mpr (mt AList.mem_keys.mp hk)]
        exact .none

end
end TableHeap
