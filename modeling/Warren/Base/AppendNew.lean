import Mathlib.Data.List.Basic
import Mathlib.Data.List.Nodup

/-!
Lists that grow by elements of a new key: an element is appended unless its key is there already.
-/

namespace AppendNew

open List

variable {α κ : Type*} {key : α → κ} {P : α → Prop} {xs ys zs : List α} {x y : α}

/--
`ys` is `xs` with elements that satisfy `P` at its end, whose keys are new and differ from each
other.
-/
def Grows (key : α → κ) (P : α → Prop) (xs ys : List α) : Prop :=
  ∃ added, ys = xs ++ added ∧ (∀ x ∈ added, P x ∧ key x ∉ xs.map key) ∧ (added.map key).Nodup

theorem Grows.refl (xs : List α) : Grows key P xs xs :=
  ⟨[], by simp, by simp, by simp⟩

theorem Grows.trans (h : Grows key P xs ys) (h' : Grows key P ys zs) : Grows key P xs zs := by
  grind [Grows]

theorem grows_append (hP : P x) (hnew : key x ∉ xs.map key) : Grows key P xs (xs ++ [x]) := by
  refine ⟨[x], rfl, ?_, nodup_singleton _⟩
  intro y hy
  rw [List.mem_singleton.mp hy]
  exact ⟨hP, hnew⟩

theorem Grows.getElem? {i : Nat} (h : Grows key P xs ys) (hx : xs[i]? = some x)
    : ys[i]? = some x := by
  have ⟨added, hys, _⟩ := h
  have ⟨hlt, _⟩ := List.getElem?_eq_some_iff.mp hx
  rw [hys, List.getElem?_append_left hlt, hx]

theorem Grows.nodup (h : Grows key P xs ys) (hnodup : (xs.map key).Nodup) : (ys.map key).Nodup := by
  have ⟨added, hys, hadded, hnodup'⟩ := h
  subst hys
  rw [map_append]
  apply hnodup.append hnodup'
  intro k hk hk'
  have ⟨x, hx, hkey⟩ := mem_map.mp hk'
  apply (hadded x hx).2
  rw [hkey]
  apply hk

theorem Grows.of_length_le {i : Nat} (h : Grows key P xs ys) (hi : xs.length ≤ i)
    (hx : ys[i]? = some x) : P x := by
  have ⟨added, hys, hadded, _⟩ := h
  subst hys
  rw [getElem?_append_right hi] at hx
  apply (hadded x (mem_of_getElem? hx)).1

theorem Grows.unique {i j : Nat} (h : Grows key P xs ys) (hi : xs.length ≤ i) (hx : ys[i]? = some x)
    (hy : ys[j]? = some y) (hkey : key x = key y) : i = j := by
  have ⟨added, hys, hadded, hnodup⟩ := h
  subst hys
  rw [getElem?_append_right hi] at hx
  cases Nat.lt_or_ge j xs.length with
  | inl hj =>
    rw [getElem?_append_left hj] at hy
    have hmem := mem_map_of_mem (f := key) (mem_of_getElem? hy)
    have hnew := (hadded x (mem_of_getElem? hx)).2
    rw [hkey] at hnew
    contradiction
  | inr hj =>
    rw [getElem?_append_right hj] at hy
    have hx' : (added.map key)[i - xs.length]? = some (key x) := by rw [getElem?_map, hx]; rfl
    have hy' : (added.map key)[j - xs.length]? = some (key x) := by
      rw [List.getElem?_map, hy, hkey]
      rfl
    have ⟨hlt, _⟩ := List.getElem?_eq_some_iff.mp hx'
    have heq := (List.getElem?_inj hlt hnodup).mp (hx'.trans hy'.symm)
    omega

end AppendNew
