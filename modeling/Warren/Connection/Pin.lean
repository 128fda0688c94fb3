import Mathlib.Data.List.FinRange
import Warren.Consumer.XDeath.Impl

/-!
The connection that a consumer tag is pinned to: `connIndexForTag` (`consumer.go`) and `PinIndex`
(`internal/connpool/pool.go`).
-/

namespace Pin

open List
open XDeath (Width)
open Bytes (lit)

def connIndexForTag (w : Width) (tag : Bytes) (n : Int) : Int :=
  if n ≤ 1 then
    0
  else
    let h := (finRange tag.length).foldl
      (fun h i => (h ^^^ (tag.get i).toUInt32) * 16777619) (2166136261 : UInt32)
    (w.wrap h.toNat).tmod n

-- `Write` of `hash/fnv`, for the sum that is in `h`
def write32a (h : UInt32) : Bytes → UInt32
  | [] => h
  | c :: data => write32a ((h ^^^ c.toUInt32) * 16777619) data

def pinIndex (w : Width) (tag : Bytes) (n : Int) : Int :=
  if n ≤ 1 then 0 else (w.wrap (write32a 2166136261 tag).toNat).tmod n

theorem write32a_eq (h : UInt32) (tag : Bytes)
    : write32a h tag = tag.foldl (fun h c => (h ^^^ c.toUInt32) * 16777619) h := by
  induction tag generalizing h with
  | nil => rfl
  | cons c tag ih => apply ih

theorem connIndexForTag_eq_pinIndex (w : Width) (tag : Bytes) (n : Int)
    : connIndexForTag w tag n = pinIndex w tag n := by
  unfold connIndexForTag pinIndex
  rw [write32a_eq]
  conv => rhs; rw [← map_get_finRange tag, foldl_map]

theorem wrap_w64 (h : UInt32) : Width.wrap .w64 h.toNat = h.toNat := by
  have hlt := h.toNat_lt
  apply Int.bmod_eq_of_le
  . simp [Width.bits]
  . simp [Width.bits]
    omega

theorem wrap_w32 (h : UInt32)
    : Width.wrap .w32 h.toNat = if h.toNat < 2 ^ 31 then (h.toNat : Int) else h.toNat - 2 ^ 32 := by
  have hlt := h.toNat_lt
  simp only [Width.wrap, Width.bits, Int.bmod_def]
  split <;> split <;> omega

theorem tmod_mem_range {a n : Int} (hn : 1 ≤ n)
    : (0 ≤ a.tmod n ∧ a.tmod n < n) ↔ 0 ≤ a ∨ n ∣ a := by
  rw [Int.dvd_iff_tmod_eq_zero]
  have hlt := Int.tmod_lt_of_pos a (by omega : 0 < n)
  refine ⟨fun h => ?_, fun h => ⟨?_, hlt⟩⟩
  . by_cases ha : 0 ≤ a
    . exact .inl ha
    . have hneg := Int.tmod_nonneg n (by omega : 0 ≤ -a)
      rw [Int.neg_tmod] at hneg
      omega
  . cases h with
    | inl ha => exact Int.tmod_nonneg n ha
    | inr hzero => omega

/--
On 32 bits the index is in range for the hashes below 2^31, and where a larger one is a multiple of
the pool size after the conversion.
-/
theorem connIndexForTag_in_range (w : Width) (tag : Bytes) (n : Int) (hn : 1 ≤ n)
    : connIndexForTag w tag n = pinIndex w tag n
        ∧ ((0 ≤ connIndexForTag w tag n ∧ connIndexForTag w tag n < n)
          ↔ w = .w64 ∨ n = 1 ∨ (write32a 2166136261 tag).toNat < 2 ^ 31
            ∨ n ∣ (write32a 2166136261 tag).toNat - 2 ^ 32) := by
  refine ⟨connIndexForTag_eq_pinIndex w tag n, ?_⟩
  rw [connIndexForTag_eq_pinIndex]
  unfold pinIndex
  split
  . have hone : n = 1 := by omega
    simp [hone]
  . rw [tmod_mem_range hn]
    cases w with
    | w64 => simp [wrap_w64]
    | w32 =>
      have hlt := (write32a 2166136261 tag).toNat_lt
      rw [wrap_w32]
      split
      next hsmall => exact iff_of_true (.inl (by omega)) (.inr (.inr (.inl hsmall)))
      next hge =>
        have hone : ¬n = 1 := by omega
        have hneg : ¬(0 : Int) ≤ (write32a 2166136261 tag).toNat - 2 ^ 32 := by omega
        rw [or_iff_right hneg, or_iff_right (by simp), or_iff_right hone, or_iff_right hge]

theorem connIndexForTag_in_range_orders
    : 0 ≤ connIndexForTag .w64 (lit "orders") 3 ∧ connIndexForTag .w64 (lit "orders") 3 < 3 := by
  exact (connIndexForTag_in_range .w64 (lit "orders") 3 (by decide)).2.mpr (.inl rfl)

theorem connIndexForTag_negative
    : connIndexForTag .w32 (lit "a") 5 = -1 ∧ pinIndex .w32 (lit "a") 5 = -1 := by
  decide

end Pin
