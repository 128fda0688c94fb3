import Mathlib.Data.List.AList
import Warren.Base.Values

/-!
The in-process redelivery counter of a channel, `redeliveryCounter` in `consumer.go`, and its keys.
A Go string is the list of its bytes.
-/

namespace CounterB

open Nat

def bytes (s : String) : Bytes := s.toUTF8.data.toList

def maxMsgIDKeyLen : Nat := 512

def maxConsumerTagKeyLen : Nat := 256

-- `utf8.RuneStart`: not a continuation byte
def runeStart (b : UInt8) : Bool := b &&& 0xC0 ≠ 0x80

def truncateAtRuneBoundary (s : Bytes) (n : Nat) : Bytes :=
  if h : n < s.length then s.take (go s n h) else s
where
  go (s : Bytes) : (n : Nat) → n < s.length → Nat
    | 0, _ => 0
    | n + 1, h => if runeStart s[n + 1] then n + 1 else go s n (by omega)

def counterBKeyForMsgID (msgID : Bytes) : Bytes :=
  let msgID :=
    if maxMsgIDKeyLen < msgID.length then truncateAtRuneBoundary msgID maxMsgIDKeyLen else msgID
  if msgID = [] then [] else bytes "mid:" ++ msgID

def counterBKeyForDeliveryTag (consumerTag : Bytes) (deliveryTag : UInt64) : Bytes :=
  let consumerTag :=
    if maxConsumerTagKeyLen < consumerTag.length then
      truncateAtRuneBoundary consumerTag maxConsumerTagKeyLen
    else
      consumerTag
  bytes "dlv:" ++ consumerTag ++ bytes ":" ++ bytes (Nat.repr deliveryTag.toNat)

structure RedeliveryCounter where
  m : AList (fun _ : Bytes => Int)

namespace RedeliveryCounter

def new : RedeliveryCounter := ⟨∅⟩

def load (cs : RedeliveryCounter) (key : Bytes) : Int := (cs.m.lookup key).getD 0

def store (cs : RedeliveryCounter) (key : Bytes) (count : Int) : RedeliveryCounter :=
  ⟨cs.m.insert key count⟩

def delete (cs : RedeliveryCounter) (key : Bytes) : RedeliveryCounter := ⟨cs.m.erase key⟩

@[simp]
theorem load_new (key : Bytes) : new.load key = 0 := rfl

@[simp]
theorem load_store (cs : RedeliveryCounter) (key : Bytes) (count : Int)
    : (cs.store key count).load key = count := by
  simp [load, store]

@[simp]
theorem load_delete (cs : RedeliveryCounter) (key : Bytes) : (cs.delete key).load key = 0 := by
  simp [load, delete]

theorem load_store_ne (cs : RedeliveryCounter) {key key' : Bytes} (h : key' ≠ key) (count : Int)
    : (cs.store key count).load key' = cs.load key' := by
  simp [load, store, AList.lookup_insert_ne h]

theorem load_delete_ne (cs : RedeliveryCounter) {key key' : Bytes} (h : key' ≠ key)
    : (cs.delete key).load key' = cs.load key' := by
  simp [load, delete, AList.lookup_erase_ne h]

-- no count is over the limit: the `int64` that the source adds one to does not overflow
def Within (cs : RedeliveryCounter) (limit : Int) : Prop :=
  ∀ key, 0 ≤ cs.load key ∧ cs.load key ≤ limit

theorem within_new {limit : Int} (h : 0 ≤ limit) : new.Within limit := by
  intro key
  simp [h]

theorem Within.store {cs : RedeliveryCounter} {limit count : Int} (h : cs.Within limit)
    (key : Bytes) (hcount : 0 ≤ count ∧ count ≤ limit) : (cs.store key count).Within limit := by
  intro key'
  by_cases hkey : key' = key
  . rw [hkey, load_store]
    exact hcount
  . rw [load_store_ne cs hkey]
    exact h key'

theorem Within.delete {cs : RedeliveryCounter} {limit : Int} (h : cs.Within limit) (key : Bytes)
    : (cs.delete key).Within limit := by
  intro key'
  by_cases hkey : key' = key
  . rw [hkey, load_delete]
    have hle := h key
    omega
  . rw [load_delete_ne cs hkey]
    exact h key'

end RedeliveryCounter

theorem bytes_injective {s t : String} (h : bytes s = bytes t) : s = t := by
  have harray : s.toUTF8.data = t.toUTF8.data := Array.toList_inj.mp h
  exact String.toByteArray_inj.mp (ByteArray.ext harray)

theorem counterBKeyForDeliveryTag_injective {consumerTag : Bytes} {t t' : UInt64}
    (h : counterBKeyForDeliveryTag consumerTag t = counterBKeyForDeliveryTag consumerTag t')
    : t = t' := by
  have hrepr := bytes_injective (List.append_cancel_left h)
  rw [repr_eq_ofList_toDigits, repr_eq_ofList_toDigits, String.ofList_inj] at hrepr
  apply UInt64.toNat_inj.mp
  calc t.toNat
    _ = ofDigitChars 10 (toDigits 10 t.toNat) 0 := ofDigitChars_ten_toDigits.symm
    _ = ofDigitChars 10 (toDigits 10 t'.toNat) 0 := by rw [hrepr]
    _ = t'.toNat := ofDigitChars_ten_toDigits

end CounterB
