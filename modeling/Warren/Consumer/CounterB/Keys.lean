import Warren.Consumer.CounterB.Impl

namespace CounterB

open List

variable {s : Bytes} {n : Nat}

-- valid UTF-8
def Valid (s : Bytes) : Prop := ∃ t : String, bytes t = s

theorem runeStart_continuation (n : Nat) : runeStart (UInt8.ofNat (n % 64 + 128)) = false := by
  have h : ∀ m < 64, runeStart (UInt8.ofNat (m + 128)) = false := by decide
  apply h
  omega

theorem runeStart_of_isUTF8FirstByte (b : UInt8) (h : b.IsUTF8FirstByte) : runeStart b = true := by
  revert h
  have ⟨b⟩ := b
  revert b
  unfold runeStart UInt8.IsUTF8FirstByte
  decide +kernel

theorem runeStart_of_mem_tail {c : Char} {b : UInt8} (h : b ∈ (String.utf8EncodeChar c).tail)
    : runeStart b = false := by
  have hcontinuation := runeStart_continuation
  unfold String.utf8EncodeChar at h
  dsimp only at h
  repeat' split at h
  all_goals simp only [tail_cons, mem_cons, not_mem_nil, or_false] at h
  all_goals aesop

theorem bytes_eq (t : String) : bytes t = t.toList.flatMap String.utf8EncodeChar := by
  unfold bytes String.toUTF8
  rw [← String.utf8Encode_toList]
  simp [List.utf8Encode]

theorem runeStart_iff {t : String} {b : UInt8} (h : b ∈ bytes t)
    : runeStart b = true ↔ b.IsUTF8FirstByte := by
  refine ⟨?_, runeStart_of_isUTF8FirstByte b⟩
  intro hstart
  rw [bytes_eq, mem_flatMap] at h
  have ⟨c, _, hb⟩ := h
  have hfirst := UInt8.isUTF8FirstByte_getElem_zero_utf8EncodeChar (c := c)
  cases hc : String.utf8EncodeChar c with
  | nil => exact absurd hc String.utf8EncodeChar_ne_nil
  | cons b' rest =>
    simp only [hc, getElem_cons_zero] at hfirst
    rw [hc, mem_cons] at hb
    cases hb with
    | inl hb => rw [hb]; exact hfirst
    | inr hb =>
      rw [runeStart_of_mem_tail (c := c) (by rw [hc]; exact hb)] at hstart
      contradiction

theorem valid_iff {b : ByteArray} : Valid b.data.toList ↔ b.IsValidUTF8 := by
  constructor
  . intro ⟨t, ht⟩
    have hb : t.toByteArray = b := ByteArray.ext (Array.toList_inj.mp ht)
    rw [← hb]
    apply String.isValidUTF8
  . intro hb
    exact ⟨String.ofByteArray b hb, rfl⟩

theorem valid_take_iff (t : String) {m : Nat} (hm : m ≤ (bytes t).length)
    : Valid ((bytes t).take m) ↔ ∀ h : m < (bytes t).length, runeStart (bytes t)[m] = true := by
  have htake : (bytes t).take m = (t.toByteArray.extract 0 m).data.toList := by
    simp [bytes, String.toUTF8]
  have hsize : (bytes t).length = t.toByteArray.size := by
    simp [bytes, String.toUTF8]
  have hvalid := String.Pos.Raw.isValid_iff_isValidUTF8_extract_zero (s := t) (p := ⟨m⟩)
  have hstart := String.Pos.Raw.isValid_iff_isUTF8FirstByte (s := t) (p := ⟨m⟩)
  rw [htake, valid_iff]
  simp only [String.Pos.Raw.le_iff, String.Pos.Raw.lt_iff, String.rawEndPos, String.utf8ByteSize,
    String.Pos.Raw.mk.injEq, String.getUTF8Byte, ← hsize] at hvalid hstart
  constructor
  . intro hb h
    cases hstart.mp (hvalid.mpr ⟨hm, hb⟩) with
    | inl heq => omega
    | inr hfirst => exact (runeStart_iff (getElem_mem h)).mpr hfirst.2
  . intro h
    apply (hvalid.mp (hstart.mpr _)).2
    cases Nat.lt_or_eq_of_le hm with
    | inl hlt => exact .inr ⟨hlt, (runeStart_iff (getElem_mem hlt)).mp (h hlt)⟩
    | inr heq => exact .inl heq

theorem go_spec (s : Bytes) {n : Nat} (h : n < s.length)
    : truncateAtRuneBoundary.go s n h ≤ n
        ∧ (∀ hlt, truncateAtRuneBoundary.go s n h ≠ 0 →
          runeStart (s.get ⟨truncateAtRuneBoundary.go s n h, hlt⟩) = true)
        ∧ ∀ k (hk : k < s.length), truncateAtRuneBoundary.go s n h < k → k ≤ n →
          runeStart s[k] = false := by
  induction n with
  | zero => exact ⟨Nat.le_refl 0, fun _ h => absurd rfl h, fun k _ _ _ => by omega⟩
  | succ n ih =>
    unfold truncateAtRuneBoundary.go
    split
    . next hstart => exact ⟨Nat.le_refl _, fun _ _ => hstart, fun k _ _ _ => by omega⟩
    . next hstart =>
      obtain ⟨hle, hrune, hnone⟩ := ih (by omega)
      refine ⟨by omega, hrune, ?_⟩
      intro k hk hlt hkn
      cases Nat.lt_or_eq_of_le hkn with
      | inl hkn => exact hnone k hk hlt (by omega)
      | inr heq =>
        subst heq
        simpa using hstart

structure LongestValid (s : Bytes) (n : Nat) (p : Bytes) : Prop where
  isPrefix : p <+: s
  valid : Valid p
  length_le : p.length ≤ n
  longest : ∀ q, q <+: s → Valid q → q.length ≤ n → q.length ≤ p.length

theorem longestValid_truncateAtRuneBoundary (h : Valid s) (n : Nat)
    : LongestValid s n (truncateAtRuneBoundary s n) := by
  have ⟨t, ht⟩ := h
  subst ht
  unfold truncateAtRuneBoundary
  split
  . next hlt =>
    have ⟨hle, hrune, hnone⟩ := go_spec (bytes t) hlt
    have hlen : truncateAtRuneBoundary.go (bytes t) n hlt < (bytes t).length := by omega
    constructor
    . apply take_prefix
    . by_cases hzero : truncateAtRuneBoundary.go (bytes t) n hlt = 0
      . rw [hzero]
        exact ⟨"", rfl⟩
      . rw [valid_take_iff t (by omega)]
        exact fun hlt => hrune hlt hzero
    . rw [length_take]
      omega
    . intro q hprefix hvalid hq
      rw [length_take, Nat.min_eq_left (by omega)]
      by_contra hlonger
      rw [prefix_iff_eq_take.mp hprefix, valid_take_iff t (by omega)] at hvalid
      have hfalse := hnone q.length (by omega) (by omega) hq
      rw [hvalid (by omega)] at hfalse
      contradiction
  . exact ⟨prefix_rfl, h, by omega, fun q hprefix _ _ => hprefix.length_le⟩

theorem Valid.append {s' : Bytes} (h : Valid s) (h' : Valid s') : Valid (s ++ s') := by
  have ⟨t, ht⟩ := h
  have ⟨t', ht'⟩ := h'
  refine ⟨t ++ t', ?_⟩
  rw [bytes_eq, String.toList_append, flatMap_append, ← bytes_eq, ← bytes_eq, ht, ht']

theorem counterBKeyForMsgID_cases (s : Bytes)
    : counterBKeyForMsgID s = []
        ∨ ∃ p, counterBKeyForMsgID s = bytes "mid:" ++ p
          ∧ (p = s ∨ p = truncateAtRuneBoundary s maxMsgIDKeyLen) := by
  unfold counterBKeyForMsgID
  dsimp only
  generalize hp : (if maxMsgIDKeyLen < s.length then _ else s) = p
  split
  . exact .inl rfl
  . refine .inr ⟨p, rfl, ?_⟩
    split at hp
    . exact .inr hp.symm
    . exact .inl hp.symm

theorem valid_counterBKeyForMsgID (h : Valid s) : Valid (counterBKeyForMsgID s) := by
  rcases counterBKeyForMsgID_cases s with hkey | ⟨p, hkey, hp⟩
  . exact ⟨"", hkey.symm⟩
  . rw [hkey]
    apply Valid.append ⟨"mid:", rfl⟩
    cases hp with
    | inl hp => rw [hp]; exact h
    | inr hp => rw [hp]; apply (longestValid_truncateAtRuneBoundary h _).valid

theorem counterBKeyForMsgID_ne (s tag : Bytes) (deliveryTag : UInt64)
    : counterBKeyForMsgID s ≠ counterBKeyForDeliveryTag tag deliveryTag := by
  intro h
  have hdlv : (counterBKeyForDeliveryTag tag deliveryTag).head? = some 100 := by
    unfold counterBKeyForDeliveryTag
    dsimp only
    rw [append_assoc, append_assoc]
    rfl
  rw [← h] at hdlv
  rcases counterBKeyForMsgID_cases s with hkey | ⟨p, hkey, _⟩
  . rw [hkey] at hdlv
    contradiction
  . have hmid : (bytes "mid:" ++ p).head? = some 109 := rfl
    rw [hkey, hmid] at hdlv
    contradiction

theorem counterBKeyForMsgID_of_short (h : s.length ≤ 512)
    : counterBKeyForMsgID s = if s = [] then [] else bytes "mid:" ++ s := by
  unfold counterBKeyForMsgID maxMsgIDKeyLen
  simp only [Nat.not_lt.mpr h, if_false]

theorem counterBKeyForMsgID_injective {s' : Bytes} (hs : s.length ≤ 512) (hs' : s'.length ≤ 512)
    (h : counterBKeyForMsgID s = counterBKeyForMsgID s') : s = s' := by
  rw [counterBKeyForMsgID_of_short hs, counterBKeyForMsgID_of_short hs'] at h
  split at h
  . next hempty =>
    split at h
    . next hempty' => rw [hempty, hempty']
    . contradiction
  . split at h
    . contradiction
    . apply append_cancel_left h

theorem keys_valid_distinct
    : (∀ s n, Valid s → LongestValid s n (truncateAtRuneBoundary s n))
        ∧ (∀ msgID, Valid msgID → Valid (counterBKeyForMsgID msgID))
        ∧ ∀ consumerTag,
          (∀ msgID deliveryTag,
            counterBKeyForMsgID msgID ≠ counterBKeyForDeliveryTag consumerTag deliveryTag)
          ∧ (∀ msgID msgID', msgID.length ≤ 512 → msgID'.length ≤ 512 → msgID ≠ msgID' →
            counterBKeyForMsgID msgID ≠ counterBKeyForMsgID msgID')
          ∧ ∀ deliveryTag deliveryTag', deliveryTag ≠ deliveryTag' →
            counterBKeyForDeliveryTag consumerTag deliveryTag
              ≠ counterBKeyForDeliveryTag consumerTag deliveryTag' := by
  refine ⟨fun s n h => longestValid_truncateAtRuneBoundary h n,
    fun _ => valid_counterBKeyForMsgID, fun consumerTag => ⟨?_, ?_, ?_⟩⟩
  . intro msgID deliveryTag
    apply counterBKeyForMsgID_ne
  . intro msgID msgID' hs hs' hne heq
    exact hne (counterBKeyForMsgID_injective hs hs' heq)
  . intro deliveryTag deliveryTag' hne heq
    exact hne (counterBKeyForDeliveryTag_injective heq)

end CounterB
