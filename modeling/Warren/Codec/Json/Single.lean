import Mathlib.Data.List.TakeWhile
import Warren.Base.Run
import Warren.Base.Values

/-!
`jsonCodec.Decode` (`codec/json.go`) and the texts that it accepts. `IsValue` is the grammar of JSON
over bytes, and `Decoder` is what is known of `encoding/json`.
-/

namespace Json

open List
open Bytes (lit)

def isWhite (b : UInt8) : Bool := b = 32 || b = 9 || b = 10 || b = 13

def isDigit (b : UInt8) : Bool := 48 ≤ b && b ≤ 57

def isHex (b : UInt8) : Bool := isDigit b || (97 ≤ b && b ≤ 102) || (65 ≤ b && b ≤ 70)

def digits : Bytes → Option Bytes
  | b :: s => if isDigit b then some (s.dropWhile isDigit) else none
  | [] => none

def afterInt (s : Bytes) : Option Bytes := if s.head? = some 48 then some s.tail else digits s

def afterFrac (s : Bytes) : Option Bytes := if s.head? = some 46 then digits s.tail else some s

def afterExp : Bytes → Option Bytes
  | e :: sign :: s =>
    if e = 101 || e = 69 then
      digits (if sign = 43 || sign = 45 then s else sign :: s)
    else
      some (e :: sign :: s)
  | s => some s

def isNumber (s : Bytes) : Bool :=
  let s := if s.head? = some 45 then s.tail else s
  (((afterInt s).bind afterFrac).bind afterExp) = some []

def isRest : Bytes → Bool
  | [34] => true
  | 92 :: 117 :: a :: b :: c :: d :: s => [a, b, c, d].all isHex && isRest s
  | 92 :: e :: s => (lit "\"\\/bfnrt").elem e && isRest s
  | b :: s => 32 ≤ b && b ≠ 34 && b ≠ 92 && isRest s
  | [] => false

def isString (s : Bytes) : Bool := s.head? = some 34 && isRest s.tail

structure Padded where
  before : Bytes
  value : Bytes
  after : Bytes
  before_white : ∀ b ∈ before, isWhite b = true
  after_white : ∀ b ∈ after, isWhite b = true

def Padded.text (p : Padded) : Bytes := p.before ++ p.value ++ p.after

inductive IsValue : Bytes → Prop where
  | literal {s : Bytes} (h : s ∈ [lit "true", lit "false", lit "null"]) : IsValue s
  | number {s : Bytes} (h : isNumber s = true) : IsValue s
  | string {s : Bytes} (h : isString s = true) : IsValue s
  | array {elems : List Padded} (h : ∀ p ∈ elems, IsValue p.value)
    : IsValue (lit "[" ++ intercalate (lit ",") (elems.map Padded.text) ++ lit "]")
  | emptyArray {s : Bytes} (h : ∀ b ∈ s, isWhite b = true) : IsValue (lit "[" ++ s ++ lit "]")
  | object {members : List (Padded × Padded)} (hkey : ∀ m ∈ members, isString m.1.value = true)
    (h : ∀ m ∈ members, IsValue m.2.value)
    : IsValue (lit "\x7b" ++ intercalate (lit ",")
        (members.map (fun m => m.1.text ++ lit ":" ++ m.2.text)) ++ lit "\x7d")
  | emptyObject {s : Bytes} (h : ∀ b ∈ s, isWhite b = true)
    : IsValue (lit "\x7b" ++ s ++ lit "\x7d")

-- `Decode` for a target: the error, or what it leaves unread of the data
structure Decoder where
  decode : Bool → Bytes → Except String Bytes
  spec : ∀ {strict data rest}, decode strict data = .ok rest →
    ∃ p : Padded, IsValue p.value ∧ p.after = [] ∧ data = p.text ++ rest

def more (rest : Bytes) : Bool :=
  match rest.dropWhile isWhite with
  | [] => false
  | b :: _ => b ≠ 93 && b ≠ 125

inductive Err where
  | invalidMessage (err : String)
  | trailingData
  deriving DecidableEq, Repr

structure JsonCodec where
  strict : Bool

def JsonCodec.decode (c : JsonCodec) (dec : Decoder) (data : Bytes) : Except Err Unit :=
  match dec.decode c.strict data with
  | .error err => .error (.invalidMessage err)
  | .ok rest => if more rest then .error .trailingData else .ok ()

def IsDocument (data : Bytes) : Prop := ∃ p : Padded, IsValue p.value ∧ data = p.text

/-!
Brackets and braces outside of strings, counted from the left: no value closes one that it has not
opened.
-/

inductive Mode where
  | plain
  | inString
  | escaped
  deriving DecidableEq, Repr

def scan : Mode × Nat → UInt8 → Option (Mode × Nat)
  | (.plain, d), b =>
    if b = 34 then some (.inString, d)
    else if b = 91 ∨ b = 123 then some (.plain, d + 1)
    else if b = 93 ∨ b = 125 then if d = 0 then none else some (.plain, d - 1)
    else some (.plain, d)
  | (.inString, d), b =>
    if b = 34 then some (.plain, d) else if b = 92 then some (.escaped, d) else some (.inString, d)
  | (.escaped, d), _ => some (.inString, d)

def Balanced (s : Bytes) : Prop := ∀ d, Run.run scan (.plain, d) s = some (.plain, d)

variable {s t r : Bytes} {d : Nat}

theorem Balanced.append (hs : Balanced s) (ht : Balanced t) : Balanced (s ++ t) := by
  intro d
  rw [Run.run_append, hs d]
  exact ht d

theorem run_cons_plain {b : UInt8} (hb : scan (.plain, d) b = some (.plain, d))
    : Run.run scan (.plain, d) (b :: s) = Run.run scan (.plain, d) s :=
  Run.run_cons_of_step s hb

theorem balanced_of_forall (h : ∀ b ∈ s, ∀ d, scan (.plain, d) b = some (.plain, d))
    : Balanced s := by
  intro d
  induction s with
  | nil => rfl
  | cons b s ih =>
    rw [run_cons_plain (h b mem_cons_self d)]
    exact ih (fun b hb => h b (mem_cons_of_mem _ hb))

theorem scan_white {b : UInt8} (h : isWhite b = true) (d : Nat)
    : scan (.plain, d) b = some (.plain, d) := by
  grind [isWhite, scan]

theorem scan_digit {b : UInt8} (h : isDigit b = true) (d : Nat)
    : scan (.plain, d) b = some (.plain, d) := by
  grind [isDigit, scan]

theorem balanced_white (h : ∀ b ∈ s, isWhite b = true) : Balanced s :=
  balanced_of_forall (fun b hb => scan_white (h b hb))

theorem Padded.balanced (p : Padded) (h : Balanced p.value) : Balanced p.text :=
  ((balanced_white p.before_white).append h).append (balanced_white p.after_white)

theorem balanced_enclosed (hs : Balanced s) {o c : UInt8} (ho : o = 91 ∨ o = 123)
    (hc : c = 93 ∨ c = 125) : Balanced ([o] ++ s ++ [c]) := by
  intro d
  have hopen : scan (.plain, d) o = some (.plain, d + 1) := by grind [scan]
  have hclose : scan (.plain, d + 1) c = some (.plain, d) := by grind [scan]
  rw [Run.run_append, Run.run_append, Run.run_singleton_of_step hopen, Option.bind_some, hs,
    Option.bind_some, Run.run_singleton_of_step hclose]

theorem balanced_comma : Balanced (lit ",") := fun _ => rfl

theorem balanced_intercalate {elems : List Bytes} (h : ∀ s ∈ elems, Balanced s)
    : Balanced (intercalate (lit ",") elems) := by
  induction elems with
  | nil => exact fun _ => rfl
  | cons x elems ih =>
    have hx := h x mem_cons_self
    have helems := ih (fun s hs => h s (mem_cons_of_mem _ hs))
    cases elems with
    | nil =>
      rw [intercalate_singleton]
      exact hx
    | cons y elems =>
      rw [intercalate_cons_cons]
      exact (hx.append balanced_comma).append helems

def Skips (f : Bytes → Option Bytes) : Prop :=
  ∀ {s r d}, f s = some r → Run.run scan (.plain, d) s = Run.run scan (.plain, d) r

theorem skips_digits : Skips digits := by
  intro s r d h
  cases s with
  | nil => contradiction
  | cons b s =>
    dsimp only [digits] at h
    split at h
    . next hb =>
      cases h
      have htake : Balanced (s.takeWhile isDigit) :=
        balanced_of_forall (fun b hb => scan_digit (mem_takeWhile_imp hb))
      rw [run_cons_plain (scan_digit hb d), ← takeWhile_append_dropWhile (p := isDigit) (l := s),
        Run.run_append, htake d, Option.bind_some, takeWhile_append_dropWhile]
    . contradiction

theorem skips_afterInt : Skips afterInt := by
  intro s r d h
  unfold afterInt at h
  split at h
  . next hzero =>
    cases s with
    | nil => contradiction
    | cons b s =>
      cases h
      exact run_cons_plain (scan_digit (Option.some.inj hzero ▸ rfl) d)
  . exact skips_digits h

theorem skips_afterFrac : Skips afterFrac := by
  intro s r d h
  unfold afterFrac at h
  split at h
  . next hpoint =>
    cases s with
    | nil => contradiction
    | cons b s =>
      cases Option.some.inj hpoint
      rw [run_cons_plain rfl]
      exact skips_digits h
  . cases h
    rfl

theorem skips_afterExp : Skips afterExp := by
  intro s r d h
  unfold afterExp at h
  split at h
  . next e sign s =>
    split at h
    . next he =>
      have he : scan (.plain, d) e = some (.plain, d) := by grind [scan]
      rw [run_cons_plain he, ← skips_digits h]
      split
      . next hsign => exact run_cons_plain (by grind [scan])
      . rfl
    . cases h
      rfl
  . cases h
    rfl

theorem balanced_number (h : isNumber s = true) : Balanced s := by
  intro d
  simp only [isNumber, decide_eq_true_eq, Option.bind_eq_some_iff] at h
  have ⟨r₂, ⟨r₁, hint, hfrac⟩, hexp⟩ := h
  have hrest := ((skips_afterInt hint).trans (skips_afterFrac hfrac)).trans
    (skips_afterExp (d := d) hexp)
  split at hrest
  . next hminus =>
    cases s with
    | nil => contradiction
    | cons b s =>
      cases Option.some.inj hminus
      rw [run_cons_plain rfl]
      exact hrest
  . exact hrest

theorem run_isRest (h : isRest s = true) (d : Nat)
    : Run.run scan (.inString, d) s = some (.plain, d) := by
  have hin {b : UInt8} {s : Bytes} (hquote : b ≠ 34) (hescape : b ≠ 92)
      : Run.run scan (.inString, d) (b :: s) = Run.run scan (.inString, d) s :=
    Run.run_cons_of_step s (by simp [scan, hquote, hescape])
  have hhex {b : UInt8} {s : Bytes} (hb : isHex b = true)
      : Run.run scan (.inString, d) (b :: s) = Run.run scan (.inString, d) s := by
    apply hin
    all_goals
      rintro rfl
      contradiction
  fun_induction isRest s with
  | case1 => rfl
  | case2 x y z w s ih =>
    simp only [Bool.and_eq_true, all_cons] at h
    have ⟨⟨hx, hy, hz, hw, _⟩, hs⟩ := h
    show Run.run scan (.inString, d) (x :: y :: z :: w :: s) = _
    rw [hhex hx, hhex hy, hhex hz, hhex hw, ih hs]
  | case3 e s _ ih => exact ih (Bool.and_eq_true_iff.mp h).2
  | case4 b s _ _ _ ih =>
    simp only [Bool.and_eq_true, decide_eq_true_eq] at h
    rw [hin h.1.1.2 h.1.2, ih h.2]
  | case5 => contradiction

theorem balanced_string (h : isString s = true) : Balanced s := by
  simp only [isString, Bool.and_eq_true, decide_eq_true_eq] at h
  intro d
  cases s with
  | nil => simp at h
  | cons b s =>
    cases Option.some.inj h.1
    exact run_isRest h.2 d

theorem IsValue.balanced (h : IsValue s) : Balanced s := by
  induction h with
  | literal h =>
    simp only [mem_cons, not_mem_nil, or_false] at h
    rcases h with rfl | rfl | rfl
    all_goals exact fun _ => rfl
  | number h => exact balanced_number h
  | string h => exact balanced_string h
  | array _ ih =>
    refine balanced_enclosed (balanced_intercalate ?_) (.inl rfl) (.inl rfl)
    intro s hs
    obtain ⟨p, hp, rfl⟩ := mem_map.mp hs
    exact p.balanced (ih p hp)
  | emptyArray h => exact balanced_enclosed (balanced_white h) (.inl rfl) (.inl rfl)
  | object hkey _ ih =>
    refine balanced_enclosed (balanced_intercalate ?_) (.inr rfl) (.inr rfl)
    intro s hs
    obtain ⟨m, hm, rfl⟩ := mem_map.mp hs
    have hcolon : Balanced (lit ":") := fun _ => rfl
    exact ((m.1.balanced (balanced_string (hkey m hm))).append hcolon).append
      (m.2.balanced (ih m hm))
  | emptyObject h => exact balanced_enclosed (balanced_white h) (.inr rfl) (.inr rfl)

theorem balanced_of_document (h : IsDocument s) : Balanced s := by
  obtain ⟨p, hvalue, rfl⟩ := h
  exact p.balanced hvalue.balanced

-- what follows the value, white space apart, closes a bracket or a brace
def Closes (rest : Bytes) : Prop := ∃ b ∈ (rest.dropWhile isWhite).head?, b = 93 ∨ b = 125

theorem not_balanced_of_closes (hs : Balanced s) (h : Closes r) : ¬Balanced (s ++ r) := by
  intro hbalanced
  have ⟨b, hhead, hb⟩ := h
  have ⟨rest, hdrop⟩ := head?_eq_some_iff.mp hhead
  have htake : Balanced (r.takeWhile isWhite) := balanced_white (fun _ => mem_takeWhile_imp)
  have hclose : scan (.plain, 0) b = none := by
    rcases hb with rfl | rfl
    all_goals rfl
  have hrun := hbalanced 0
  rw [← takeWhile_append_dropWhile (p := isWhite) (l := r), hdrop, ← append_assoc, Run.run_append,
    (hs.append htake) 0, Option.bind_some, Run.run, hclose] at hrun
  contradiction

theorem more_of_closes (h : Closes r) : more r = false := by
  have ⟨b, hhead, hb⟩ := h
  have ⟨rest, hdrop⟩ := head?_eq_some_iff.mp hhead
  unfold more
  rw [hdrop]
  rcases hb with rfl | rfl
  all_goals rfl

theorem white_of_not_more (hmore : more r = false) (hcloses : ¬Closes r)
    : ∀ b ∈ r, isWhite b = true := by
  unfold more at hmore
  split at hmore
  . next hdrop => exact dropWhile_eq_nil_iff.mp hdrop
  . next b rest hdrop =>
    refine absurd ⟨b, by simp [hdrop], ?_⟩ hcloses
    by_contra hb
    rw [not_or] at hb
    simp [hb] at hmore

/--
What is decoded without an error is one JSON value, exactly when the value that was read is not
followed by a bracket or a brace, which closes nothing.
-/
theorem document_of_decode_iff (c : JsonCodec) (dec : Decoder) (data : Bytes)
    : (c.decode dec data = .ok () → IsDocument data)
        ↔ ∀ rest, dec.decode c.strict data = .ok rest → ¬Closes rest := by
  unfold JsonCodec.decode
  cases hdecode : dec.decode c.strict data with
  | error err => simp
  | ok rest =>
    obtain ⟨p, hvalue, hafter, rfl⟩ := dec.spec hdecode
    have hbalanced := p.balanced hvalue.balanced
    constructor
    . intro h rest' hrest' hcloses
      cases hrest'
      have hdocument := h (by simp [more_of_closes hcloses])
      exact not_balanced_of_closes hbalanced hcloses (balanced_of_document hdocument)
    . intro hopen h
      have hmore : more rest = false := by
        by_contra hmore
        simp [hmore] at h
      refine ⟨{ p with
        after := rest
        after_white := white_of_not_more hmore (hopen rest rfl) }, hvalue, ?_⟩
      rw [Padded.text, hafter, append_nil]
      rfl

def decoderOf (v : Bytes) (hv : IsValue v) : Decoder where
  decode _ data := if v <+: data then .ok (data.drop v.length) else .error "syntax"
  spec := by
    intro strict data rest h
    split at h
    . next hprefix =>
      have ⟨rest', hdata⟩ := hprefix
      rw [← hdata, drop_left] at h
      cases h
      exact ⟨⟨[], v, [], by simp, by simp⟩, hv, rfl, by simp [Padded.text, hdata]⟩
    . contradiction

theorem document_of_decode_iff_null : IsDocument (lit "null \n") := by
  have hnull : IsValue (lit "null") := .literal (by decide)
  refine (document_of_decode_iff ⟨true⟩ (decoderOf (lit "null") hnull) _).mpr ?_ rfl
  intro rest hrest
  cases hrest
  rintro ⟨b, hhead, _⟩
  cases hhead

theorem decode_bracket
    : ∃ dec : Decoder, (JsonCodec.mk true).decode dec (lit "\x7b\x7d]") = .ok ()
        ∧ ¬IsDocument (lit "\x7b\x7d]") := by
  have hempty : IsValue (lit "\x7b\x7d") := .emptyObject (s := []) (by simp)
  refine ⟨decoderOf _ hempty, rfl, ?_⟩
  intro hdocument
  exact absurd (balanced_of_document hdocument 0) (by decide)

end Json
