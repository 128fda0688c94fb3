import Mathlib.Algebra.Group.Int.Defs
import Warren.Base.Values
import Warren.Publisher.Encode.Impl
import Warren.Publisher.Encode.Normal

namespace Encode

open Except (bind_ok)
open FieldTree (Within Occurs)
open List

section Maps

variable {h dst src : Headers} {k : String} {v : Value} {P : Value → Prop}

theorem set_forall (hv : P v) (hh : ∀ e ∈ h, P e.2) : ∀ e ∈ set h k v, P e.2 := by
  induction h with
  | nil => simpa [set] using hv
  | cons e h ih =>
    rw [forall_mem_cons] at hh
    unfold set
    split
    . exact forall_mem_cons.mpr ⟨hv, hh.2⟩
    . exact forall_mem_cons.mpr ⟨hh.1, ih hh.2⟩

theorem copy_forall (hdst : ∀ e ∈ dst, P e.2) (hsrc : ∀ e ∈ src, P e.2)
    : ∀ e ∈ copy dst src, P e.2 := by
  induction src generalizing dst with
  | nil => exact hdst
  | cons e src ih =>
    rw [forall_mem_cons] at hsrc
    exact ih (set_forall hsrc.1 hdst) hsrc.2

theorem lookup_cons (e : String × Value) (k' : String) :
    lookup k' (e :: h) = if k' = e.1 then some e.2 else h.lookup k' := by
  rw [List.lookup_cons]
  split
  next heq => rw [if_pos (beq_iff_eq.mp heq)]
  next hne => rw [if_neg (beq_eq_false_iff_ne.mp hne)]

theorem lookup_set (k' : String) :
    (set h k v).lookup k' = if k' = k then some v else h.lookup k' := by
  induction h with
  | nil => rw [set, lookup_cons]
  | cons e h ih =>
    unfold set
    split
    next heq =>
      simp only [lookup_cons, heq]
      split <;> rfl
    next hne =>
      rw [lookup_cons, lookup_cons, ih]
      split
      next heq => rw [if_neg (heq ▸ hne)]
      next => rfl

end Maps

section EncodeMsg

variable {α M : Type} {env : Env} {p : Publisher M} {msg m m' : Message M} {body : Body}

theorem reject_ok {violated : Prop} [Decidable violated] {format : String} {args : List Arg}
    {u : Unit} (h : reject violated format args = .ok u) : ¬violated := by
  intro hviolated
  rw [reject, if_pos hviolated] at h
  contradiction

variable {h : Headers}

theorem checked_ok {h' : Headers} (hok : checked (validateHeaders h) = .ok h')
    : Within Leaf.Accepted maxHeaderDepth 0 (.table h) ∧
        h' = FieldTree.mapTable Leaf.coerce h := by
  have hchecks := validateHeaders_checks h
  unfold checked at hok
  split at hok
  . contradiction
  . next heq =>
    cases hok
    rw [heq] at hchecks
    exact ⟨hchecks.ok.mp rfl, hchecks.leaves rfl⟩

theorem applyDefaults_ok {c : Codec M} (h : msg.applyDefaults env c = .ok m)
    : m.body = msg.body ∧ m.headers = msg.headers := by
  have ⟨_, _, h⟩ := bind_ok h
  cases h
  exact ⟨rfl, rfl⟩

theorem merge_ok {ceHeaders h' : Headers} (hok : merge h ceHeaders = .ok h')
    : Within Leaf.Accepted maxHeaderDepth 0 (.table ceHeaders) ∧
        h' = copy h (FieldTree.mapTable Leaf.coerce ceHeaders) := by
  unfold merge at hok
  split at hok
  . next hempty =>
    cases hok
    subst hempty
    exact ⟨by simp, rfl⟩
  . have ⟨h₁, hchecked, hok⟩ := bind_ok hok
    have ⟨hfits, hcoerced⟩ := checked_ok hchecked
    cases hok
    exact ⟨hfits, by rw [hcoerced]⟩

theorem mapError_ok {ε : Type} {x : Except ε α} {f : ε → Err} {a : α} (h : x.mapError f = .ok a)
    : x = .ok a := by
  cases x with
  | error err => contradiction
  | ok b =>
    cases h
    rfl

structure Encoded (p : Publisher M) (msg m' : Message M) (body : Body) : Prop where
  headers : ∃ b ceHeaders ceContentType, msg.body = some b ∧
    p.codec.safeEncodeBody b = .ok (body, ceHeaders, ceContentType) ∧
    Within Leaf.Accepted maxHeaderDepth 0 (.table msg.headers) ∧
    Within Leaf.Accepted maxHeaderDepth 0 (.table ceHeaders) ∧
    m'.headers = copy (FieldTree.mapTable Leaf.coerce msg.headers)
      (FieldTree.mapTable Leaf.coerce ceHeaders)
  delay : ¬(milliseconds m'.delay < 0 ∨ maxInt32 < milliseconds m'.delay)
  expiration : ¬(m'.expiration ≠ 0 ∧ milliseconds m'.expiration ≤ 0)

theorem encodeMsg_ok (h : encodeMsg env p msg = .ok (m', body)) : Encoded p msg m' body := by
  obtain ⟨m, hm, h⟩ := bind_ok h
  obtain ⟨hbody, hheaders⟩ := applyDefaults_ok hm
  obtain ⟨headers, hchecked, h⟩ := bind_ok h
  obtain ⟨hfits, hcoerced⟩ := checked_ok hchecked
  obtain ⟨_, _, h⟩ := bind_ok h
  split at h
  . contradiction
  . next b hb =>
    obtain ⟨_, hdelay, h⟩ := bind_ok h
    obtain ⟨_, hexpiration, h⟩ := bind_ok h
    obtain ⟨⟨out, ceHeaders, ceContentType⟩, hencode, h⟩ := bind_ok h
    obtain ⟨merged, hmerge, h⟩ := bind_ok h
    obtain ⟨hce, hmerged⟩ := merge_ok hmerge
    split at h
    . contradiction
    . cases h
      refine ⟨⟨b, ceHeaders, ceContentType, hbody ▸ hb, mapError_ok hencode, hheaders ▸ hfits, hce, ?_⟩,
        reject_ok hdelay, reject_ok hexpiration⟩
      rw [hmerged, hcoerced, hheaders]

end EncodeMsg

section FieldTypes

variable {M : Type} {env : Env} {p : Publisher M} {msg m' : Message M} {body : Body}

def Leaf.encodable : Leaf → Bool
  | .scalar _ => true
  | .other type => type = "amqp091.Table" ∨ type = "amqp091.Decimal"
  | _ => false

-- the encoder takes a value by its dynamic type, and `Headers` is not `amqp091.Table`
def FieldType : Value → Prop
  | .leaf a => a.encodable = true
  | .table _ => False
  | .array _ => True

def Encodable (v : Value) : Prop := ∀ n w, Occurs w n v → FieldType w

-- what the validation settles: only a table inside can still be refused
def LeavesEncodable (v : Value) : Prop := ∀ n a, Occurs (.leaf a) n v → a.encodable = true

theorem leavesEncodable_coerced (hfits : Within Leaf.Accepted maxHeaderDepth 0 (.table h))
    : ∀ e ∈ FieldTree.mapTable Leaf.coerce h, LeavesEncodable e.2 := by
  rw [FieldTree.mapTable_eq, forall_mem_map]
  intro e he
  have hwithin := (FieldTree.within_table.mp hfits).2 e he
  have hcoerced : Within (·.encodable = true) maxHeaderDepth 1 (e.2.map Leaf.coerce) := by
    apply hwithin.map
    intro a ha
    cases a with
    | other type => exact absurd rfl (ha type)
    | _ => rfl
  exact hcoerced.leaves

theorem leavesEncodable_scalar (s : Scalar) : LeavesEncodable (.leaf (.scalar s)) := by
  intro n a ha
  cases ha
  rfl

theorem LeavesEncodable.encodable_iff {v : Value} (h : LeavesEncodable v)
    : Encodable v ↔ ∀ n t, ¬Occurs (.table t) n v := by
  constructor
  . intro hv n t ht
    exact hv n _ ht
  . intro hv n w hw
    cases w with
    | leaf a => exact h n a hw
    | table t => exact hv n t hw
    | array xs => trivial

theorem injectTrace_forall {P : Value → Prop} (trace : Option (List (String × String)))
    (hstring : ∀ s, P (.leaf (.scalar (.string s)))) (hh : ∀ e ∈ h, P e.2)
    : ∀ e ∈ injectTrace trace h, P e.2 := by
  cases trace with
  | none => exact hh
  | some pairs =>
    apply copy_forall
    . apply copy_forall hh
      rw [forall_mem_map]
      exact fun e _ => hstring e.2
    . exact fun e he => hh e (mem_of_mem_filter he)

theorem lookup_buildPublishing (msg : Message M) (body : Body) (k : String)
    : (buildPublishing msg body).headers.lookup k =
        if k = "x-delay" ∧ 0 < msg.delay then
          some (.leaf (.scalar (.int32 (milliseconds msg.delay).toInt32)))
        else
          msg.headers.lookup k := by
  unfold buildPublishing
  dsimp only
  split
  next hpos => simp [lookup_set, hpos]
  next hpos => simp [hpos]

/--
The table encoder accepts the headers of a message that `encodeMsg` accepts exactly when none of
those that are left after the merge, the trace and the delay has a table inside.
-/
theorem buildPublishing_encodable (trace : Option (List (String × String)))
    (hok : encodeMsg env p msg = .ok (m', body))
    : (∀ k v, (buildPublishing { m' with headers := injectTrace trace m'.headers }
          body).headers.lookup k = some v → Encodable v)
        ↔ ∀ k v, (injectTrace trace m'.headers).lookup k = some v →
            (k = "x-delay" ∧ 0 < m'.delay) ∨ ∀ n t, ¬Occurs (.table t) n v := by
  have ⟨b, ceHeaders, ceContentType, hb, hencode, hfits, hce, hheaders⟩ := (encodeMsg_ok hok).headers
  have hmerged : ∀ e ∈ m'.headers, LeavesEncodable e.2 := by
    rw [hheaders]
    exact copy_forall (leavesEncodable_coerced hfits) (leavesEncodable_coerced hce)
  have htraced := injectTrace_forall trace (fun s => leavesEncodable_scalar (.string s)) hmerged
  have hleaves {k v} (hv : (injectTrace trace m'.headers).lookup k = some v) : LeavesEncodable v := by
    obtain ⟨l₁, l₂, hl, _⟩ := lookup_eq_some_iff.mp hv
    exact htraced (k, v) (by rw [hl]; simp)
  simp only [lookup_buildPublishing]
  constructor
  . intro h k v hv
    by_cases hk : k = "x-delay" ∧ 0 < m'.delay
    . exact .inl hk
    . exact .inr ((hleaves hv).encodable_iff.mp (h k v (by rw [if_neg hk]; exact hv)))
  . intro h k v hv
    split at hv
    next =>
      cases hv
      apply (leavesEncodable_scalar _).encodable_iff.mpr
      rintro n t ⟨⟩
    next hk => exact (hleaves hv).encodable_iff.mpr ((h k v hv).resolve_left hk)

def plain : Publisher Unit where
  codec := ⟨"application/json", fun _ => .ok ([], [], "")⟩
  stampUserID := false
  authUser := "guest"
  maxMessageSizeBytes := 0
  onReturn := true

def messageOf (contentType : String) (headers : Headers) (expiration delay : Int64) : Message Unit :=
  ⟨some (), "id", "", "", "", "", "", contentType, "", headers, 0, 1, expiration, transient, delay⟩

theorem buildPublishing_encodable_delayed :
    ∃ m', encodeMsg ⟨.ok "", 0⟩ plain (messageOf "" [("x-delay", .table [])] 0 1000000) = .ok (m', [])
      ∧ ∀ k v, (buildPublishing { m' with
          headers := injectTrace (some [("traceparent", "00")]) m'.headers } []).headers.lookup k
            = some v → Encodable v := by
  have hok : encodeMsg ⟨.ok "", 0⟩ plain (messageOf "" [("x-delay", .table [])] 0 1000000) =
      .ok (messageOf "application/json" [("x-delay", .table [])] 0 1000000, []) := rfl
  refine ⟨_, hok, (buildPublishing_encodable _ hok).mpr ?_⟩
  intro k v hv
  change lookup k ([("x-delay", .table []), ("traceparent", .leaf (.scalar (.string "00")))] : Headers)
    = _ at hv
  rw [lookup_cons, lookup_cons] at hv
  split at hv
  next hk => exact .inl ⟨hk, by decide⟩
  next =>
    right
    split at hv
    . cases hv
      rintro n t ⟨⟩
    . contradiction

theorem buildPublishing_nested :
    ∃ m', encodeMsg ⟨.ok "", 0⟩ plain (messageOf "" [("t", .table [])] 0 0) = .ok (m', [])
      ∧ ∃ e ∈ (buildPublishing m' []).headers, ¬FieldType e.2 :=
  ⟨messageOf "application/json" [("t", .table [])] 0 0, rfl, _, mem_cons_self, id⟩

end FieldTypes

section Returned

variable {M : Type} {env : Env} {p : Publisher M} {msg m' : Message M} {body : Body}

end Returned

end Encode
