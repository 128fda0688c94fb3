import Mathlib.Logic.Basic
import Mathlib.Tactic.ByContra

/-!
`wrapDedupe` (`consumer.go`) over a sequence of deliveries. What the calls of `Seen`, of the handler
and of `Mark` give is part of a delivery here.
-/

namespace Dedupe

variable {ε : Type}

structure Delivery (ε : Type) where
  messageID : String
  seen : Except ε Bool
  -- nil is `none`
  next : Option ε
  mark : Except ε Unit

inductive Call (ε : Type) where
  | seen (id : String) (res : Except ε Bool)
  | next (err : Option ε)
  | mark (id : String) (res : Except ε Unit)
  | logDedupeFailOpen (op : String) (err : ε)

def wrapDedupe (d : Delivery ε) : List (Call ε) × Option ε :=
  let id := d.messageID
  if id = "" then
    ([.next d.next], d.next)
  else
    match d.seen with
    | .error err => ([.seen id (.error err), .logDedupeFailOpen "Seen" err, .next d.next], d.next)
    | .ok true => ([.seen id (.ok true)], none)
    | .ok false =>
      match d.next with
      | some err => ([.seen id (.ok false), .next (some err)], some err)
      | none =>
        match d.mark with
        | .error err =>
          ([.seen id (.ok false), .next none, .mark id (.error err),
            .logDedupeFailOpen "Mark" err], none)
        | .ok _ => ([.seen id (.ok false), .next none, .mark id (.ok ())], none)

namespace Delivery

def calls (d : Delivery ε) : List (Call ε) := (wrapDedupe d).1

def Handled (d : Delivery ε) (err : Option ε) : Prop := .next err ∈ d.calls

def Skipped (d : Delivery ε) : Prop := ∀ err, ¬d.Handled err

def Marks (d : Delivery ε) (id : String) : Prop := .mark id (.ok ()) ∈ d.calls

end Delivery

def Follows (ds before : List (Delivery ε)) (d : Delivery ε) : Prop :=
  ∃ after, ds = before ++ d :: after

-- a successful `Seen` answers true only for an id that was marked before
def Honest (ds : List (Delivery ε)) : Prop :=
  ∀ before d id, Follows ds before d → .seen id (.ok true) ∈ d.calls → ∃ e ∈ before, e.Marks id

-- no call of the store fails, and `Seen` answers true for every id that was marked before
structure Reliable (ds : List (Delivery ε)) : Prop where
  seen : ∀ before d id res, Follows ds before d → .seen id res ∈ d.calls →
    (∃ e ∈ before, e.Marks id) → res = .ok true
  seen_ok : ∀ d ∈ ds, ∀ id err, .seen id (.error err) ∉ d.calls
  mark_ok : ∀ d ∈ ds, ∀ id err, .mark id (.error err) ∉ d.calls

variable {d e : Delivery ε} {ds before : List (Delivery ε)} {id : String}

@[simp]
theorem seen_mem_calls {res : Except ε Bool}
    : .seen id res ∈ d.calls ↔ d.messageID = id ∧ id ≠ "" ∧ d.seen = res := by
  unfold Delivery.calls wrapDedupe
  dsimp only
  repeat' split
  all_goals grind

@[simp]
theorem next_mem_calls {err : Option ε}
    : .next err ∈ d.calls ↔ d.next = err ∧ (d.messageID = "" ∨ d.seen ≠ .ok true) := by
  unfold Delivery.calls wrapDedupe
  dsimp only
  repeat' split
  all_goals grind

@[simp]
theorem mark_mem_calls {res : Except ε Unit}
    : .mark id res ∈ d.calls
        ↔ d.messageID = id ∧ id ≠ "" ∧ d.seen = .ok false ∧ d.next = none ∧ d.mark = res := by
  unfold Delivery.calls wrapDedupe
  dsimp only
  repeat' split
  all_goals grind

-- what the delivery is settled with is the error of the handler, so a skipped one is acked
theorem verdict_eq_some_iff {err : ε} : (wrapDedupe d).2 = some err ↔ d.Handled (some err) := by
  rw [Delivery.Handled, next_mem_calls]
  unfold wrapDedupe
  dsimp only
  repeat' split
  all_goals simp_all

theorem Follows.mem (h : Follows ds before d) : d ∈ ds ∧ ∀ e ∈ before, e ∈ ds := by
  have ⟨after, hds⟩ := h
  rw [hds]
  exact ⟨by simp, fun e he => by simp [he]⟩

theorem succeeded_of_skipped (hhonest : Honest ds) (hd : Follows ds before d) (hskipped : d.Skipped)
    : d.messageID ≠ "" ∧ ∃ e ∈ before, e.messageID = d.messageID ∧ e.Handled none := by
  have hnext := hskipped d.next
  rw [Delivery.Handled, next_mem_calls, not_and, not_or, not_ne_iff] at hnext
  have ⟨hid, hseen⟩ := hnext rfl
  have ⟨e, he, hmarks⟩ := hhonest before d d.messageID hd (seen_mem_calls.mpr ⟨rfl, hid, hseen⟩)
  have ⟨heq, _, hfalse, hnil, _⟩ := mark_mem_calls.mp hmarks
  exact ⟨hid, e, he, heq, next_mem_calls.mpr ⟨hnil, .inr (by simp [hfalse])⟩⟩

theorem handled_of_verdict_nil (hhonest : Honest ds) (hd : Follows ds before d)
    (hverdict : (wrapDedupe d).2 = none)
    : d.Handled none ∨ ∃ e ∈ before, e.messageID = d.messageID ∧ e.Handled none := by
  by_cases hhandled : d.Handled none
  . exact .inl hhandled
  . refine .inr (succeeded_of_skipped hhonest hd ?_).2
    intro err herr
    cases err with
    | none => exact hhandled herr
    | some err => simp [verdict_eq_some_iff.mpr herr] at hverdict

theorem Reliable.marks (h : Reliable ds) (he : e ∈ ds) (hid : e.messageID ≠ "")
    (hhandled : e.Handled none) : e.Marks e.messageID := by
  have ⟨hnext, hseen⟩ := next_mem_calls.mp hhandled
  have hfalse : e.seen = .ok false := by
    cases hres : e.seen with
    | error err => exact absurd (seen_mem_calls.mpr ⟨rfl, hid, hres⟩) (h.seen_ok e he _ err)
    | ok b =>
      cases b with
      | false => rfl
      | true => exact absurd hres (hseen.resolve_left hid)
  cases hmark : e.mark with
  | error err =>
    have hmem := mark_mem_calls.mpr ⟨rfl, hid, hfalse, hnext, hmark⟩
    exact absurd hmem (h.mark_ok e he _ err)
  | ok u => exact mark_mem_calls.mpr ⟨rfl, hid, hfalse, hnext, hmark⟩

/--
A delivery is skipped only after its message was handled. With a reliable store the handler returns
nil once for an id.
-/
theorem skips_only_duplicates (ds : List (Delivery ε)) (hhonest : Honest ds)
    : (∀ before d, Follows ds before d → d.Skipped →
        d.messageID ≠ "" ∧ ∃ e ∈ before, e.messageID = d.messageID ∧ e.Handled none)
      ∧ (∀ d ∈ ds, ∀ err, d.Handled (some err) → ∀ id res, .mark id res ∉ d.calls)
      ∧ (∀ before d, Follows ds before d →
        (∀ e ∈ before, e.messageID = d.messageID → ¬e.Handled none) → ∃ err, d.Handled err)
      ∧ (Reliable ds → ∀ before d, Follows ds before d → d.messageID ≠ "" → d.Handled none →
        ∀ e ∈ before, e.messageID = d.messageID → ¬e.Handled none) := by
  refine ⟨fun before d => succeeded_of_skipped hhonest, ?_, ?_, ?_⟩
  . intro d _ err hhandled id res hmark
    have hnext := (next_mem_calls.mp hhandled).1
    rw [(mark_mem_calls.mp hmark).2.2.2.1] at hnext
    contradiction
  . intro before d hd hnone
    by_contra hskipped
    rw [not_exists] at hskipped
    have ⟨_, e, he, heq, hhandled⟩ := succeeded_of_skipped hhonest hd hskipped
    exact hnone e he heq hhandled
  . intro hreliable before d hd hid hhandled e he heq hnil
    have hmarks := hreliable.marks (hd.mem.2 e he) (heq ▸ hid) hnil
    have hseen := hreliable.seen before d d.messageID d.seen hd
      (seen_mem_calls.mpr ⟨rfl, hid, rfl⟩) ⟨e, he, heq ▸ hmarks⟩
    exact (next_mem_calls.mp hhandled).2.resolve_left hid hseen

def first : Delivery Nat := ⟨"m", .ok false, none, .ok ()⟩

def redelivered : Delivery Nat := ⟨"m", .ok true, none, .ok ()⟩

theorem skips_only_duplicates_redelivered
    : ∃ e ∈ [first], e.messageID = redelivered.messageID ∧ e.Handled none := by
  have hhonest : Honest [first, redelivered] := by
    intro before d id ⟨after, hds⟩ hseen
    cases before with
    | nil =>
      cases hds
      simp [first] at hseen
    | cons e before =>
      have ⟨heq, hds⟩ := List.cons.inj hds
      have hd : d ∈ [redelivered] := by rw [hds]; simp
      rw [List.mem_singleton.mp hd, seen_mem_calls] at hseen
      refine ⟨e, by simp, mark_mem_calls.mpr ?_⟩
      rw [← heq]
      exact ⟨hseen.1, hseen.2.1, rfl, rfl, rfl⟩
  refine ((skips_only_duplicates _ hhonest).1 [first] redelivered ⟨[], rfl⟩ ?_).2
  intro err h
  simp [Delivery.Handled, redelivered] at h

end Dedupe
