import Warren.Base.Run
import Warren.Confirms.Tracker.Impl

/-!
What the tracker is for: a map from the registered tags to the code of the return and the first
verdict. A `Wait` that has begun keeps a claim on its entry.
-/

namespace Confirms

open Function

structure Entry where
  returned : Option UInt16
  verdict : Option (Option Err)
  deriving DecidableEq, Repr

namespace Entry

def fresh : Entry := ⟨none, none⟩

def outcome (e : Entry) : Option Err → Option Err
  | none => e.returned.map .unroutable
  | some err => some err

def resolve (e : Entry) (baseErr : Option Err) : Entry :=
  { e with verdict := some (e.verdict.getD (e.outcome baseErr)) }

def close (e : Entry) : Entry :=
  { e with verdict := some (e.verdict.getD (some .closed)) }

end Entry

structure Spec where
  entries : Nat → Option Entry
  closed : Bool
  waiting : Nat → Bool
  kept : Nat → Option (Option Err)
  results : List (Nat × Option Err)

namespace Spec

inductive Action where
  | register (tag : Nat)
  | markReturned (tag : Nat) (replyCode : UInt16)
  | ack (tag : Nat) (multiple : Bool)
  | nack (tag : Nat) (multiple : Bool)
  | closeAll
  | cancel (tag : Nat)
  | waitBegin (tag : Nat)
  | waitEnd (tag : Nat) (err : Option Err)
  deriving DecidableEq, Repr

def init : Spec := ⟨fun _ => none, false, fun _ => false, fun _ => none, []⟩

def register (σ : Spec) (tag : Nat) : Spec :=
  if σ.closed then σ else { σ with entries := update σ.entries tag (some .fresh) }

def mapEntries (σ : Spec) (covered : Nat → Bool) (f : Entry → Entry) : Spec :=
  { σ with
    entries := fun tag => if covered tag then (σ.entries tag).map f else σ.entries tag }

def markReturned (σ : Spec) (tag : Nat) (replyCode : UInt16) : Spec :=
  σ.mapEntries (· == tag) (fun e => { e with returned := some replyCode })

def covers (tag : Nat) (multiple : Bool) (x : Nat) : Bool :=
  if multiple then x ≤ tag else x == tag

def frame (σ : Spec) (tag : Nat) (multiple : Bool) (baseErr : Option Err) : Spec :=
  σ.mapEntries (covers tag multiple) (·.resolve baseErr)

def closeAll (σ : Spec) : Spec :=
  { σ.mapEntries (fun _ => true) Entry.close with closed := true }

def remove (σ : Spec) (tag : Nat) : Spec :=
  { σ with entries := update σ.entries tag none }

def cancel (σ : Spec) (tag : Nat) : Spec :=
  match σ.entries tag with
  | none => σ
  | some e =>
    if σ.waiting tag then
      { σ.remove tag with kept := update σ.kept tag e.close.verdict }
    else
      σ.remove tag

def left (σ : Spec) (tag : Nat) : Option (Option Err) :=
  match σ.kept tag with
  | some verdict => some verdict
  | none =>
    match σ.entries tag with
    | none => some (some .closed)
    | some e => e.verdict

def waitBegin (σ : Spec) (tag : Nat) : Option Spec :=
  if σ.waiting tag then
    none
  else
    some { σ with waiting := update σ.waiting tag true }

def finish (σ : Spec) (tag : Nat) (err : Option Err) : Spec :=
  { σ.remove tag with
    waiting := update σ.waiting tag false
    kept := update σ.kept tag none
    results := σ.results ++ [(tag, err)] }

def waitEnd (σ : Spec) (tag : Nat) (err : Option Err) : Option Spec :=
  if σ.waiting tag ∧ (σ.left tag = some err ∨ err = some .timeout ∨ err = some .ctx) then
    some (σ.finish tag err)
  else
    none

def step (σ : Spec) : Action → Option Spec
  | .register tag => some (σ.register tag)
  | .markReturned tag replyCode => some (σ.markReturned tag replyCode)
  | .ack tag multiple => some (σ.frame tag multiple none)
  | .nack tag multiple => some (σ.frame tag multiple (some .nacked))
  | .closeAll => some σ.closeAll
  | .cancel tag => some (σ.cancel tag)
  | .waitBegin tag => σ.waitBegin tag
  | .waitEnd tag err => σ.waitEnd tag err

end Spec

namespace State

def specActions (s : State) : Action → List Spec.Action
  | .register tag => [.register tag]
  | .markReturned tag replyCode => [.markReturned tag replyCode]
  | .ack tag multiple => [.ack tag multiple]
  | .nack tag multiple => [.nack tag multiple]
  | .closeAll => [.closeAll]
  | .cancel tag => [.cancel tag]
  | .waitBegin tag _ =>
    match s.tracker.pending.lookup tag with
    | none => [.waitBegin tag, .waitEnd tag (some .closed)]
    | some _ => [.waitBegin tag]
  | .waitDone _ => []
  | .waitTimer _ => []
  | .waitCtx _ => []
  | .waitDelete tag =>
    match s.waits tag with
    | some ⟨_, _, .received err⟩ => [.waitEnd tag err]
    | some ⟨_, _, .expired err⟩ => [.waitEnd tag (some err)]
    | _ => []

-- a tag is not registered while a `Wait` on it is in progress
def Registrable (s : State) : Action → Prop
  | .register tag => s.waits tag = none
  | _ => True

instance (s : State) (a : Action) : Decidable (s.Registrable a) := by
  unfold Registrable
  split <;> infer_instance

end State
end Confirms
