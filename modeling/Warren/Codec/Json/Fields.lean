import Mathlib.Data.Finset.Insert
import Mathlib.Data.Finset.Lattice.Basic
import Mathlib.Order.Filter.AtTopBot.Basic
import Mathlib.Order.Filter.Finite

/-!
The field names that the observer of unknown fields knows (`codec/json.go`). A struct type is given
by its fields, so types may embed each other in a cycle.
-/

namespace Json

open Filter Function List

structure Field (T : Type) where
  name : String
  exported : Bool
  anonymous : Bool
  -- the value of the key `json`
  tag : String
  -- the struct type of the field, also behind pointers
  struct : Option T

-- what `strings.Cut` leaves before the first comma
def cut (tag : String) : String := String.ofList (tag.toList.takeWhile (· ≠ ','))

inductive Contribution (T : Type) where
  | skip
  | promote (ft : T)
  | name (name : String)

variable {T : Type}

-- what a field adds to the names of its struct
def Field.contribution (f : Field T) : Contribution T :=
  if !f.exported && !f.anonymous then
    .skip
  else
    let tagName := cut f.tag
    if tagName = "-" then
      .skip
    else
      match f.struct, f.anonymous && tagName = "" with
      | some ft, true => .promote ft
      | _, _ => .name (if tagName ≠ "" then tagName else f.name)

abbrev Cache (T : Type) := T → Option (Finset String)

def computeKnownJSONFields (toLower : String → String)
    (known : T → Cache T → Option (Finset String × Cache T))
    : List (Field T) → Finset String → Cache T → Option (Finset String × Cache T)
  | [], out, cache => some (out, cache)
  | f :: fs, out, cache =>
    match f.contribution with
    | .skip => computeKnownJSONFields toLower known fs out cache
    | .promote ft =>
      match known ft cache with
      | none => none
      | some (names, cache) => computeKnownJSONFields toLower known fs (out ∪ names) cache
    | .name n => computeKnownJSONFields toLower known fs (insert (toLower n) out) cache

-- the calls are nested less than `fuel` deep; a type is stored when its names are complete
def knownJSONFields [DecidableEq T] (toLower : String → String) (fields : T → List (Field T))
    : Nat → T → Cache T → Option (Finset String × Cache T)
  | 0, _, _ => none
  | fuel + 1, rt, cache =>
    match cache rt with
    | some cached => some (cached, cache)
    | none =>
      match computeKnownJSONFields toLower (knownJSONFields toLower fields fuel) (fields rt) ∅
        cache with
      | none => none
      | some (out, cache) =>
        match cache rt with
        | some actual => some (actual, cache)
        | none => some (out, update cache rt (some out))

def Embeds (fields : T → List (Field T)) (ft rt : T) : Prop :=
  .promote ft ∈ (fields rt).map Field.contribution

-- what is stored is of types that do not embed each other without end
def Complete (fields : T → List (Field T)) (cache : Cache T) : Prop :=
  ∀ t, (cache t).isSome → Acc (Embeds fields) t

variable {toLower : String → String} {fields : T → List (Field T)} {rt : T} {fs : List (Field T)}
variable {names out : Finset String} {cache cache' : Cache T} {fuel : Nat}

theorem complete_of_computeKnownJSONFields
    {known : T → Cache T → Option (Finset String × Cache T)}
    (hknown : ∀ {t cache names cache'}, Complete fields cache →
      known t cache = some (names, cache') → Acc (Embeds fields) t ∧ Complete fields cache')
    (hcache : Complete fields cache)
    (h : computeKnownJSONFields toLower known fs out cache = some (names, cache'))
    : (∀ ft, .promote ft ∈ fs.map Field.contribution → Acc (Embeds fields) ft)
      ∧ Complete fields cache' := by
  induction fs generalizing out cache with
  | nil =>
    cases h
    exact ⟨by simp, hcache⟩
  | cons f fs ih =>
    simp only [map_cons, mem_cons, or_imp, forall_and]
    unfold computeKnownJSONFields at h
    split at h
    next hf => simpa [hf] using ih hcache h
    next ft hf =>
      split at h
      next => contradiction
      next hft =>
        obtain ⟨hacc, hcache⟩ := hknown hcache hft
        simpa [hf, hacc] using ih hcache h
    next hf => simpa [hf] using ih hcache h

variable [DecidableEq T]

theorem complete_of_knownJSONFields (hcache : Complete fields cache)
    (h : knownJSONFields toLower fields fuel rt cache = some (names, cache'))
    : Acc (Embeds fields) rt ∧ Complete fields cache' := by
  induction fuel generalizing rt cache names cache' with
  | zero => contradiction
  | succ fuel ih =>
    unfold knownJSONFields at h
    split at h
    next hcached =>
      cases h
      exact ⟨hcache rt (by simp [hcached]), hcache⟩
    next =>
      split at h
      next => contradiction
      next hout =>
        obtain ⟨hfields, hcache⟩ := complete_of_computeKnownJSONFields ih hcache hout
        have hacc : Acc (Embeds fields) rt := .intro rt hfields
        refine ⟨hacc, ?_⟩
        split at h
        next =>
          cases h
          exact hcache
        next =>
          cases h
          intro t ht
          by_cases heq : t = rt
          . exact heq ▸ hacc
          . exact hcache t (by rwa [update_of_ne heq] at ht)

-- deep enough calls return, whatever is in the cache
def Returns (toLower : String → String) (fields : T → List (Field T)) (fuel : Nat) (t : T) : Prop :=
  ∀ cache, (knownJSONFields toLower fields fuel t cache).isSome

theorem computeKnownJSONFields_isSome
    (h : ∀ ft, .promote ft ∈ fs.map Field.contribution → Returns toLower fields fuel ft)
    (out : Finset String) (cache : Cache T)
    : (computeKnownJSONFields toLower (knownJSONFields toLower fields fuel) fs out cache).isSome := by
  induction fs generalizing out cache with
  | nil => rfl
  | cons f fs ih =>
    have hfs := ih (fun ft hft => h ft (mem_cons_of_mem _ hft))
    unfold computeKnownJSONFields
    split
    next => exact hfs out cache
    next ft hf =>
      obtain ⟨_, hknown⟩ := Option.isSome_iff_exists.mp (h ft (by simp [hf]) cache)
      rw [hknown]
      exact hfs _ _
    next => exact hfs _ cache

theorem eventually_returns (toLower : String → String) (h : Acc (Embeds fields) rt)
    : ∀ᶠ fuel in atTop, Returns toLower fields fuel rt := by
  induction h with
  | intro rt _ ih =>
    have hfinite : {ft | Embeds fields ft rt}.Finite :=
      (finite_toSet _).preimage (fun _ _ _ _ => Contribution.promote.inj)
    obtain ⟨n, hn⟩ := eventually_atTop.mp ((eventually_all_finite hfinite).mpr ih)
    refine eventually_atTop.mpr ⟨n + 1, fun fuel hfuel cache => ?_⟩
    cases fuel with
    | zero => contradiction
    | succ fuel =>
      unfold knownJSONFields
      split
      next => rfl
      next =>
        obtain ⟨_, hout⟩ := Option.isSome_iff_exists.mp
          (computeKnownJSONFields_isSome (hn fuel (by omega)) ∅ cache)
        rw [hout]
        dsimp only
        split <;> rfl

/--
The call returns exactly when there is no infinite chain of embedded structs, with whatever types of
that kind the cache has.
-/
theorem knownJSONFields_terminates_iff (toLower : String → String) (fields : T → List (Field T))
    (rt : T) (cache : Cache T) (hcache : Complete fields cache)
    : (∃ n, ∀ fuel ≥ n, ∃ names cache',
          knownJSONFields toLower fields fuel rt cache = some (names, cache')
            ∧ Complete fields cache')
        ↔ Acc (Embeds fields) rt := by
  constructor
  . rintro ⟨n, hn⟩
    obtain ⟨names, cache', hknown, _⟩ := hn n (Nat.le_refl n)
    exact (complete_of_knownJSONFields hcache hknown).1
  . intro hacc
    obtain ⟨n, hn⟩ := eventually_atTop.mp (eventually_returns toLower hacc)
    refine ⟨n, fun fuel hfuel => ?_⟩
    obtain ⟨⟨names, cache'⟩, hknown⟩ := Option.isSome_iff_exists.mp (hn fuel hfuel cache)
    exact ⟨names, cache', hknown, (complete_of_knownJSONFields hcache hknown).2⟩

-- a struct with the one field `ID`, and a struct that embeds it
def structs : Bool → List (Field Bool)
  | false => [⟨"ID", true, false, "", none⟩]
  | true => [⟨"Base", true, true, "", some false⟩]

theorem knownJSONFields_terminates_iff_embedded
    : ∃ n, ∀ fuel ≥ n, ∃ names cache',
        knownJSONFields String.toLower structs fuel true (fun _ => none) = some (names, cache')
          ∧ Complete structs cache' := by
  refine (knownJSONFields_terminates_iff String.toLower structs true (fun _ => none) nofun).mpr ?_
  have hbase : Acc (Embeds structs) false := .intro false (fun ft hft => by cases hft; contradiction)
  refine .intro true (fun ft hft => ?_)
  cases mem_singleton.mp hft
  exact hbase

-- a struct that embeds a pointer to itself
def nodeFields : Unit → List (Field Unit)
  | () => [⟨"Node", true, true, "", some ()⟩]

theorem knownJSONFields_loops
    : ¬∃ fuel, (knownJSONFields String.toLower nodeFields fuel () (fun _ => none)).isSome := by
  rintro ⟨fuel, hsome⟩
  obtain ⟨_, h⟩ := Option.isSome_iff_exists.mp hsome
  have hno (rt : Unit) (hacc : Acc (Embeds nodeFields) rt) : False := by
    induction hacc with
    | intro rt _ ih => exact ih rt mem_cons_self
  exact hno () (complete_of_knownJSONFields nofun h).1

end Json
