import Mathlib.Data.List.Basic

/-!
Go errors as trees, which `errors.Is` and `errors.As` walk depth first. A `value` is compared by
identity, a `typed` or `tagged` node has a concrete type. More than two wrapped errors are a nest of
`join`s.
-/

inductive ErrorTree (σ τ : Type) where
  | value (s : σ)
  | typed (t : τ)
  | tagged (t : τ) (cause : ErrorTree σ τ)
  | wrap (cause : ErrorTree σ τ)
  | join (fst snd : ErrorTree σ τ)
  deriving DecidableEq, Repr

namespace ErrorTree

variable {σ τ α : Type}

def values : ErrorTree σ τ → List σ
  | value s => [s]
  | typed _ => []
  | tagged _ cause => cause.values
  | wrap cause => cause.values
  | join fst snd => fst.values ++ snd.values

-- `errors.As`, where `select` says which concrete types are asked for
def find (select : τ → Option α) : ErrorTree σ τ → Option α
  | value _ => none
  | typed t => select t
  | tagged t cause => (select t).or (cause.find select)
  | wrap cause => cause.find select
  | join fst snd => (fst.find select).or (snd.find select)

variable [DecidableEq σ]

def is (target : σ) : ErrorTree σ τ → Bool
  | value s => s = target
  | typed _ => false
  | tagged _ cause => cause.is target
  | wrap cause => cause.is target
  | join fst snd => fst.is target || snd.is target

def isAny (targets : List σ) (e : ErrorTree σ τ) : Bool :=
  targets.any (e.is ·)

theorem is_iff_mem_values (target : σ) (e : ErrorTree σ τ)
    : e.is target = true ↔ target ∈ e.values := by
  induction e with
  | value s => simp [is, values, eq_comm]
  | typed t => simp [is, values]
  | tagged t cause ih | wrap cause ih => simpa only [is, values] using ih
  | join fst snd ihf ihs => simp [is, values, ihf, ihs]

theorem isAny_iff (targets : List σ) (e : ErrorTree σ τ)
    : e.isAny targets = true ↔ ∃ s ∈ e.values, s ∈ targets := by
  simp only [isAny, List.any_eq_true, is_iff_mem_values]
  constructor
  . rintro ⟨s, ht, hv⟩
    exact ⟨s, hv, ht⟩
  . rintro ⟨s, hv, ht⟩
    exact ⟨s, ht, hv⟩

end ErrorTree
