import Mathlib.Data.List.Infix

/-!
The patterns of a topic exchange.
-/

namespace Topic

open List

section Words

variable {ω : Type*} [DecidableEq ω] (star hash : ω)

def matchWords : List ω → List ω → Bool
  | [], ws => ws.isEmpty
  | p :: ps, ws =>
    if p = hash then
      ws.tails.any (matchWords ps)
    else
      match ws with
      | [] => false
      | w :: ws => (p = star || p = w) && matchWords ps ws

theorem matchWords_hash (ws : List ω) : matchWords star hash [hash] ws = true := by
  unfold matchWords
  rw [if_pos rfl, any_eq_true]
  refine ⟨[], ?_, rfl⟩
  rw [mem_tails]
  apply nil_suffix

theorem matchWords_self (ps : List ω) : matchWords star hash ps ps = true := by
  induction ps with
  | nil => rfl
  | cons p ps ih =>
    unfold matchWords
    split
    . rw [any_eq_true]
      refine ⟨ps, ?_, ih⟩
      rw [mem_tails]
      apply suffix_cons
    . simp [ih]

end Words

variable {β : Type*} [DecidableEq β] (sep star hash : β)

def words (key : List β) : List (List β) :=
  if key = [] then [] else key.splitOn sep

def matchKey (pattern key : List β) : Bool :=
  matchWords [star] [hash] (words sep pattern) (words sep key)

theorem matchKey_self (key : List β) : matchKey sep star hash key key = true := by
  apply matchWords_self

theorem matchKey_hash (hsep : hash ≠ sep) (key : List β)
    : matchKey sep star hash [hash] key = true := by
  have hwords : words sep [hash] = [[hash]] := by
    unfold words
    rw [if_neg (by simp)]
    apply splitOnP_eq_singleton
    simp [hsep]
  unfold matchKey
  rw [hwords]
  apply matchWords_hash

end Topic
