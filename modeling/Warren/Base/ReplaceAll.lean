/-!
Replacing every match of a pattern from left to right.
-/

namespace ReplaceAll

variable {α : Type} {m : List α → Option (List α × Nat)} {pre s repl : List α}

-- the first `skip` elements belong to a match
def replaceAll (m : List α → Option (List α × Nat)) : Nat → List α → List α
  | _, [] => []
  | skip + 1, _ :: s => replaceAll m skip s
  | 0, a :: s =>
    match m (a :: s) with
    | none => a :: replaceAll m 0 s
    | some (repl, len) => repl ++ replaceAll m (len - 1) s

theorem replaceAll_length (m : List α → Option (List α × Nat)) (pre s : List α)
    : replaceAll m pre.length (pre ++ s) = replaceAll m 0 s := by
  induction pre with
  | nil => rfl
  | cons a pre ih => apply ih

theorem replaceAll_match (hpre : pre ≠ []) (h : m (pre ++ s) = some (repl, pre.length))
    : replaceAll m 0 (pre ++ s) = repl ++ replaceAll m 0 s := by
  cases pre with
  | nil => contradiction
  | cons a pre =>
    rw [List.cons_append] at h
    rw [List.cons_append, replaceAll, h]
    apply congrArg (repl ++ ·)
    apply replaceAll_length

end ReplaceAll
