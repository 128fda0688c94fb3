import Mathlib.Data.List.Basic

/-!
Buffered channels. The blocking operations are partial functions, `none` says that one would block.
-/

structure Chan (α : Type) (cap : Nat) where
  buf : List α
  closed : Bool
  le_cap : buf.length ≤ cap
  deriving DecidableEq, Repr

namespace Chan

variable {α : Type} {cap : Nat}

def make : Chan α cap := ⟨[], false, by simp⟩

instance : Inhabited (Chan α cap) := ⟨make⟩

/--
`c <- v`, enabled when there is room in the buffer. A send on a closed channel has no successor.
-/
def trySend (c : Chan α cap) (v : α) : Option (Chan α cap) :=
  if h : c.closed = false ∧ c.buf.length < cap then
    some ⟨c.buf ++ [v], c.closed, by simp; omega⟩
  else
    none

/--
`v, ok := <-c`: the value is `none` when the channel is closed and drained.
-/
def recv (c : Chan α cap) : Option (Option α × Chan α cap) :=
  match h : c.buf with
  | v :: rest => some (some v, ⟨rest, c.closed, by have := c.le_cap; simp [h] at this; omega⟩)
  | [] => if c.closed then some (none, c) else none

def close (c : Chan α cap) : Chan α cap :=
  { c with closed := true }

@[simp]
theorem make_buf : (make : Chan α cap).buf = [] := rfl

@[simp]
theorem make_closed : (make : Chan α cap).closed = false := rfl

@[simp]
theorem close_buf (c : Chan α cap) : c.close.buf = c.buf := rfl

@[simp]
theorem close_closed (c : Chan α cap) : c.close.closed = true := rfl

variable {c c' : Chan α cap} {v : α}

theorem trySend_eq_some_iff
    : c.trySend v = some c' ↔
        c.closed = false ∧ c.buf.length < cap ∧ c'.buf = c.buf ++ [v] ∧ c'.closed = c.closed := by
  unfold trySend
  split
  . next h =>
    rcases c' with ⟨buf, closed, _⟩
    simp only [Option.some.injEq, Chan.mk.injEq, h, true_and]
    constructor
    . rintro ⟨rfl, rfl⟩
      simp
    . rintro ⟨rfl, rfl⟩
      simp
  . next h =>
    simp only [reduceCtorEq, false_iff]
    rintro ⟨h1, h2, _⟩
    exact h ⟨h1, h2⟩

theorem trySend_eq_none_iff : c.trySend v = none ↔ c.closed = true ∨ cap ≤ c.buf.length := by
  unfold trySend
  split
  . next h => simp [h.1]; omega
  . next h =>
    simp only [true_iff]
    by_cases hc : c.closed = true
    . exact .inl hc
    . right
      simp only [hc, true_and] at h
      omega

theorem recv_eq_some_some_iff
    : c.recv = some (some v, c') ↔ c.buf = v :: c'.buf ∧ c'.closed = c.closed := by
  rcases c with ⟨_ | ⟨u, rest⟩, closed, hcap⟩
  . cases closed <;> simp [recv]
  . rcases c' with ⟨buf, closed', _⟩
    simp only [recv, Option.some.injEq, Prod.mk.injEq, Chan.mk.injEq, List.cons.injEq]
    constructor
    . rintro ⟨rfl, rfl, rfl⟩
      simp
    . rintro ⟨⟨rfl, rfl⟩, rfl⟩
      simp

theorem recv_eq_some_none_iff
    : c.recv = some (none, c') ↔ c.buf = [] ∧ c.closed = true ∧ c' = c := by
  rcases c with ⟨_ | ⟨u, rest⟩, closed, hcap⟩
  . cases closed <;> simp [recv, eq_comm]
  . simp [recv]

theorem recv_isSome_iff : c.recv.isSome = true ↔ c.buf ≠ [] ∨ c.closed = true := by
  rcases c with ⟨_ | ⟨u, rest⟩, closed, hcap⟩
  . cases closed <;> simp [recv]
  . simp [recv]

theorem recv_eq_none_iff : c.recv = none ↔ c.buf = [] ∧ c.closed = false := by
  rcases c with ⟨_ | ⟨u, rest⟩, closed, hcap⟩
  . cases closed <;> simp [recv]
  . simp [recv]

end Chan
