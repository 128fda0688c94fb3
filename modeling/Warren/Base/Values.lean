/-!
Byte strings, and results that are a value or an error.
-/

abbrev Bytes := List UInt8

-- the bytes of a literal in ASCII
def Bytes.lit (s : String) : Bytes := s.toList.map (fun c => c.val.toUInt8)

theorem Except.bind_ok {ε α β : Type} {x : Except ε α} {f : α → Except ε β} {b : β}
    (h : (x >>= f) = .ok b) : ∃ a, x = .ok a ∧ f a = .ok b := by
  cases x with
  | error err => contradiction
  | ok a => exact ⟨a, rfl, h⟩
