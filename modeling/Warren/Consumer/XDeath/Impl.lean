import Mathlib.Algebra.Group.Int.Defs
import Mathlib.Algebra.Group.Nat.Defs
import Mathlib.Logic.Function.Basic
import Warren.Base.Values

/-!
The x-death header of a delivery (`internal/headers/xdeath.go`), which counts how often the message
was dead-lettered from a queue.
-/

namespace XDeath

open Bytes (lit)

-- a table without entries may be nil
inductive Value where
  | string (s : Bytes)
  | int64 (n : Int64)
  | array (elems : List Value)
  | table (get : Bytes → Option Value)
  | other

-- `amqp091.Table`
abbrev Table := Bytes → Option Value

inductive Width where
  | w32
  | w64
  deriving DecidableEq, Repr

namespace Width

def bits : Width → Nat
  | w32 => 32
  | w64 => 64

def maxInt (w : Width) : Int := 2 ^ (w.bits - 1) - 1

-- the value of `int` that an operation leaves of `n`
def wrap (w : Width) (n : Int) : Int := n.bmod (2 ^ w.bits)

end Width

def normalizeReason (reason : Bytes) : Bytes :=
  reason.map (fun b => if b = 95 then 45 else b)

structure XDeathResult where
  count : Int
  reasons : List Bytes
  byReason : Bytes → Option Int

def XDeathResult.zero : XDeathResult := ⟨0, [], fun _ => none⟩

def XDeathResult.countByReason (r : XDeathResult) (reason : Bytes) : Int :=
  (r.byReason (normalizeReason reason)).getD 0

-- the zero value when the entry is absent or of another type
def stringOf : Option Value → Bytes
  | some (.string s) => s
  | _ => []

def int64Of : Option Value → Int
  | some (.int64 n) => n.toInt
  | _ => 0

-- the sum is compared before it is built
def addSaturated (w : Width) (total count : Int) : Int :=
  if w.wrap (w.maxInt - total) < w.wrap count then w.maxInt else w.wrap (total + w.wrap count)

def addEntry (w : Width) (queue : Bytes) (result : XDeathResult) : Value → XDeathResult
  | .table entry =>
    if stringOf (entry (lit "queue")) ≠ queue then
      result
    else
      let reason := normalizeReason (stringOf (entry (lit "reason")))
      let count := int64Of (entry (lit "count"))
      let count := if count < 0 then 0 else count
      let count := if w.maxInt < count then w.maxInt else count
      { count :=
          if reason = lit "rejected" ∨ reason = lit "delivery-limit" then
            addSaturated w result.count count
          else
            result.count
        reasons :=
          if (result.byReason reason).isSome then result.reasons else result.reasons ++ [reason]
        byReason :=
          Function.update result.byReason reason
            (some (addSaturated w ((result.byReason reason).getD 0) count)) }
  | _ => result

def parseXDeath (w : Width) (tbl : Table) (queue : Bytes) : XDeathResult :=
  match tbl (lit "x-death") with
  | some (.array entries) => entries.foldl (addEntry w queue) .zero
  | _ => .zero

end XDeath
