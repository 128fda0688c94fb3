import Warren.Base.FieldTree
import Warren.Errors.Impl

/-!
The headers of a message and `validateHeaders` (`message.go`): each function returns the error and
the value that it leaves behind. `int` and `uint` have 64 bits.
-/

namespace Encode

inductive Scalar where
  | nil
  | bool (v : Bool)
  | int8 (v : Int8)
  | int16 (v : Int16)
  | int32 (v : Int32)
  | int64 (v : Int64)
  | uint8 (v : UInt8)
  | uint16 (v : UInt16)
  | uint32 (v : UInt32)
  | uint64 (v : UInt64)
  | float32 (bits : UInt32)
  | float64 (bits : UInt64)
  | string (v : String)
  | bytes (v : List UInt8)
  | time (v : Int)
  deriving DecidableEq, Repr

inductive Leaf where
  | scalar (v : Scalar)
  | int (v : Int64)
  | uint (v : UInt64)
  -- a value of any other dynamic type, such as `amqp091.Table` or `map[string]any`
  | other (type : String)
  deriving DecidableEq, Repr

-- tables are of the type `Headers`, and arrays of the type `[]any`
abbrev Value := FieldTree String Leaf

abbrev Headers := List (String × Value)

inductive Arg where
  | text (s : String)
  | number (n : Int)
  | duration (d : Int64)
  deriving DecidableEq, Repr

-- the format and the arguments that follow the sentinel
structure Err where
  sentinel : Errors.Sentinel
  format : String
  args : List Arg
  deriving DecidableEq, Repr

-- `reflect.TypeOf` of a value that no case of `validateHeaderValue` is for
def Leaf.unsupported : Leaf → Option String
  | .scalar _ => none
  | .int _ => some "int"
  | .uint _ => some "uint"
  | .other type => some type

def unsupportedType (key type : String) : Err :=
  ⟨.invalidMessage, "header %q has unsupported type %s", [.text key, .text type]⟩

def maxHeaderDepth : Nat := 10

def guardDepth (depth : Nat) (h : Headers) (loop : Option Err × Headers) : Option Err × Headers :=
  if maxHeaderDepth < depth then
    (some ⟨.invalidMessage, "header nesting exceeds maximum depth %d", [.number maxHeaderDepth]⟩, h)
  else
    loop

def next {α : Type} (r : Option Err × α) (rest : List α) (loop : Option Err × List α)
    : Option Err × List α :=
  match r.1 with
  | some err => (some err, r.2 :: rest)
  | none => (loop.1, r.2 :: loop.2)

mutual

def validateHeaderValue : String → Value → Nat → Option Err × Value
  | key, .leaf a, _ => (a.unsupported.map (unsupportedType key), .leaf a)
  | _, .table h, depth =>
    let r := guardDepth (depth + 1) h (rangeHeaders h (depth + 1))
    (r.1, .table r.2)
  | key, .array xs, depth =>
    let r := rangeArray key 0 xs depth
    (r.1, .array r.2)

def rangeHeaders : Headers → Nat → Option Err × Headers
  | [], _ => (none, [])
  | (k, .leaf (.int n)) :: h, depth =>
    next (none, (k, .leaf (.scalar (.int64 n)))) h (rangeHeaders h depth)
  | (k, .leaf (.uint n)) :: h, depth =>
    next (none, (k, .leaf (.scalar (.uint64 n)))) h (rangeHeaders h depth)
  | (k, v) :: h, depth =>
    let r := validateHeaderValue k v depth
    next (r.1, (k, r.2)) h (rangeHeaders h depth)

def rangeArray : String → Nat → List Value → Nat → Option Err × List Value
  | _, _, [], _ => (none, [])
  | key, i, .leaf (.int n) :: xs, depth =>
    next (none, .leaf (.scalar (.int64 n))) xs (rangeArray key (i + 1) xs depth)
  | key, i, .leaf (.uint n) :: xs, depth =>
    next (none, .leaf (.scalar (.uint64 n))) xs (rangeArray key (i + 1) xs depth)
  | key, i, x :: xs, depth =>
    next (validateHeaderValue s!"{key}[{i}]" x depth) xs (rangeArray key (i + 1) xs depth)

end

def validateHeadersDepth (h : Headers) (depth : Nat) : Option Err × Headers :=
  guardDepth depth h (rangeHeaders h depth)

def validateHeaders (h : Headers) : Option Err × Headers := validateHeadersDepth h 0

end Encode
