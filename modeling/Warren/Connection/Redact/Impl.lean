import Warren.Base.Values
import Warren.Base.ReplaceAll

/-!
The redaction of credentials (`internal/redact/redact.go`), and how `net/url` finds the credentials
in an address that the dialer is given.
-/

namespace Redact

open Bytes (lit)

def at' : UInt8 := 64
def colon : UInt8 := 58

-- the bytes that end the authority of an address: a slash, a question mark or a number sign
def endsAuthority (b : UInt8) : Bool := b = 47 || b = 63 || b = 35

-- the first group of the expression: amqps?://
def schemeGroup (s : Bytes) : Option Bytes :=
  if lit "amqps://" <+: s then
    some (lit "amqps://")
  else if lit "amqp://" <+: s then
    some (lit "amqp://")
  else
    none

-- the second group, which stops at an at sign
def inUserinfo (b : UInt8) : Bool := !(b = at' || endsAuthority b)

def amqpURIRe (s : Bytes) : Option (Bytes × Nat) :=
  match schemeGroup s with
  | none => none
  | some scheme =>
    let rest := s.drop scheme.length
    match rest.dropWhile inUserinfo with
    | [] => none
    | b :: _ =>
      if b = at' then
        some (scheme ++ lit "***@", scheme.length + (rest.takeWhile inUserinfo).length + 1)
      else
        none

def uri (s : Bytes) : Bytes := ReplaceAll.replaceAll amqpURIRe 0 s

/-!
`url.Parse`, for the schemes of the library and as far as the credentials are concerned: the scheme
in any case, the authority, and the part of that before its last at sign.
-/

structure Address where
  scheme : Bytes
  userinfo : Bytes
  host : Bytes
  tail : Bytes
  deriving DecidableEq, Repr

def lower (b : UInt8) : UInt8 := if 65 ≤ b ∧ b ≤ 90 then b + 32 else b

def isAlnum (b : UInt8) : Bool := (97 ≤ b && b ≤ 122) || (65 ≤ b && b ≤ 90) || (48 ≤ b && b ≤ 57)

def validUserinfo (s : Bytes) : Bool :=
  s.all (fun b => isAlnum b || (lit "-._:~!$&'()*+,;=%@").elem b)

def parseAuthority (scheme authority tail : Bytes) : Option Address :=
  match authority.reverse.dropWhile (· ≠ at') with
  | [] => none
  | _ :: userinfo =>
    if validUserinfo userinfo.reverse then
      some ⟨scheme, userinfo.reverse, (authority.reverse.takeWhile (· ≠ at')).reverse, tail⟩
    else
      none

-- `none` also for an address without credentials
def parse (s : Bytes) : Option Address :=
  let scheme := s.takeWhile (· ≠ colon)
  if scheme.map lower = lit "amqp" ∨ scheme.map lower = lit "amqps" then
    let rest := s.dropWhile (· ≠ colon)
    if lit "://" <+: rest then
      let rest := rest.drop 3
      parseAuthority scheme (rest.takeWhile (!endsAuthority ·)) (rest.dropWhile (!endsAuthority ·))
    else
      none
  else
    none

end Redact
