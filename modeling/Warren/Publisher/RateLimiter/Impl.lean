import Mathlib.Algebra.Group.Int.Defs

/-!
The limiter behind `WithPublishRateLimit` (`publisher_rate_limiter.go`). An instant is the number of
nanoseconds since the zero time.
-/

namespace RateLimiter

def second : Int := 10 ^ 9

def maxDuration : Int := 2 ^ 63 - 1

/-!
`time.Time` has its seconds in an int64, and `Add` and `Sub` stop at the ends.
-/

def maxSeconds : Int := 2 ^ 63 - 1

def add (t d : Int) : Int :=
  if maxSeconds < (t + d) / second then
    maxSeconds * second + (t + d) % second
  else if (t + d) / second < -2 ^ 63 then
    -maxSeconds * second + (t + d) % second
  else
    t + d

def sub (t u : Int) : Int := max (-2 ^ 63) (min maxDuration (t - u))

structure Limiter where
  interval : Int
  tau : Int
  -- the zero time at first
  tat : Int := 0
  deriving DecidableEq, Repr

def newRateLimiter (perSec : Int) : Option Limiter :=
  if perSec ≤ 0 then
    none
  else
    let interval := second.tdiv perSec
    let interval := if interval ≤ 0 then 1 else interval
    some { interval, tau := (perSec - 1) * interval }

def reserve (rl : Limiter) (now : Int) : Int × Limiter :=
  let tat := if rl.tat < now then now else rl.tat
  let allowAt := add tat (-rl.tau)
  let rl := { rl with tat := add tat rl.interval }
  if now < allowAt then (sub allowAt now, rl) else (0, rl)

-- `ctxErr` is the error of a context that is done before the timer fires
def wait {ε : Type} (rl : Option Limiter) (now : Int) (ctxErr : Option ε)
    : (Bool × Option ε) × Option Limiter :=
  match rl with
  | none => ((false, none), none)
  | some rl =>
    let (d, rl) := reserve rl now
    if d ≤ 0 then ((false, none), some rl) else ((true, ctxErr), some rl)

def after {ε : Type} (rl : Option Limiter) (now : Nat → Int) (ctxErr : Nat → Option ε)
    : Nat → Option Limiter
  | 0 => rl
  | k + 1 => (wait (after rl now ctxErr k) (now k) (ctxErr k)).2

def delay {ε : Type} (rl : Option Limiter) (now : Nat → Int) (ctxErr : Nat → Option ε) (k : Nat)
    : Int :=
  (after rl now ctxErr k).elim 0 (fun rl => (reserve rl (now k)).1)

end RateLimiter
