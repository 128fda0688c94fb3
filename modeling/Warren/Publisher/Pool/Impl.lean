import Warren.Base.Chan
import Warren.Base.Run

/-!
`publisherConnPool` (`publisher.go`): `acquire` with `getOrOpen`, `release` and `drainFree`, for any
number of callers. A call is one use of the pool, to the end of the `release` that it hands out.
-/

namespace Pool

-- `ch` is known by the number of its entry, `closed` says that `ch.Close` was called
structure Entry where
  closeCh : Chan Unit 1
  closed : Bool
  deriving DecidableEq, Repr

inductive Outcome where
  | exhausted
  | openErr
  | panicked
  | released
  deriving DecidableEq, Repr

-- `pending` keeps whether the entry had a close notification when it was taken from `free`
inductive CallPhase where
  -- `acquire`: the `select` with `ctx.Done`, and `getOrOpen` with the token in hand
  | saturated
  | getting
  | taken (e : Nat) (pending : Bool)
  | discarding (e : Nat)
  | opening
  | failing (r : Outcome)
  | holding (e : Nat) (pending : Bool)
  | releasing (e : Nat)
  | handingBack (e : Nat)
  | closing (e : Nat)
  | returning
  | done (r : Outcome)
  deriving DecidableEq, Repr

inductive DrainPhase where
  | polling
  | closing (e : Nat)
  | done
  deriving DecidableEq, Repr

structure State (size : Nat) where
  tokens : Chan Unit size
  free : Chan Nat size
  entries : Nat → Option Entry
  nextEntry : Nat
  calls : List CallPhase
  drains : List DrainPhase

inductive CallAction where
  | token
  | cancel
  | take
  | check
  | discard
  | openFn
  | opened
  | openErr
  | openPanic
  | giveBack
  | release
  | releaseCheck
  | handBack
  | close
  | returnToken
  deriving DecidableEq, Repr

inductive DrainAction where
  | poll
  | close
  deriving DecidableEq, Repr

inductive Action where
  | acquire
  | call (j : Nat) (a : CallAction)
  | drain
  | drainer (j : Nat) (a : DrainAction)
  -- the channel of an entry dies: the error is sent, and the notification channel is closed
  | notifyClose (e : Nat)
  | closeNotify (e : Nat)
  deriving DecidableEq, Repr

namespace State

variable {size : Nat}

def init (size : Nat) : State size where
  tokens := ⟨List.replicate size (), false, by simp⟩
  free := .make
  entries := fun _ => none
  nextEntry := 0
  calls := []
  drains := []

def goto (s : State size) (j : Nat) (p : CallPhase) : State size :=
  { s with calls := s.calls.set j p }

def drainGoto (s : State size) (j : Nat) (p : DrainPhase) : State size :=
  { s with drains := s.drains.set j p }

def setEntry (s : State size) (e : Nat) (entry : Entry) : State size :=
  { s with entries := Function.update s.entries e (some entry) }

def notified (s : State size) (e : Nat) : Bool :=
  (s.entries e).any (fun entry => entry.closeCh.recv.isSome)

def recvClose (s : State size) (e : Nat) : Option (State size) :=
  match s.entries e with
  | none => none
  | some entry =>
    match entry.closeCh.recv with
    | none => none
    | some (_, closeCh) => some (s.setEntry e { entry with closeCh })

def closeEntry (s : State size) (e : Nat) : State size :=
  { s with
    entries := Function.update s.entries e
      ((s.entries e).map (fun entry => { entry with closed := true })) }

-- the first `select`, whose default is taken only when there is no token
def acquire (s : State size) : State size :=
  match s.tokens.recv with
  | some (_, tokens) => { s with tokens, calls := s.calls ++ [.getting] }
  | none => { s with calls := s.calls ++ [.saturated] }

def token (s : State size) (j : Nat) : Option (State size) :=
  match s.tokens.recv with
  | some (_, tokens) => some ({ s with tokens }.goto j .getting)
  | none => none

def take (s : State size) (j : Nat) : Option (State size) :=
  match s.free.recv with
  | some (some e, free) => some ({ s with free }.goto j (.taken e (s.notified e)))
  | _ => none

def check (s : State size) (j e : Nat) (pending : Bool) : State size :=
  match s.recvClose e with
  | some s => s.goto j (.discarding e)
  | none => s.goto j (.holding e pending)

def openFn (s : State size) (j : Nat) : Option (State size) :=
  match s.free.recv with
  | some _ => none
  | none => some (s.goto j .opening)

def opened (s : State size) (j : Nat) : State size :=
  { s.setEntry s.nextEntry ⟨.make, false⟩ with nextEntry := s.nextEntry + 1 }.goto j
    (.holding s.nextEntry false)

def sendToken (s : State size) (j : Nat) (r : Outcome) : Option (State size) :=
  match s.tokens.trySend () with
  | none => none
  | some tokens => some ({ s with tokens }.goto j (.done r))

def releaseCheck (s : State size) (j e : Nat) : State size :=
  match s.recvClose e with
  | some s => s.goto j (.closing e)
  | none => s.goto j (.handingBack e)

def handBack (s : State size) (j e : Nat) : State size :=
  match s.free.trySend e with
  | some free => { s with free }.goto j .returning
  | none => s.goto j (.closing e)

def callStep (s : State size) (j : Nat) (a : CallAction) : Option (State size) :=
  match a, s.calls[j]? with
  | .token, some .saturated => s.token j
  | .cancel, some .saturated => some (s.goto j (.done .exhausted))
  | .take, some .getting => s.take j
  | .check, some (.taken e pending) => some (s.check j e pending)
  | .discard, some (.discarding e) => some ((s.closeEntry e).goto j .getting)
  | .openFn, some .getting => s.openFn j
  | .opened, some .opening => some (s.opened j)
  | .openErr, some .opening => some (s.goto j (.failing .openErr))
  | .openPanic, some .opening => some (s.goto j (.failing .panicked))
  | .giveBack, some (.failing r) => s.sendToken j r
  | .release, some (.holding e _) => some (s.goto j (.releasing e))
  | .releaseCheck, some (.releasing e) => some (s.releaseCheck j e)
  | .handBack, some (.handingBack e) => some (s.handBack j e)
  | .close, some (.closing e) => some ((s.closeEntry e).goto j .returning)
  | .returnToken, some .returning => s.sendToken j .released
  | _, _ => none

def poll (s : State size) (j : Nat) : State size :=
  match s.free.recv with
  | some (some e, free) => { s with free }.drainGoto j (.closing e)
  | _ => s.drainGoto j .done

def drainStep (s : State size) (j : Nat) (a : DrainAction) : Option (State size) :=
  match a, s.drains[j]? with
  | .poll, some .polling => some (s.poll j)
  | .close, some (.closing e) => some ((s.closeEntry e).drainGoto j .polling)
  | _, _ => none

def notifyClose (s : State size) (e : Nat) : Option (State size) :=
  match s.entries e with
  | none => none
  | some entry =>
    match entry.closeCh.trySend () with
    | none => none
    | some closeCh => some (s.setEntry e { entry with closeCh })

def closeNotify (s : State size) (e : Nat) : Option (State size) :=
  match s.entries e with
  | none => none
  | some entry => some (s.setEntry e { entry with closeCh := entry.closeCh.close })

def step (s : State size) : Action → Option (State size)
  | .acquire => some s.acquire
  | .call j a => s.callStep j a
  | .drain => some { s with drains := s.drains ++ [.polling] }
  | .drainer j a => s.drainStep j a
  | .notifyClose e => s.notifyClose e
  | .closeNotify e => s.closeNotify e

end State
end Pool
