import Warren.Rpc.Caller.Impl

namespace Rpc

variable {Id Body Resp : Type}

namespace CallPhase

-- between `pending.Store` and `pending.Delete`
def registeredId : CallPhase Id Resp → Option Id
  | .registered _ cid => some cid
  | .awaiting _ cid => some cid
  | .returning cid _ => some cid
  | _ => none

def result : CallPhase Id Resp → Option (Result Resp)
  | .returning _ r => some r
  | .returned _ r => some r
  | _ => none

end CallPhase

def Result.delivery : Result Resp → Option Nat
  | .decodeErr n => some n
  | .response n _ => some n
  | _ => none

def CallPhase.taken (p : CallPhase Id Resp) : Option Nat := p.result.bind Result.delivery

def DispatchPhase.hand : DispatchPhase → Option Nat
  | .loading n => some n
  | .sending n _ => some n
  | .acking n => some n
  | _ => none

namespace State

variable [DecidableEq Id]

inductive CallMove (cfg : Config Body Resp) (s : State Id Body Resp) (j : Nat)
    : CallAction Id → State Id Body Resp → Prop where
  | pass (a : CallAction Id) (p q : CallPhase Id Resp) (mu : Option Nat)
    (hcall : s.calls[j]? = some p) (hcid : q.cid = p.cid) (hreg : q.registeredId = p.registeredId)
    (htaken : q.taken = none)
    : CallMove cfg s j a ({ s with mu }.goto j q)
  | opened (broker : Broker) (session : Session) (hcall : s.calls[j]? = some .openingSession)
    (hopen : openSession cfg broker = .ok session)
    : CallMove cfg s j (.openSession broker)
        ({ s with
          mu := none, session := some s.sessions.length, sessions := s.sessions ++ [session] }.goto
            j (.connected s.sessions.length))
  | identify (k : Nat) (cid : Id) (hcall : s.calls[j]? = some (.connected k))
    (hfresh : ∀ p ∈ s.calls, p.cid ≠ some cid)
    : CallMove cfg s j (.identify cid) (s.goto j (.identified k cid))
  | register (k : Nat) (cid : Id) (hcall : s.calls[j]? = some (.identified k cid))
    : CallMove cfg s j .register (s.register j k cid)
  | reply (k n : Nat) (cid : Id) (slot : Chan Nat 1) (hcall : s.calls[j]? = some (.awaiting k cid))
    (hrecv : (s.slots j).recv = some (some n, slot))
    : CallMove cfg s j .reply
        ({ s with slots := Function.update s.slots j slot }.goto j
          (.returning cid (s.decoded cfg n)))
  | unregister (cid : Id) (r : Result Resp) (hcall : s.calls[j]? = some (.returning cid r))
    : CallMove cfg s j .unregister (s.unregister j cid r)

inductive DispatchMove (s : State Id Body Resp) (k : Nat) (session : Session)
    : DispatchAction → State Id Body Resp → Prop where
  | load (n : Nat) (hdispatch : session.dispatch = .loading n)
    : DispatchMove s k session .load (s.setSession k { session with dispatch := s.load n })
  | send (n slot : Nat) (hdispatch : session.dispatch = .sending n slot)
    : DispatchMove s k session .send
        ((s.send n slot).setSession k { session with dispatch := .acking n })
  | ack (n : Nat) (hdispatch : session.dispatch = .acking n)
    : DispatchMove s k session .ack
        ((s.ack session n).setSession k { session with dispatch := .receiving })
  | exit (hdispatch : session.dispatch = .receiving)
    : DispatchMove s k session .exit
        (s.setSession k { session with dispatch := .exited, done := true })

inductive Move (cfg : Config Body Resp) (s : State Id Body Resp)
    : Action Id Body → State Id Body Resp → Prop where
  | begin : Move cfg s .begin { s with calls := s.calls ++ [.entered] }
  | call (j : Nat) (a : CallAction Id) (s' : State Id Body Resp) (hmove : s.CallMove cfg j a s')
    : Move cfg s (.call j a) s'
  | closeAgain : Move cfg s .close s
  | close : Move cfg s .close { s with closed := true }
  | closeSession (k : Nat) (session : Session) (hsession : s.sessions[k]? = some session)
    : Move cfg s .close { s.setSession k { session with closed := true } with closed := true }
  | deliver (k : Nat) (d : Delivery Id Body) (session : Session)
    (hsession : s.sessions[k]? = some session) (hdispatch : session.dispatch = .receiving)
    : Move cfg s (.deliver k d)
        { s.setSession k { session with dispatch := .loading s.deliveries.length } with
          deliveries := s.deliveries ++ [d] }
  | dispatch (k : Nat) (session : Session) (a : DispatchAction) (s' : State Id Body Resp)
    (hsession : s.sessions[k]? = some session) (hmove : s.DispatchMove k session a s')
    : Move cfg s (.dispatch k a) s'
  | noSession (k : Nat) : Move cfg s (.sessionDies k) s
  | sessionDies (k : Nat) (session : Session) (hsession : s.sessions[k]? = some session)
    : Move cfg s (.sessionDies k) (s.setSession k { session with closed := true })

variable {cfg : Config Body Resp} {s s' : State Id Body Resp} {j : Nat}

theorem CallMove.goto {a : CallAction Id} {p q : CallPhase Id Resp} (hcall : s.calls[j]? = some p)
    (hcid : q.cid = p.cid) (hreg : q.registeredId = p.registeredId) (htaken : q.taken = none)
    : s.CallMove cfg j a (s.goto j q) :=
  .pass a p q s.mu hcall hcid hreg htaken

theorem lock_move (hcall : s.calls[j]? = some .entered) (hstep : s.lock j = some s')
    : s.CallMove cfg j .lock s' := by
  unfold lock at hstep
  split at hstep
  . split at hstep
    . cases hstep
      exact .goto hcall rfl rfl rfl
    . split at hstep
      . cases hstep
        exact .goto hcall rfl rfl rfl
      . cases hstep
        exact .pass _ _ _ (some j) hcall rfl rfl rfl
  . contradiction

theorem callOpenSession_move {broker : Broker} (hcall : s.calls[j]? = some .openingSession)
    : s.CallMove cfg j (.openSession broker) (s.callOpenSession cfg j broker) := by
  unfold callOpenSession
  split
  . exact .pass _ _ _ none hcall rfl rfl rfl
  . next session hopen => exact .opened broker session hcall hopen

theorem identify_move {k : Nat} {cid : Id} (hcall : s.calls[j]? = some (.connected k))
    (hstep : s.identify j k cid = some s') : s.CallMove cfg j (.identify cid) s' := by
  unfold identify at hstep
  split at hstep
  . contradiction
  . next hfresh =>
    rw [Option.some.injEq] at hstep
    refine hstep ▸ .identify k cid hcall ?_
    intro p hp hcid
    exact hfresh ⟨p, hp, hcid⟩

theorem reply_move {k : Nat} {cid : Id} (hcall : s.calls[j]? = some (.awaiting k cid))
    (hstep : s.reply cfg j cid = some s') : s.CallMove cfg j .reply s' := by
  unfold reply at hstep
  split at hstep
  . next n slot hrecv =>
    cases hstep
    exact .reply k n cid slot hcall hrecv
  . contradiction

theorem callStep_move {a : CallAction Id} (hstep : s.callStep cfg j a = some s')
    : s.CallMove cfg j a s' := by
  unfold callStep at hstep
  split at hstep
  . next hcall => exact lock_move hcall hstep
  . next hcall =>
    cases hstep
    exact .pass _ _ _ none hcall rfl rfl rfl
  . next hcall =>
    cases hstep
    exact .goto hcall rfl rfl rfl
  . next broker hcall =>
    cases hstep
    exact callOpenSession_move hcall
  . next k hcall =>
    cases hstep
    exact .goto hcall rfl rfl rfl
  . next cid k hcall => exact identify_move hcall hstep
  . next k cid hcall =>
    cases hstep
    exact .goto hcall rfl rfl rfl
  . next k cid hcall =>
    cases hstep
    exact .register k cid hcall
  . next k cid hcall =>
    cases hstep
    exact .goto hcall rfl rfl rfl
  . next k cid hcall =>
    cases hstep
    exact .goto hcall rfl rfl rfl
  . next k cid hcall =>
    cases hstep
    exact .goto hcall rfl rfl rfl
  . next k cid hcall =>
    unfold sessionDone at hstep
    split at hstep
    . cases hstep
      exact .goto hcall rfl rfl rfl
    . contradiction
  . next k cid hcall => exact reply_move hcall hstep
  . next cid r hcall =>
    cases hstep
    exact .unregister cid r hcall
  . contradiction

theorem dispatchStep_move {k : Nat} {a : DispatchAction} (hstep : s.dispatchStep k a = some s')
    : s.Move cfg (.dispatch k a) s' := by
  unfold dispatchStep at hstep
  split at hstep
  . contradiction
  . next session hsession =>
    split at hstep
    . next n hdispatch =>
      cases hstep
      exact .dispatch k session _ _ hsession (.load n hdispatch)
    . next n slot hdispatch =>
      cases hstep
      exact .dispatch k session _ _ hsession (.send n slot hdispatch)
    . next n hdispatch =>
      cases hstep
      exact .dispatch k session _ _ hsession (.ack n hdispatch)
    . next hdispatch =>
      split at hstep
      . cases hstep
        exact .dispatch k session _ _ hsession (.exit hdispatch)
      . contradiction
    . contradiction

theorem close_move (hstep : s.close = some s') : s.Move cfg .close s' := by
  grind [Move, close, endSession]

theorem step_move {a : Action Id Body} (hstep : s.step cfg a = some s') : s.Move cfg a s' := by
  unfold step deliver endSession at hstep
  grind [Move, callStep_move, close_move, dispatchStep_move]

end State
end Rpc
