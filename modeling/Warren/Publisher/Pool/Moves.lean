import Warren.Publisher.Pool.Impl

namespace Pool
namespace State

variable {size : Nat}

inductive CallMove (s : State size) (j : Nat) : CallAction → State size → Prop where
  | token (v : Option Unit) (tokens : Chan Unit size) (hcall : s.calls[j]? = some .saturated)
    (hrecv : s.tokens.recv = some (v, tokens))
    : CallMove s j .token ({ s with tokens }.goto j .getting)
  | cancel (hcall : s.calls[j]? = some .saturated)
    : CallMove s j .cancel (s.goto j (.done .exhausted))
  | take (e : Nat) (free : Chan Nat size) (hcall : s.calls[j]? = some .getting)
    (hrecv : s.free.recv = some (some e, free))
    : CallMove s j .take ({ s with free }.goto j (.taken e (s.notified e)))
  | foundDead (e : Nat) (pending : Bool) (entry : Entry) (closeCh : Chan Unit 1)
    (hcall : s.calls[j]? = some (.taken e pending)) (hentry : s.entries e = some entry)
    : CallMove s j .check ((s.setEntry e { entry with closeCh }).goto j (.discarding e))
  | foundLive (e : Nat) (pending : Bool) (hcall : s.calls[j]? = some (.taken e pending))
    (hlive : s.recvClose e = none)
    : CallMove s j .check (s.goto j (.holding e pending))
  | discard (e : Nat) (hcall : s.calls[j]? = some (.discarding e))
    : CallMove s j .discard ((s.closeEntry e).goto j .getting)
  | openFn (hcall : s.calls[j]? = some .getting) (hempty : s.free.recv = none)
    : CallMove s j .openFn (s.goto j .opening)
  | opened (hcall : s.calls[j]? = some .opening) : CallMove s j .opened (s.opened j)
  | openErr (hcall : s.calls[j]? = some .opening)
    : CallMove s j .openErr (s.goto j (.failing .openErr))
  | openPanic (hcall : s.calls[j]? = some .opening)
    : CallMove s j .openPanic (s.goto j (.failing .panicked))
  | giveBack (r : Outcome) (tokens : Chan Unit size) (hcall : s.calls[j]? = some (.failing r))
    (hsend : s.tokens.trySend () = some tokens)
    : CallMove s j .giveBack ({ s with tokens }.goto j (.done r))
  | release (e : Nat) (pending : Bool) (hcall : s.calls[j]? = some (.holding e pending))
    : CallMove s j .release (s.goto j (.releasing e))
  | releaseDead (e : Nat) (entry : Entry) (closeCh : Chan Unit 1)
    (hcall : s.calls[j]? = some (.releasing e)) (hentry : s.entries e = some entry)
    : CallMove s j .releaseCheck ((s.setEntry e { entry with closeCh }).goto j (.closing e))
  | releaseLive (e : Nat) (hcall : s.calls[j]? = some (.releasing e))
    : CallMove s j .releaseCheck (s.goto j (.handingBack e))
  | handBack (e : Nat) (free : Chan Nat size) (hcall : s.calls[j]? = some (.handingBack e))
    (hsend : s.free.trySend e = some free)
    : CallMove s j .handBack ({ s with free }.goto j .returning)
  | noRoom (e : Nat) (hcall : s.calls[j]? = some (.handingBack e)) (hfull : s.free.trySend e = none)
    : CallMove s j .handBack (s.goto j (.closing e))
  | close (e : Nat) (hcall : s.calls[j]? = some (.closing e))
    : CallMove s j .close ((s.closeEntry e).goto j .returning)
  | returnToken (tokens : Chan Unit size) (hcall : s.calls[j]? = some .returning)
    (hsend : s.tokens.trySend () = some tokens)
    : CallMove s j .returnToken ({ s with tokens }.goto j (.done .released))

inductive Move (s : State size) : Action → State size → Prop where
  | acquire (v : Option Unit) (tokens : Chan Unit size) (hrecv : s.tokens.recv = some (v, tokens))
    : Move s .acquire { s with tokens, calls := s.calls ++ [.getting] }
  | saturated (hempty : s.tokens.recv = none)
    : Move s .acquire { s with calls := s.calls ++ [.saturated] }
  | call (j : Nat) (a : CallAction) (s' : State size) (hmove : s.CallMove j a s')
    : Move s (.call j a) s'
  | drain : Move s .drain { s with drains := s.drains ++ [.polling] }
  | drainTake (j e : Nat) (free : Chan Nat size) (hdrain : s.drains[j]? = some .polling)
    (hrecv : s.free.recv = some (some e, free))
    : Move s (.drainer j .poll) ({ s with free }.drainGoto j (.closing e))
  | drained (j : Nat) (hdrain : s.drains[j]? = some .polling)
    (hempty : ∀ e free, s.free.recv ≠ some (some e, free))
    : Move s (.drainer j .poll) (s.drainGoto j .done)
  | drainClose (j e : Nat) (hdrain : s.drains[j]? = some (.closing e))
    : Move s (.drainer j .close) ((s.closeEntry e).drainGoto j .polling)
  | notifyClose (e : Nat) (entry : Entry) (closeCh : Chan Unit 1) (hentry : s.entries e = some entry)
    (hready : closeCh.recv.isSome = true)
    : Move s (.notifyClose e) (s.setEntry e { entry with closeCh })
  | closeNotify (e : Nat) (entry : Entry) (closeCh : Chan Unit 1) (hentry : s.entries e = some entry)
    (hready : closeCh.recv.isSome = true)
    : Move s (.closeNotify e) (s.setEntry e { entry with closeCh })

variable {s s' : State size}

variable {e j : Nat}

theorem recvClose_eq_some (h : s.recvClose e = some s')
    : ∃ entry closeCh, s.entries e = some entry ∧ s' = s.setEntry e { entry with closeCh } := by
  grind [recvClose]

theorem sendToken_eq_some {r : Outcome} (h : s.sendToken j r = some s')
    : ∃ tokens, s.tokens.trySend () = some tokens ∧ s' = { s with tokens }.goto j (.done r) := by
  unfold sendToken at h
  split at h
  . contradiction
  . next tokens hsend =>
    rw [Option.some.injEq] at h
    exact ⟨tokens, hsend, h.symm⟩

theorem check_move {pending : Bool} (hcall : s.calls[j]? = some (.taken e pending))
    : s.CallMove j .check (s.check j e pending) := by
  grind [CallMove, recvClose_eq_some, check]

theorem releaseCheck_move (hcall : s.calls[j]? = some (.releasing e))
    : s.CallMove j .releaseCheck (s.releaseCheck j e) := by
  grind [CallMove, recvClose_eq_some, releaseCheck]

theorem handBack_move (hcall : s.calls[j]? = some (.handingBack e))
    : s.CallMove j .handBack (s.handBack j e) := by
  unfold handBack
  split
  . next free hsend => exact .handBack e free hcall hsend
  . next hfull => exact .noRoom e hcall hfull

theorem callStep_move {a : CallAction} (hstep : s.callStep j a = some s') : s.CallMove j a s' := by
  unfold callStep at hstep
  split at hstep
  . next hcall =>
    unfold token at hstep
    split at hstep
    . next v tokens hrecv =>
      cases hstep
      exact .token v tokens hcall hrecv
    . contradiction
  . next hcall =>
    cases hstep
    exact .cancel hcall
  . next hcall =>
    unfold take at hstep
    split at hstep
    . next e free hrecv =>
      cases hstep
      exact .take e free hcall hrecv
    . contradiction
  . next e pending hcall =>
    cases hstep
    exact check_move hcall
  . next e hcall =>
    cases hstep
    exact .discard e hcall
  . next hcall =>
    unfold openFn at hstep
    split at hstep
    . contradiction
    . next hempty =>
      cases hstep
      exact .openFn hcall hempty
  . next hcall =>
    cases hstep
    exact .opened hcall
  . next hcall =>
    cases hstep
    exact .openErr hcall
  . next hcall =>
    cases hstep
    exact .openPanic hcall
  . next r hcall =>
    have ⟨tokens, hsend, heq⟩ := sendToken_eq_some hstep
    exact heq ▸ .giveBack r tokens hcall hsend
  . next e pending hcall =>
    cases hstep
    exact .release e pending hcall
  . next e hcall =>
    cases hstep
    exact releaseCheck_move hcall
  . next e hcall =>
    cases hstep
    exact handBack_move hcall
  . next e hcall =>
    cases hstep
    exact .close e hcall
  . next hcall =>
    have ⟨tokens, hsend, heq⟩ := sendToken_eq_some hstep
    exact heq ▸ .returnToken tokens hcall hsend
  . contradiction

theorem drainStep_move {a : DrainAction} (hstep : s.drainStep j a = some s')
    : s.Move (.drainer j a) s' := by
  unfold drainStep at hstep
  grind [Move, poll]

theorem notifyClose_move (hstep : s.notifyClose e = some s') : s.Move (.notifyClose e) s' := by
  unfold notifyClose at hstep
  split at hstep
  . contradiction
  . next entry hentry =>
    split at hstep
    . contradiction
    . next closeCh hsend =>
      rw [Option.some.injEq] at hstep
      refine hstep ▸ .notifyClose e entry closeCh hentry ?_
      have ⟨_, _, hbuf, _⟩ := Chan.trySend_eq_some_iff.mp hsend
      exact Chan.recv_isSome_iff.mpr (.inl (by simp [hbuf]))

theorem step_move {a : Action} (hstep : s.step a = some s') : s.Move a s' := by
  cases a with
  | acquire =>
    unfold step acquire at hstep
    rw [Option.some.injEq] at hstep
    split at hstep
    . next v tokens hrecv => exact hstep ▸ .acquire v tokens hrecv
    . next hempty => exact hstep ▸ .saturated hempty
  | call j a => exact .call j a s' (callStep_move hstep)
  | drain =>
    cases hstep
    exact .drain
  | drainer j a => exact drainStep_move hstep
  | notifyClose e => exact notifyClose_move hstep
  | closeNotify e =>
    unfold step closeNotify at hstep
    dsimp only at hstep
    split at hstep
    . contradiction
    . next entry hentry =>
      cases hstep
      exact .closeNotify e entry _ hentry (Chan.recv_isSome_iff.mpr (.inr rfl))

end State
end Pool
