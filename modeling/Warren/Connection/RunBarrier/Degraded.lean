import Mathlib.Data.List.Induction
import Warren.Base.Run
import Warren.Connection.RunBarrier.Impl

/-!
What the flags of a socket say about the barriers that have run on it.
-/

namespace RunBarrier

open Errors
open List Option

def Outcome.decisive : Outcome → Bool
  | succeeded => true
  | failed _ => true
  | capped => false
  | interrupted => false

def Outcome.after (hookErr : Option Err) : Outcome → Option Err
  | succeeded => none
  | failed hookErr => some hookErr
  | capped => hookErr
  | interrupted => hookErr

def lastFailure (outcomes : List Outcome) : Option Err :=
  outcomes.foldl Outcome.after none

def Outcome.enters (hookErr : Option Err) (o : Outcome) : Bool :=
  hookErr.isNone && (o.after hookErr).isSome

def entries (hookErr : Option Err) : List Outcome → Nat
  | [] => 0
  | o :: os => (o.enters hookErr).toNat + entries (o.after hookErr) os

def successes (outcomes : List Outcome) : List Nat :=
  (range outcomes.length).filter (fun i => outcomes[i]? = some .succeeded)

theorem lastFailure_append (outcomes : List Outcome) (o : Outcome)
    : lastFailure (outcomes ++ [o]) = o.after (lastFailure outcomes) := by
  simp [lastFailure]

theorem entries_append (hookErr : Option Err) (outcomes : List Outcome) (o : Outcome)
    : entries hookErr (outcomes ++ [o])
        =
      entries hookErr outcomes + (o.enters (outcomes.foldl Outcome.after hookErr)).toNat := by
  induction outcomes generalizing hookErr with
  | nil => simp [entries]
  | cons o' os ih =>
    simp only [cons_append, entries, foldl_cons, ih]
    omega

theorem successes_append (outcomes : List Outcome) (o : Outcome)
    : successes (outcomes ++ [o])
        =
      successes outcomes ++ if o = .succeeded then [outcomes.length] else [] := by
  unfold successes
  rw [length_append, length_singleton, range_succ, filter_append]
  congr 1
  . apply filter_congr
    intro i hi
    rw [getElem?_append_left (mem_range.mp hi)]
  . simp [filter_singleton]

variable {o : Outcome}

theorem exists_failed_append {outcomes : List Outcome} {hookErr : Err}
    (h : ∃ before after, outcomes = before ++ .failed hookErr :: after ∧
      ∀ o ∈ after, o.decisive = false) (ho : o.decisive = false)
    : ∃ before after, outcomes ++ [o] = before ++ .failed hookErr :: after ∧
        ∀ o ∈ after, o.decisive = false := by
  grind

theorem exists_failed_of_lastFailure {outcomes : List Outcome} {hookErr : Err}
    (h : lastFailure outcomes = some hookErr)
    : ∃ before after, outcomes = before ++ .failed hookErr :: after ∧
        ∀ o ∈ after, o.decisive = false := by
  induction outcomes using reverseRecOn with
  | nil => contradiction
  | append_singleton os o ih =>
    rw [lastFailure_append] at h
    cases o with
    | succeeded => contradiction
    | failed err =>
      cases h
      exact ⟨os, [], rfl, by simp⟩
    | capped | interrupted => exact exists_failed_append (ih h) rfl

theorem foldl_after_of_not_decisive {after : List Outcome} (h : ∀ o ∈ after, o.decisive = false)
    (hookErr : Option Err) : after.foldl Outcome.after hookErr = hookErr := by
  induction after with
  | nil => rfl
  | cons o os ih =>
    have ho : o.after hookErr = hookErr := by
      cases o with
      | succeeded | failed err => simp [Outcome.decisive] at h
      | capped => rfl
      | interrupted => rfl
    rw [foldl_cons, ho]
    apply ih
    intro o ho
    apply h
    simp [ho]

theorem lastFailure_eq_some_iff (outcomes : List Outcome) (hookErr : Err)
    : lastFailure outcomes = some hookErr ↔
        ∃ before after, outcomes = before ++ .failed hookErr :: after ∧
          ∀ o ∈ after, o.decisive = false := by
  constructor
  . exact exists_failed_of_lastFailure
  . rintro ⟨before, after, heq, hafter⟩
    rw [heq, lastFailure, foldl_append, foldl_cons, foldl_after_of_not_decisive hafter]
    rfl

namespace State

inductive Move (s : State) : Action → State → Prop where
  | registerHook
    : Move s .registerHook { s with hooks := s.hooks + 1 }
  | cancel
    : Move s .cancel { s with ctxDone := true }
  | reconnect (hpc : s.pc = .supervising ∨ ∃ o, s.pc = .returned o)
    : Move s .reconnect s.reconnect
  | dialed (raw : Nat) (hpc : s.pc = .dialing)
    : Move s (.dialed raw) (s.start raw)
  | exhausted (hpc : s.pc = .dialing)
    : Move s .exhausted { s with reconnecting := false, pc := .exited }
  | hooks (a : Action) (hpc : s.pc = .selecting) (hooksLeft : Nat)
      (hookErrCh : Option (Option Err))
    : Move s a { s with hooksLeft, hookErrCh }
  | takeHookErr (hpc : s.pc = .selecting) {hookErr : Option Err}
      (hch : s.hookErrCh = some hookErr)
    : Move s .takeHookErr { s with pc := .settling hookErr }
  | takeCtx (hpc : s.pc = .selecting) (hctx : s.ctxDone = true)
    : Move s .takeCtx { s with pc := .clearing .interrupted }
  | takeCap (hpc : s.pc = .selecting)
    : Move s .takeCap { s with pc := .capping }
  | enterDegraded {hookErr : Err} (hpc : s.pc = .settling (some hookErr))
    : Move s .settle (s.enterDegraded hookErr)
  | leaveDegraded (hpc : s.pc = .settling none)
    : Move s .settle s.leaveDegraded
  | onReconnect (hpc : s.pc = .calling)
    : Move s .onReconnect
        { s with
          reconnectCalls := s.reconnectCalls ++ [s.outcomes.length]
          pc := .clearing .succeeded }
  | clear {outcome : Outcome} (hpc : s.pc = .clearing outcome)
    : Move s .clear ({ s with reconnecting := false }.ret outcome)
  | takeRaw (hpc : s.pc = .capping)
    : Move s .takeRaw { s with raw := none, pc := .closingRaw }
  | closeRaw (hpc : s.pc = .closingRaw)
    : Move s .closeRaw (s.ret .capped)
  | callback {i : Nat} {err : Err} (hget : s.callbacks[i]? = some err)
    : Move s (.callback i)
        { s with
          callbacks := s.callbacks.eraseIdx i
          topoDegradedCalls := s.topoDegradedCalls ++ [err] }

theorem step_move {s s' : State} {a : Action} (h : s.step a = some s') : s.Move a s' := by
  unfold step hook hooksDone takeHookErr callback at h
  grind [Move]

end State

def Pc.settled : Pc → List Outcome
  | .calling => [.succeeded]
  | .clearing outcome => [outcome]
  | _ => []

def Pc.called : Pc → List Outcome
  | .clearing outcome => [outcome]
  | _ => []

def Pc.barred : Pc → Bool
  | .supervising => false
  | .returned _ => false
  | .exited => false
  | _ => true

theorem Pc.called_of_settled {pc : Pc} (h : pc.settled = []) : pc.called = [] := by
  cases pc with
  | clearing outcome => contradiction
  | _ => rfl

theorem Outcome.after_of_not_decisive (h : o.decisive = false) (hookErr : Option Err)
    : o.after hookErr = hookErr := by
  cases o with
  | succeeded => contradiction
  | failed err => contradiction
  | capped => rfl
  | interrupted => rfl

theorem Outcome.enters_of_not_decisive (h : o.decisive = false) (hookErr : Option Err)
    : o.enters hookErr = false := by
  rw [Outcome.enters, Outcome.after_of_not_decisive h]
  cases hookErr <;> rfl

/--
What the statement about the barriers is made of. `notices` counts the callbacks that run or have
run, `settled` has the outcomes that the flags show, and `called` those that `onReconnect` knows of.
-/
structure View where
  degraded : Bool
  degradedErr : Option Err
  notices : Nat
  reconnectCalls : List Nat
  settled : List Outcome
  called : List Outcome

namespace View

variable {onTopoDegraded onReconnect : Bool} {v : View}

structure Inv (onTopoDegraded onReconnect : Bool) (v : View) : Prop where
  degraded : v.degraded = (lastFailure v.settled).isSome
  degradedErr : v.degradedErr = (lastFailure v.settled).map Errors.degradedErr
  notices : v.notices = if onTopoDegraded then entries none v.settled else 0
  reconnects : v.reconnectCalls = if onReconnect then successes v.called else []
  calling : v.settled ≠ v.called → onReconnect = true

theorem Inv.undecided (h : v.Inv onTopoDegraded onReconnect) (ho : o.decisive = false)
    : Inv onTopoDegraded onReconnect
        { v with settled := v.settled ++ [o], called := v.called ++ [o] } := by
  have hne : o ≠ .succeeded := by
    rintro rfl
    contradiction
  constructor
  . rw [lastFailure_append, o.after_of_not_decisive ho, h.degraded]
  . rw [lastFailure_append, o.after_of_not_decisive ho, h.degradedErr]
  . rw [entries_append, o.enters_of_not_decisive ho, h.notices]
    rfl
  . rw [successes_append, if_neg hne, append_nil, h.reconnects]
  . simpa using h.calling

theorem Inv.enterDegraded (h : v.Inv onTopoDegraded onReconnect) (hookErr : Err)
    : Inv onTopoDegraded onReconnect
        { v with
          degraded := true
          degradedErr := some (Errors.degradedErr hookErr)
          notices := v.notices + (onTopoDegraded && !v.degraded).toNat
          settled := v.settled ++ [.failed hookErr]
          called := v.called ++ [.failed hookErr] } := by
  constructor
  . rw [lastFailure_append]
    rfl
  . rw [lastFailure_append]
    rfl
  . have henters : (Outcome.failed hookErr).enters (lastFailure v.settled) = !v.degraded := by
      rw [h.degraded, Outcome.enters, Outcome.after, isSome_some, Bool.and_true]
      simp
    rw [entries_append, h.notices]
    cases onTopoDegraded with
    | false => rfl
    | true => exact congrArg (entries none v.settled + ·.toNat) henters.symm
  . rw [successes_append]
    simpa using h.reconnects
  . simpa using h.calling

theorem Inv.calls (h : v.Inv onTopoDegraded onReconnect) (hon : onReconnect = true)
    : Inv onTopoDegraded onReconnect
        { v with
          reconnectCalls := v.reconnectCalls ++ [v.called.length]
          called := v.called ++ [.succeeded] } := by
  refine ⟨h.degraded, h.degradedErr, h.notices, ?_, fun _ => hon⟩
  have hcalls := h.reconnects
  rw [if_pos hon] at hcalls ⊢
  rw [successes_append, hcalls]
  rfl

theorem Inv.leaveDegraded (h : v.Inv onTopoDegraded onReconnect)
    : Inv onTopoDegraded onReconnect
        { v with
          degraded := false
          degradedErr := none
          settled := v.settled ++ [.succeeded]
          called := v.called ++ if onReconnect then [] else [.succeeded] } := by
  constructor
  . rw [lastFailure_append]
    rfl
  . rw [lastFailure_append]
    rfl
  . have henters (hookErr : Option Err) : Outcome.succeeded.enters hookErr = false := by
      rw [Outcome.enters, Outcome.after, isSome_none, Bool.and_false]
    rw [entries_append, henters, h.notices]
    rfl
  . have hrec := h.reconnects
    cases onReconnect <;> simpa using hrec
  . intro hne
    cases onReconnect with
    | true => rfl
    | false => exact absurd (h.calling (by simpa using hne)) (by simp)

end View

namespace State

def view (s : State) : View where
  degraded := s.degraded
  degradedErr := s.degradedErr
  notices := s.callbacks.length + s.topoDegradedCalls.length
  reconnectCalls := s.reconnectCalls
  settled := s.outcomes ++ s.pc.settled
  called := s.outcomes ++ s.pc.called

structure Inv (onTopoDegraded onReconnect : Bool) (s : State) : Prop where
  topo : s.onTopoDegraded = onTopoDegraded
  reconnect : s.onReconnect = onReconnect
  shows : s.view.Inv onTopoDegraded onReconnect

variable {s s' : State} {onTopoDegraded onReconnect : Bool}

theorem inv_fresh (raw : Option Nat)
    : (fresh onTopoDegraded onReconnect raw).Inv onTopoDegraded onReconnect := by
  refine ⟨rfl, rfl, rfl, rfl, ?_, ?_, fun h => absurd rfl h⟩
  . cases onTopoDegraded <;> rfl
  . cases onReconnect <;> rfl

theorem Inv.of_view {v : View} (h : s.Inv onTopoDegraded onReconnect)
    (hv : v.Inv onTopoDegraded onReconnect) (hview : s'.view = v)
    (htopo : s'.onTopoDegraded = s.onTopoDegraded) (hreconnect : s'.onReconnect = s.onReconnect)
    : s'.Inv onTopoDegraded onReconnect :=
  ⟨htopo.trans h.topo, hreconnect.trans h.reconnect, hview ▸ hv⟩

theorem Inv.unsettled (h : s.Inv onTopoDegraded onReconnect) (hpc : s.pc.settled = []) {pc : Pc}
    (hpc' : pc.settled = []) {hooksLeft : Nat} {hookErrCh : Option (Option Err)} {raw : Option Nat}
    {reconnecting : Bool}
    : Inv onTopoDegraded onReconnect { s with pc, hooksLeft, hookErrCh, raw, reconnecting } := by
  refine h.of_view h.shows ?_ rfl rfl
  simp [view, hpc, hpc', Pc.called_of_settled]

theorem Inv.move {a : Action} (h : s.Inv onTopoDegraded onReconnect) (hmove : s.Move a s')
    : s'.Inv onTopoDegraded onReconnect := by
  cases hmove with
  | reconnect hpc =>
    have hnil : s.pc.settled = [] := by
      rcases hpc with hpc | ⟨o, hpc⟩
      all_goals simp [hpc, Pc.settled]
    exact h.unsettled hnil rfl
  | dialed raw hpc | exhausted hpc | takeHookErr hpc hch | takeCap hpc | takeRaw hpc =>
    exact h.unsettled (by simp [hpc, Pc.settled]) rfl
  | takeCtx hpc hctx =>
    refine h.of_view (h.shows.undecided (o := .interrupted) rfl) ?_ rfl rfl
    simp [view, hpc, Pc.settled, Pc.called]
  | @enterDegraded hookErr hpc =>
    refine h.of_view (h.shows.enterDegraded hookErr) ?_ rfl rfl
    cases hd : s.degraded <;> cases ht : s.onTopoDegraded <;>
      simp [view, State.enterDegraded, hpc, Pc.settled, Pc.called, ← h.topo, hd, ht]
    omega
  | leaveDegraded hpc =>
    refine h.of_view h.shows.leaveDegraded ?_ rfl rfl
    cases hr : s.onReconnect <;>
      simp [view, State.leaveDegraded, hpc, Pc.settled, Pc.called, ← h.reconnect, hr]
  | onReconnect hpc =>
    have hon : onReconnect = true := h.shows.calling (by simp [view, hpc, Pc.settled, Pc.called])
    refine h.of_view (h.shows.calls hon) ?_ rfl rfl
    simp [view, hpc, Pc.settled, Pc.called]
  | clear hpc =>
    refine h.of_view h.shows ?_ rfl rfl
    simp [view, ret, hpc, Pc.settled, Pc.called]
  | closeRaw hpc =>
    refine h.of_view (h.shows.undecided (o := .capped) rfl) ?_ rfl rfl
    simp [view, ret, hpc, Pc.settled, Pc.called]
  | callback hget =>
    have hi := (List.getElem?_eq_some_iff.mp hget).1
    refine h.of_view h.shows ?_ rfl rfl
    simp [view, length_eraseIdx_of_lt hi]
    omega
  | _ => exact ⟨h.topo, h.reconnect, h.shows⟩

structure Flags (s : State) : Prop where
  barred : s.pc.barred = true → s.reconnecting = true
  closing : s.pc = .closingRaw → s.raw = none
  clearing : s.pc ≠ .clearing .capped
  returned : ∀ o, s.pc = .returned o → s.outcomes.getLast? = some o ∧
    if o = .capped then s.reconnecting = true ∧ s.raw = none else s.reconnecting = false

theorem Flags.fresh (onTopoDegraded onReconnect : Bool) (raw : Option Nat)
    : (fresh onTopoDegraded onReconnect raw).Flags where
  barred := by intro h; contradiction
  closing := by intro h; contradiction
  clearing := by intro h; contradiction
  returned := by intro o h; contradiction

theorem Flags.frame (h : s.Flags) (hpc : s'.pc = s.pc)
    (hreconnecting : s'.reconnecting = s.reconnecting) (hraw : s'.raw = s.raw)
    (houtcomes : s'.outcomes = s.outcomes) : s'.Flags where
  barred := by rw [hpc, hreconnecting]; exact h.barred
  closing := by rw [hpc, hraw]; exact h.closing
  clearing := by rw [hpc]; exact h.clearing
  returned := by rw [hpc, hreconnecting, hraw, houtcomes]; exact h.returned

theorem Flags.inside (hreconnecting : s'.reconnecting = true)
    (hclosing : s'.pc = .closingRaw → s'.raw = none) (hclearing : s'.pc ≠ .clearing .capped)
    (hreturned : ∀ o, s'.pc ≠ .returned o) : s'.Flags where
  barred := fun _ => hreconnecting
  closing := hclosing
  clearing := hclearing
  returned := fun o ho => absurd ho (hreturned o)

theorem Flags.ret {o : Outcome}
    (h : if o = .capped then s.reconnecting = true ∧ s.raw = none else s.reconnecting = false)
    : (s.ret o).Flags where
  barred := by intro h; contradiction
  closing := by intro h; contradiction
  clearing := by intro h; contradiction
  returned := by
    intro o' ho'
    cases ho'
    exact ⟨getLast?_concat, h⟩

theorem Flags.move {a : Action} (h : s.Flags) (hmove : s.Move a s') : s'.Flags := by
  cases hmove with
  | registerHook | cancel | hooks a hpc hooksLeft hookErrCh | callback hget =>
    exact h.frame rfl rfl rfl rfl
  | reconnect hpc =>
    exact .inside rfl (by simp [State.reconnect]) (by simp [State.reconnect])
      (by simp [State.reconnect])
  | dialed raw hpc =>
    exact .inside (h.barred (by simp [hpc, Pc.barred])) (by simp [start]) (by simp [start])
      (by simp [start])
  | exhausted hpc =>
    constructor
    . intro h; contradiction
    . intro h; contradiction
    . intro h; contradiction
    . intro o h; contradiction
  | enterDegraded hpc =>
    exact .inside (h.barred (by simp [hpc, Pc.barred])) (by simp [State.enterDegraded])
      (by simp [State.enterDegraded]) (by simp [State.enterDegraded])
  | leaveDegraded hpc =>
    refine .inside (h.barred (by simp [hpc, Pc.barred])) ?_ ?_ ?_
    . cases hon : s.onReconnect <;> simp [State.leaveDegraded, hon]
    . cases hon : s.onReconnect <;> simp [State.leaveDegraded, hon]
    . cases hon : s.onReconnect <;> simp [State.leaveDegraded, hon]
  | clear hpc =>
    apply Flags.ret
    rw [if_neg]
    rintro rfl
    exact h.clearing hpc
  | closeRaw hpc =>
    apply Flags.ret
    rw [if_pos rfl]
    exact ⟨h.barred (by simp [hpc, Pc.barred]), h.closing hpc⟩
  | _ hpc =>
    exact .inside (h.barred (by simp [hpc, Pc.barred])) (by simp) (by simp) (by simp)

theorem inv_of_run {raw : Option Nat} {as : List Action}
    (hrun : Run.run step (fresh onTopoDegraded onReconnect raw) as = some s)
    : s.Inv onTopoDegraded onReconnect ∧ s.Flags := by
  apply Run.inv_of_steps (I := fun s => s.Inv onTopoDegraded onReconnect ∧ s.Flags) _
    ⟨inv_fresh raw, .fresh _ _ _⟩ hrun
  intro s a s' h hstep
  exact ⟨h.1.move (step_move hstep), h.2.move (step_move hstep)⟩

-- the goroutines of the callbacks get to run
theorem run_callbacks {errs : List Err} (h : s.callbacks = errs)
    : Run.run step s (replicate errs.length (.callback 0))
        = some { s with callbacks := [], topoDegradedCalls := s.topoDegradedCalls ++ errs } := by
  induction errs generalizing s with
  | nil =>
    rw [append_nil]
    change some s = _
    rw [← h]
  | cons err errs ih =>
    have hstep : s.step (.callback 0) = some { s with
        callbacks := errs
        topoDegradedCalls := s.topoDegradedCalls ++ [err] } := by
      simp [step, callback, h]
    rw [length_cons, replicate_succ, Run.run_cons_of_step _ hstep, ih rfl]
    simp

/--
Outside of a barrier's last steps the flags show how the barriers before it have ended. A callback
that has been started for an entry into the degraded state may still be on its way; once those are
through, there has been one call for each entry.
-/
theorem degraded_of_run {onTopoDegraded onReconnect : Bool} {raw : Option Nat} {as : List Action}
    {s : State} (hrun : Run.run step (fresh onTopoDegraded onReconnect raw) as = some s)
    (hpc : s.pc.settled = [])
    : (s.degraded = true ↔
        ∃ hookErr before after, s.outcomes = before ++ .failed hookErr :: after ∧
          ∀ o ∈ after, o.decisive = false) ∧
      (s.degradedErr.isSome = s.degraded) ∧
      (∀ err ∈ s.degradedErr, err.is (.sentinel .topologyRedeclareFailed) = true) ∧
      (s.topoDegradedCalls.length + s.callbacks.length
        = if onTopoDegraded then entries none s.outcomes else 0) ∧
      (∃ s', Run.run step s (replicate s.callbacks.length (.callback 0)) = some s' ∧
        s'.callbacks = [] ∧ s'.outcomes = s.outcomes ∧
        s'.topoDegradedCalls.length = if onTopoDegraded then entries none s.outcomes else 0) ∧
      (s.reconnectCalls = if onReconnect then successes s.outcomes else []) ∧
      ∀ o, s.pc = .returned o →
        s.outcomes.getLast? = some o ∧
        if o = .capped then s.reconnecting = true ∧ s.raw = none else s.reconnecting = false := by
  have ⟨hinv, hflags⟩ := inv_of_run hrun
  have ⟨hdegraded, hdegradedErr, hnotices, hreconnects, _⟩ := hinv.shows
  simp only [view, hpc, Pc.called_of_settled hpc, append_nil]
    at hdegraded hdegradedErr hnotices hreconnects
  refine ⟨?_, ?_, ?_, ?_, ?_, hreconnects, hflags.returned⟩
  . rw [hdegraded, isSome_iff_exists]
    simp only [lastFailure_eq_some_iff]
  . rw [hdegradedErr, hdegraded, isSome_map]
  . intro err herr
    rw [hdegradedErr] at herr
    have ⟨hookErr, _, heq⟩ := map_eq_some_iff.mp herr
    rw [← heq]
    rfl
  . rw [Nat.add_comm, hnotices]
  . refine ⟨_, run_callbacks rfl, rfl, rfl, ?_⟩
    rw [length_append, Nat.add_comm, hnotices]

def barrier (onReconnect : Bool) : Outcome → List Action
  | .succeeded =>
    [.dialed 0, .hook none, .hooksDone, .takeHookErr, .settle] ++
      (if onReconnect then [.onReconnect] else []) ++ [.clear]
  | .failed hookErr => [.dialed 0, .hook (some hookErr), .takeHookErr, .settle, .clear]
  | .capped => [.dialed 0, .takeCap, .takeRaw, .closeRaw]
  | .interrupted => [.dialed 0, .takeCtx, .clear]

def barriers (onReconnect : Bool) (outcomes : List Outcome) : List Action :=
  outcomes.flatMap (fun o => .reconnect :: barrier onReconnect o)

def recoveredRun : List Action :=
  .registerHook :: barriers true
    [.failed Sentinel.notConnected.err, .capped, .failed Sentinel.shutdown.err, .succeeded]

theorem degraded_of_run_recovered
    : ∃ s, Run.run step (fresh true true (some 0)) (recoveredRun ++ [.callback 0]) = some s ∧
        s.pc.settled = [] ∧ s.degraded = false ∧ s.callbacks = [] ∧
        s.topoDegradedCalls.length = entries none s.outcomes ∧
        s.topoDegradedCalls.length = 1 ∧ s.reconnectCalls = [3] := by
  have ⟨s, hrun, heq⟩ := map_eq_some_iff.mp
    (by decide : (Run.run step (fresh true true (some 0)) (recoveredRun ++ [.callback 0])).map
      (fun s => (s.pc.settled, s.degraded, s.callbacks.length, s.topoDegradedCalls.length,
        s.reconnectCalls)) = some ([], false, 0, 1, [3]))
  simp only [Prod.mk.injEq] at heq
  have ⟨_, _, _, hcalls, _⟩ := degraded_of_run hrun heq.1
  rw [heq.2.2.1] at hcalls
  exact ⟨s, hrun, heq.1, heq.2.1, length_eq_zero_iff.mp heq.2.2.1, hcalls, heq.2.2.2.1, heq.2.2.2.2⟩

end State
end RunBarrier
