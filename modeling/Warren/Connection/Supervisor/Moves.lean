import Warren.Connection.Supervisor.Impl

namespace Supervisor
namespace State

inductive Move (s : State) : Action → State → Prop where
  | readRawSome (hpc : s.pc = .top) (hraw : s.raw.isSome)
    : Move s .readRaw { s with pc := .notifyBlocked }
  | readRawRedial (hpc : s.pc = .top) (hraw : s.raw = none)
      (hredial : s.bootDegraded = true ∨ s.reconnecting = true) (hctx : s.ctxDone = false)
    : Move s .readRaw { s with pc := .reconnect }
  | readRawExit (hpc : s.pc = .top) (hraw : s.raw = none)
      (hexit : s.bootDegraded = true ∨ s.reconnecting = true → s.ctxDone = true)
    : Move s .readRaw { s with pc := .exited }
  | notifyBlocked (hpc : s.pc = .notifyBlocked) {ch : Chan Bool 2}
      (hch : s.raw.bind registered = some ch)
    : Move s .notifyBlocked { s with blockedCh := some ch, pc := .notifyClose }
  | notifyClose (hpc : s.pc = .notifyClose) {ch : Chan Unit 1}
      (hch : s.raw.bind registered = some ch)
    : Move s .notifyClose { s with closeCh := some ch, blockedSince := false, pc := .watch }
  | watchCtx (hpc : s.pc = .watch) (hctx : s.ctxDone = true)
    : Move s .watchCtx { s.closeRaw with pc := .exited }
  | watchBlockedClosed (hpc : s.pc = .watch) {ch : Chan Bool 2}
      (hrecv : s.blockedCh.bind Chan.recv = some (none, ch))
    : Move s .watchBlocked { s with pc := .reconnect }
  | watchBlocked (hpc : s.pc = .watch) {ch : Chan Bool 2}
      (hrecv : s.blockedCh.bind Chan.recv = some (some true, ch))
    : Move s .watchBlocked
        { s with blockedCh := some ch, blockedSince := true, blocked := true }
  | watchUnblocked (hpc : s.pc = .watch) {ch : Chan Bool 2}
      (hrecv : s.blockedCh.bind Chan.recv = some (some false, ch)) (hsince : s.blockedSince = true)
    : Move s .watchBlocked
        { s with blockedCh := some ch, blockedSince := false, blocked := false }
  | watchUnblockedStale (hpc : s.pc = .watch) {ch : Chan Bool 2}
      (hrecv : s.blockedCh.bind Chan.recv = some (some false, ch))
      (hsince : s.blockedSince = false)
    : Move s .watchBlocked { s with blockedCh := some ch }
  | watchCloseClosed (hpc : s.pc = .watch) {ch : Chan Unit 1}
      (hrecv : s.closeCh.bind Chan.recv = some (none, ch))
    : Move s .watchClose { s with pc := .exited }
  | watchCloseCtx (hpc : s.pc = .watch) {ch : Chan Unit 1}
      (hrecv : s.closeCh.bind Chan.recv = some (some (), ch)) (hctx : s.ctxDone = true)
    : Move s .watchClose { s with closeCh := some ch, pc := .exited }
  | watchClose (hpc : s.pc = .watch) {ch : Chan Unit 1}
      (hrecv : s.closeCh.bind Chan.recv = some (some (), ch)) (hctx : s.ctxDone = false)
    : Move s .watchClose { s with closeCh := some ch, pc := .reconnect }
  | watchForce (hpc : s.pc = .watch) {ch : Chan Unit 1}
      (hrecv : s.forceReconnectCh.recv = some (some (), ch))
    : Move s .watchForce { { s with forceReconnectCh := ch }.closeRaw with pc := .reconnect }
  | enterReconnectExit (hpc : s.pc = .reconnect) (hctx : s.ctxDone = true)
    : Move s .enterReconnect { s with pc := .exited }
  | enterReconnect (hpc : s.pc = .reconnect) (hctx : s.ctxDone = false)
    : Move s .enterReconnect { s with blocked := false, reconnecting := true, pc := .dialing 0 }
  | dialOk {attempt : Nat} (hpc : s.pc = .dialing attempt)
    : Move s .dialOk
        { s with raw := some .connected, blockedCh := none, closeCh := none, pc := .dialed true }
  | dialErrStop {attempt : Nat} (hpc : s.pc = .dialing attempt)
      (hstop : s.ctxDone = true ∨ 0 < s.maxRetries ∧ s.maxRetries ≤ attempt + 1)
    : Move s .dialErr { s with pc := .dialed false }
  | dialErr {attempt : Nat} (hpc : s.pc = .dialing attempt) (hctx : s.ctxDone = false)
    : Move s .dialErr { s with pc := .backoff (attempt + 1) }
  | backoffTimer {attempt : Nat} (hpc : s.pc = .backoff attempt)
    : Move s .backoffTimer { s with pc := .dialing attempt }
  | backoffCtx {attempt : Nat} (hpc : s.pc = .backoff attempt) (hctx : s.ctxDone = true)
    : Move s .backoffCtx { s with pc := .dialed false }
  | reconnected (hpc : s.pc = .dialed true)
    : Move s .reconnectRawReturn { s with lastConnected := some true, pc := .barrier }
  | exhausted (hpc : s.pc = .dialed false)
    : Move s .reconnectRawReturn
        { s with lastConnected := some false, reconnecting := false, pc := .exited }
  | barrierDone (hpc : s.pc = .barrier)
    : Move s .barrierDone { s with reconnecting := false, pc := .top }
  | barrierShutdown (hpc : s.pc = .barrier) (hctx : s.ctxDone = true)
    : Move s .barrierShutdown { s with reconnecting := false, pc := .top }
  | barrierCap (hpc : s.pc = .barrier)
    : Move s .barrierCap { s with raw := none, pc := .top }
  | cancel
    : Move s .cancel { s with ctxDone := true }
  | forceReconnect (ch : Chan Unit 1)
    : Move s .forceReconnect { s with forceReconnectCh := ch }
  | brokerBlocked {active : Bool} {ch ch' : Chan Bool 2} (hraw : s.raw = some .connected)
      (hch : s.blockedCh = some ch) (hsend : ch.trySend active = some ch')
    : Move s (.brokerBlocked active) { s with blockedCh := some ch' }
  | socketFails {closeCh : Option (Chan Unit 1)} (hraw : s.raw = some .connected)
      (hclose : ∀ ch, s.closeCh = some ch → ∃ ch', ch.trySend () = some ch' ∧ closeCh = some ch')
    : Move s .socketFails { s with raw := some .failing, closeCh }
  | socketGone (hraw : s.raw = some .failing)
    : Move s .socketGone s.closeRaw

variable {s s' : State}

theorem readRaw_move (hpc : s.pc = .top) : s.Move .readRaw s.readRaw := by
  grind [Move, readRaw]

theorem watchBlocked_move (hpc : s.pc = .watch) (hstep : s.watchBlocked = some s')
    : s.Move .watchBlocked s' := by
  grind [Move, watchBlocked]

theorem watchClose_move (hpc : s.pc = .watch) (hstep : s.watchClose = some s')
    : s.Move .watchClose s' := by
  grind [Move, watchClose]

theorem dialErr_move {attempt : Nat} (hpc : s.pc = .dialing attempt)
    : s.Move .dialErr (s.dialErr attempt) := by
  grind [Move, dialErr]

theorem step_move {a : Action} (hstep : s.step a = some s') : s.Move a s' := by
  unfold step at hstep
  split at hstep
  . next hpc =>
    cases hstep
    exact readRaw_move hpc
  . next hpc =>
    unfold State.notifyBlocked at hstep
    split at hstep
    . contradiction
    . next hch =>
      cases hstep
      exact .notifyBlocked hpc hch
  . next hpc =>
    unfold State.notifyClose at hstep
    split at hstep
    . contradiction
    . next hch =>
      cases hstep
      exact .notifyClose hpc hch
  . next hpc =>
    split at hstep
    . next hctx =>
      cases hstep
      exact .watchCtx hpc hctx
    . contradiction
  . next hpc => exact watchBlocked_move hpc hstep
  . next hpc => exact watchClose_move hpc hstep
  . next hpc =>
    unfold State.watchForce at hstep
    split at hstep
    . next hrecv =>
      cases hstep
      exact .watchForce hpc hrecv
    . contradiction
  . next hpc =>
    cases hstep
    unfold State.enterReconnect
    split
    . next hctx => exact .enterReconnectExit hpc hctx
    . next hctx => exact .enterReconnect hpc (by simpa using hctx)
  . next hpc =>
    cases hstep
    exact .dialOk hpc
  . next hpc =>
    cases hstep
    exact dialErr_move hpc
  . next hpc =>
    cases hstep
    exact .backoffTimer hpc
  . next hpc =>
    split at hstep
    . next hctx =>
      cases hstep
      exact .backoffCtx hpc hctx
    . contradiction
  . next connected hpc =>
    cases hstep
    cases connected with
    | true => exact .reconnected hpc
    | false => exact .exhausted hpc
  . next hpc =>
    cases hstep
    exact .barrierDone hpc
  . next hpc =>
    split at hstep
    . next hctx =>
      cases hstep
      exact .barrierShutdown hpc hctx
    . contradiction
  . next hpc =>
    cases hstep
    exact .barrierCap hpc
  . cases hstep
    exact .cancel
  . split at hstep
    . cases hstep
      exact .forceReconnect _
    . cases hstep
      exact .forceReconnect _
  . split at hstep
    . next ch hraw hch =>
      split at hstep
      . next hsend =>
        cases hstep
        exact .brokerBlocked hraw hch hsend
      . contradiction
    . contradiction
  . split at hstep
    . next hraw hnone =>
      cases hstep
      exact .socketFails hraw (by simp [hnone])
    . next ch hraw hch =>
      split at hstep
      . next ch' hsend =>
        cases hstep
        refine .socketFails hraw ?_
        intro c hc
        rw [hch, Option.some.injEq] at hc
        exact ⟨ch', hc ▸ hsend, rfl⟩
      . contradiction
    . contradiction
  . split at hstep
    . next hraw =>
      cases hstep
      exact .socketGone hraw
    . contradiction
  . contradiction

end State
end Supervisor
