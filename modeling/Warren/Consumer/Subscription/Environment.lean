import Warren.Consumer.Pause.Moves
import Warren.Consumer.Subscription.Impl

namespace Subscription

open CounterB (RedeliveryCounter)
open Dispatch (Verdict Handling)
open Function

def stopping : Pause.PumpPhase → Bool
  | .idle => false
  | .holding _ => false
  | _ => true

structure Received (ch ch' : Chan Unit 1) : Prop where
  closed : ch'.closed = ch.closed
  buf : ch.buf = [] → ch'.buf = []

theorem Received.refl (ch : Chan Unit 1) : Received ch ch := ⟨rfl, id⟩

theorem received_of_recv {ch ch' : Chan Unit 1} {v : Option Unit} (h : ch.recv = some (v, ch'))
    : Received ch ch' ∧ (ch.buf ≠ [] ∨ ch.closed = true) := by
  cases v with
  | none =>
    have ⟨_, hclosed, heq⟩ := Chan.recv_eq_some_none_iff.mp h
    exact ⟨heq ▸ Received.refl ch, .inr hclosed⟩
  | some u =>
    have ⟨hbuf, hclosed⟩ := Chan.recv_eq_some_some_iff.mp h
    refine ⟨⟨hclosed, ?_⟩, .inl (by simp [hbuf])⟩
    intro hnil
    simp [hnil] at hbuf

structure Forwarded (ch ch' : Chan Unit 1) : Prop where
  closed : ch'.closed = ch.closed
  buf : ch'.buf = [] → ch.buf = []

theorem Forwarded.refl (ch : Chan Unit 1) : Forwarded ch ch := ⟨rfl, id⟩

namespace State

variable {prefetch : Nat}

def pumpPut (s : State prefetch) (i : Nat) (sub : Sub prefetch) (ch : Channel)
    (cancelReasonCh : Chan Unit 1) : State prefetch :=
  { s with
    subs := update s.subs i (some sub)
    chans := update s.chans sub.chan (some ch)
    cancelReasonCh }

inductive PumpMove (s : State prefetch) (i : Nat) (sub : Sub prefetch) (ch : Channel)
    : Pause.PumpAction → State prefetch → Prop where
  | take (d : Nat) (queue : List Nat) (hpump : sub.pump = .idle) (hqueue : sub.queue = d :: queue)
    : PumpMove s i sub ch .take
        (s.pumpPut i { sub with queue, pump := .holding d } ch s.cancelReasonCh)
  | send (d : Nat) (out : Chan Nat prefetch) (hpump : sub.pump = .holding d)
    (hsend : sub.out.trySend d = some out)
    : PumpMove s i sub ch .send (s.pumpPut i { sub with out, pump := .idle } ch s.cancelReasonCh)
  | seeClosed (hpump : sub.pump = .idle) (hqueue : sub.queue = []) (hclosed : sub.closed = true)
    : PumpMove s i sub ch .seeClosed
        (s.pumpPut i { sub with pump := .sawClosed } ch s.cancelReasonCh)
  | advance (a : Pause.PumpAction) (pump : Pause.PumpPhase) (out : Chan Nat prefetch)
    (closeCh cancelCh cancelReasonCh : Chan Unit 1) (done : Bool)
    (hpump : stopping sub.pump = true) (hpump' : stopping pump = true)
    (hout : out = sub.out ∨ out = sub.out.close) (hclose : Received ch.closeCh closeCh)
    (hcancel : Received ch.cancelCh cancelCh)
    (hreason : Forwarded s.cancelReasonCh cancelReasonCh)
    : PumpMove s i sub ch a
        (s.pumpPut i { sub with pump, out } { ch with closeCh, cancelCh, done } cancelReasonCh)
  | recvCancel (cancelCh cancelReasonCh : Chan Unit 1) (hpump : sub.pump = .idle)
    (hcancel : Received ch.cancelCh cancelCh)
    (hreason : Forwarded s.cancelReasonCh cancelReasonCh)
    (hready : cancelReasonCh.buf ≠ [] ∨ cancelReasonCh.closed = true ∨ ch.cancelCh.closed = true)
    : PumpMove s i sub ch .recvCancel
        (s.pumpPut i { sub with pump := .closing } { ch with cancelCh } cancelReasonCh)
  | recvClose (closeCh : Chan Unit 1) (hpump : sub.pump = .idle)
    (hclose : Received ch.closeCh closeCh)
    (hready : ch.closeCh.buf ≠ [] ∨ ch.closeCh.closed = true)
    : PumpMove s i sub ch .recvClose
        (s.pumpPut i { sub with pump := .closing } { ch with closeCh } s.cancelReasonCh)
  | ctx (hpump : stopping sub.pump = false) (hctx : s.ctxDone = true)
    : PumpMove s i sub ch .ctx
        (s.pumpPut i { sub with pump := .exited, out := sub.out.close } ch s.cancelReasonCh)

variable {s s' : State prefetch} {i : Nat} {sub : Sub prefetch} {ch : Channel}

variable {v : Pause.State prefetch} {a : Pause.PumpAction}

theorem pumpWrite_eq {toSub : Pause.Sub prefetch} (hv : v.subs i = some toSub)
    : s.pumpWrite i sub ch v =
        s.pumpPut i { sub with toSub }
          { ch with closeCh := v.closeCh, cancelCh := v.cancelCh, done := v.channelDone }
          v.cancelReasonCh := by
  unfold pumpWrite pumpPut
  rw [hv]
  rfl

theorem forwardCancelReason_eq (v : Pause.State prefetch)
    : ∃ cancelReasonCh, v.forwardCancelReason = { v with cancelReasonCh } ∧
        Forwarded v.cancelReasonCh cancelReasonCh ∧
        (cancelReasonCh.buf ≠ [] ∨ cancelReasonCh.closed = true) := by
  unfold Pause.State.forwardCancelReason
  split
  . next hsend =>
    refine ⟨v.cancelReasonCh, rfl, .refl _, ?_⟩
    rw [Chan.trySend_eq_none_iff] at hsend
    cases hsend with
    | inl hclosed => exact .inr hclosed
    | inr hfull =>
      left
      intro hnil
      simp [hnil] at hfull
  . next cancelReasonCh hsend =>
    have ⟨_, _, hbuf, hclosed⟩ := Chan.trySend_eq_some_iff.mp hsend
    exact ⟨cancelReasonCh, rfl, ⟨hclosed, by simp [hbuf]⟩, .inl (by simp [hbuf])⟩

theorem advance_of_goto {pump : Pause.PumpPhase} (hpump : stopping sub.pump = true)
    (hpump' : stopping pump = true) (hclose : Received ch.closeCh v.closeCh)
    (hcancel : Received ch.cancelCh v.cancelCh)
    (hreason : Forwarded s.cancelReasonCh v.cancelReasonCh)
    : s.PumpMove i sub ch a (s.pumpWrite i sub ch (v.pumpGoto i sub.toSub pump)) := by
  rw [pumpWrite_eq (update_self i _ _)]
  exact .advance a pump sub.out v.closeCh v.cancelCh v.cancelReasonCh v.channelDone hpump hpump'
    (.inl rfl) hclose hcancel hreason

theorem advance_of_exit (hpump : stopping sub.pump = true) (hclose : Received ch.closeCh v.closeCh)
    (hcancel : Received ch.cancelCh v.cancelCh)
    (hreason : Forwarded s.cancelReasonCh v.cancelReasonCh)
    : s.PumpMove i sub ch a (s.pumpWrite i sub ch (v.pumpExit i sub.toSub)) := by
  rw [pumpWrite_eq (update_self i _ _)]
  exact .advance a .exited sub.out.close v.closeCh v.cancelCh v.cancelReasonCh v.channelDone hpump
    rfl (.inr rfl) hclose hcancel hreason

theorem drainClose_move (hpump : sub.pump = .sawClosed)
    : s.PumpMove i sub ch .drainClose
        (s.pumpWrite i sub ch ((s.pumpView i sub ch).drainClose i sub.toSub)) := by
  have hstop : stopping sub.pump = true := by rw [hpump]; rfl
  unfold Pause.State.drainClose
  split
  . exact advance_of_goto hstop rfl (.refl _) (.refl _) (.refl _)
  . next v closeCh hrecv =>
    exact advance_of_goto hstop rfl (received_of_recv hrecv).1 (.refl _) (.refl _)

theorem drainCancel_move {death : Bool} (hpump : sub.pump = .drainedClose death)
    : s.PumpMove i sub ch .drainCancel
        (s.pumpWrite i sub ch ((s.pumpView i sub ch).drainCancel i sub.toSub death)) := by
  have hstop : stopping sub.pump = true := by rw [hpump]; rfl
  unfold Pause.State.drainCancel
  split
  . exact advance_of_goto hstop rfl (.refl _) (.refl _) (.refl _)
  . next cancelCh hrecv =>
    exact advance_of_goto hstop rfl (.refl _) (received_of_recv hrecv).1 (.refl _)
  . next u cancelCh hrecv =>
    have ⟨cancelReasonCh, heq, hreason, _⟩ :=
      forwardCancelReason_eq { s.pumpView i sub ch with cancelCh }
    rw [heq]
    exact advance_of_goto hstop rfl (.refl _) (received_of_recv hrecv).1 hreason

theorem readPaused_move {death : Bool} (hpump : sub.pump = .drainedCancel death)
    : s.PumpMove i sub ch .readPaused
        (s.pumpWrite i sub ch ((s.pumpView i sub ch).readPaused i sub.toSub death)) := by
  have hstop : stopping sub.pump = true := by rw [hpump]; rfl
  unfold Pause.State.readPaused
  split
  . exact advance_of_goto hstop rfl (.refl _) (.refl _) (.refl _)
  . exact advance_of_exit hstop (.refl _) (.refl _) (.refl _)

theorem recvCancel_move (hpump : sub.pump = .idle)
    (hrecv : (s.pumpView i sub ch).recvCancel i sub.toSub = some v)
    : s.PumpMove i sub ch .recvCancel (s.pumpWrite i sub ch v) := by
  unfold Pause.State.recvCancel at hrecv
  split at hrecv
  . contradiction
  . next cancelCh hcancel =>
    cases hrecv
    rw [pumpWrite_eq (update_self i _ _)]
    have hclosed : ch.cancelCh.closed = true := (Chan.recv_eq_some_none_iff.mp hcancel).2.1
    exact .recvCancel cancelCh s.cancelReasonCh hpump (received_of_recv hcancel).1 (.refl _)
      (.inr (.inr hclosed))
  . next u cancelCh hcancel =>
    have ⟨cancelReasonCh, heq, hreason, hready⟩ :=
      forwardCancelReason_eq { s.pumpView i sub ch with cancelCh }
    cases hrecv
    rw [heq, pumpWrite_eq (update_self i _ _)]
    exact .recvCancel cancelCh cancelReasonCh hpump (received_of_recv hcancel).1 hreason
      (hready.imp id .inl)

theorem recvClose_move (hpump : sub.pump = .idle)
    (hrecv : (s.pumpView i sub ch).recvClose i sub.toSub = some v)
    : s.PumpMove i sub ch .recvClose (s.pumpWrite i sub ch v) := by
  unfold Pause.State.recvClose at hrecv
  split at hrecv
  . contradiction
  . next u closeCh hclose =>
    have ⟨hreceived, hready⟩ := received_of_recv hclose
    cases hrecv
    rw [pumpWrite_eq (update_self i _ _)]
    exact .recvClose closeCh hpump hreceived hready

theorem pumpStep_move (hstep : s.pumpStep i a = some s')
    : ∃ sub ch, s.subs i = some sub ∧ s.chans sub.chan = some ch ∧ sub.started = true ∧
        s.PumpMove i sub ch a s' := by
  unfold pumpStep at hstep
  split at hstep
  . next sub ch hsub hch =>
    rw [hsub, Option.bind_some] at hch
    split at hstep
    . next hstarted =>
      refine ⟨sub, ch, hsub, hch, hstarted, ?_⟩
      have ⟨v, hv, hs'⟩ := Option.map_eq_some_iff.mp hstep
      have ⟨toSub, htoSub, hmove⟩ := Pause.State.pumpStep_move hv
      have heq : sub.toSub = toSub := by
        have hview : (s.pumpView i sub ch).subs i = some sub.toSub := by simp [pumpView]
        rw [hview, Option.some.injEq] at htoSub
        exact htoSub
      subst heq
      rw [← hs']
      cases hmove with
      | take d queue hpump hqueue =>
        rw [pumpWrite_eq (update_self i _ _)]
        exact .take d queue hpump hqueue
      | send d out hpump hsend =>
        rw [pumpWrite_eq (update_self i _ _)]
        exact .send d out hpump hsend
      | seeClosed hpump hqueue hclosed =>
        rw [pumpWrite_eq (update_self i _ _)]
        exact .seeClosed hpump hqueue hclosed
      | drainClose hpump => exact drainClose_move hpump
      | drainCancel death hpump => exact drainCancel_move hpump
      | readPaused death hpump => exact readPaused_move hpump
      | closeDone hpump =>
        exact advance_of_exit (by rw [hpump]; rfl) (.refl _) (.refl _) (.refl _)
      | recvCancel v hpump hrecv => exact recvCancel_move hpump hrecv
      | recvClose v hpump hrecv => exact recvClose_move hpump hrecv
      | ctx hpump hctx =>
        rw [pumpWrite_eq (update_self i _ _)]
        refine .ctx ?_ hctx
        cases hpump with
        | inl hidle => rw [hidle]; rfl
        | inr hholding =>
          have ⟨d, hd⟩ := hholding
          rw [hd]
          rfl
    . contradiction
  . contradiction

inductive HandlerMove (cfg : Config) (s : State prefetch) (h : Handler)
    : HandlerAction → State prefetch → Prop where
  | load (hcounted : counted cfg h.d = true) (hcs : h.cs = none)
    : HandlerMove cfg s h .load (s.replaceHandler h { h with cs := some s.counterState })
  | verdict (v : Verdict) (hautoAck : cfg.autoAck = false)
    : HandlerMove cfg s h (.verdict v)
        ((s.sendFrame h.chan h.d v).replaceHandler h { h with resolved := true })
  | finish (handling : Handling) (cs cs' : RedeliveryCounter) (v : Option Verdict)
    (hready : s.handlingReady h handling = true)
    (hdispatch : cfg.consumer.dispatch cs (s.delivery cfg h) cfg.autoAck handling = some (cs', v))
    : HandlerMove cfg s h (.finish handling)
        { (s.useCounter h handling cs').sendVerdict h v with handlers := s.handlers.erase h }

theorem handlerStep_move {cfg : Config} {h : Handler} {a : HandlerAction}
    (hstep : s.handlerStep cfg h a = some s') : h ∈ s.handlers ∧ s.HandlerMove cfg h a s' := by
  unfold handlerStep handlerFinish at hstep
  grind [HandlerMove]

inductive SuperMove (s : State prefetch) : SuperAction → State prefetch → Prop where
  | reconnect (hsuper : s.super = .watching) (hup : s.up = none)
    : SuperMove s .reconnect { s with reconnecting := true, super := .redialing }
  | dial (hsuper : s.super = .redialing)
    : SuperMove s .dial { s with
        raw := some s.nextSocket
        up := some s.nextSocket
        nextSocket := s.nextSocket + 1
        super := .dialed }
  | dialFailed (hsuper : s.super = .redialing)
    : SuperMove s .dialFailed { s with reconnecting := false, super := .exited }
  | runBarrier (hsuper : s.super = .dialed) : SuperMove s .runBarrier s.runBarrier
  | done (b : Nat) (hsuper : s.super = .barrier b)
    : SuperMove s .done { s.cancelHookCtx b with reconnecting := false, super := .watching }
  | cap (b : Nat) (hsuper : s.super = .barrier b)
    : SuperMove s .cap { s.cancelHookCtx b with super := .capped b }
  | capRaw (b : Nat) (hsuper : s.super = .capped b)
    : SuperMove s .capRaw { s with raw := none, super := .closing b }
  | capClose (b : Nat) (hsuper : s.super = .closing b)
    : SuperMove s .capClose { s with up := none, super := .redialing }
  | shutdown (b : Nat) (hsuper : s.super = .barrier b)
    : SuperMove s .shutdown { s.cancelHookCtx b with reconnecting := false, super := .watching }
  | exit (hsuper : s.super = .watching) : SuperMove s .exit { s with up := none, super := .exited }
  | exitRedialing (hsuper : s.super = .redialing)
    : SuperMove s .exit { s with super := .exited }

theorem superStep_move {a : SuperAction} (hstep : s.superStep a = some s') : s.SuperMove a s' := by
  unfold superStep barrierDone at hstep
  grind [SuperMove]

def endStreams (s : State prefetch) (c : Nat) : State prefetch :=
  { s with
    subs := fun i => (s.subs i).map (fun sub =>
      if sub.chan = c then { sub with queue := [], closed := true } else sub) }

def endConsumes (s : State prefetch) (c : Nat) : State prefetch :=
  { s with
    subs := fun i => (s.subs i).map (fun sub =>
      if sub.chan = c then { sub with cancelled := true } else sub) }

inductive EnvMove (s : State prefetch) : EnvAction → State prefetch → Prop where
  | deliver (i d : Nat) (sub : Sub prefetch) (hsub : s.subs i = some sub)
    (hopen : s.chanOpen sub.chan = true) (hcancelled : sub.cancelled = false)
    : EnvMove s (.deliver i d)
        { s.setSub i { sub with queue := sub.queue ++ [d] } with
          pushed := s.pushed ++ [(sub.chan, d)] }
  | cancelCtx : EnvMove s .cancelCtx { s with ctxDone := true }
  | close : EnvMove s .close { s with closed := true }
  | closeConn
    : EnvMove s .closeConn { s with
        connCtxDone := true
        hooks := fun b => (s.hooks b).map (fun run => { run with hookCtxDone := true }) }
  | socketLost : EnvMove s .socketLost { s with up := none }
  | die (c : Nat) (ch : Channel) (closeCh : Chan Unit 1) (hch : s.chans c = some ch)
    : EnvMove s (.die c)
        (s.setChan c
          { ch with died := true, closeCh := closeCh.close, cancelCh := ch.cancelCh.close })
  | dieStreams (c : Nat) (ch : Channel) (hch : s.chans c = some ch) (hdied : ch.died = true)
    : EnvMove s (.dieStreams c) (s.endStreams c)
  | cancelByBroker (c : Nat) (ch : Channel) (cancelCh : Chan Unit 1) (hch : s.chans c = some ch)
    (hclosed : cancelCh.closed = ch.cancelCh.closed)
    : EnvMove s (.cancelByBroker c) ((s.setChan c { ch with cancelCh }).endConsumes c)
  | endStream (i : Nat) (sub : Sub prefetch) (hsub : s.subs i = some sub)
    (hcancelled : sub.cancelled = true)
    : EnvMove s (.endStream i) (s.setSub i { sub with closed := true })

theorem deliver_move {d : Nat} (hstep : s.deliver i d = some s') : s.EnvMove (.deliver i d) s' := by
  grind [EnvMove, deliver]

theorem die_move {c : Nat} (hstep : s.die c = some s') : s.EnvMove (.die c) s' := by
  grind [EnvMove, die]

theorem dieStreams_move {c : Nat} (hstep : s.dieStreams c = some s')
    : s.EnvMove (.dieStreams c) s' := by
  unfold dieStreams at hstep
  split at hstep
  . contradiction
  . next ch hch =>
    split at hstep
    . next hdied =>
      cases hstep
      exact .dieStreams c ch hch hdied
    . contradiction

theorem cancelByBroker_move {c : Nat} (hstep : s.cancelByBroker c = some s')
    : s.EnvMove (.cancelByBroker c) s' := by
  unfold cancelByBroker at hstep
  split at hstep
  . contradiction
  . next ch hch =>
    split at hstep
    . split at hstep
      . contradiction
      . next cancelCh hsend =>
        cases hstep
        exact .cancelByBroker c ch cancelCh hch (Chan.trySend_eq_some_iff.mp hsend).2.2.2
    . contradiction

theorem envStep_move {a : EnvAction} (hstep : s.envStep a = some s') : s.EnvMove a s' := by
  unfold envStep endStream at hstep
  grind [EnvMove, deliver_move, die_move, dieStreams_move, cancelByBroker_move]

end State
end Subscription
