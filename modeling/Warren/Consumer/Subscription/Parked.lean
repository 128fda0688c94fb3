import Warren.Consumer.Subscription.Resumed

/-!
A channel that dies while the consumer is paused.
-/

namespace Subscription

open Option

-- the end of the connection or of the ctx of `Consume`
def Action.disrupts : Action → Bool
  | .env .cancelCtx => true
  | .env .closeConn => true
  | .env .socketLost => true
  | _ => false

namespace State

variable {prefetch : Nat}

structure Parked (s : State prefetch) (c : Nat) : Prop where
  paused : s.paused = true
  loop : s.loop = .parked
  mu : s.mu = .free ∨ s.mu = .resuming
  live : s.live = some c
  died : (s.chans c).any (·.died) = true
  ctx : s.ctxDone = false
  connCtx : s.connCtxDone = false
  up : s.up ≠ none
  super : s.super = .watching
  hooks : ∀ b, s.hooks b = none
  resubCh : s.resubCh.buf = []
  reason : s.cancelReasonCh.buf = []
  pumps : ∀ {i sub}, s.subs i = some sub → sub.pump = .exited

variable {s s' : State prefetch} {c : Nat} {cfg : Config}

theorem chanOpen_of_died (h : (s.chans c).any (·.died) = true) : s.chanOpen c = false := by
  cases hch : s.chans c with
  | none => simp [chanOpen, hch]
  | some ch =>
    rw [hch, any_some] at h
    simp [chanOpen, hch, h]

theorem Parked.openStep (h : s.Parked c) (who : Caller) (a : OpenAction)
    : s.openStep who a = none := by
  have hphase : s.openPhase who = none := by
    cases who with
    | loop => simp [openPhase, h.loop]
    | hook b => simp [openPhase, h.hooks b]
  cases a <;> simp [State.openStep, hphase]

theorem Parked.loopStep (h : s.Parked c) (a : LoopAction) : s.loopStep cfg a = none := by
  have hadopt : s.loopAdopt = none := by
    unfold loopAdopt
    split
    . split
      . next i resubCh hrecv =>
        have hbuf := (Chan.recv_eq_some_some_iff.mp hrecv).1
        rw [h.resubCh] at hbuf
        contradiction
      . rfl
    . rfl
  have hcancel : s.loopBrokerCancel = none := by
    unfold loopBrokerCancel
    split
    . split
      . next cancelReasonCh hrecv =>
        have hbuf := (Chan.recv_eq_some_some_iff.mp hrecv).1
        rw [h.reason] at hbuf
        contradiction
      . rfl
    . rfl
  cases a with
  | adopt => exact hadopt
  | brokerCancel => exact hcancel
  | ctxDone => simp [State.loopStep, loopCtxDone, h.ctx]
  | wgWait => simp [State.loopStep, loopWgWait, h.loop]
  | _ => simp [State.loopStep, h.loop]

theorem Parked.pumpStep (h : s.Parked c) (i : Nat) (a : Pause.PumpAction)
    : s.pumpStep i a = none := by
  unfold State.pumpStep
  split
  . next sub ch hsub _ =>
    split
    . have hpump := h.pumps hsub
      cases a <;> simp [Pause.State.pumpStep, pumpView, hpump]
    . rfl
  . rfl

theorem Parked.superStep (h : s.Parked c) (a : SuperAction) : s.superStep a = none := by
  cases a <;> simp [State.superStep, h.super, h.up, h.connCtx]

theorem Parked.muStep (h : s.Parked c) {a : MuAction} (hstep : s.muStep a = some s')
    : s'.Parked c := by
  have hmu := h.mu
  cases muStep_move hstep with
  | pauseBegin hfree => simp [State.muStep, hfree, h.paused] at hstep
  | resumeBegin => exact { h with mu := .inr rfl }
  | resumeConsumeOk c' hresuming hlive hopen =>
    rw [h.live, some.injEq] at hlive
    rw [← hlive, chanOpen_of_died h.died] at hopen
    contradiction
  | resumeConsumeErr => exact { h with mu := .inl rfl }
  | pauseErr hpausing => simp [hpausing] at hmu
  | resumeSend i prevCounter resubCh hswapped | resumeRollback i prevCounter hswapped =>
    simp [hswapped] at hmu
  | resumeClear hhanded => simp [hhanded] at hmu
  | rollbackOk i c' hrolling => simp [hrolling] at hmu
  | _ _ hpausing => simp [hpausing] at hmu

theorem Parked.mapSubs (h : s.Parked c) {f : Sub prefetch → Sub prefetch}
    (hf : ∀ sub, (f sub).pump = sub.pump)
    : Parked { s with subs := fun i => (s.subs i).map f } c := by
  refine { h with pumps := ?_ }
  intro i sub hsub
  have ⟨sub', hsub', heq⟩ := map_eq_some_iff.mp hsub
  rw [← heq, hf]
  exact h.pumps hsub'

theorem Parked.setSub (h : s.Parked c) {i : Nat} {sub sub' : Sub prefetch}
    (hsub : s.subs i = some sub) (hpump : sub'.pump = sub.pump) : (s.setSub i sub').Parked c := by
  refine { h with pumps := ?_ }
  intro j subj hj
  simp only [State.setSub, Function.update_apply] at hj
  split at hj
  . cases hj
    exact hpump.trans (h.pumps hsub)
  . exact h.pumps hj

theorem Parked.setChan (h : s.Parked c) {c' : Nat} {ch ch' : Channel} (hch : s.chans c' = some ch)
    (hdied : ch.died = true → ch'.died = true) : (s.setChan c' ch').Parked c := by
  refine { h with died := ?_ }
  simp only [State.setChan, Function.update_apply]
  split
  . next heq =>
    have hany := h.died
    rw [heq, hch] at hany
    exact hdied hany
  . exact h.died

theorem Parked.envStep (h : s.Parked c) {a : EnvAction} (ha : (Action.env a).disrupts = false)
    (hstep : s.envStep a = some s') : s'.Parked c := by
  cases envStep_move hstep with
  | deliver i d sub hsub =>
    have hparked : (s.setSub i { sub with queue := sub.queue ++ [d] }).Parked c :=
      h.setSub hsub rfl
    exact { hparked with }
  | close => exact { h with }
  | die c' ch closeCh hch => exact h.setChan hch (fun _ => rfl)
  | dieStreams c' ch hch hdied =>
    apply h.mapSubs
    intro sub
    split <;> rfl
  | cancelByBroker c' ch cancelCh hch =>
    have hparked : (s.setChan c' { ch with cancelCh }).Parked c := h.setChan hch id
    apply hparked.mapSubs
    intro sub
    split <;> rfl
  | endStream i sub hsub => exact h.setSub hsub rfl
  | _ => contradiction

theorem Parked.step {a : Action} (h : s.Parked c) (ha : a.disrupts = false)
    (hstep : s.step cfg a = some s') : s'.Parked c := by
  cases a with
  | openDeliveryCh who a =>
    have hnone := h.openStep who a
    rw [show s.openStep who a = some s' from hstep] at hnone
    contradiction
  | loop a =>
    have hnone := @Parked.loopStep _ s c cfg h a
    rw [show s.loopStep cfg a = some s' from hstep] at hnone
    contradiction
  | hook b a =>
    have hhook := h.hooks b
    cases hookStep_move hstep <;> simp_all
  | mu a => exact h.muStep hstep
  | pump i a =>
    have hnone := h.pumpStep i a
    rw [show s.pumpStep i a = some s' from hstep] at hnone
    contradiction
  | handler hd a =>
    rw [handlerMove_eq (handlerStep_move hstep).2]
    exact { h with }
  | super a =>
    have hnone := h.superStep a
    rw [show s.superStep a = some s' from hstep] at hnone
    contradiction
  | env a => exact h.envStep ha hstep

theorem parked_of_run (h : s.Parked c) {bs : List Action} (hbs : ∀ a ∈ bs, a.disrupts = false)
    (hrun : Run.run (State.step cfg) s bs = some s') : s'.Parked c :=
  Run.inv_of_run (I := fun s => s.Parked c) (fun _ _ _ h ha hstep => h.step ha hstep) h
    (Run.along_of_forall_mem (fun a ha _ => hbs a ha) s) hrun

def diedRun : List Action := pausedRun ++ [.env (.die 0)]

theorem stays_paused
    : ∃ s : State 1, Run.run (step plainConsume) (init 1 false) diedRun = some s ∧
        s.closed = false ∧ s.paused = true ∧ s.ctxDone = false ∧ s.up = some 0 ∧
        s.reconnecting = false ∧ s.mu = .free ∧ s.loop = .parked ∧
        ∀ bs s', (∀ a ∈ bs, a.disrupts = false) →
          Run.run (step plainConsume) s bs = some s' → s'.paused = true ∧ s'.loop = .parked := by
  have ⟨s, hrun, hclosed, hpaused, hctx, hup, hrec, hmu, hloop, hlive, hdied, hconn, hsuper,
      hbarrier, hsub, hresub, hreason, hpump⟩ :=
    (by decide : ∃ s ∈ Run.run (step plainConsume) (init 1 false : State 1) diedRun,
      s.closed = false ∧ s.paused = true ∧ s.ctxDone = false ∧ s.up = some 0 ∧
      s.reconnecting = false ∧ s.mu = .free ∧ s.loop = .parked ∧ s.live = some 0 ∧
      (s.chans 0).any (·.died) = true ∧ s.connCtxDone = false ∧ s.super = .watching ∧
      s.nextBarrier = 0 ∧ s.nextSub = 1 ∧ s.resubCh.buf = [] ∧ s.cancelReasonCh.buf = [] ∧
      (s.subs 0).map (·.pump) = some .exited)
  have hwf : s.Wf := Run.inv_of_steps (fun _ _ _ h => wf_step h) (wf_init 1 false) hrun
  have hparked : s.Parked 0 := by
    refine ⟨hpaused, hloop, .inl hmu, hlive, hdied, hctx, hconn, by simp [hup], hsuper, ?_,
      hresub, hreason, ?_⟩
    . intro b
      cases hhook : s.hooks b with
      | none => rfl
      | some run =>
        have hlt := hwf.hook_lt hhook
        omega
    . intro i sub hi
      have hlt := hwf.sub_lt hi
      have hzero : i = 0 := by omega
      rw [← hzero, hi, map_some, some.injEq] at hpump
      exact hpump
  refine ⟨s, hrun, hclosed, hpaused, hctx, hup, hrec, hmu, hloop, ?_⟩
  intro bs s' hbs hrun'
  have h := parked_of_run hparked hbs hrun'
  exact ⟨h.paused, h.loop⟩

end State
end Subscription
