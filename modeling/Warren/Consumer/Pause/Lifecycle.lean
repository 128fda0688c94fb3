import Warren.Base.Run
import Warren.Consumer.Pause.Moves

namespace Pause

open Function

def Action.quiet : Action → Bool
  | .env .cancelCtx | .env .die | .env .cancelByBroker => false
  | _ => true

namespace PumpPhase

def pastClosed : PumpPhase → Bool
  | .idle | .holding _ => false
  | _ => true

end PumpPhase

namespace State

variable {prefetch : Nat}

-- the subscription that the loop will read once it has taken what waits for it
def target (s : State prefetch) : Nat :=
  s.resubCh.buf.headD s.cur

structure SubOk (active : Option Nat) (next i : Nat) (sub : Sub prefetch) : Prop where
  lt_next : i < next
  open_iff : sub.closed = false ↔ active = some i
  pump : sub.pump.pastClosed → sub.closed = true
  out : sub.out.closed = true → sub.pump = .exited

structure Lifecycle (s : State prefetch) : Prop where
  died : s.died = false
  brokerCancelled : s.brokerCancelled = false
  ctxDone : s.ctxDone = false
  closeCh : s.closeCh.recv = none
  cancelCh : s.cancelCh.recv = none
  subs : ∀ i sub, s.subs i = some sub → SubOk s.active s.next i sub
  target : s.paused = false ∨ s.mu = .pausing ∨ s.mu = .handedOver → s.active = some s.target
  mu : s.mu ≠ .free → s.paused = true
  subscribed : ∀ i, s.mu = .subscribed i → s.active = some i
  sawClosed : s.loop = .sawClosed → ∃ sub, s.subs s.cur = some sub ∧ sub.closed = true
  recovering : s.loop = .recovering → s.resubCh.buf ≠ []
  loop : s.loop ≠ .reopened

theorem Lifecycle.init (concurrency : Nat) : (init prefetch concurrency).Lifecycle := by
  constructor
  case subs =>
    intro i sub hsub
    simp only [State.init, update_apply] at hsub
    split at hsub
    . next hi =>
      cases hsub
      rw [hi]
      constructor <;> simp [State.init, PumpPhase.pastClosed]
    . contradiction
  all_goals simp [State.init, State.target, Chan.recv_eq_none_iff]

variable {s s' : State prefetch} {i : Nat} {sub : Sub prefetch}

theorem Lifecycle.setSub (h : s.Lifecycle) {sub' : Sub prefetch} (hsub : s.subs i = some sub)
    (hclosed : sub'.closed = sub.closed) (hpump : sub'.pump.pastClosed → sub'.closed = true)
    (hout : sub'.out.closed = true → sub'.pump = .exited) : (s.setSub i sub').Lifecycle := by
  have hok := h.subs i sub hsub
  refine ⟨h.died, h.brokerCancelled, h.ctxDone, h.closeCh, h.cancelCh, ?_, h.target, h.mu,
    h.subscribed, ?_, h.recovering, h.loop⟩
  . intro j r hr
    simp only [State.setSub, update_apply] at hr
    split at hr
    . next hj =>
      cases hr
      rw [hj]
      exact ⟨hok.lt_next, hclosed ▸ hok.open_iff, hpump, hout⟩
    . exact h.subs j r hr
  . intro hsaw
    have ⟨r, hr, hrclosed⟩ := h.sawClosed hsaw
    simp only [State.setSub, update_apply]
    split
    . next hcur =>
      rw [hcur, hsub, Option.some.injEq] at hr
      refine ⟨sub', rfl, ?_⟩
      rw [hclosed, hr]
      exact hrclosed
    . exact ⟨r, hr, hrclosed⟩

theorem SubOk.out_open {active : Option Nat} {next : Nat} (h : SubOk active next i sub)
    (hpump : sub.pump ≠ .exited) : sub.out.closed = false := by
  cases hclosed : sub.out.closed with
  | false => rfl
  | true => exact absurd (h.out hclosed) hpump

theorem Lifecycle.pumpGoto (h : s.Lifecycle) {pump : PumpPhase} (hsub : s.subs i = some sub)
    (hexited : sub.pump ≠ .exited) (hclosed : sub.closed = true)
    : (s.pumpGoto i sub pump).Lifecycle := by
  apply h.setSub hsub
  . rfl
  . intro _
    exact hclosed
  . simp [(h.subs i sub hsub).out_open hexited]

theorem Lifecycle.frame (h : s.Lifecycle)
    (hs' : s' = { s with
      loop := s'.loop
      cancelReasonCh := s'.cancelReasonCh
      channelDone := s'.channelDone
      handlers := s'.handlers
      handed := s'.handed
      dispatched := s'.dispatched
      settled := s'.settled
      suppressed := s'.suppressed })
    (hloop : s'.loop = s.loop ∨ s'.loop ∉ [.sawClosed, .recovering, .reopened]) : s'.Lifecycle := by
  have hwas : ∀ phase ∈ [LoopPhase.sawClosed, .recovering, .reopened],
      s'.loop = phase → s.loop = phase := by
    intro phase hphase hs
    cases hloop with
    | inl hloop => exact hloop ▸ hs
    | inr hloop => exact absurd (hs ▸ hphase) hloop
  rw [hs']
  exact ⟨h.died, h.brokerCancelled, h.ctxDone, h.closeCh, h.cancelCh, h.subs, h.target, h.mu,
    h.subscribed, fun hs => h.sawClosed (hwas _ (by simp) hs),
    fun hs => h.recovering (hwas _ (by simp) hs), fun hs => h.loop (hwas _ (by simp) hs)⟩

theorem Lifecycle.pumpStep (h : s.Lifecycle) {a : PumpAction} (hstep : s.pumpStep i a = some s')
    : s'.Lifecycle := by
  have ⟨sub, hsub, hmove⟩ := pumpStep_move hstep
  have hok := h.subs i sub hsub
  cases hmove with
  | take d queue hpump =>
    apply h.setSub hsub
    . rfl
    . simp [PumpPhase.pastClosed]
    . simp [hok.out_open (by simp [hpump])]
  | send d out hpump hsend =>
    rw [Chan.trySend_eq_some_iff] at hsend
    apply h.setSub hsub
    . rfl
    . simp [PumpPhase.pastClosed]
    . simp [hsend.2.2.2, hsend.1]
  | seeClosed hpump _ hclosed => exact h.pumpGoto hsub (by simp [hpump]) hclosed
  | drainClose hpump =>
    simp only [drainClose, h.closeCh]
    exact h.pumpGoto hsub (by simp [hpump]) (hok.pump (by simp [hpump, PumpPhase.pastClosed]))
  | drainCancel death hpump =>
    simp only [drainCancel, h.cancelCh]
    exact h.pumpGoto hsub (by simp [hpump]) (hok.pump (by simp [hpump, PumpPhase.pastClosed]))
  | readPaused death hpump =>
    have hclosed := hok.pump (by simp [hpump, PumpPhase.pastClosed])
    unfold readPaused
    split
    . exact h.pumpGoto hsub (by simp [hpump]) hclosed
    . exact h.setSub hsub (by rfl) (fun _ => hclosed) (fun _ => rfl)
  | closeDone hpump =>
    have hclosed := hok.pump (by simp [hpump, PumpPhase.pastClosed])
    have hset : (s.setSub i { sub with pump := .exited, out := sub.out.close }).Lifecycle :=
      h.setSub hsub rfl (fun _ => hclosed) (fun _ => rfl)
    exact hset.frame rfl (.inl rfl)
  | recvCancel _ _ hrecv => simp [recvCancel, h.cancelCh] at hrecv
  | recvClose _ _ hrecv => simp [recvClose, h.closeCh] at hrecv
  | ctx _ hctx => simp [h.ctxDone] at hctx

theorem Lifecycle.cancelActive_subs (h : s.Lifecycle) (hsub : s.cancelActive.subs i = some sub)
    : ∃ sub', s.subs i = some sub' ∧ sub = { sub' with closed := true } := by
  unfold State.cancelActive at hsub
  split at hsub
  . next hnone =>
    have hok := h.subs i sub hsub
    have hclosed : sub.closed = true := by
      rw [← Bool.not_eq_false, hok.open_iff, hnone]
      simp
    exact ⟨sub, hsub, by rw [← hclosed]⟩
  . next j hj =>
    simp only [update_apply] at hsub
    split at hsub
    . next hi =>
      have ⟨r, hr, heq⟩ := Option.map_eq_some_iff.mp hsub
      rw [hi]
      exact ⟨r, hr, heq.symm⟩
    . next hi =>
      have hok := h.subs i sub hsub
      have hclosed : sub.closed = true := by
        rw [← Bool.not_eq_false, hok.open_iff, hj]
        simpa using Ne.symm hi
      exact ⟨sub, hsub, by rw [← hclosed]⟩

theorem cancelActive_subs_of_some (hsub : s.subs i = some sub)
    : ∃ closed, s.cancelActive.subs i = some { sub with closed } ∧
        (sub.closed = true → closed = true) := by
  unfold cancelActive
  split
  . exact ⟨sub.closed, hsub, id⟩
  . next j hj =>
    simp only [update_apply]
    split
    . next hi =>
      rw [← hi, hsub]
      exact ⟨true, rfl, fun _ => rfl⟩
    . exact ⟨sub.closed, hsub, id⟩

theorem Lifecycle.cancelActive (h : s.Lifecycle) (hpaused : s.paused = true)
    : Lifecycle { s.cancelActive with mu := .free } := by
  rw [cancelActive_eq]
  refine ⟨h.died, h.brokerCancelled, h.ctxDone, h.closeCh, h.cancelCh, ?_, ?_, ?_, ?_, ?_,
    h.recovering, h.loop⟩
  . intro i sub hsub
    have ⟨sub', hsub', heq⟩ := h.cancelActive_subs hsub
    have hok := h.subs i sub' hsub'
    rw [heq]
    exact ⟨hok.lt_next, by simp, fun _ => rfl, hok.out⟩
  . simp [hpaused]
  . simp
  . simp
  . intro hsaw
    have ⟨sub, hsub, hclosed⟩ := h.sawClosed hsaw
    have ⟨closed, hsub', hclosed'⟩ := cancelActive_subs_of_some hsub
    exact ⟨_, hsub', hclosed' hclosed⟩

theorem Lifecycle.resubscribeLocked (h : s.Lifecycle) (hactive : s.active = none)
    (hpaused : s.paused = true) : s.resubscribeLocked.Lifecycle := by
  have hnext : s.subs s.next = none := by
    cases hsub : s.subs s.next with
    | none => rfl
    | some sub => exact absurd (h.subs s.next sub hsub).lt_next (Nat.lt_irrefl _)
  refine ⟨h.died, h.brokerCancelled, h.ctxDone, h.closeCh, h.cancelCh, ?_, ?_, ?_, ?_, ?_,
    h.recovering, h.loop⟩
  . intro i sub hsub
    simp only [State.resubscribeLocked, State.setSub, update_apply] at hsub ⊢
    split at hsub
    . next hi =>
      cases hsub
      rw [hi]
      constructor <;> simp [PumpPhase.pastClosed]
    . have hok := h.subs i sub hsub
      have hlt := hok.lt_next
      refine ⟨by omega, ?_, hok.pump, hok.out⟩
      rw [hok.open_iff, hactive]
      simp only [reduceCtorEq, Option.some.injEq, false_iff]
      omega
  . simp [State.resubscribeLocked, State.setSub, hpaused]
  . intro _
    exact hpaused
  . simp [State.resubscribeLocked]
  . intro hsaw
    have ⟨sub, hsub, hclosed⟩ := h.sawClosed hsaw
    refine ⟨sub, ?_, hclosed⟩
    simp only [State.resubscribeLocked, State.setSub, update_apply]
    split
    . next hcur =>
      rw [hcur, hnext] at hsub
      contradiction
    . exact hsub

theorem Lifecycle.setMu (h : s.Lifecycle) {paused : Bool} {mu : MuPhase}
    (htarget : paused = false ∨ mu = .pausing ∨ mu = .handedOver → s.active = some s.target)
    (hpaused : mu ≠ .free → paused = true) (hmu : ∀ i, mu ≠ .subscribed i)
    : Lifecycle { s with paused, mu } :=
  ⟨h.died, h.brokerCancelled, h.ctxDone, h.closeCh, h.cancelCh, h.subs, htarget, hpaused,
    fun i hi => absurd hi (hmu i), h.sawClosed, h.recovering, h.loop⟩

theorem Lifecycle.resumeSend (h : s.Lifecycle) {resubCh : Chan Nat 1} (hmu : s.mu = .subscribed i)
    (hsend : s.resubCh.trySend i = some resubCh)
    : Lifecycle { s with resubCh, mu := .handedOver } := by
  rw [Chan.trySend_eq_some_iff] at hsend
  have hempty : s.resubCh.buf = [] := List.eq_nil_of_length_eq_zero (by omega)
  rw [hempty, List.nil_append] at hsend
  refine ⟨h.died, h.brokerCancelled, h.ctxDone, h.closeCh, h.cancelCh, h.subs, ?_,
    fun _ => h.mu (by simp [hmu]), by simp, h.sawClosed, ?_, h.loop⟩
  . simp [State.target, hsend.2.2.1, h.subscribed i hmu]
  . simp [hsend.2.2.1]

theorem Lifecycle.muStep (h : s.Lifecycle) {a : MuAction} (hstep : s.muStep a = some s')
    : s'.Lifecycle := by
  cases muStep_move hstep with
  | pauseBegin _ hpaused =>
    have htarget := h.target (.inl hpaused)
    exact h.setMu (fun _ => htarget) (fun _ => rfl) (by simp)
  | cancel hmu => exact h.cancelActive (h.mu (by rcases hmu with hmu | hmu <;> simp [hmu]))
  | pauseErr hmu =>
    have htarget := h.target (.inr (.inl hmu))
    exact h.setMu (fun _ => htarget) (by simp) (by simp)
  | resumeBegin _ hpaused => exact h.setMu (by simp [hpaused]) (fun _ => hpaused) (by simp)
  | resubscribe hmu _ hactive => exact h.resubscribeLocked hactive (h.mu (by simp [hmu]))
  | send i resubCh hmu hsend => exact h.resumeSend hmu hsend
  | clear hmu =>
    have htarget := h.target (.inr (.inr hmu))
    exact h.setMu (fun _ => htarget) (by simp) (by simp)
  | rollback i hmu =>
    have hpaused := h.mu (by simp [hmu])
    exact h.setMu (by simp [hpaused]) (fun _ => hpaused) (by simp)
  | giveUp hmu =>
    have hpaused := h.mu (by rcases hmu with hmu | hmu <;> simp [hmu])
    exact h.setMu (by simp [hpaused]) (by simp) (by simp)

theorem Lifecycle.adopt (h : s.Lifecycle) {resubCh : Chan Nat 1} (hbuf : s.resubCh.buf = [i])
    (hempty : resubCh.buf = []) : Lifecycle { s with cur := i, resubCh, loop := .selecting } := by
  grind [Lifecycle, State.target]

theorem Lifecycle.recvCur (h : s.Lifecycle) {d : Nat} {out : Chan Nat prefetch}
    (hsub : s.subs s.cur = some sub) (hrecv : sub.out.recv = some (some d, out))
    : Lifecycle { s.setSub s.cur { sub with out } with loop := .acquiring d } := by
  rw [Chan.recv_eq_some_some_iff] at hrecv
  have hok := h.subs s.cur sub hsub
  have hset : (s.setSub s.cur { sub with out }).Lifecycle := by
    refine h.setSub hsub rfl hok.pump ?_
    rw [hrecv.2]
    exact hok.out
  exact hset.frame rfl (.inr (by simp))

theorem Lifecycle.seeCurClosed (h : s.Lifecycle) (hsub : s.subs s.cur = some sub)
    (hout : sub.out.closed = true) : Lifecycle { s with loop := .sawClosed } := by
  have hok := h.subs s.cur sub hsub
  have hexited := hok.out hout
  have hclosed := hok.pump (by simp [hexited, PumpPhase.pastClosed])
  exact ⟨h.died, h.brokerCancelled, h.ctxDone, h.closeCh, h.cancelCh, h.subs, h.target, h.mu,
    h.subscribed, fun _ => ⟨sub, hsub, hclosed⟩, by simp, by simp⟩

theorem Lifecycle.resubCh_ne_nil (h : s.Lifecycle) (hsaw : s.loop = .sawClosed)
    (hpaused : s.paused = false) : s.resubCh.buf ≠ [] := by
  have ⟨sub, hsub, hclosed⟩ := h.sawClosed hsaw
  have hactive := h.target (.inl hpaused)
  intro hempty
  have hopen : sub.closed = false := by
    rw [(h.subs s.cur sub hsub).open_iff, hactive]
    simp [State.target, hempty]
  simp [hopen] at hclosed

theorem Lifecycle.readPaused (h : s.Lifecycle) (hsaw : s.loop = .sawClosed)
    : Lifecycle { s with loop := if s.paused then .parked else .recovering } := by
  cases hpaused : s.paused with
  | true => exact h.frame (by simp [hpaused]) (.inr (by simp))
  | false =>
    exact ⟨h.died, h.brokerCancelled, h.ctxDone, h.closeCh, h.cancelCh, h.subs,
      fun _ => h.target (.inl hpaused), fun hmu => hpaused ▸ h.mu hmu, h.subscribed, by simp,
      fun _ => h.resubCh_ne_nil hsaw hpaused, by simp⟩

theorem Lifecycle.loopStep (h : s.Lifecycle) {a : LoopAction} (hstep : s.loopStep a = some s')
    : s'.Lifecycle := by
  cases loopStep_move hstep with
  | adopt i resubCh _ hbuf hempty => exact h.adopt hbuf hempty
  | recv sub d out _ hsub hrecv => exact h.recvCur hsub hrecv
  | acquire | brokerCancel => exact h.frame rfl (.inr (by simp))
  | seeClosed sub _ hsub hout => exact h.seeCurClosed hsub hout
  | readPaused hsaw => exact h.readPaused hsaw
  | reopen hrecovering hbuf => exact absurd hbuf (h.recovering hrecovering)
  | stop _ hctx => simp [h.ctxDone] at hctx

theorem Lifecycle.envStep (h : s.Lifecycle) {a : EnvAction} (ha : (Action.env a).quiet)
    (hstep : s.envStep a = some s') : s'.Lifecycle := by
  cases envStep_move hstep with
  | deliver d i sub _ hsub =>
    have hok := h.subs i sub hsub
    have hset : (s.setSub i { sub with queue := sub.queue ++ [d] }).Lifecycle :=
      h.setSub hsub rfl hok.pump hok.out
    exact hset.frame rfl (.inl rfl)
  | settle | suppress => exact h.frame rfl (.inl rfl)
  | dieStreams hdied => simp [h.died] at hdied
  | cancelByBrokerStream hcancelled => simp [h.brokerCancelled] at hcancelled
  | _ => contradiction

theorem Lifecycle.step (h : s.Lifecycle) {a : Action} (ha : a.quiet) (hstep : s.step a = some s')
    : s'.Lifecycle := by
  cases a with
  | pump i a => exact h.pumpStep hstep
  | mu a => exact h.muStep hstep
  | loop a => exact h.loopStep hstep
  | env a => exact h.envStep ha hstep

end State
end Pause
