import Warren.Consumer.Dispatch.OneVerdict
import Warren.Rpc.Replier.Confirmed

namespace Replier

open Option
open Dispatch

variable {Body : Type}

namespace State

def Justified (s : State Body) (r : Serving Body) (v : Verdict) : Prop :=
  v = .nack false ∨ v = .ack ∧ s.Confirmed r

structure Unresolved (d : Dispatching) : Prop where
  frames : d.frames = []
  done : d.delivery.done = false
  resolved : d.delivery.resolved = false

inductive Stage (s : State Body) (r : Serving Body) (d : Dispatching) : Prop where
  | arriving (hpc : d.pc = .decoding) (hhandler : d.handler = .notCalled)
    (hdecodes : d.delivery.decodes = true) (hopen : Unresolved d) (hcall : d.calls (some 0) = .idle)
    (hphase : r.phase ≠ .deciding)
  | serving (hpc : d.pc = .waiting) (hhandler : d.handler = .running) (hopen : Unresolved d)
    (hcall : d.calls (some 0) = .idle) (hphase : r.phase ≠ .deciding)
  | deciding (v : Verdict) (hv : s.Justified r v) (hpc : d.pc = .waiting)
    (hhandler : d.handler = .running) (hopen : Unresolved d)
    (hcall : d.calls (some 0) = .checking v ∨ d.calls (some 0) = .swapping v)
    (hphase : r.phase = .deciding)
  | sending (v : Verdict) (hv : s.Justified r v) (hpc : d.pc = .waiting)
    (hhandler : d.handler = .running) (hframes : d.frames = [])
    (hcall : d.calls (some 0) = .sending v) (hphase : r.phase = .deciding)
  | decided (v : Verdict) (hv : s.Justified r v) (hpc : d.pc = .waiting)
    (hhandler : d.handler = .running) (hframes : d.frames = [v])
    (hcall : d.calls (some 0) = .returned) (hphase : r.phase = .deciding)
  | ended (v : Verdict) (hv : s.Justified r v)
    (hpc : d.pc = .waiting ∨ d.pc = .received none ∨ d.pc = .finished)
    (hhandler : d.handler = .returned none) (hframes : d.frames = [v])

structure Answers (s : State Body) (r : Serving Body) : Prop where
  stage : s.Stage r r.dispatch
  idle : ∀ t, t ≠ some 0 → r.dispatch.calls t = .idle

variable {cfg : Config} {s s' : State Body} {i : Nat} {r r' : Serving Body}
  {d d' : Dispatching}

theorem Justified.mono {v : Verdict} (h : s.Justified r v)
    (hconfirmed : s.Confirmed r → s'.Confirmed r') : s'.Justified r' v := by
  cases h with
  | inl hnack => exact .inl hnack
  | inr hack => exact .inr ⟨hack.1, hconfirmed hack.2⟩

theorem Stage.frame (h : s.Stage r d) (hpc : d'.pc = d.pc) (hhandler : d'.handler = d.handler)
    (hdelivery : d'.delivery = d.delivery) (hcalls : d'.calls = d.calls)
    (hframes : d'.frames = d.frames) (hphase : r'.phase = r.phase)
    (hconfirmed : s.Confirmed r → s'.Confirmed r') : s'.Stage r' d' := by
  have hopen' (hopen : Unresolved d) : Unresolved d' :=
    ⟨hframes.trans hopen.frames, hdelivery ▸ hopen.done, hdelivery ▸ hopen.resolved⟩
  cases h with
  | arriving hpc₁ hhandler₁ hdecodes hopen hcall hphase₁ =>
    exact .arriving (hpc.trans hpc₁) (hhandler.trans hhandler₁) (hdelivery ▸ hdecodes) (hopen' hopen)
      (hcalls ▸ hcall) (hphase ▸ hphase₁)
  | serving hpc₁ hhandler₁ hopen hcall hphase₁ =>
    exact .serving (hpc.trans hpc₁) (hhandler.trans hhandler₁) (hopen' hopen) (hcalls ▸ hcall)
      (hphase ▸ hphase₁)
  | deciding v hv hpc₁ hhandler₁ hopen hcall hphase₁ =>
    exact .deciding v (hv.mono hconfirmed) (hpc.trans hpc₁) (hhandler.trans hhandler₁) (hopen' hopen)
      (hcalls ▸ hcall) (hphase.trans hphase₁)
  | sending v hv hpc₁ hhandler₁ hframes₁ hcall hphase₁ =>
    exact .sending v (hv.mono hconfirmed) (hpc.trans hpc₁) (hhandler.trans hhandler₁)
      (hframes.trans hframes₁) (hcalls ▸ hcall) (hphase.trans hphase₁)
  | decided v hv hpc₁ hhandler₁ hframes₁ hcall hphase₁ =>
    exact .decided v (hv.mono hconfirmed) (hpc.trans hpc₁) (hhandler.trans hhandler₁)
      (hframes.trans hframes₁) (hcalls ▸ hcall) (hphase.trans hphase₁)
  | ended v hv hpc₁ hhandler₁ hframes₁ =>
    exact .ended v (hv.mono hconfirmed) (hpc ▸ hpc₁) (hhandler.trans hhandler₁)
      (hframes.trans hframes₁)

theorem Stage.pc_ne {pc : Pc} (h : s.Stage r d) (hpc : d.pc = pc)
    (hne : pc ≠ .decoding ∧ pc ≠ .waiting ∧ pc ≠ .received none ∧ pc ≠ .finished) : False := by
  subst hpc
  cases h with
  | arriving hpc => exact hne.1 hpc
  | serving hpc => exact hne.2.1 hpc
  | ended _ _ hpc =>
    rcases hpc with hpc | hpc | hpc
    . exact hne.2.1 hpc
    . exact hne.2.2.1 hpc
    . exact hne.2.2.2 hpc
  | _ _ _ hpc => exact hne.2.1 hpc

theorem Stage.of_decoding (h : s.Stage r d) (hpc : d.pc = .decoding)
    : d.handler = .notCalled ∧ d.delivery.decodes = true ∧ Unresolved d ∧
        d.calls (some 0) = .idle ∧ r.phase ≠ .deciding := by
  cases h with
  | arriving _ hhandler hdecodes hopen hcall hphase => exact ⟨hhandler, hdecodes, hopen, hcall, hphase⟩
  | serving hpc' => simp [hpc] at hpc'
  | _ _ _ hpc' => simp [hpc] at hpc'

theorem Stage.of_returned (h : s.Stage r d) {handlerErr : Option Err}
    (hhandler : d.handler = .returned handlerErr)
    : handlerErr = none ∧ ∃ v, s.Justified r v ∧ d.frames = [v] := by
  cases h with
  | arriving _ hhandler' => simp [hhandler] at hhandler'
  | serving _ hhandler' => simp [hhandler] at hhandler'
  | ended v hv _ hhandler' hframes =>
    rw [hhandler] at hhandler'
    exact ⟨HandlerPhase.returned.inj hhandler', v, hv, hframes⟩
  | _ _ _ _ hhandler' => simp [hhandler] at hhandler'

theorem Stage.of_received (h : s.Stage r d) {handlerErr : Option Err}
    (hpc : d.pc = .received handlerErr) : handlerErr = none ∧ d.handler = .returned none := by
  cases h with
  | arriving hpc' => simp [hpc] at hpc'
  | serving hpc' => simp [hpc] at hpc'
  | ended v hv hpc' hhandler hframes =>
    simp only [hpc, reduceCtorEq, Pc.received.injEq, or_false, false_or] at hpc'
    exact ⟨hpc', hhandler⟩
  | _ _ _ hpc' => simp [hpc] at hpc'

theorem answers_of_dispatch (h : s.Answers r) {a : StepAction} (hown : ofHandler a = false)
    (hclose : a ≠ .close) (hstep : r.dispatch.step cfg.consumer false a = some d)
    (hentries : s'.entries = s.entries) : s'.Answers { r with dispatch := d } := by
  have hconfirmed : s.Confirmed r → s'.Confirmed { r with dispatch := d } := by
    intro ⟨e, tag, entry, body, hreply, hentry, hsent, hacked⟩
    exact ⟨e, tag, entry, body, hreply, hentries ▸ hentry, hsent, hacked⟩
  have hframe (hpc : d.pc = r.dispatch.pc) (hhandler : d.handler = r.dispatch.handler)
      (hdelivery : d.delivery = r.dispatch.delivery) (hcalls : d.calls = r.dispatch.calls)
      (hframes : d.frames = r.dispatch.frames) : s'.Answers { r with dispatch := d } :=
    ⟨h.stage.frame hpc hhandler hdelivery hcalls hframes rfl hconfirmed, by
      rw [hcalls]
      exact h.idle⟩
  have hends {handlerErr : Option Err} (hreturned : r.dispatch.handler = .returned handlerErr)
      (hpc : d.pc = .received none ∨ d.pc = .finished) (hhandler : d.handler = r.dispatch.handler)
      (hcalls : d.calls = r.dispatch.calls) (hframes : d.frames = r.dispatch.frames)
      : s'.Answers { r with dispatch := d } := by
    have ⟨hnone, v, hv, hframes'⟩ := h.stage.of_returned hreturned
    refine ⟨.ended v (hv.mono hconfirmed) (.inr hpc) (hnone ▸ hhandler.trans hreturned)
      (hframes.trans hframes'), ?_⟩
    rw [hcalls]
    exact h.idle
  have hcall {t : Option Nat} {b : CallAction} (ht : ofHandler (.call t b) = false)
      : r.dispatch.calls t = .idle := by
    cases t with
    | none => exact h.idle none nofun
    | some j => contradiction
  cases Dispatching.step_move hstep with
  | rawNack hpc _ hdecodes => exact absurd (hdecodes (h.stage.of_decoding hpc).2.1).1 (Int.lt_irrefl 0)
  | drop _ hauto | handlerReturns | begin | recvChanDone _ _ hselect | timeout _ _ _ hselect
  | recvHCtx _ _ _ hselect | settle _ _ hconsume | close => contradiction
  | callHandler hpc =>
    have ⟨_, _, hopen, hcall, hphase⟩ := h.stage.of_decoding hpc
    exact ⟨.serving rfl rfl ⟨hopen.frames, hopen.done, hopen.resolved⟩ hcall hphase, h.idle⟩
  | recvHandler hpc hreturned =>
    obtain rfl := (h.stage.of_returned hreturned).1
    exact hends hreturned (.inl rfl) rfl rfl rfl
  | aborted hpc _ herr => exact absurd (h.stage.of_received hpc).1 herr
  | unsettled hpc => exact hends (h.stage.of_received hpc).2 (.inr rfl) rfl rfl rfl
  | settled hpc | timedOut hpc | drained hpc => exact (h.stage.pc_ne hpc (by simp)).elim
  | refused hcall' | checked hcall' | loses hcall' | wins hcall' | sends hcall' =>
    rw [hcall hown] at hcall'
    contradiction
  | channelClose | ctxEnds | handlerTimeout => exact hframe rfl rfl rfl rfl rfl

theorem Stage.of_running (h : s.Stage r d) (hhandler : d.handler = .running)
    (hphase : r.phase ≠ .deciding) : d.pc = .waiting ∧ Unresolved d ∧ d.calls (some 0) = .idle := by
  cases h with
  | arriving _ hhandler' | ended _ _ _ hhandler' => simp [hhandler] at hhandler'
  | serving hpc _ hopen hcall => exact ⟨hpc, hopen, hcall⟩
  | _ _ _ _ _ _ _ hphase' => exact absurd hphase' hphase

theorem Answers.goto (h : s.Answers r) (hrunning : r.dispatch.handler = .running)
    (hphase : r.phase ≠ .deciding) (hdispatch : r'.dispatch = r.dispatch)
    (hphase' : r'.phase ≠ .deciding) : s'.Answers r' := by
  have ⟨hpc, hopen, hcall⟩ := h.stage.of_running hrunning hphase
  refine ⟨?_, ?_⟩
  . rw [hdispatch]
    exact .serving hpc hrunning hopen hcall hphase'
  . rw [hdispatch]
    exact h.idle

theorem Stage.of_deciding (h : s.Stage r d) (hhandler : d.handler = .running)
    (hphase : r.phase = .deciding)
    : d.pc = .waiting ∧ ∃ v, s.Justified r v ∧
        (Unresolved d ∧ (d.calls (some 0) = .checking v ∨ d.calls (some 0) = .swapping v) ∨
          d.frames = [] ∧ d.calls (some 0) = .sending v ∨
          d.frames = [v] ∧ d.calls (some 0) = .returned) := by
  cases h with
  | arriving _ hhandler' | ended _ _ _ hhandler' => simp [hhandler] at hhandler'
  | serving _ _ _ _ hphase' => exact absurd hphase hphase'
  | deciding v hv hpc _ hopen hcall => exact ⟨hpc, v, hv, .inl ⟨hopen, hcall⟩⟩
  | sending v hv hpc _ hframes hcall => exact ⟨hpc, v, hv, .inr (.inl ⟨hframes, hcall⟩)⟩
  | decided v hv hpc _ hframes hcall => exact ⟨hpc, v, hv, .inr (.inr ⟨hframes, hcall⟩)⟩

theorem idle_setCall (h : ∀ t, t ≠ some 0 → d.calls t = .idle) (call : VerdictCall)
    {t : Option Nat} (ht : t ≠ some 0) : (d.setCall (some 0) call).calls t = .idle := by
  rw [Dispatching.calls_setCall, if_neg ht]
  exact h t ht

theorem call_setCall (d : Dispatching) (call : VerdictCall)
    : (d.setCall (some 0) call).calls (some 0) = call := by
  rw [Dispatching.calls_setCall, if_pos rfl]

theorem Answers.decide (h : s.Answers r) (hrunning : r.dispatch.handler = .running)
    (hphase : r.phase ≠ .deciding) {v : Verdict}
    (hstep : r.dispatch.step cfg.consumer false (.begin 0 v) = some d)
    (hv : s'.Justified { r with dispatch := d, phase := .deciding } v)
    : s'.Answers { r with dispatch := d, phase := .deciding } := by
  have ⟨hpc, hopen, hcall⟩ := h.stage.of_running hrunning hphase
  cases Dispatching.step_move hstep with
  | begin =>
    refine ⟨?_, fun _ => idle_setCall h.idle _⟩
    exact .deciding v hv hpc hrunning ⟨hopen.frames, hopen.done, hopen.resolved⟩
      (.inl (call_setCall _ _)) rfl

theorem Answers.verdict (h : s.Answers r) (hrunning : r.dispatch.handler = .running)
    (hphase : r.phase = .deciding) {a : CallAction}
    (hstep : r.dispatch.step cfg.consumer false (.call (some 0) a) = some d)
    (hconfirmed : s.Confirmed r → s'.Confirmed { r with dispatch := d, phase := .deciding })
    : s'.Answers { r with dispatch := d, phase := .deciding } := by
  have ⟨hpc, v, hv, hstage⟩ := h.stage.of_deciding hrunning hphase
  have hv' := hv.mono hconfirmed
  cases Dispatching.step_move hstep with
  | refused hcall hdone =>
    rcases hstage with ⟨hopen, _⟩ | ⟨_, hcall'⟩ | ⟨_, hcall'⟩
    . simp [hopen.done] at hdone
    all_goals simp [hcall] at hcall'
  | @checked _ v₁ hcall =>
    rcases hstage with ⟨hopen, hcall' | hcall'⟩ | ⟨_, hcall'⟩ | ⟨_, hcall'⟩
    . obtain rfl : v₁ = v := by simpa [hcall] using hcall'
      refine ⟨?_, fun _ => idle_setCall h.idle _⟩
      exact .deciding v₁ hv' hpc hrunning ⟨hopen.frames, hopen.done, hopen.resolved⟩
        (.inr (call_setCall _ _)) rfl
    all_goals simp [hcall] at hcall'
  | loses hcall hresolved =>
    rcases hstage with ⟨hopen, _⟩ | ⟨_, hcall'⟩ | ⟨_, hcall'⟩
    . simp [hopen.resolved] at hresolved
    all_goals simp [hcall] at hcall'
  | @wins _ v₁ hcall =>
    rcases hstage with ⟨hopen, hcall' | hcall'⟩ | ⟨_, hcall'⟩ | ⟨_, hcall'⟩
    . simp [hcall] at hcall'
    . obtain rfl : v₁ = v := by simpa [hcall] using hcall'
      refine ⟨?_, fun _ => idle_setCall h.idle _⟩
      exact .sending v₁ hv' hpc hrunning hopen.frames (call_setCall r.dispatch _) rfl
    all_goals simp [hcall] at hcall'
  | @sends _ v₁ hcall =>
    rcases hstage with ⟨_, hcall' | hcall'⟩ | ⟨hframes, hcall'⟩ | ⟨_, hcall'⟩
    . simp [hcall] at hcall'
    . simp [hcall] at hcall'
    . obtain rfl : v₁ = v := by simpa [hcall] using hcall'
      refine ⟨?_, fun _ => idle_setCall h.idle _⟩
      exact .decided v₁ hv' hpc hrunning (by simp [hframes])
        (call_setCall r.dispatch _) rfl
    . simp [hcall] at hcall'

theorem Answers.returnNil (h : s.Answers r) (hrunning : r.dispatch.handler = .running)
    (hphase : r.phase = .deciding) (hcall : r.dispatch.calls (some 0) = .returned)
    (hstep : r.dispatch.step cfg.consumer false (.handlerReturns none) = some d)
    (hconfirmed : s.Confirmed r → s'.Confirmed { r with dispatch := d, phase := .ended })
    : s'.Answers { r with dispatch := d, phase := .ended } := by
  have ⟨hpc, v, hv, hstage⟩ := h.stage.of_deciding hrunning hphase
  rcases hstage with ⟨_, hcall' | hcall'⟩ | ⟨_, hcall'⟩ | ⟨hframes, _⟩
  . simp [hcall] at hcall'
  . simp [hcall] at hcall'
  . simp [hcall] at hcall'
  . cases Dispatching.step_move hstep with
    | handlerReturns => exact ⟨.ended v (hv.mono hconfirmed) (.inl hpc) rfl hframes, h.idle⟩

theorem ne_deciding_of_plain {p : Phase Body} (h : p.plain = true) : p ≠ .deciding := by
  rintro rfl
  contradiction

variable {a : HandlerAction Body}

theorem answers_of_handlerMove (hplaced : s.Placed) (h : s.Answers r) (hr : s.requests[i]? = some r)
    (hrunning : r.dispatch.handler = .running) (ha : a ≠ .panics)
    (hmove : s.HandlerMove cfg i r a s') (hr' : s'.requests[i]? = some r') : s'.Answers r' := by
  have hself {q : Serving Body} (hset : (s.requests.set i q)[i]? = some r') : q = r' :=
    some.inj ((Procs.getElem?_set_of_eq_some hr q).symm.trans hset)
  have hplaces := hplaced.requests hr
  cases hmove with
  | pass a p hbefore hplain =>
    rw [← hself hr']
    exact h.goto hrunning (ne_deciding_of_plain hbefore) rfl (ne_deciding_of_plain hplain)
  | panic => contradiction
  | lock body hphase | openFails body hphase | opened body hphase | ensured _ _ body hphase
  | registerFails _ _ _ _ hphase | registered _ _ _ _ hphase | published _ _ _ _ hphase
  | publishFails _ _ _ _ _ hphase | confirmed _ _ _ _ _ _ _ hphase
  | unconfirmed _ _ _ _ _ hphase =>
    rw [← hself hr']
    exact h.goto hrunning (by simp [hphase]) rfl nofun
  | waits e tag w entry entry' hphase =>
    have heq : r = r' := some.inj (hr.symm.trans hr')
    exact h.goto hrunning (by simp [hphase]) (by rw [heq]) (by simp [← heq, hphase])
  | decide a v d n hphase hstep =>
    rw [← hself hr']
    refine h.decide hrunning ?_ hstep ?_
    . rcases hphase with ⟨hp, _⟩ | ⟨hp, _⟩ <;> simp [hp]
    . rcases hphase with ⟨_, hnack⟩ | ⟨hp, hack⟩
      . exact .inl hnack
      . exact .inr ⟨hack, hplaces.confirmed hp⟩
  | verdict a d hphase hstep =>
    rw [← hself hr']
    exact h.verdict hrunning hphase hstep id
  | returnNil d hphase hcall hstep =>
    rw [← hself hr']
    exact h.returnNil hrunning hphase hcall hstep id

theorem requests_of_handlerMove {j : Nat} (hne : j ≠ i)
    (hmove : s.HandlerMove cfg i r a s') : s'.requests[j]? = s.requests[j]? := by
  cases hmove with
  | waits => rfl
  | _ => exact List.getElem?_set_ne (Ne.symm hne)

-- no user function panics on request `i`, and the consumer is not closed
def settles (i : Nat) : Action Body → Bool
  | .handler j .panics => j ≠ i
  | .dispatch j .close => j ≠ i
  | _ => true

def Request.Served (request : Request) : Prop :=
  request.delivery.decodes = true ∧ request.delivery.done = false

def Answered (i : Nat) (s : State Body) : Prop :=
  ∀ r, s.requests[i]? = some r → Request.Served r.request → s.Answers r

theorem Answers.grows (h : s.Answers r) (hplaces : s.Places i r) (hgrows : s.Grows s')
    : s'.Answers r :=
  ⟨h.stage.frame rfl rfl rfl rfl rfl rfl (hplaces.confirmed_of_grows hgrows), h.idle⟩

theorem request_of_handlerMove (hr : s.requests[i]? = some r) (hmove : s.HandlerMove cfg i r a s')
    (hr' : s'.requests[i]? = some r') : r'.request = r.request := by
  have hself {q : Serving Body} (hset : (s.requests.set i q)[i]? = some r') : q = r' :=
    some.inj ((Procs.getElem?_set_of_eq_some hr q).symm.trans hset)
  cases hmove with
  | waits => rw [some.inj (hr.symm.trans hr')]
  | _ => rw [← hself hr']

theorem answered_step (hplaced : s.Placed) (h : s.Answered i) {a : Action Body}
    (ha : settles i a = true) (hstep : s.step cfg a = some s') : s'.Answered i := by
  have hgrows : s.Grows s' := (placed_step hplaced hstep).1
  have hsame {r : Serving Body} (hr : s.requests[i]? = some r) (hserved : Request.Served r.request)
      : s'.Answers r :=
    (h r hr hserved).grows (hplaced.requests hr) hgrows
  intro r hr hserved
  cases step_move hstep with
  | deliver request chanDone ctx =>
    rcases Procs.getElem?_concat_eq_some hr with ⟨_, hnew⟩ | hold
    . subst hnew
      exact ⟨.arriving rfl rfl hserved.1 ⟨rfl, hserved.2, rfl⟩ rfl nofun, fun _ _ => rfl⟩
    . exact hsame hold hserved
  | dispatch j r₁ b d hr₁ hown hb =>
    rcases Procs.getElem?_set_eq_some hr with ⟨heq, hnew⟩ | ⟨_, hold⟩
    . subst heq hnew
      have hclose : b ≠ .close := by
        rintro rfl
        simp [settles] at ha
      exact answers_of_dispatch (h r₁ hr₁ hserved) hown hclose hb rfl
    . exact hsame hold hserved
  | handler j r₁ b _ hr₁ hrunning hmove =>
    by_cases heq : i = j
    . subst heq
      have hrequest := request_of_handlerMove hr₁ hmove hr
      have hpanics : b ≠ .panics := by
        rintro rfl
        simp [settles] at ha
      exact answers_of_handlerMove hplaced (h r₁ hr₁ (hrequest ▸ hserved)) hr₁ hrunning hpanics hmove hr
    . rw [requests_of_handlerMove heq hmove] at hr
      exact hsame hr hserved
  | track | closeCh | closePublisher => exact hsame hr hserved

/--
Every request has one verdict when its handler has returned, and an Ack is for a reply that the
broker has confirmed by then, in every run in which no user function panics on the request.
-/
theorem answered_of_run {as : List (Action Body)}
    (hsettles : Run.Along (step cfg) (fun _ a => settles i a = true) init as)
    (hrun : Run.run (step cfg) init as = some s) (hr : s.requests[i]? = some r)
    (hdecodes : r.request.delivery.decodes = true) (hdone : r.request.delivery.done = false)
    : r.dispatch.frames.length ≤ 1 ∧
        ∀ handlerErr, r.dispatch.handler = .returned handlerErr →
          r.dispatch.frames = [.nack false] ∨ r.dispatch.frames = [.ack] ∧ s.Confirmed r := by
  have hinv : s.Placed ∧ s.Answered i := by
    refine Run.inv_of_run (I := fun s => Placed s ∧ Answered i s) ?_ ⟨placed_init, ?_⟩ hsettles hrun
    . intro s a s' h ha hstep
      exact ⟨(placed_step h.1 hstep).2, answered_step h.1 h.2 ha hstep⟩
    . intro r hr
      contradiction
  have hanswers := hinv.2 r hr ⟨hdecodes, hdone⟩
  refine ⟨?_, ?_⟩
  . cases hanswers.stage with
    | arriving _ _ _ hopen | serving _ _ hopen | deciding _ _ _ _ hopen => simp [hopen.frames]
    | _ _ _ _ _ hframes => simp [hframes]
  . intro handlerErr hreturned
    have ⟨_, v, hv, hframes⟩ := hanswers.stage.of_returned hreturned
    rcases hv with hnack | ⟨hack, hconfirmed⟩
    . exact .inl (hnack ▸ hframes)
    . exact .inr ⟨hack ▸ hframes, hconfirmed⟩

def exampleConfig : Config := ⟨[7], true, true, 30⟩

def exampleRequest : Request := ⟨⟨[1], 1, true, 0, false, false⟩, "reply", "c1"⟩

def confirmedRun : List (Action Nat) :=
  [.deliver exampleRequest false none, .dispatch 0 .decode, .handler 0 .returns,
    .handler 0 (.encoded 5), .handler 0 .lock, .handler 0 (.ensureEntry true), .handler 0 .register,
    .handler 0 (.publish true), .handler 0 (.wait .begin), .confirm 0 1 false true,
    .handler 0 (.wait .done), .handler 0 (.wait .delete), .handler 0 .ack,
    .handler 0 (.verdict .check), .handler 0 (.verdict .swap), .handler 0 (.verdict .send),
    .handler 0 .returnNil, .dispatch 0 .recvHandler, .dispatch 0 .checkChan]

theorem answered_of_run_confirmed
    : ∃ (s : State Nat) (r : Serving Nat),
        Run.run (step exampleConfig) init confirmedRun = some s ∧ s.requests[0]? = some r ∧
        r.dispatch.frames = [.ack] ∧ r.dispatch.pc = .finished ∧ r.dispatch.frames.length ≤ 1 := by
  have hmap : (Run.run (step exampleConfig) (init : State Nat) confirmedRun).bind
      (fun s => s.requests[0]?.map (fun r => (r.request, r.dispatch.frames, r.dispatch.pc))) =
        some (exampleRequest, [.ack], .finished) := by decide
  have ⟨s, hrun, hs⟩ := bind_eq_some_iff.mp hmap
  have ⟨r, hr, heq⟩ := map_eq_some_iff.mp hs
  simp only [Prod.mk.injEq] at heq
  have halong : Run.Along (step exampleConfig) (fun _ a => settles 0 a = true)
      (init : State Nat) confirmedRun := by decide
  exact ⟨s, r, hrun, hr, heq.2.1, heq.2.2,
    (answered_of_run halong hrun hr (by rw [heq.1]; rfl) (by rw [heq.1]; rfl)).1⟩

def panickingRun : List (Action Nat) :=
  [.deliver exampleRequest false none, .dispatch 0 .decode, .handler 0 .panics,
    .dispatch 0 .recvHandler, .dispatch 0 .checkChan]

def reportingRun : List (Action Nat) :=
  [.deliver exampleRequest false none, .dispatch 0 .decode, .handler 0 .fails, .handler 0 .panics,
    .dispatch 0 .recvHandler, .dispatch 0 .checkChan]

theorem unanswered_after_panic
    : (Run.run (step exampleConfig) (init : State Nat) panickingRun).bind
          (fun s => s.requests[0]?.map (fun r => (r.dispatch.frames, r.dispatch.pc))) =
        some ([], .finished) ∧
      (Run.run (step exampleConfig) (init : State Nat) reportingRun).bind
          (fun s => s.requests[0]?.map (fun r => (r.dispatch.frames, r.dispatch.pc))) =
        some ([], .finished) := by
  constructor
  . decide
  . decide

end State
end Replier
