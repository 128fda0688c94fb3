import Warren.Consumer.Subscription.Custody

/-!
What becomes of the deliveries when the ctx of `Consume` ends.
-/

namespace Subscription

open Dispatch (Verdict Handling)
open Function List Option
open Dispatch

def LoopPhase.waited : LoopPhase → Bool
  | .cancelling => true
  | .cancelSent _ => true
  | .draining => true
  | _ => false

def LoopPhase.acquires : LoopPhase → Bool
  | .acquiring _ _ => true
  | _ => false

variable {prefetch : Nat}

namespace State

def settles (cfg : Config) (s : State prefetch) : Handling → Bool
  | .returned handlerErr channelClosed =>
    cfg.autoAck ∧ s.closed = false ∧ ¬(channelClosed ∧ handlerErr ≠ none)
  | .deadline => true
  | _ => false

-- no dispatch ends without a verdict, and `runConsume` leaves no subscription behind
def strandsNothing (cfg : Config) (s : State prefetch) : Action → Bool
  | .loop .drainDefault => s.cur.all s.settled ∧ s.handedOver
  | .loop .drainClosed => s.handedOver
  | .loop .drainErr => s.handedOver
  | .loop .wgWait => s.loop = .recoverStop → s.handedOver
  | .handler h (.finish handling) =>
    s.chanOpen h.chan = false ∨ h.resolved ∨ ¬reachesHandler cfg h.d ∨ s.settles cfg handling
  | _ => true

def Framed (s : State prefetch) (d : Nat) : Prop := ∃ v, (d, v) ∈ s.frames

inductive Held (s : State prefetch) (c d : Nat) : Prop where
  | framed (h : s.Framed d)
  | sub (i : Nat) (sub : Sub prefetch) (hsub : s.subs i = some sub) (hchan : sub.chan = c)
    (hholds : sub.Holds d)
  | acquiring (hloop : s.loop = .acquiring c d)
  | handler (hd : Handler) (hmem : hd ∈ s.handlers) (hchan : hd.chan = c) (hd' : hd.d = d)

structure Accounted (s : State prefetch) : Prop where
  known : ∀ {c d}, (c, d) ∈ s.pushed → ∃ ch, s.chans c = some ch
  held : ∀ {c d}, (c, d) ∈ s.pushed → s.chanOpen c = true → s.Held c d
  acquired : ∀ {c d}, s.loop = .acquiring c d → ∃ ch, s.chans c = some ch
  dispatched : ∀ {hd}, hd ∈ s.handlers → ∃ ch, s.chans hd.chan = some ch
  resolved : ∀ {hd}, hd ∈ s.handlers → s.chanOpen hd.chan = true → hd.resolved = true →
    s.Framed hd.d
  waited : s.loop.waited = true → s.handlers = []

variable {s s' : State prefetch}
variable {cfg : Config} {hd : Handler} {handling : Handling} {c d : Nat}
variable {cs cs' : CounterB.RedeliveryCounter} {v : Option Verdict}

theorem accounted_init (prefetch : Nat) (bootDegraded : Bool)
    : (init prefetch bootDegraded).Accounted where
  known := by
    intro c d h
    contradiction
  held := by
    intro c d h
    contradiction
  acquired := by
    intro c d h
    contradiction
  dispatched := by
    intro hd h
    contradiction
  resolved := by
    intro hd h
    contradiction
  waited := fun _ => rfl

theorem chans_of_evolves (he : s.Evolves s') (h : ∃ ch, s.chans c = some ch)
    : ∃ ch, s'.chans c = some ch := by
  have ⟨ch, hch⟩ := h
  have ⟨ch', hch', _⟩ := he.chans hch
  exact ⟨ch', hch'⟩

theorem Accounted.of_held (hwf : s.Wf) (h : s.Accounted) (he : s.Evolves s')
    (hpushed : s'.pushed = s.pushed)
    (hheld : ∀ {c d}, s'.chanOpen c = true → s.Held c d → s'.Held c d)
    (hacquired : ∀ {c d}, s'.loop = .acquiring c d → ∃ ch, s'.chans c = some ch)
    (hdispatched : ∀ {hd}, hd ∈ s'.handlers → ∃ ch, s'.chans hd.chan = some ch)
    (hresolved : ∀ {hd}, hd ∈ s'.handlers → s'.chanOpen hd.chan = true → hd.resolved = true →
      s'.Framed hd.d)
    (hwaited : s'.loop.waited = true → s'.handlers = []) : s'.Accounted := by
  refine ⟨?_, ?_, hacquired, hdispatched, hresolved, hwaited⟩
  . intro c d hd
    exact chans_of_evolves he (h.known (hpushed ▸ hd))
  . intro c d hd hopen'
    have hd' : (c, d) ∈ s.pushed := hpushed ▸ hd
    have ⟨ch, hch⟩ := h.known hd'
    exact hheld hopen' (h.held hd' (chanOpen_of_evolves hwf he hch hopen'))

theorem Held.of_ages (hages : s.Ages s') (he : s.Evolves s') (hframed : s.Framed d → s'.Framed d)
    (hloop : s.loop = .acquiring c d → s'.Held c d)
    (hhandler : ∀ {hd}, hd ∈ s.handlers → hd.chan = c → hd.d = d → s'.Held c d)
    (hopen' : s'.chanOpen c = true) (h : s.Held c d) : s'.Held c d := by
  cases h with
  | framed h => exact .framed (hframed h)
  | sub i sub hsub hchan hholds =>
    have ⟨sub', hsub', hage⟩ := hages i sub hsub (hchan ▸ hopen')
    have ⟨sub₁, hsub₁, hchan₁, _⟩ := he.subs hsub
    rw [hsub', some.injEq] at hsub₁
    exact .sub i sub' hsub' (hsub₁ ▸ hchan₁.trans hchan) (hage.holds hholds)
  | acquiring h => exact hloop h
  | handler hd hmem hchan hd' => exact hhandler hmem hchan hd'

structure Work where
  pushed : List (Nat × Nat)
  frames : List (Nat × Verdict)
  handlers : List Handler

def work (s : State prefetch) : Work := ⟨s.pushed, s.frames, s.handlers⟩

theorem Accounted.frame (hwf : s.Wf) (h : s.Accounted) (he : s.Evolves s') (hages : s.Ages s')
    (hwork : s'.work = s.work)
    (hacquiring : ∀ {c d}, s'.loop = .acquiring c d ↔ s.loop = .acquiring c d)
    (hwaited : s'.loop.waited = true → s'.handlers = []) : s'.Accounted := by
  have hframes : s'.frames = s.frames := congrArg Work.frames hwork
  have hhandlers : s'.handlers = s.handlers := congrArg Work.handlers hwork
  have hframed : ∀ {d}, s.Framed d → s'.Framed d := by
    intro d hd
    unfold Framed
    rwa [hframes]
  refine h.of_held hwf he (congrArg Work.pushed hwork) ?_ ?_ ?_ ?_ hwaited
  . intro c d hopen' hheld
    refine hheld.of_ages hages he hframed (fun hloop => .acquiring (hacquiring.mpr hloop)) ?_ hopen'
    intro hd hmem hchan hd'
    exact .handler hd (hhandlers ▸ hmem) hchan hd'
  . intro c d hloop
    exact chans_of_evolves he (h.acquired (hacquiring.mp hloop))
  . intro hd hmem
    exact chans_of_evolves he (h.dispatched (hhandlers ▸ hmem))
  . intro hd hmem hopen' hres
    have hmem' : hd ∈ s.handlers := hhandlers ▸ hmem
    have ⟨ch, hch⟩ := h.dispatched hmem'
    exact hframed (h.resolved hmem' (chanOpen_of_evolves hwf he hch hopen') hres)

theorem Accounted.same_loop (hwf : s.Wf) (h : s.Accounted) (he : s.Evolves s') (hages : s.Ages s')
    (hwork : s'.work = s.work) (hloop : s'.loop = s.loop) : s'.Accounted := by
  have hhandlers : s'.handlers = s.handlers := congrArg Work.handlers hwork
  refine h.frame hwf he hages hwork (by rw [hloop]) ?_
  rw [hloop, hhandlers]
  exact h.waited

theorem Accounted.loopGoto (hwf : s.Wf) (h : s.Accounted) (he : s.Evolves s') (hages : s.Ages s')
    (hwork : s'.work = s.work) (hbefore : s.loop.acquires = false)
    (hafter : s'.loop.acquires = false) (hwaited : s'.loop.waited = true → s'.handlers = [])
    : s'.Accounted := by
  refine h.frame hwf he hages hwork ?_ hwaited
  intro c d
  constructor
  . intro hloop
    rw [hloop] at hafter
    contradiction
  . intro hloop
    rw [hloop] at hbefore
    contradiction

theorem openPhase_of_openMove {who : Caller} {a : OpenAction} (hmove : s.OpenMove who a s')
    : ∃ p, s.openPhase who = some p := by
  cases hmove with
  | rotate hphase => exact ⟨_, hphase⟩
  | notConnected hphase => exact ⟨_, hphase⟩
  | publish _ _ hphase => exact ⟨_, hphase⟩
  | _ _ hphase => exact ⟨_, hphase⟩

theorem loop_of_openMove {a : OpenAction} (hmove : s.OpenMove .loop a s')
    : (∃ p, s'.loop = .opening p ∨ s'.loop = .reopening p) ∨ s'.loop = .returned .openErr ∨
        s'.loop = .backingOff ∨ s'.loop = .selecting := by
  cases hmove with
  | rotate | readRaw | channelOk | consumeOk => exact .inl ⟨_, loop_openGoto_loop _ _⟩
  | publish => exact .inr (.inr (.inr rfl))
  | _ => exact .inr ((loop_openFail_loop _).imp id .inl)

theorem idle_of_openMove {a : OpenAction} (hmove : s.OpenMove .loop a s')
    : s'.loop.acquires = false ∧ s'.loop.waited = false ∧ s'.loop ≠ .returned .ctxDone := by
  rcases loop_of_openMove hmove with ⟨p, hloop | hloop⟩ | hloop | hloop | hloop
  all_goals simp [hloop, LoopPhase.acquires, LoopPhase.waited]

theorem accounted_of_openMove (hwf : s.Wf) (h : s.Accounted) {who : Caller} {a : OpenAction}
    (hmove : s.OpenMove who a s') : s'.Accounted := by
  have he := evolves_of_openMove hwf hmove
  have hages := ages_of_openMove hwf hmove
  cases who with
  | hook b =>
    cases hmove with
    | _ => exact h.same_loop hwf he hages rfl rfl
  | loop =>
    have ⟨p, hphase⟩ := openPhase_of_openMove hmove
    have hbefore : s.loop.acquires = false := by
      cases loop_of_openPhase hphase with
      | _ hloop => rw [hloop]; rfl
    have ⟨hafter, hwaited, _⟩ := idle_of_openMove hmove
    have hno : s'.loop.waited = true → s'.handlers = [] := by
      rw [hwaited]
      intro hw
      contradiction
    cases hmove with
    | _ => exact h.loopGoto hwf he hages rfl hbefore hafter hno

theorem acquires_of_inSelect (h : s.inSelect = true) : s.loop.acquires = false := by
  rcases of_decide_eq_true h with hloop | hselect
  . rw [hloop]; rfl
  . rcases of_decide_eq_true hselect with hloop | hloop | hloop | hloop
    . rw [hloop]; rfl
    . rw [hloop]; rfl
    . rw [hloop]; rfl
    . rw [hloop]; rfl

theorem acquires_of_loopMove {a : LoopAction} (hmove : s.LoopMove cfg a s')
    (ha : a ≠ .acquire) : s.loop.acquires = false := by
  cases hmove with
  | acquire => contradiction
  | recoverStop hselect => exact acquires_of_inSelect (decide_eq_true (.inr hselect))
  | adopt _ _ hselect | brokerCancel _ hselect => exact acquires_of_inSelect hselect
  | _ => simp [LoopPhase.acquires, *]

theorem Held.receive {i d' : Nat} {sub : Sub prefetch} {out : Chan Nat prefetch}
    (hsub : s.subs i = some sub) (hrecv : sub.out.recv = some (some d, out))
    (hsubs : s'.subs = update s.subs i (some { sub with out }))
    (hframed : s.Framed d' → s'.Framed d') (hbefore : s.loop.acquires = false)
    (hhandlers : s'.handlers = s.handlers) (hd : sub.chan = c → d = d' → s'.Held c d')
    (h : s.Held c d') : s'.Held c d' := by
  have ⟨hbuf, _⟩ := Chan.recv_eq_some_some_iff.mp hrecv
  cases h with
  | framed h => exact .framed (hframed h)
  | acquiring h =>
    rw [h] at hbefore
    contradiction
  | handler hd hmem hchan hd' => exact .handler hd (hhandlers ▸ hmem) hchan hd'
  | sub j subj hj hchan hholds =>
    by_cases heq : j = i
    . subst heq
      rw [hsub] at hj
      cases hj
      have hsub' : s'.subs j = some { sub with out } := hsubs ▸ update_self j _ _
      rcases hholds with hq | hp | hb
      . exact .sub j _ hsub' hchan (.inl hq)
      . exact .sub j _ hsub' hchan (.inr (.inl hp))
      . rw [hbuf] at hb
        cases mem_cons.mp hb with
        | inl hhead => exact hd hchan hhead.symm
        | inr htail => exact .sub j _ hsub' hchan (.inr (.inr htail))
    . exact .sub j subj (hsubs ▸ (update_of_ne heq _ _).trans hj) hchan hholds

theorem Accounted.receive (hwf : s.Wf) (h : s.Accounted) (he : s.Evolves s') {i : Nat}
    {sub : Sub prefetch} {out : Chan Nat prefetch} (hsub : s.subs i = some sub)
    (hrecv : sub.out.recv = some (some d, out))
    (hsubs : s'.subs = update s.subs i (some { sub with out }))
    (hpushed : s'.pushed = s.pushed) (hhandlers : s'.handlers = s.handlers)
    (hbefore : s.loop.acquires = false) (hframed : ∀ {d'}, s.Framed d' → s'.Framed d')
    (hd : s'.chanOpen sub.chan = true → s'.Held sub.chan d)
    (hafter : ∀ {c d'}, s'.loop = .acquiring c d' → c = sub.chan)
    (hwaited : s'.loop.waited = true → s.loop.waited = true) : s'.Accounted := by
  refine h.of_held hwf he hpushed ?_ ?_ ?_ ?_ ?_
  . intro c d' hopen' hheld
    refine hheld.receive hsub hrecv hsubs hframed hbefore hhandlers ?_
    intro hc hd'
    subst hc hd'
    exact hd hopen'
  . intro c d' hloop
    rw [hafter hloop]
    exact chans_of_evolves he (hwf.sub_chan hsub)
  . intro hd hmem
    exact chans_of_evolves he (h.dispatched (hhandlers ▸ hmem))
  . intro hd hmem hopen' hres
    have hmem' : hd ∈ s.handlers := hhandlers ▸ hmem
    have ⟨ch, hch⟩ := h.dispatched hmem'
    exact hframed (h.resolved hmem' (chanOpen_of_evolves hwf he hch hopen') hres)
  . intro hw
    rw [hhandlers]
    exact h.waited (hwaited hw)

theorem Framed.sendFrame {d' : Nat} {v : Verdict} (h : s.Framed d')
    : (s.sendFrame c d v).Framed d' := by
  have ⟨w, hw⟩ := h
  unfold State.sendFrame
  split
  . exact ⟨w, mem_append_left _ hw⟩
  . exact ⟨w, hw⟩

theorem framed_sendFrame {v : Verdict} (hopen : s.chanOpen c = true)
    : (s.sendFrame c d v).Framed d := by
  unfold State.sendFrame
  rw [if_pos hopen]
  exact ⟨v, mem_append_right _ (mem_singleton_self _)⟩

theorem accounted_acquire (hwf : s.Wf) (h : s.Accounted) (hloop : s.loop = .acquiring c d)
    : { s with
        handlers := s.handlers ++ [(⟨c, d, none, false⟩ : Handler)]
        loop := .selecting }.Accounted := by
  refine h.of_held hwf (evolves_of_same rfl) rfl ?_ (fun hno => by contradiction) ?_ ?_
    (fun hw => by contradiction)
  . intro c' d' hopen' hheld
    cases hheld with
    | framed hf => exact .framed hf
    | sub i sub hsub hchan hholds => exact .sub i sub hsub hchan hholds
    | acquiring hacq =>
      rw [hloop, LoopPhase.acquiring.injEq] at hacq
      exact .handler ⟨c, d, none, false⟩ (mem_append_right _ (mem_singleton_self _))
        hacq.1 hacq.2
    | handler hd hmem hchan hd' => exact .handler hd (mem_append_left _ hmem) hchan hd'
  . intro hd hmem
    cases mem_append.mp hmem with
    | inl hold => exact h.dispatched hold
    | inr hnew =>
      rw [mem_singleton.mp hnew]
      exact h.acquired hloop
  . intro hd hmem hopen' hres
    cases mem_append.mp hmem with
    | inl hold => exact h.resolved hold hopen' hres
    | inr hnew =>
      rw [mem_singleton.mp hnew] at hres
      contradiction

theorem accounted_of_loopMove (hwf : s.Wf) (h : s.Accounted) {a : LoopAction}
    (hmove : s.LoopMove cfg a s') : s'.Accounted := by
  have he := evolves_of_loopMove hmove
  have hbefore := acquires_of_loopMove hmove
  cases hmove with
  | acquire c d hloop => exact accounted_acquire hwf h hloop
  | recv i sub d out hloop hcur hsub hrecv =>
    refine h.receive hwf he hsub hrecv rfl rfl rfl (hbefore (by simp)) id
      (fun _ => .acquiring rfl) ?_ (fun hw => by contradiction)
    intro c d' hacq
    exact (LoopPhase.acquiring.inj hacq).1.symm
  | drain i sub d out hloop _ hcur hsub hrecv =>
    have hloop' : ∀ {c d' v}, ((s.setSub i { sub with out }).sendFrame c d' v).loop = s.loop := by
      intro c d' v
      rw [sendFrame_eq]
      rfl
    refine h.receive hwf he hsub hrecv (by rw [sendFrame_eq]; rfl) (by rw [sendFrame_eq]; rfl)
      (by rw [sendFrame_eq]; rfl) (hbefore (by simp)) ?_ ?_ ?_ (by rw [hloop']; exact id)
    . exact fun hf => Framed.sendFrame (s := s.setSub i { sub with out }) hf
    . intro hopen'
      refine .framed (framed_sendFrame ?_)
      rwa [sendFrame_eq] at hopen'
    . intro c d' hacq
      rw [hloop', hloop] at hacq
      contradiction
  | drainErr i sub d out hloop hcur hsub hrecv hshut =>
    refine h.receive hwf he hsub hrecv rfl rfl rfl (hbefore (by simp)) id ?_
      (fun hacq => by contradiction) (fun hw => by contradiction)
    intro hopen'
    rw [← Bool.not_eq_true] at hshut
    contradiction
  | waitStopping hloop hhandlers =>
    exact h.loopGoto hwf he (ages_of_same rfl) rfl (hbefore (by simp)) rfl (fun _ => hhandlers)
  | noLive hloop | readLive c hloop | cancelErr c hloop =>
    exact h.loopGoto hwf he (ages_of_same rfl) rfl (hbefore (by simp)) rfl
      (fun _ => h.waited (by rw [hloop]; rfl))
  | cancelOk c hloop =>
    exact h.loopGoto hwf he (ages_of_cancelOn rfl) rfl (hbefore (by simp)) rfl
      (fun _ => h.waited (by rw [hloop]; rfl))
  | _ =>
    exact h.loopGoto hwf he (ages_of_same rfl) rfl (hbefore (by simp)) rfl
      (fun hw => by contradiction)

theorem ackIf_eq_some {d : Delivery} (hdone : d.done = false) (hres : d.resolved = false)
    (err : Option Err) : ∃ w, d.ackIf err = some w := by
  cases err with
  | none => exact ⟨.ack, by simp [Delivery.ackIf, Delivery.ack,
      Delivery.settle, hdone, hres]⟩
  | some err => exact ⟨.nack (.requeue ∈ err.chain), by simp [Delivery.ackIf,
      Delivery.nack, Delivery.settle, hdone, hres]⟩

theorem handle_verdict (hauto : cfg.consumer.brokerAutoAck = false) (hres : hd.resolved = false)
    (hok : s.settles cfg handling = true)
    (h : cfg.consumer.handle cs (s.delivery cfg hd) cfg.autoAck handling = some (cs', v))
    : ∃ w, v = some w := by
  unfold Consumer.handle at h
  cases handling with
  | returned err closed =>
    have ⟨hack, hopen, hnot⟩ := of_decide_eq_true hok
    dsimp only at h
    rw [if_neg hnot, Consumer.settleVerdict, if_neg (by simp [hauto]), if_pos hack,
      some.injEq, Prod.mk.injEq] at h
    exact h.2 ▸ ackIf_eq_some hopen hres _
  | deadline =>
    dsimp only at h
    split at h
    . rw [some.injEq, Prod.mk.injEq] at h
      rw [← h.2, Consumer.timeout, if_neg (by simp [hauto])]
      exact ⟨_, if_neg (by simp [delivery, hres])⟩
    . contradiction
  | chanDone => contradiction
  | ctxDone => contradiction

theorem dispatch_verdict (hauto : cfg.consumer.brokerAutoAck = false) (hres : hd.resolved = false)
    (hok : ¬reachesHandler cfg hd.d ∨ s.settles cfg handling = true)
    (h : cfg.consumer.dispatch cs (s.delivery cfg hd) cfg.autoAck handling = some (cs', v))
    : ∃ w, v = some w := by
  unfold Consumer.dispatch at h
  split at h
  . next hdecodes =>
    split at h
    . rw [some.injEq, Prod.mk.injEq] at h
      exact ⟨_, h.2.symm⟩
    . next hnot =>
      have hreaches : reachesHandler cfg hd.d = true := decide_eq_true ⟨hdecodes, hnot⟩
      exact handle_verdict hauto hres (hok.resolve_left (not_not_intro hreaches)) h
  . rw [if_neg (by simp [hauto]), some.injEq, Prod.mk.injEq] at h
    exact ⟨_, h.2.symm⟩

theorem Framed.sendVerdict (h : s.Framed d)
    : ((s.useCounter hd handling cs).sendVerdict hd v).Framed d := by
  have huse : (s.useCounter hd handling cs).Framed d := by
    rw [useCounter_eq]
    exact h
  cases v with
  | none => exact huse
  | some v => exact huse.sendFrame

theorem framed_of_finish (h : s.Accounted) (hauto : cfg.consumer.brokerAutoAck = false)
    (hok : s.strandsNothing cfg (.handler hd (.finish handling)) = true) (hmem : hd ∈ s.handlers)
    (hopen : s.chanOpen hd.chan = true)
    (hdispatch : cfg.consumer.dispatch cs (s.delivery cfg hd) cfg.autoAck handling = some (cs', v))
    : ((s.useCounter hd handling cs').sendVerdict hd v).Framed hd.d := by
  by_cases hres : hd.resolved = true
  . exact (h.resolved hmem hopen hres).sendVerdict
  . have hok' : ¬reachesHandler cfg hd.d ∨ s.settles cfg handling = true := by
      rcases of_decide_eq_true hok with hshut | hresolved | hok
      . rw [hopen] at hshut
        contradiction
      . contradiction
      . exact hok
    rw [Bool.not_eq_true] at hres
    have ⟨w, hw⟩ := dispatch_verdict hauto hres hok' hdispatch
    subst hw
    refine framed_sendFrame ?_
    rw [useCounter_eq]
    exact hopen

theorem Accounted.of_handlers (hwf : s.Wf) (h : s.Accounted) (he : s.Evolves s')
    (hsame : s' = { s with
      counters := s'.counters, handlers := s'.handlers, frames := s'.frames, uses := s'.uses })
    (hmem : hd ∈ s.handlers) (hframed : ∀ {d}, s.Framed d → s'.Framed d)
    (hhd : s.chanOpen hd.chan = true → s'.Held hd.chan hd.d)
    (hhandlers : ∀ {h'}, h' ∈ s.handlers → h' = hd ∨ h' ∈ s'.handlers)
    (hback : ∀ {h'}, h' ∈ s'.handlers → h' ∈ s.handlers ∨ (h'.chan = hd.chan ∧
      (s.chanOpen hd.chan = true → h'.resolved = true → s'.Framed h'.d))) : s'.Accounted := by
  have hloop : s'.loop = s.loop := by rw [hsame]
  have hsubs : s'.subs = s.subs := by rw [hsame]
  have hchans : s'.chans = s.chans := by rw [hsame]
  have hopen : ∀ {c}, s'.chanOpen c = s.chanOpen c := by
    intro c
    rw [hsame]
    rfl
  refine h.of_held hwf he (by rw [hsame]) ?_ ?_ ?_ ?_ ?_
  . intro c d hopen' hheld
    refine hheld.of_ages (ages_of_same hsubs) he hframed (fun hacq => .acquiring (hloop.trans hacq))
      ?_ hopen'
    intro h' hmem' hchan hd'
    cases hhandlers hmem' with
    | inl heq =>
      rw [← hchan, ← hd', heq]
      exact hhd (by rwa [hopen, ← hchan, heq] at hopen')
    | inr hstill => exact .handler h' hstill hchan hd'
  . intro c d hacq
    rw [hchans]
    exact h.acquired (hloop ▸ hacq)
  . intro h' hmem'
    rw [hchans]
    cases hback hmem' with
    | inl hold => exact h.dispatched hold
    | inr hnew => exact hnew.1 ▸ h.dispatched hmem
  . intro h' hmem' hopen' hres
    rw [hopen] at hopen'
    cases hback hmem' with
    | inl hold => exact hframed (h.resolved hold hopen' hres)
    | inr hnew => exact hnew.2 (hnew.1 ▸ hopen') hres
  . intro hw
    rw [hloop] at hw
    rw [h.waited hw] at hmem
    contradiction

theorem accounted_of_handlerMove (hwf : s.Wf) (h : s.Accounted)
    (hauto : cfg.consumer.brokerAutoAck = false) {a : HandlerAction}
    (hok : s.strandsNothing cfg (.handler hd a) = true) (hmem : hd ∈ s.handlers)
    (hmove : s.HandlerMove cfg hd a s') : s'.Accounted := by
  have he := evolves_of_handlerMove hmove
  have hsame := handlerMove_eq hmove
  have hkeeps : ∀ {h' new}, h' ∈ s.handlers → h' = hd ∨ h' ∈ new :: s.handlers.erase hd := by
    intro h' new hmem'
    by_cases heq : h' = hd
    . exact .inl heq
    . exact .inr (mem_cons_of_mem _ ((mem_erase_of_ne heq).mpr hmem'))
  cases hmove with
  | load =>
    refine h.of_handlers hwf he hsame hmem id ?_ hkeeps ?_
    . intro _
      exact .handler { hd with cs := some s.counterState } mem_cons_self rfl rfl
    . intro h' hmem'
      cases mem_cons.mp hmem' with
      | inl heq =>
        rw [heq]
        exact .inr ⟨rfl, h.resolved hmem⟩
      | inr hold => exact .inl (mem_of_mem_erase hold)
  | verdict v =>
    have hsent : s.chanOpen hd.chan = true → (s.sendFrame hd.chan hd.d v).Framed hd.d :=
      framed_sendFrame
    refine h.of_handlers hwf he hsame hmem Framed.sendFrame (fun hopen => .framed (hsent hopen)) ?_ ?_
    . rw [sendFrame_eq]
      exact hkeeps
    . intro h' hmem'
      rw [sendFrame_eq] at hmem'
      cases mem_cons.mp hmem' with
      | inl heq =>
        rw [heq]
        exact .inr ⟨rfl, fun hopen _ => hsent hopen⟩
      | inr hold => exact .inl (mem_of_mem_erase hold)
  | finish handling cs cs' v hready hdispatch =>
    refine h.of_handlers hwf he hsame hmem (fun hf => hf.sendVerdict) ?_ ?_ ?_
    . intro hopen
      exact .framed (framed_of_finish h hauto hok hmem hopen hdispatch)
    . intro h' hmem'
      by_cases heq : h' = hd
      . exact .inl heq
      . exact .inr ((mem_erase_of_ne heq).mpr hmem')
    . intro h' hmem'
      exact .inl (mem_of_mem_erase hmem')

theorem accounted_of_envMove (hwf : s.Wf) (h : s.Accounted) {a : EnvAction}
    (hmove : s.EnvMove a s') : s'.Accounted := by
  have he := evolves_of_envMove hmove
  have hages := ages_of_envMove hmove
  cases hmove with
  | deliver i d sub hsub hopen hcancelled =>
    refine ⟨?_, ?_, h.acquired, h.dispatched, h.resolved, h.waited⟩
    . intro c d' hd'
      cases mem_append.mp hd' with
      | inl hmem => exact h.known hmem
      | inr hnew =>
        rw [(Prod.mk.inj (mem_singleton.mp hnew)).1]
        exact hwf.sub_chan hsub
    . intro c d' hd' hopen'
      cases mem_append.mp hd' with
      | inl hmem =>
        exact Held.of_ages hages he id (fun hloop => .acquiring hloop)
          (fun hmem hchan hd => .handler _ hmem hchan hd) hopen' (h.held hmem hopen')
      | inr hnew =>
        have ⟨hc, hd⟩ := Prod.mk.inj (mem_singleton.mp hnew)
        refine .sub i _ (update_self i _ _) hc.symm (.inl ?_)
        rw [hd]
        exact mem_append_right _ (mem_singleton_self d)
  | _ => exact h.same_loop hwf he hages rfl rfl

theorem accounted_step {a : Action} (hauto : cfg.consumer.brokerAutoAck = false)
    (hwf : s.Wf) (hended : s.Ended) (h : s.Accounted) (hkeeps : s.keepsSubs a = true)
    (hok : s.strandsNothing cfg a = true) (hstep : s.step cfg a = some s') : s'.Accounted := by
  cases a with
  | openDeliveryCh who a => exact accounted_of_openMove hwf h (openStep_move hstep)
  | loop a => exact accounted_of_loopMove hwf h (loopStep_move hstep)
  | hook b a =>
    have hmove := hookStep_move hstep
    have he := evolves_of_hookMove hmove
    cases hmove with
    | _ => exact h.same_loop hwf he (ages_of_same rfl) rfl rfl
  | mu a =>
    have hmove := muStep_move hstep
    have he := evolves_of_muMove hwf hmove
    have hages := ages_of_muMove hwf hmove
    cases hmove with
    | _ => exact h.same_loop hwf he hages rfl rfl
  | pump i a =>
    have ⟨sub, ch, hsub, hch, _, hmove⟩ := pumpStep_move hstep
    have he := evolves_of_pumpMove hsub hch hmove
    have hages := ages_of_pumpMove hwf hended hkeeps hsub hch hmove
    cases hmove with
    | _ => exact h.same_loop hwf he hages rfl rfl
  | handler hd a =>
    have ⟨hmem, hmove⟩ := handlerStep_move hstep
    exact accounted_of_handlerMove hwf h hauto hok hmem hmove
  | super a =>
    have hmove := superStep_move hstep
    have he := evolves_of_superMove hmove
    cases hmove with
    | _ => exact h.same_loop hwf he (ages_of_same rfl) rfl rfl
  | env a => exact accounted_of_envMove hwf h (envStep_move hstep)

theorem settled_of_handedOver (hwf : s.Wf) (hcur : s.cur.all s.settled = true)
    (hover : s.handedOver = true) (hloop : s.loop.sub = none) {i : Nat} (h : s.Refers i)
    : s.settled i = true := by
  have ⟨hresub, hmu, hhooks⟩ := of_decide_eq_true hover
  rcases h with h | h | h | h | ⟨b, run, hrun, h⟩
  . rwa [h] at hcur
  . exact all_eq_true.mp hresub i h
  . rwa [h] at hmu
  . rw [hloop] at h
    contradiction
  . have hb := hhooks b (hwf.hook_lt hrun)
    rw [hrun, all_some, h] at hb
    exact hb

theorem not_holds_of_spent {sub : Sub prefetch} (h : sub.spent = true) : ¬sub.Holds d := by
  have ⟨_, hqueue, hpump, hbuf⟩ := Sub.spent_iff.mp h
  rintro (hd | hd | hd)
  . rw [hqueue] at hd
    contradiction
  . rw [hd] at hpump
    contradiction
  . rw [hbuf] at hd
    contradiction

theorem Accounted.framed (hwf : s.Wf) (hkept : s.Kept) (h : s.Accounted)
    (hcur : s.cur.all s.settled = true) (hover : s.handedOver = true) (hloop : s.loop.sub = none)
    (hacquires : s.loop.acquires = false) (hhandlers : s.handlers = []) {c d : Nat}
    (hpushed : (c, d) ∈ s.pushed) (hopen : s.chanOpen c = true) : s.Framed d := by
  cases h.held hpushed hopen with
  | framed hf => exact hf
  | sub i sub hsub hchan hholds =>
    subst hchan
    have hspent : sub.spent = true := by
      cases hkept.kept hsub hopen with
      | inl hspent => exact hspent
      | inr href => exact settled_iff.mp (settled_of_handedOver hwf hcur hover hloop href) hsub hopen
    exact absurd hholds (not_holds_of_spent hspent)
  | acquiring hacq =>
    rw [hacq] at hacquires
    contradiction
  | handler hd hmem =>
    rw [hhandlers] at hmem
    contradiction

theorem Kept.cur_settled (h : s.Kept) (hended : s.Ended) (hrec : s.loop.recovering = true)
    : s.cur.all s.settled = true := by
  cases hcur : s.cur with
  | none => rfl
  | some i => exact h.settled_of_recovering hended hrec hcur

theorem framed_of_return (hauto : cfg.consumer.brokerAutoAck = false) (hwf : s.Wf)
    (hended : s.Ended) (hkept : s.Kept) (h : s.Accounted) {a : LoopAction}
    (hok : s.strandsNothing cfg (.loop a) = true) (hmove : s.LoopMove cfg a s')
    (hloop : s.loop ≠ .returned .ctxDone) (hloop' : s'.loop = .returned .ctxDone)
    (hpushed : (c, d) ∈ s'.pushed) (hopen : s'.chanOpen c = true) : s'.Framed d := by
  have hsub := sub_of_loopMove hmove
  have hacquires := acquires_of_loopMove hmove
  cases hmove with
  | waitRecoverStop hstop hhandlers =>
    exact h.framed hwf hkept (hkept.cur_settled hended (by rw [hstop]; rfl))
      (of_decide_eq_true hok hstop) hsub (hacquires (by simp)) hhandlers hpushed hopen
  | drainErr i sub d out hdraining hcur hsub' hrecv hshut =>
    refine h.framed hwf hkept ?_ hok hsub (hacquires (by simp))
      (h.waited (by rw [hdraining]; rfl)) hpushed hopen
    rw [hcur, all_some, settled_iff]
    intro sub₁ hsub₁ hopen₁
    rw [hsub', some.injEq] at hsub₁
    rw [← hsub₁, hshut] at hopen₁
    contradiction
  | drainClosed i sub hdraining hcur hsub' hbuf hclosed =>
    refine h.framed hwf hkept ?_ hok hsub (hacquires (by simp))
      (h.waited (by rw [hdraining]; rfl)) hpushed hopen
    rw [hcur, all_some]
    exact hkept.settled_of_closed hended hsub' hclosed hbuf
  | drainDefault hdraining =>
    have ⟨hcur, hover⟩ := of_decide_eq_true hok
    exact h.framed hwf hkept hcur hover hsub (hacquires (by simp))
      (h.waited (by rw [hdraining]; rfl)) hpushed hopen
  | drainSkip _ hack =>
    rw [hauto] at hack
    contradiction
  | drain i sub d out hdraining =>
    rw [sendFrame_eq] at hloop'
    exact absurd hloop' hloop
  | waitBrokerCancel => cases LoopPhase.returned.inj hloop'
  | _ => contradiction

theorem loop_of_return {a : Action} (hstep : s.step cfg a = some s')
    (hloop : s.loop ≠ .returned .ctxDone) (hloop' : s'.loop = .returned .ctxDone)
    : ∃ l, a = .loop l := by
  cases a with
  | loop l => exact ⟨l, rfl⟩
  | openDeliveryCh who a =>
    have hmove := openStep_move hstep
    cases who with
    | hook b =>
      cases hmove with
      | _ => exact absurd hloop' hloop
    | loop => exact absurd hloop' (idle_of_openMove hmove).2.2
  | hook b a =>
    cases hookStep_move hstep with
    | _ => exact absurd hloop' hloop
  | mu a =>
    cases muStep_move hstep with
    | _ => exact absurd hloop' hloop
  | pump i a =>
    have ⟨sub, ch, hsub, hch, _, hmove⟩ := pumpStep_move hstep
    cases hmove with
    | _ => exact absurd hloop' hloop
  | handler hd a =>
    rw [handlerMove_eq (handlerStep_move hstep).2] at hloop'
    exact absurd hloop' hloop
  | super a =>
    cases superStep_move hstep with
    | _ => exact absurd hloop' hloop
  | env a =>
    cases envStep_move hstep with
    | _ => exact absurd hloop' hloop

end State

open State

/--
When `runConsume` returns because its ctx has ended, every delivery that the broker has pushed on a
channel that is still open has been acked or nacked, in every run that keeps to `keepsSubs` and to
`strandsNothing`.
-/
theorem allFramed_of_return {cfg : Config} (hauto : cfg.consumer.brokerAutoAck = false)
    {bootDegraded : Bool} {s s' : State prefetch} {as : List Action} {a : Action}
    (hok : Run.Along (step cfg)
      (fun s a => s.keepsSubs a = true ∧ s.strandsNothing cfg a = true)
      (.init prefetch bootDegraded) as)
    (hrun : Run.run (step cfg) (.init prefetch bootDegraded) as = some s)
    (hlast : s.strandsNothing cfg a = true) (hstep : s.step cfg a = some s')
    (hloop : s.loop ≠ .returned .ctxDone) (hloop' : s'.loop = .returned .ctxDone) {c d : Nat}
    (hpushed : (c, d) ∈ s'.pushed) (hopen : s'.chanOpen c = true)
    : ∃ v, (d, v) ∈ s'.frames := by
  have hinv : ∀ (s : State prefetch) a s', (s.Wf ∧ s.Links) ∧ s.Ended ∧ s.Kept ∧ s.Accounted →
      s.keepsSubs a = true ∧ s.strandsNothing cfg a = true → s.step cfg a = some s' →
      (s'.Wf ∧ s'.Links) ∧ s'.Ended ∧ s'.Kept ∧ s'.Accounted := by
    intro s a s' ⟨⟨hwf, hlinks⟩, hended, hkept, hacc⟩ ⟨hkeeps, hstrands⟩ hstep
    exact ⟨⟨wf_step hwf hstep, links_step hwf hlinks hstep⟩,
      ended_step hwf hended hstep, kept_step hwf hended hlinks hkept hkeeps hstep,
      accounted_step hauto hwf hended hacc hkeeps hstrands hstep⟩
  have hinit : ((init prefetch bootDegraded).Wf ∧ (init prefetch bootDegraded).Links) ∧
      (init prefetch bootDegraded).Ended ∧ (init prefetch bootDegraded).Kept ∧
      (init prefetch bootDegraded).Accounted :=
    ⟨⟨wf_init prefetch bootDegraded, links_init prefetch bootDegraded⟩,
      ended_init prefetch bootDegraded, kept_init prefetch bootDegraded,
      accounted_init prefetch bootDegraded⟩
  have ⟨⟨hwf, _⟩, hended, hkept, hacc⟩ := Run.inv_of_run hinv hinit hok hrun
  have ⟨l, hl⟩ := loop_of_return hstep hloop hloop'
  subst hl
  exact framed_of_return hauto hwf hended hkept hacc hlast (loopStep_move hstep) hloop
    hloop' hpushed hopen

def drainedRun : List Action :=
  .loop .registerHook :: Caller.loop.subscribes ++ dispatches 0 7 ++
  [.handler ⟨0, 7, none, false⟩ (.finish (.returned none false)), .env (.deliver 0 8), .pump 0 .take,
    .pump 0 .send, .env .cancelCtx, .loop .ctxDone, .loop .wgWait, .loop .readLive,
    .loop (.cancel true), .loop .drain, .pump 0 .seeClosed, .pump 0 .drainClose,
    .pump 0 .drainCancel, .pump 0 .readPaused, .pump 0 .closeDone]

theorem allFramed_of_return_drained
    : ∃ s s' : State 1, Run.run (step plainConsume) (.init 1 false) drainedRun = some s ∧
        s.step plainConsume (.loop .drainClosed) = some s' ∧ s'.loop = .returned .ctxDone ∧
        s'.pushed = [(0, 7), (0, 8)] ∧ s'.chanOpen 0 = true ∧
        ∀ d, (0, d) ∈ s'.pushed → ∃ v, (d, v) ∈ s'.frames := by
  have ⟨s, hrun, hs⟩ := map_eq_some_iff.mp
    (by decide : (Run.run (step plainConsume) (.init 1 false : State 1) drainedRun).map
      (fun s => (s.loop, s.strandsNothing plainConsume (.loop .drainClosed))) =
        some (.draining, true))
  have hreturn : ((Run.run (step plainConsume) (.init 1 false : State 1) drainedRun).bind
      (fun s => s.step plainConsume (.loop .drainClosed))).map
        (fun s' => (s'.loop, s'.pushed, s'.chanOpen 0)) =
          some (.returned .ctxDone, [(0, 7), (0, 8)], true) := by decide
  rw [hrun, bind_some] at hreturn
  have ⟨s', hstep, hs'⟩ := map_eq_some_iff.mp hreturn
  simp only [Prod.mk.injEq] at hs hs'
  have ⟨hloop', hpushed, hopen⟩ := hs'
  refine ⟨s, s', hrun, hstep, hloop', hpushed, hopen, ?_⟩
  intro d hd
  exact allFramed_of_return rfl (by decide) hrun hs.2 hstep (by rw [hs.1]; decide) hloop' hd hopen

def strandedRun : List Action :=
  .loop .registerHook :: Caller.loop.subscribes ++
  [.env (.deliver 0 7), .pump 0 .take, .env .cancelCtx, .pump 0 .ctx, .loop .ctxDone, .loop .wgWait,
    .loop .readLive, .loop (.cancel true), .loop .drainClosed]

theorem unframed_at_return_pumpHand
    : ∃ s : State 1, Run.run (step plainConsume) (.init 1 false) strandedRun = some s ∧
        s.loop = .returned .ctxDone ∧ s.pushed = [(0, 7)] ∧ s.chanOpen 0 = true ∧
        s.frames = [] := by
  have ⟨s, hrun, hs⟩ := map_eq_some_iff.mp
    (by decide : (Run.run (step plainConsume) (.init 1 false : State 1) strandedRun).map
      (fun s => (s.loop, s.pushed, s.chanOpen 0, s.frames)) =
        some (.returned .ctxDone, [(0, 7)], true, []))
  simp only [Prod.mk.injEq] at hs
  exact ⟨s, hrun, hs⟩

end Subscription
