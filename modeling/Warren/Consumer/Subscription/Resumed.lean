import Warren.Consumer.Subscription.Wf

/-!
When a paused consumer can be resumed.
-/

namespace Subscription

open List

-- a `Resume` with a live ctx whose broker operations succeed, the loop, and what the loop waits for
def Action.resumes : Action → Bool
  | .mu .resumeBegin => true
  | .mu .resumeConsumeOk => true
  | .mu .resumeSwap => true
  | .mu .resumeSend => true
  | .mu .resumeClear => true
  | .loop .adopt => true
  | .loop .acquire => true
  | .loop (.readPaused _) => true
  | .loop .checkReconnecting => true
  | .loop .checkPaused => true
  | .handler _ .load => true
  | .handler _ (.finish _) => true
  | _ => false

def LoopPhase.subscribing : LoopPhase → Bool
  | .entered => true
  | .opening _ => true
  | .reopening _ => true
  | _ => false

def LoopPhase.stops : LoopPhase → Bool
  | .recoverStop => true
  | .stopping => true
  | .cancelling => true
  | .cancelSent _ => true
  | .draining => true
  | .returned .ctxDone => true
  | _ => false

namespace State

variable {prefetch : Nat}

structure Resumed (s : State prefetch) : Prop where
  paused : s.paused = false
  mu : s.mu = .free
  loop : s.loop = .selecting
  cur : ∃ i sub, s.cur = some i ∧ s.subs i = some sub ∧ s.live = some sub.chan ∧
    s.chanOpen sub.chan = true ∧ sub.cancelled = false ∧ sub.closed = false ∧
    sub.started = true ∧ sub.pump = .idle ∧ sub.out.closed = false

structure Awake (s : State prefetch) : Prop where
  resubCh : s.resubCh.closed = false
  stops : s.loop.stops = true → s.ctxDone = true

variable {s s' : State prefetch} {cfg : Config}

theorem awake_init (prefetch : Nat) (bootDegraded : Bool) : (init prefetch bootDegraded).Awake :=
  ⟨rfl, by simp [init, LoopPhase.stops]⟩

theorem Awake.frame (h : s.Awake) (hresub : s'.resubCh.closed = s.resubCh.closed)
    (hloop : s'.loop.stops = true → s.loop.stops = true ∨ s'.ctxDone = true)
    (hctx : s.ctxDone = true → s'.ctxDone = true) : s'.Awake := by
  refine ⟨hresub.trans h.resubCh, ?_⟩
  intro hstops
  cases hloop hstops with
  | inl hstops => exact hctx (h.stops hstops)
  | inr hctx => exact hctx

theorem Awake.goto (h : s.Awake) (hresub : s'.resubCh = s.resubCh) (hctx : s'.ctxDone = s.ctxDone)
    (hloop : s'.loop.stops = false ∨ s'.loop = s.loop) : s'.Awake := by
  apply h.frame (congrArg Chan.closed hresub)
  . intro hstops
    cases hloop with
    | inl hgoes => rw [hgoes] at hstops; contradiction
    | inr hsame => exact .inl (hsame ▸ hstops)
  . exact fun hdone => hctx.trans hdone

theorem Awake.openGoto (h : s.Awake) (who : Caller) (p : OpenPhase) : (s.openGoto who p).Awake := by
  cases who with
  | hook b => exact h.goto rfl rfl (.inr rfl)
  | loop =>
    refine h.goto rfl rfl ?_
    cases s.loop_openGoto_loop p with
    | _ hloop => rw [hloop]; exact .inl rfl

theorem Awake.openFail (h : s.Awake) (who : Caller) : (s.openFail who).Awake := by
  cases who with
  | hook b => exact h.goto rfl rfl (.inr rfl)
  | loop =>
    refine h.goto rfl rfl ?_
    cases s.loop_openFail_loop with
    | _ hloop => rw [hloop]; exact .inl rfl

theorem awake_of_openMove (h : s.Awake) {who : Caller} {a : OpenAction}
    (hmove : s.OpenMove who a s') : s'.Awake := by
  have hsame : ∀ t : State prefetch, t.resubCh = s.resubCh → t.ctxDone = s.ctxDone →
      t.loop = s.loop → t.Awake := fun t hresub hctx hloop => h.goto hresub hctx (.inr hloop)
  cases hmove with
  | rotate => exact (hsame s.newCounter rfl rfl rfl).openGoto who _
  | notConnected | channelErr socket => exact h.openFail who
  | readRaw socket => exact h.openGoto who _
  | channelOk socket => exact (hsame (s.newChan socket) rfl rfl rfl).openGoto who _
  | consumeOk c => exact (hsame (s.newSub c false) rfl rfl rfl).openGoto who _
  | consumeErr c => exact (hsame (s.closeChan c) rfl rfl rfl).openFail who
  | publish i sub =>
    cases who with
    | hook b => exact h.goto rfl rfl (.inr rfl)
    | loop => exact h.goto rfl rfl (.inl rfl)

theorem awake_of_adopt (h : s.Awake) (hstep : s.loopAdopt = some s') : s'.Awake := by
  unfold loopAdopt at hstep
  split at hstep
  . split at hstep
    . next i resubCh hrecv =>
      cases hstep
      refine h.frame (Chan.recv_eq_some_some_iff.mp hrecv).2 ?_ id
      intro hstops
      contradiction
    . contradiction
  . contradiction

theorem awake_of_loopMove (h : s.Awake) {a : LoopAction} (ha : a ≠ .adopt)
    (hmove : s.LoopMove cfg a s') : s'.Awake := by
  cases hmove with
  | stop hloop hctx | recoverStop hselect hctx => exact h.frame rfl (fun _ => .inr hctx) id
  | adopt i resubCh hselect hbuf hempty => exact absurd rfl ha
  | waitStopping hloop hhandlers | waitRecoverStop hloop hhandlers | noLive hloop hmu hlive
  | readLive c hloop hmu hlive | cancelOk c hloop hopen | cancelErr c hloop
  | drainErr i sub d out hloop | drainClosed i sub hloop | drainDefault hloop | drainSkip hloop =>
    exact h.frame rfl (fun _ => .inl (by rw [hloop]; rfl)) id
  | drain i sub d out hloop hnoAck hcur hsub hrecv =>
    unfold sendFrame
    split
    all_goals exact h.frame rfl .inl id
  | _ => exact h.goto rfl rfl (.inl rfl)

theorem closed_of_trySend {ch ch' : Chan Nat 1} {i : Nat} (h : ch.trySend i = some ch')
    : ch'.closed = ch.closed :=
  (Chan.trySend_eq_some_iff.mp h).2.2.2

theorem awake_of_hookStep (h : s.Awake) {b : Nat} {a : HookAction}
    (hstep : s.hookStep b a = some s') : s'.Awake := by
  unfold hookStep at hstep
  split at hstep
  . cases hstep
    exact h.goto rfl rfl (.inr rfl)
  . cases hstep
    exact h.goto rfl rfl (.inr rfl)
  . unfold hookSend at hstep
    split at hstep
    . contradiction
    . next resubCh hsend =>
      cases hstep
      exact h.frame (closed_of_trySend hsend) .inl id
  . cases hstep
    exact h.goto rfl rfl (.inr rfl)
  . cases hstep
    exact h.goto rfl rfl (.inr rfl)
  . contradiction

theorem awake_of_muStep (h : s.Awake) {a : MuAction} (hstep : s.muStep a = some s') : s'.Awake := by
  by_cases ha : a = .resumeSend
  . rw [ha] at hstep
    simp only [muStep] at hstep
    split at hstep
    all_goals try contradiction
    split at hstep
    . contradiction
    . next resubCh hsend =>
      cases hstep
      exact h.frame (closed_of_trySend hsend) .inl id
  . cases muStep_move hstep with
    | resumeSend i prevCounter resubCh hmu hempty hbuf => exact absurd rfl ha
    | _ => exact h.goto rfl rfl (.inr rfl)

theorem awake_step {a : Action} (h : s.Awake) (hstep : s.step cfg a = some s') : s'.Awake := by
  cases a with
  | openDeliveryCh who a => exact awake_of_openMove h (openStep_move hstep)
  | loop a =>
    by_cases ha : a = .adopt
    . rw [ha] at hstep
      exact awake_of_adopt h hstep
    . exact awake_of_loopMove h ha (loopStep_move hstep)
  | hook b a => exact awake_of_hookStep h hstep
  | mu a => exact awake_of_muStep h hstep
  | pump i a =>
    have ⟨sub, ch, _, _, _, hmove⟩ := pumpStep_move hstep
    cases hmove with
    | _ => exact h.goto rfl rfl (.inr rfl)
  | handler hd a =>
    rw [handlerMove_eq (handlerStep_move hstep).2]
    exact h.goto rfl rfl (.inr rfl)
  | super a =>
    cases superStep_move hstep with
    | _ => exact h.goto rfl rfl (.inr rfl)
  | env a =>
    cases envStep_move hstep with
    | cancelCtx => exact h.frame rfl (fun _ => .inr rfl) (fun _ => rfl)
    | _ => exact h.goto rfl rfl (.inr rfl)

structure Ground (prefetch : Nat) where
  live : Option Nat
  paused : Bool
  mu : MuPhase
  closed : Bool
  up : Option Nat
  chans : Nat → Option Channel
  subs : Nat → Option (Sub prefetch)
  nextSub : Nat

def ground (s : State prefetch) : Ground prefetch :=
  ⟨s.live, s.paused, s.mu, s.closed, s.up, s.chans, s.subs, s.nextSub⟩

variable {c : Nat} {hd : Handler}

theorem chanOpen_of_same (h : s.chanOpen c = true) (hchans : s'.chans = s.chans)
    (hup : s'.up = s.up) : s'.chanOpen c = true := by
  unfold chanOpen
  rw [hchans, hup]
  exact h

theorem inSelect_of_same (h : s.inSelect = true) (hloop : s'.loop = s.loop)
    : s'.inSelect = true := by
  unfold inSelect inRecoverSelect
  rw [hloop]
  exact h

theorem consumes_of_ground (h : s'.ground = s.ground) (c : Nat) : s'.consumes c = s.consumes c := by
  unfold consumes
  rw [show s'.subs = s.subs from congrArg Ground.subs h,
    show s'.nextSub = s.nextSub from congrArg Ground.nextSub h]

abbrev Settles (cfg : Config) : State prefetch → State prefetch → Prop :=
  Run.Reaches (step cfg) (fun a => a.resumes = true)

theorem settles_of_step {a : Action} (ha : a.resumes = true) (hstep : s.step cfg a = some s')
    : s.Settles cfg s' :=
  Run.Reaches.of_step ha hstep

theorem exists_dispatch_returned (cs : CounterB.RedeliveryCounter) (d : Dispatch.Delivery)
    (autoAck channelClosed : Bool)
    : ∃ r, cfg.consumer.dispatch cs d autoAck (.returned none channelClosed) = some r := by
  unfold Dispatch.Consumer.dispatch
  split
  . split
    . exact ⟨_, rfl⟩
    . exact ⟨_, if_neg (by simp)⟩
  . split
    all_goals exact ⟨_, rfl⟩

structure Onwards (cfg : Config) (s s' : State prefetch) : Prop where
  settles : s.Settles cfg s'
  ground : s'.ground = s.ground
  loop : s'.loop = s.loop
  resubCh : s'.resubCh = s.resubCh

theorem Onwards.refl (s : State prefetch) : s.Onwards cfg s := ⟨Run.Reaches.refl s, rfl, rfl, rfl⟩

theorem Onwards.trans {t : State prefetch} (h : s.Onwards cfg t) (h' : t.Onwards cfg s')
    : s.Onwards cfg s' :=
  ⟨h.settles.trans h'.settles, h'.ground.trans h.ground, h'.loop.trans h.loop,
    h'.resubCh.trans h.resubCh⟩

theorem onwards_of_handlerStep {a : HandlerAction} (ha : (Action.handler hd a).resumes = true)
    (hstep : s.step cfg (.handler hd a) = some s') : s.Onwards cfg s' := by
  have heq := handlerMove_eq (handlerStep_move hstep).2
  refine ⟨settles_of_step ha hstep, ?_, ?_, ?_⟩
  . rw [heq]
    rfl
  all_goals rw [heq]

theorem exists_finish (hmem : hd ∈ s.handlers)
    (hloaded : counted cfg hd.d = true → hd.cs.isSome = true)
    : ∃ s', s.Onwards cfg s' ∧ s'.handlers = s.handlers.erase hd := by
  have ⟨⟨cs, v⟩, hdispatch⟩ := @exists_dispatch_returned cfg ((hd.cs.map s.counters).getD .new)
    (s.delivery cfg hd) cfg.autoAck ((s.chans hd.chan).any (·.done))
  have hready : s.handlingReady hd (.returned none ((s.chans hd.chan).any (·.done))) = true := by
    simp [handlingReady]
  have hstep : s.step cfg
      (.handler hd (.finish (.returned none ((s.chans hd.chan).any (·.done))))) = some
        { (s.useCounter hd (.returned none ((s.chans hd.chan).any (·.done))) cs).sendVerdict hd v
          with handlers := s.handlers.erase hd } := by
    simp only [step, handlerStep, if_pos hmem, handlerFinish, hdispatch]
    rw [if_pos ⟨hready, hloaded⟩]
  exact ⟨_, onwards_of_handlerStep rfl hstep, rfl⟩

theorem exists_dispatched (hmem : hd ∈ s.handlers)
    : ∃ s', s.Onwards cfg s' ∧ s'.handlers = s.handlers.erase hd := by
  by_cases hload : counted cfg hd.d = true ∧ hd.cs = none
  . have hstep : s.step cfg (.handler hd .load) =
        some (s.replaceHandler hd { hd with cs := some s.counterState }) := by
      simp only [step, handlerStep, if_pos hmem]
      rw [if_pos hload]
    have ⟨s', honwards, hhandlers⟩ := @exists_finish _
      (s.replaceHandler hd { hd with cs := some s.counterState }) cfg _ mem_cons_self
      (fun _ => rfl)
    refine ⟨s', (onwards_of_handlerStep rfl hstep).trans honwards, ?_⟩
    rw [hhandlers]
    exact erase_cons_head _ _
  . apply exists_finish hmem
    intro hcounted
    rw [Option.isSome_iff_ne_none]
    exact fun hnone => hload ⟨hcounted, hnone⟩

theorem exists_idle (s : State prefetch) : ∃ s', s.Onwards cfg s' ∧ s'.handlers = [] := by
  generalize hn : s.handlers.length = n
  induction n generalizing s with
  | zero => exact ⟨s, Onwards.refl s, length_eq_zero_iff.mp hn⟩
  | succ n ih =>
    have ⟨hd, hmem⟩ := exists_mem_of_length_pos (by omega : 0 < s.handlers.length)
    have ⟨t, ht, hhandlers⟩ := @exists_dispatched _ s cfg _ hmem
    have hlength : t.handlers.length = n := by
      rw [hhandlers, length_erase_of_mem hmem]
      omega
    have ⟨s', hs', hidle⟩ := ih t hlength
    exact ⟨s', ht.trans hs', hidle⟩

structure Selects (cfg : Config) (s s' : State prefetch) : Prop where
  settles : s.Settles cfg s'
  ground : s'.ground = s.ground
  resubCh : s'.resubCh.closed = s.resubCh.closed
  select : s'.inSelect = true

theorem Selects.trans {t : State prefetch} (h : t.Selects cfg s') (hsettles : s.Settles cfg t)
    (hground : t.ground = s.ground) (hresub : t.resubCh.closed = s.resubCh.closed)
    : s.Selects cfg s' :=
  ⟨hsettles.trans h.settles, h.ground.trans hground, h.resubCh.trans hresub, h.select⟩

theorem selects_of_loopStep {a : LoopAction} (ha : (Action.loop a).resumes = true)
    (hstep : s.step cfg (.loop a) = some s') (hground : s'.ground = s.ground)
    (hresub : s'.resubCh.closed = s.resubCh.closed) (hselect : s'.inSelect = true)
    : s.Selects cfg s' :=
  ⟨settles_of_step ha hstep, hground, hresub, hselect⟩

theorem exists_select_of_acquiring (hconc : 0 < cfg.concurrency) {d : Nat}
    (hloop : s.loop = .acquiring c d) : ∃ s', s.Selects cfg s' := by
  have ⟨t, ht, hidle⟩ := @exists_idle _ cfg s
  have hstep : t.step cfg (.loop .acquire) =
      some { t with handlers := t.handlers ++ [⟨c, d, none, false⟩], loop := .selecting } := by
    simp only [step, loopStep, ht.loop, hloop, loopAcquire]
    rw [if_pos (by rw [hidle]; exact hconc)]
  have hselects := selects_of_loopStep rfl hstep rfl rfl (by simp [inSelect])
  exact ⟨_, hselects.trans ht.settles ht.ground (congrArg Chan.closed ht.resubCh)⟩

theorem exists_select_of_notReconnecting (hpaused : s.paused = true)
    (hloop : s.loop = .notReconnecting) : ∃ s', s.Selects cfg s' := by
  have hstep : s.step cfg (.loop .checkPaused) = some { s with loop := .backingOff } := by
    simp [step, loopStep, hloop, hpaused]
  exact ⟨_, selects_of_loopStep rfl hstep rfl rfl (by simp [inSelect, inRecoverSelect])⟩

theorem exists_select_of_polled (hpaused : s.paused = true) (hloop : s.loop = .polled)
    : ∃ s', s.Selects cfg s' := by
  cases hrec : s.reconnecting with
  | true =>
    have hstep : s.step cfg (.loop .checkReconnecting) = some { s with loop := .backingOff } := by
      simp [step, loopStep, hloop, hrec]
    exact ⟨_, selects_of_loopStep rfl hstep rfl rfl (by simp [inSelect, inRecoverSelect])⟩
  | false =>
    have hstep : s.step cfg (.loop .checkReconnecting)
        = some { s with loop := .notReconnecting } := by
      simp [step, loopStep, hloop, hrec]
    have ⟨s', hs'⟩ := @exists_select_of_notReconnecting _ { s with loop := .notReconnecting } cfg
      hpaused rfl
    exact ⟨s', hs'.trans (settles_of_step rfl hstep) rfl rfl⟩

theorem exists_select_of_sawClosed (hpaused : s.paused = true) (hloop : s.loop = .sawClosed)
    : ∃ s', s.Selects cfg s' := by
  have hstep : s.step cfg (.loop (.readPaused false)) = some { s with loop := .parked } := by
    simp [step, loopStep, hloop, loopReadPaused, hpaused]
  exact ⟨_, selects_of_loopStep rfl hstep rfl rfl (by simp [inSelect, inRecoverSelect])⟩

theorem exists_select (hawake : s.Awake) (hconc : 0 < cfg.concurrency) (hpaused : s.paused = true)
    (hctx : s.ctxDone = false) (hreturned : ∀ r, s.loop ≠ .returned r)
    (hsubscribing : s.loop.subscribing = false) (hcancel : s.loop ≠ .brokerCancel)
    : ∃ s', s.Selects cfg s' := by
  have hstops : s.loop.stops = false := by
    cases hstops : s.loop.stops with
    | false => rfl
    | true =>
      rw [hawake.stops hstops] at hctx
      contradiction
  have hhere : s.inSelect = true → ∃ s', s.Selects cfg s' := fun hselect =>
    ⟨s, Run.Reaches.refl s, rfl, rfl, hselect⟩
  cases hloop : s.loop with
  | selecting => exact hhere (by simp [inSelect, hloop])
  | acquiring c d => exact exists_select_of_acquiring hconc hloop
  | sawClosed => exact exists_select_of_sawClosed hpaused hloop
  | polled => exact exists_select_of_polled hpaused hloop
  | notReconnecting => exact exists_select_of_notReconnecting hpaused hloop
  | brokerCancel => exact absurd hloop hcancel
  | returned r => exact absurd hloop (hreturned r)
  | entered | opening p | reopening p => rw [hloop] at hsubscribing; contradiction
  | recoverStop | stopping | cancelling | cancelSent c | draining =>
    rw [hloop] at hstops; contradiction
  | _ => exact hhere (by simp [inSelect, inRecoverSelect, hloop])

theorem exists_adopt {i : Nat} (hselect : s.inSelect = true) (hbuf : s.resubCh.buf = [i])
    : ∃ resubCh, resubCh.buf = [] ∧ resubCh.closed = s.resubCh.closed ∧
        s.step cfg (.loop .adopt) = some { s with cur := some i, resubCh, loop := .selecting } := by
  have hrecv : s.resubCh.recv = some (some i, ⟨[], s.resubCh.closed, Nat.zero_le 1⟩) :=
    Chan.recv_eq_some_some_iff.mpr ⟨hbuf, rfl⟩
  refine ⟨⟨[], s.resubCh.closed, Nat.zero_le 1⟩, rfl, rfl, ?_⟩
  simp only [step, loopStep, loopAdopt, if_pos hselect, hrecv]

theorem exists_drained (h : s.inSelect = true) : ∃ s', s.Selects cfg s' ∧ s'.resubCh.buf = [] := by
  cases hbuf : s.resubCh.buf with
  | nil => exact ⟨s, ⟨Run.Reaches.refl s, rfl, rfl, h⟩, hbuf⟩
  | cons i rest =>
    have hrest : rest = [] := by
      have hcap := s.resubCh.le_cap
      rw [hbuf, length_cons] at hcap
      exact length_eq_zero_iff.mp (by omega)
    have ⟨resubCh, hempty, hclosed, hstep⟩ := @exists_adopt _ s cfg _ h (hrest ▸ hbuf)
    exact ⟨_, selects_of_loopStep rfl hstep rfl hclosed (by simp [inSelect]), hempty⟩

theorem resumeConsume_of_open (hlive : s.live = some c) (hopen : s.chanOpen c = true)
    (hconsumes : s.consumes c = false)
    : s.resumeConsume = some { s.newSub c true with mu := .subscribed s.nextSub } := by
  unfold resumeConsume
  rw [hlive]
  exact if_pos ⟨hopen, hconsumes⟩

structure HandedOver (s : State prefetch) (c : Nat) : Prop where
  mu : s.mu = .handedOver
  live : s.live = some c
  chanOpen : s.chanOpen c = true
  select : s.inSelect = true
  resubCh : ∃ i, s.resubCh.buf = [i] ∧ s.subs i = some ⟨⟨[], false, .idle, .make⟩, c, false, true⟩

theorem exists_handedOver (hmu : s.mu = .free) (hpaused : s.paused = true)
    (hclosed : s.closed = false) (hlive : s.live = some c) (hopen : s.chanOpen c = true)
    (hconsumes : s.consumes c = false) (hselect : s.inSelect = true) (hempty : s.resubCh.buf = [])
    (hresub : s.resubCh.closed = false) : ∃ s', s.Settles cfg s' ∧ s'.HandedOver c := by
  have ⟨resubCh, hsend⟩ : ∃ resubCh, s.resubCh.trySend s.nextSub = some resubCh := by
    refine ⟨⟨[s.nextSub], s.resubCh.closed, Nat.le_refl 1⟩, ?_⟩
    rw [Chan.trySend_eq_some_iff]
    simp [hempty, hresub]
  have hbegin : s.step cfg (.mu .resumeBegin) = some { s with mu := .resuming } := by
    simp [step, muStep, hmu, hpaused, hclosed]
  have hconsume : step cfg { s with mu := .resuming } (.mu .resumeConsumeOk) =
      some { s.newSub c true with mu := .subscribed s.nextSub } :=
    @resumeConsume_of_open _ { s with mu := .resuming } c hlive hopen hconsumes
  have hswap : step cfg { s.newSub c true with mu := .subscribed s.nextSub } (.mu .resumeSwap) =
      some { (s.newSub c true).newCounter with mu := .swapped s.nextSub s.counterState } := rfl
  have hhand : step cfg
      { (s.newSub c true).newCounter with mu := .swapped s.nextSub s.counterState }
      (.mu .resumeSend)
        = some { (s.newSub c true).newCounter with resubCh, mu := .handedOver } := by
    have hsend' : (s.newSub c true).newCounter.resubCh.trySend s.nextSub = some resubCh := hsend
    simp only [step, muStep, hsend']
  have hsubscribed := (settles_of_step rfl hbegin).trans (settles_of_step rfl hconsume)
  have hhanded := (settles_of_step rfl hswap).trans (settles_of_step rfl hhand)
  refine ⟨_, hsubscribed.trans hhanded, ?_⟩
  constructor
  . rfl
  . exact hlive
  . exact chanOpen_of_same hopen rfl rfl
  . exact inSelect_of_same hselect rfl
  . refine ⟨s.nextSub, ?_, ?_⟩
    . exact (trySend_one hsend).2
    . exact Function.update_self _ _ _

theorem HandedOver.exists_resumed (h : s.HandedOver c) : ∃ s', s.Settles cfg s' ∧ s'.Resumed := by
  have ⟨i, hbuf, hsub⟩ := h.resubCh
  have hclear : s.step cfg (.mu .resumeClear) = some { s with paused := false, mu := .free } := by
    simp [step, muStep, h.mu]
  have ⟨resubCh, _, _, hadopt⟩ := @exists_adopt _ { s with paused := false, mu := .free } cfg i
    h.select hbuf
  refine ⟨_, (settles_of_step rfl hclear).trans (settles_of_step rfl hadopt), rfl, rfl, rfl, ?_⟩
  exact ⟨i, _, rfl, hsub, h.live, h.chanOpen, rfl, rfl, rfl, rfl, rfl⟩

theorem resumed_of_open (hconc : 0 < cfg.concurrency) {bootDegraded : Bool} {as : List Action}
    (hrun : Run.run (step cfg) (init prefetch bootDegraded) as = some s)
    (hclosed : s.closed = false) (hpaused : s.paused = true) (hctx : s.ctxDone = false)
    (hreturned : ∀ r, s.loop ≠ .returned r) (hmu : s.mu = .free)
    {c : Nat} (hlive : s.live = some c) (hopen : s.chanOpen c = true)
    (hconsumes : s.consumes c = false) (hsubscribing : s.loop.subscribing = false)
    (hcancel : s.loop ≠ .brokerCancel)
    : ∃ s', s.Settles cfg s' ∧ s'.Resumed := by
  have hawake : s.Awake :=
    Run.inv_of_steps (fun _ _ _ h => awake_step h) (awake_init prefetch bootDegraded) hrun
  have ⟨t, ht⟩ := exists_select hawake hconc hpaused hctx hreturned hsubscribing hcancel
  have ⟨u, hu, hempty⟩ := @exists_drained _ t cfg ht.select
  have hground : u.ground = s.ground := hu.ground.trans ht.ground
  have ⟨v, hv, hhanded⟩ := @exists_handedOver _ u cfg c
    ((congrArg Ground.mu hground).trans hmu) ((congrArg Ground.paused hground).trans hpaused)
    ((congrArg Ground.closed hground).trans hclosed)
    ((congrArg Ground.live hground).trans hlive)
    (chanOpen_of_same hopen (congrArg Ground.chans hground) (congrArg Ground.up hground))
    ((consumes_of_ground hground c).trans hconsumes) hu.select hempty
    (hu.resubCh.trans (ht.resubCh.trans hawake.resubCh))
  have ⟨s', hs', hresumed⟩ := @HandedOver.exists_resumed _ v cfg c hhanded
  exact ⟨s', (ht.settles.trans hu.settles).trans (hv.trans hs'), hresumed⟩

end State

def pausedRun : List Action :=
  .loop .registerHook :: Caller.loop.subscribes ++
    [.mu .pauseBegin, .mu .pauseOk, .pump 0 .seeClosed, .pump 0 .drainClose, .pump 0 .drainCancel,
      .pump 0 .readPaused, .loop .seeClosed, .loop (.readPaused false)]

namespace State

theorem resumed_of_open_pausedRun
    : ∃ s : State 1, Run.run (step plainConsume) (init 1 false) pausedRun = some s ∧
        s.paused = true ∧ s.loop = .parked ∧ ∃ s', s.Settles plainConsume s' ∧ s'.Resumed := by
  have ⟨s, hrun, hclosed, hpaused, hctx, hmu, hloop, hlive, hopen, hconsumes⟩ :=
    (by decide : ∃ s ∈ Run.run (step plainConsume) (init 1 false : State 1) pausedRun,
      s.closed = false ∧ s.paused = true ∧ s.ctxDone = false ∧ s.mu = .free ∧ s.loop = .parked ∧
      s.live = some 0 ∧ s.chanOpen 0 = true ∧ s.consumes 0 = false)
  refine ⟨s, hrun, hpaused, hloop, ?_⟩
  apply resumed_of_open (by decide) hrun hclosed hpaused hctx _ hmu hlive hopen hconsumes
  . rw [hloop]
    rfl
  . rw [hloop]
    simp
  . rw [hloop]
    simp

end State
end Subscription
