import Warren.Consumer.Subscription.Wf

/-!
Why a pump comes to its end.
-/

namespace Subscription

open Function Option

def LoopPhase.recovering : LoopPhase → Bool
  | .sawClosed => true
  | .parked => true
  | .guarding => true
  | .polling => true
  | .polled => true
  | .notReconnecting => true
  | .reopening _ => true
  | .backingOff => true
  | .recoverStop => true
  | _ => false

def LoopPhase.brokerCancelled : LoopPhase → Bool
  | .brokerCancel => true
  | .returned .cancelled => true
  | _ => false

def Channel.Notified (ch : Channel) : Prop :=
  ch.closeCh.buf ≠ [] ∨ ch.closeCh.closed = true ∨ ch.cancelCh.closed = true

namespace State

variable {prefetch : Nat}

def Dead (s : State prefetch) (sub : Sub prefetch) : Prop :=
  sub.cancelled = true ∨ s.chanOpen sub.chan = false

def Excused (s : State prefetch) : Prop :=
  s.ctxDone = true ∨ s.cancelReasonCh.buf ≠ [] ∨ s.loop.brokerCancelled = true

structure SubEnded (s : State prefetch) (sub : Sub prefetch) : Prop where
  closed : sub.closed = true → s.Dead sub
  stopped : stopping sub.pump = true → s.Dead sub ∨ s.Excused
  out : sub.out.closed = true → stopping sub.pump = true

structure Ended (s : State prefetch) : Prop where
  subs : ∀ {i sub}, s.subs i = some sub → s.SubEnded sub
  chans : ∀ {c ch}, s.chans c = some ch → ch.Notified → ch.died = true
  recovering : s.loop.recovering = true → ∃ i sub, s.cur = some i ∧ s.subs i = some sub ∧
    sub.out.closed = true ∧ sub.out.buf = []

variable {s s' : State prefetch}

variable {c i : Nat} {ch : Channel} {sub sub' : Sub prefetch} {p : OpenPhase} {t : State prefetch}
  {who : Caller} {cfg : Config}

theorem chanOpen_of_evolves (hwf : s.Wf) (he : s.Evolves s') (hch : s.chans c = some ch)
    (h : s'.chanOpen c = true) : s.chanOpen c = true := by
  rw [chanOpen_iff] at h ⊢
  have ⟨ch', hch', hdied', hup'⟩ := h
  have ⟨ch₁, hch₁, hsocket, hdied⟩ := he.chans hch
  rw [hch'] at hch₁
  cases hch₁
  refine ⟨ch, hch, ?_, ?_⟩
  . rw [Bool.eq_false_iff] at hdied' ⊢
    exact mt hdied hdied'
  . rw [hsocket] at hup'
    rcases he.up with hup | hup | ⟨hup, _⟩
    . rw [← hup, hup']
    . rw [hup] at hup'
      contradiction
    . have hlt := hwf.socket_lt hch
      rw [hup, some.injEq] at hup'
      omega

theorem Dead.of_evolves (hwf : s.Wf) (he : s.Evolves s') (hsub : s.subs i = some sub)
    (hchan : sub'.chan = sub.chan) (hcancelled : sub.cancelled = true → sub'.cancelled = true)
    (h : s.Dead sub) : s'.Dead sub' := by
  cases h with
  | inl h => exact .inl (hcancelled h)
  | inr h =>
    right
    have ⟨ch, hch⟩ := hwf.sub_chan hsub
    rw [Bool.eq_false_iff] at h ⊢
    rw [hchan]
    exact mt (chanOpen_of_evolves hwf he hch) h

theorem SubEnded.of_evolves (hwf : s.Wf) (he : s.Evolves s') (hexcused : s.Excused → s'.Excused)
    (hsub : s.subs i = some sub) (hchan : sub'.chan = sub.chan)
    (hcancelled : sub.cancelled = true → sub'.cancelled = true)
    (hclosed : sub'.closed = true → sub.closed = true)
    (hpump : stopping sub'.pump = stopping sub.pump)
    (hout : sub'.out.closed = true → sub.out.closed = true) (h : s.SubEnded sub)
    : s'.SubEnded sub' where
  closed := fun hc => (h.closed (hclosed hc)).of_evolves hwf he hsub hchan hcancelled
  stopped := by
    intro hstop
    rw [hpump] at hstop
    exact (h.stopped hstop).imp (·.of_evolves hwf he hsub hchan hcancelled) hexcused
  out := by
    rw [hpump]
    exact fun hc => h.out (hout hc)

structure Onward (s s' : State prefetch) : Prop where
  excused : s.Excused → s'.Excused
  recovering : s'.loop.recovering = true → s.loop.recovering = true ∧ s'.cur = s.cur

structure Flow where
  loop : LoopPhase
  cur : Option Nat
  ctxDone : Bool
  cancelReasonCh : Chan Unit 1

def flow (s : State prefetch) : Flow := ⟨s.loop, s.cur, s.ctxDone, s.cancelReasonCh⟩

theorem onward_of_flow (hflow : s'.flow = s.flow) : s.Onward s' := by
  have hloop : s'.loop = s.loop := congrArg Flow.loop hflow
  have hcur : s'.cur = s.cur := congrArg Flow.cur hflow
  have hctx : s'.ctxDone = s.ctxDone := congrArg Flow.ctxDone hflow
  have hreason : s'.cancelReasonCh = s.cancelReasonCh := congrArg Flow.cancelReasonCh hflow
  constructor
  . unfold Excused
    rw [hctx, hreason, hloop]
    exact id
  . exact fun h => ⟨hloop ▸ h, hcur⟩

theorem Ended.of_tables (hwf : s.Wf) (h : s.Ended) (he : s.Evolves s') (hsubs : s'.subs = s.subs)
    (hchans : s'.chans = s.chans) (hon : s.Onward s') : s'.Ended where
  subs := by
    intro i sub hsub
    rw [hsubs] at hsub
    exact (h.subs hsub).of_evolves hwf he hon.excused hsub rfl id id rfl id
  chans := hchans ▸ h.chans
  recovering := by
    intro hrec
    have ⟨hrec, hcur⟩ := hon.recovering hrec
    rw [hcur, hsubs]
    exact h.recovering hrec

theorem ended_init (prefetch : Nat) (bootDegraded : Bool) : (init prefetch bootDegraded).Ended where
  subs := by
    intro i sub h
    contradiction
  chans := by
    intro c ch h
    contradiction
  recovering := by
    intro h
    contradiction

theorem Ended.of_setSub (hwf : s.Wf) (h : s.Ended) (he : s.Evolves s') (hsub : s.subs i = some sub)
    (hsubs : s'.subs = update s.subs i (some sub')) (hchans : s'.chans = s.chans)
    (hended : s'.SubEnded sub') (hon : s.Onward s')
    (hout : sub.out.closed = true → sub.out.buf = [] → sub'.out.closed = true ∧ sub'.out.buf = [])
    : s'.Ended where
  subs := by
    intro j subj hj
    rw [hsubs] at hj
    by_cases heq : j = i
    . subst heq
      rw [update_self] at hj
      cases hj
      exact hended
    . rw [update_of_ne heq] at hj
      exact (h.subs hj).of_evolves hwf he hon.excused hj rfl id id rfl id
  chans := hchans ▸ h.chans
  recovering := by
    intro hrec
    have ⟨hrec, hcur⟩ := hon.recovering hrec
    have ⟨j, subj, hj, hsubj, hclosed, hbuf⟩ := h.recovering hrec
    rw [hcur, hsubs]
    by_cases heq : j = i
    . subst heq
      rw [hsub] at hsubj
      cases hsubj
      exact ⟨j, sub', hj, update_self j _ _, hout hclosed hbuf⟩
    . exact ⟨j, subj, hj, by rwa [update_of_ne heq], hclosed, hbuf⟩

theorem Ended.of_mapSubs (hwf : s.Wf) (h : s.Ended) (he : s.Evolves s')
    {f : Sub prefetch → Sub prefetch}
    (hsubs : s'.subs = fun i => (s.subs i).map (fun sub => if sub.chan = c then f sub else sub))
    (hchans : s'.chans = s.chans) (hon : s.Onward s') (hchan : ∀ sub, (f sub).chan = sub.chan)
    (hcancelled : ∀ sub, sub.cancelled = true → (f sub).cancelled = true)
    (hclosed : ∀ sub, sub.chan = c → (f sub).closed = true → sub.closed = true ∨ s'.Dead (f sub))
    (hpump : ∀ sub, (f sub).pump = sub.pump) (hout : ∀ sub, (f sub).out = sub.out) : s'.Ended where
  subs := by
    intro i sub' hsub'
    rw [hsubs] at hsub'
    have ⟨sub, hsub, heq⟩ := map_eq_some_iff.mp hsub'
    have hold := h.subs hsub
    split at heq
    . next hc =>
      subst heq
      have hdead : s.Dead sub → s'.Dead (f sub) :=
        (·.of_evolves hwf he hsub (hchan sub) (hcancelled sub))
      constructor
      . intro hclosed'
        cases hclosed sub hc hclosed' with
        | inl hc => exact hdead (hold.closed hc)
        | inr hd => exact hd
      . rw [hpump]
        exact fun hstop => (hold.stopped hstop).imp hdead hon.excused
      . rw [hpump, hout]
        exact hold.out
    . subst heq
      exact hold.of_evolves hwf he hon.excused hsub rfl id id rfl id
  chans := hchans ▸ h.chans
  recovering := by
    intro hrec
    have ⟨hrec, hcur⟩ := hon.recovering hrec
    have ⟨i, sub, hi, hsub, hend⟩ := h.recovering hrec
    refine ⟨i, if sub.chan = c then f sub else sub, hcur ▸ hi, ?_, ?_⟩
    . rw [hsubs]
      simp [hsub]
    . split
      . rw [hout]
        exact hend
      . exact hend

theorem Ended.cancelOn (hwf : s.Wf) (h : s.Ended) (he : s.Evolves s')
    (hsubs : s'.subs = (s.cancelOn c).subs) (hchans : s'.chans = s.chans) (hon : s.Onward s')
    : s'.Ended :=
  h.of_mapSubs hwf he hsubs hchans hon (fun _ => rfl) (fun _ _ => rfl)
    (fun _ _ _ => .inr (.inl rfl)) (fun _ => rfl) (fun _ => rfl)

theorem Ended.of_chans (hwf : s.Wf) (h : s.Ended) (he : s.Evolves s') (hsubs : s'.subs = s.subs)
    (hchans : ∀ {c ch}, s'.chans c = some ch → ch.Notified → ch.died = true) (hon : s.Onward s')
    : s'.Ended where
  subs := by
    intro i sub hsub
    rw [hsubs] at hsub
    exact (h.subs hsub).of_evolves hwf he hon.excused hsub rfl id id rfl id
  chans := hchans
  recovering := by
    intro hrec
    have ⟨hrec, hcur⟩ := hon.recovering hrec
    rw [hcur, hsubs]
    exact h.recovering hrec

theorem subEnded_new (s : State prefetch) (c : Nat) (started : Bool)
    : s.SubEnded ⟨⟨[], false, .idle, .make⟩, c, false, started⟩ where
  closed := fun h => by contradiction
  stopped := fun h => by contradiction
  out := fun h => by contradiction

theorem Ended.newSub (hwf : s.Wf) (h : s.Ended) {started : Bool} (he : s.Evolves s')
    (hsubs : s'.subs = (s.newSub c started).subs) (hchans : s'.chans = s.chans) (hon : s.Onward s')
    : s'.Ended where
  subs := by
    intro i sub hsub
    rw [hsubs] at hsub
    by_cases heq : i = s.nextSub
    . subst heq
      have hnew : some _ = some sub := (update_self s.nextSub _ _).symm.trans hsub
      exact some.inj hnew ▸ subEnded_new s' c started
    . have hold : s.subs i = some sub := (update_of_ne heq _ _).symm.trans hsub
      exact (h.subs hold).of_evolves hwf he hon.excused hold rfl id id rfl id
  chans := hchans ▸ h.chans
  recovering := by
    intro hrec
    have ⟨hrec, hcur⟩ := hon.recovering hrec
    have ⟨i, sub, hi, hsub, hout⟩ := h.recovering hrec
    refine ⟨i, sub, hcur ▸ hi, ?_, hout⟩
    rw [hsubs]
    exact (update_of_ne (hwf.ne_nextSub hsub) _ _).trans hsub

theorem loop_of_openPhase (h : s.openPhase .loop = some p)
    : s.loop = .opening p ∨ s.loop = .reopening p := by
  unfold openPhase at h
  dsimp only at h
  split at h
  . next q hloop => exact .inl (by rw [hloop, some.inj h])
  . next q hloop => exact .inr (by rw [hloop, some.inj h])
  . contradiction

theorem onward_of_loop (hloop : s.loop.brokerCancelled = false) (hctx : s'.ctxDone = s.ctxDone)
    (hreason : s'.cancelReasonCh = s.cancelReasonCh)
    (hrecovering : s'.loop.recovering = true → s.loop.recovering = true ∧ s'.cur = s.cur)
    : s.Onward s' := by
  refine ⟨?_, hrecovering⟩
  rintro (hex | hex | hex)
  . exact .inl (hctx.trans hex)
  . exact .inr (.inl (hreason ▸ hex))
  . rw [hloop] at hex
    contradiction

theorem onward_of_openPhase (h : s.openPhase .loop = some p) (hctx : s'.ctxDone = s.ctxDone)
    (hreason : s'.cancelReasonCh = s.cancelReasonCh) (hcur : s'.loop.recovering = true → s'.cur = s.cur)
    (hopening : s.loop = .opening p → s'.loop.recovering = false)
    : s.Onward s' := by
  cases loop_of_openPhase h with
  | inl hloop =>
    refine onward_of_loop (by rw [hloop]; rfl) hctx hreason (fun hrec => ?_)
    rw [hopening hloop] at hrec
    contradiction
  | inr hloop =>
    refine onward_of_loop (by rw [hloop]; rfl) hctx hreason (fun hrec => ⟨?_, hcur hrec⟩)
    rw [hloop]
    rfl

theorem onward_openGoto {q : OpenPhase} (h : s.openPhase who = some p) (hflow : t.flow = s.flow)
    : s.Onward (t.openGoto who q) := by
  have hloop : t.loop = s.loop := congrArg Flow.loop hflow
  cases who with
  | hook b => exact onward_of_flow hflow
  | loop =>
    refine onward_of_openPhase h (congrArg Flow.ctxDone hflow) (congrArg Flow.cancelReasonCh hflow)
      (fun _ => congrArg Flow.cur hflow) (fun hl => ?_)
    rw [openGoto, hloop, hl]
    rfl

theorem onward_openFail (h : s.openPhase who = some p) (hflow : t.flow = s.flow)
    : s.Onward (t.openFail who) := by
  have hloop : t.loop = s.loop := congrArg Flow.loop hflow
  cases who with
  | hook b => exact onward_of_flow hflow
  | loop =>
    refine onward_of_openPhase h (congrArg Flow.ctxDone hflow) (congrArg Flow.cancelReasonCh hflow)
      (fun _ => congrArg Flow.cur hflow) (fun hl => ?_)
    rw [openFail, hloop, hl]
    rfl

theorem onward_openReturn (h : s.openPhase who = some p) (hflow : t.flow = s.flow)
    : s.Onward (t.openReturn who i) := by
  cases who with
  | hook b => exact onward_of_flow hflow
  | loop =>
    exact onward_of_openPhase h (congrArg Flow.ctxDone hflow) (congrArg Flow.cancelReasonCh hflow)
      (fun hrec => by contradiction) (fun _ => rfl)

theorem notified_closeChan {c' : Nat} (h : s.Ended) (hch : (s.closeChan c).chans c' = some ch)
    (hn : ch.Notified) : ch.died = true := by
  unfold closeChan at hch
  dsimp only at hch
  by_cases heq : c' = c
  . subst heq
    rw [update_self] at hch
    have ⟨ch₀, _, heq⟩ := map_eq_some_iff.mp hch
    rw [← heq]
  . rw [update_of_ne heq] at hch
    exact h.chans hch hn

theorem notified_newChan {socket : Nat} (h : s.Ended) (hch : (s.newChan socket).chans c = some ch)
    (hn : ch.Notified) : ch.died = true := by
  by_cases heq : c = s.nextChan
  . subst heq
    have hnew : some _ = some ch := (update_self s.nextChan _ _).symm.trans hch
    rw [← some.inj hnew] at hn
    rcases hn with hn | hn | hn
    . exact absurd rfl hn
    all_goals contradiction
  . exact h.chans ((update_of_ne heq _ _).symm.trans hch) hn

theorem ended_of_openMove (hwf : s.Wf) (h : s.Ended) {a : OpenAction} (hmove : s.OpenMove who a s')
    : s'.Ended := by
  have he := evolves_of_openMove hwf hmove
  cases hmove with
  | rotate hphase =>
    have htables := tables_openGoto s.newCounter who .reading
    exact h.of_tables hwf he (congrArg Tables.subs htables) (congrArg Tables.chans htables)
      (onward_openGoto hphase rfl)
  | notConnected hphase | channelErr socket hphase =>
    have htables := tables_openFail s who
    exact h.of_tables hwf he (congrArg Tables.subs htables) (congrArg Tables.chans htables)
      (onward_openFail hphase rfl)
  | readRaw socket hphase =>
    have htables := tables_openGoto s who (.opening socket)
    exact h.of_tables hwf he (congrArg Tables.subs htables) (congrArg Tables.chans htables)
      (onward_openGoto hphase rfl)
  | channelOk socket hphase =>
    have htables := tables_openGoto (s.newChan socket) who (.subscribing s.nextChan)
    have hchans : _ = (s.newChan socket).chans := congrArg Tables.chans htables
    refine h.of_chans hwf he (congrArg Tables.subs htables) ?_ (onward_openGoto hphase rfl)
    intro c ch hch
    exact notified_newChan h ((congrFun hchans c).symm.trans hch)
  | consumeOk c hphase =>
    have htables := tables_openGoto (s.newSub c false) who (.publishing s.nextSub)
    exact h.newSub hwf he (congrArg Tables.subs htables) (congrArg Tables.chans htables)
      (onward_openGoto hphase rfl)
  | consumeErr c hphase =>
    have htables := tables_openFail (s.closeChan c) who
    have hchans : _ = (s.closeChan c).chans := congrArg Tables.chans htables
    refine h.of_chans hwf he (congrArg Tables.subs htables) ?_ (onward_openFail hphase rfl)
    intro c' ch hch
    exact notified_closeChan h ((congrFun hchans c').symm.trans hch)
  | publish i sub hphase hsub =>
    let t := { s with live := some sub.chan, paused := false }.setSub i { sub with started := true }
    have htables := tables_openReturn t who i
    have hon : s.Onward (t.openReturn who i) := onward_openReturn hphase rfl
    have hended : (t.openReturn who i).SubEnded { sub with started := true } :=
      (h.subs hsub).of_evolves hwf he hon.excused hsub rfl id id rfl id
    exact h.of_setSub hwf he hsub (congrArg Tables.subs htables) (congrArg Tables.chans htables)
      hended hon (fun hc hbuf => ⟨hc, hbuf⟩)

theorem recovering_of_inRecoverSelect (h : s.inRecoverSelect = true) : s.loop.recovering = true := by
  rcases of_decide_eq_true h with hloop | hloop | hloop | hloop
  . rw [hloop]; rfl
  . rw [hloop]; rfl
  . rw [hloop]; rfl
  . rw [hloop]; rfl

theorem brokerCancelled_of_recovering {loop : LoopPhase} (h : loop.recovering = true)
    : loop.brokerCancelled = false := by
  unfold LoopPhase.recovering at h
  split at h
  all_goals first | rfl | contradiction

theorem brokerCancelled_of_inSelect (h : s.inSelect = true) : s.loop.brokerCancelled = false := by
  cases of_decide_eq_true h with
  | inl hloop => rw [hloop]; rfl
  | inr hselect => exact brokerCancelled_of_recovering (recovering_of_inRecoverSelect hselect)

theorem onward_of_loopMove {a : LoopAction} (hmove : s.LoopMove cfg a s') (ha : a ≠ .seeClosed)
    : s.Onward s' := by
  cases hmove with
  | recoverStop hselect =>
    have hrec := recovering_of_inRecoverSelect hselect
    exact onward_of_loop (brokerCancelled_of_recovering hrec) rfl rfl (fun _ => ⟨hrec, rfl⟩)
  | adopt i resubCh hselect =>
    exact onward_of_loop (brokerCancelled_of_inSelect hselect) rfl rfl (fun hrec => by contradiction)
  | brokerCancel | waitBrokerCancel =>
    exact ⟨fun _ => .inr (.inr rfl), fun hrec => by contradiction⟩
  | seeClosed => contradiction
  | drain =>
    rw [sendFrame_eq]
    exact onward_of_flow rfl
  | _ =>
    refine onward_of_loop ?_ rfl rfl ?_
    . simp [LoopPhase.brokerCancelled, *]
    . simp [LoopPhase.recovering, *]

theorem ended_of_loopMove (hwf : s.Wf) (h : s.Ended) {a : LoopAction} (hmove : s.LoopMove cfg a s')
    : s'.Ended := by
  have he := evolves_of_loopMove hmove
  have hon : a ≠ .seeClosed → s.Onward s' := onward_of_loopMove hmove
  have hrecv : ∀ {i sub d} {out : Chan Nat prefetch}, s.subs i = some sub →
      sub.out.recv = some (some d, out) → s.Onward s' →
      s'.SubEnded { sub with out } ∧
      (sub.out.closed = true → sub.out.buf = [] → out.closed = true ∧ out.buf = []) := by
    intro i sub d out hsub hrecv hon
    have ⟨hbuf, hclosed⟩ := Chan.recv_eq_some_some_iff.mp hrecv
    constructor
    . exact (h.subs hsub).of_evolves hwf he hon.excused hsub rfl id id rfl (hclosed ▸ id)
    . intro _ hempty
      rw [hempty] at hbuf
      contradiction
  cases hmove with
  | seeClosed i sub hloop hcur hsub hbuf hclosed =>
    constructor
    . intro j subj hj
      refine (h.subs hj).of_evolves hwf he ?_ hj rfl id id rfl id
      rintro (hex | hex | hex)
      . exact .inl hex
      . exact .inr (.inl hex)
      . rw [hloop] at hex
        contradiction
    . exact h.chans
    . exact fun _ => ⟨i, sub, hcur, hsub, hclosed, hbuf⟩
  | recv i sub d out _ _ hsub hr | drainErr i sub d out _ _ hsub hr =>
    have hon := hon (by simp)
    have ⟨hended, hout⟩ := hrecv hsub hr hon
    exact h.of_setSub hwf he hsub rfl rfl hended hon hout
  | cancelOk c => exact h.cancelOn hwf he rfl rfl (hon (by simp))
  | drain i sub d out _ _ _ hsub hr =>
    have hon := hon (by simp)
    have ⟨hended, hout⟩ := hrecv hsub hr hon
    rw [sendFrame_eq] at he hended hon ⊢
    exact h.of_setSub hwf he hsub rfl rfl hended hon hout
  | _ => exact h.of_tables hwf he rfl rfl (hon (by simp))

theorem ended_of_muMove (hwf : s.Wf) (h : s.Ended) {a : MuAction} (hmove : s.MuMove a s')
    : s'.Ended := by
  have he := evolves_of_muMove hwf hmove
  cases hmove with
  | pauseOk c | rollbackOk i c => exact h.cancelOn hwf he rfl rfl (onward_of_flow rfl)
  | resumeConsumeOk c => exact h.newSub hwf he rfl rfl (onward_of_flow rfl)
  | _ => exact h.of_tables hwf he rfl rfl (onward_of_flow rfl)

theorem excused_pumpPut {cancelReasonCh : Chan Unit 1}
    (hreason : Forwarded s.cancelReasonCh cancelReasonCh) (h : s.Excused)
    : (s.pumpPut i sub ch cancelReasonCh).Excused := by
  rcases h with h | h | h
  . exact .inl h
  . exact .inr (.inl (mt hreason.buf h))
  . exact .inr (.inr h)

theorem Ended.of_pumpPut (hwf : s.Wf) (h : s.Ended) {ch' : Channel} {cancelReasonCh : Chan Unit 1}
    (hsub : s.subs i = some sub) (hch : s.chans sub.chan = some ch)
    (he : s.Evolves (s.pumpPut i sub' ch' cancelReasonCh)) (hdied : ch'.died = ch.died)
    (hnotified : ch'.Notified → ch.Notified) (hreason : Forwarded s.cancelReasonCh cancelReasonCh)
    (hended : (s.pumpPut i sub' ch' cancelReasonCh).SubEnded sub')
    (hout : sub.out.closed = true → sub.out.buf = [] → sub'.out.closed = true ∧ sub'.out.buf = [])
    : (s.pumpPut i sub' ch' cancelReasonCh).Ended := by
  constructor
  . intro j subj hj
    by_cases heq : j = i
    . subst heq
      have hnew : some sub' = some subj := (update_self j _ _).symm.trans hj
      exact some.inj hnew ▸ hended
    . have hold : s.subs j = some subj := (update_of_ne heq _ _).symm.trans hj
      exact (h.subs hold).of_evolves hwf he (excused_pumpPut hreason) hold rfl id id rfl id
  . intro c chc hc hn
    by_cases heq : c = sub'.chan
    . subst heq
      have hnew : some ch' = some chc := (update_self sub'.chan _ _).symm.trans hc
      rw [← some.inj hnew] at hn ⊢
      rw [hdied]
      exact h.chans hch (hnotified hn)
    . exact h.chans ((update_of_ne heq _ _).symm.trans hc) hn
  . intro hrec
    have ⟨j, subj, hj, hsubj, hclosed, hbuf⟩ := h.recovering hrec
    by_cases heq : j = i
    . subst heq
      rw [hsub] at hsubj
      cases hsubj
      exact ⟨j, sub', hj, update_self j _ _, hout hclosed hbuf⟩
    . exact ⟨j, subj, hj, (update_of_ne heq _ _).trans hsubj, hclosed, hbuf⟩

theorem dead_of_died (hch : s.chans sub.chan = some ch) (hdied : ch.died = true) : s.Dead sub := by
  right
  rw [Bool.eq_false_iff]
  intro hopen
  have ⟨ch', hch', hdied', _⟩ := chanOpen_iff.mp hopen
  rw [hch, some.injEq] at hch'
  rw [← hch', hdied] at hdied'
  contradiction

theorem notified_of_received {closeCh cancelCh : Chan Unit 1} {done : Bool}
    (hclose : Received ch.closeCh closeCh) (hcancel : Received ch.cancelCh cancelCh)
    (h : { ch with closeCh, cancelCh, done }.Notified) : ch.Notified := by
  rcases h with h | h | h
  . exact .inl (mt hclose.buf h)
  . exact .inr (.inl (hclose.closed ▸ h))
  . exact .inr (.inr (hcancel.closed ▸ h))

theorem ended_of_pumpMove (hwf : s.Wf) (h : s.Ended) {a : Pause.PumpAction}
    (hsub : s.subs i = some sub) (hch : s.chans sub.chan = some ch)
    (hmove : s.PumpMove i sub ch a s') : s'.Ended := by
  have he := evolves_of_pumpMove hsub hch hmove
  have hold := h.subs hsub
  have hdead : ∀ {toSub : Pause.Sub prefetch}, s.Dead sub → s'.Dead { sub with toSub } :=
    fun hdead => hdead.of_evolves hwf he hsub rfl id
  have hnotified : ch.Notified → s.Dead sub := fun hn => dead_of_died hch (h.chans hch hn)
  cases hmove with
  | take d queue hpump hqueue =>
    refine h.of_pumpPut hwf hsub hch he rfl id (.refl _) ?_ (fun hc hbuf => ⟨hc, hbuf⟩)
    refine ⟨fun hc => hdead (hold.closed hc), fun hstop => by contradiction, ?_⟩
    intro hc
    have hstop := hold.out hc
    rw [hpump] at hstop
    contradiction
  | send d out hpump hsend =>
    have ⟨hopen, _, _, hclosed⟩ := Chan.trySend_eq_some_iff.mp hsend
    refine h.of_pumpPut hwf hsub hch he rfl id (.refl _) ?_ ?_
    . refine ⟨fun hc => hdead (hold.closed hc), fun hstop => by contradiction, ?_⟩
      intro hc
      rw [hclosed, hopen] at hc
      contradiction
    . intro hc
      rw [hopen] at hc
      contradiction
  | seeClosed hpump hqueue hclosed =>
    refine h.of_pumpPut hwf hsub hch he rfl id (.refl _) ?_ (fun hc hbuf => ⟨hc, hbuf⟩)
    exact ⟨fun hc => hdead (hold.closed hc), fun _ => .inl (hdead (hold.closed hclosed)),
      fun _ => rfl⟩
  | advance a pump out closeCh cancelCh cancelReasonCh done hpump hpump' hout hclose hcancel
      hreason =>
    refine h.of_pumpPut hwf hsub hch he rfl (notified_of_received hclose hcancel) hreason ?_ ?_
    . exact ⟨fun hc => hdead (hold.closed hc),
        fun _ => (hold.stopped hpump).imp hdead (excused_pumpPut hreason), fun _ => hpump'⟩
    . intro hc hbuf
      cases hout with
      | inl hsame => exact hsame ▸ ⟨hc, hbuf⟩
      | inr hclosed => exact hclosed ▸ ⟨rfl, hbuf⟩
  | recvCancel cancelCh cancelReasonCh hpump hcancel hreason hready =>
    refine h.of_pumpPut hwf hsub hch he rfl (notified_of_received (.refl _) hcancel) hreason ?_
      (fun hc hbuf => ⟨hc, hbuf⟩)
    refine ⟨fun hc => hdead (hold.closed hc), fun _ => ?_, fun _ => rfl⟩
    rcases hready with hready | hready | hready
    . exact .inr (.inr (.inl hready))
    . rw [hreason.closed, hwf.reason_closed] at hready
      contradiction
    . exact .inl (hdead (hnotified (.inr (.inr hready))))
  | recvClose closeCh hpump hclose hready =>
    refine h.of_pumpPut hwf hsub hch he rfl (notified_of_received hclose (.refl _)) (.refl _) ?_
      (fun hc hbuf => ⟨hc, hbuf⟩)
    have hd : s.Dead sub := hnotified (hready.imp id .inl)
    exact ⟨fun hc => hdead (hold.closed hc), fun _ => .inl (hdead hd), fun _ => rfl⟩
  | ctx hpump hctx =>
    refine h.of_pumpPut hwf hsub hch he rfl id (.refl _) ?_ (fun _ hbuf => ⟨rfl, hbuf⟩)
    exact ⟨fun hc => hdead (hold.closed hc), fun _ => .inr (.inl hctx), fun _ => rfl⟩

theorem ended_of_handlerMove (hwf : s.Wf) (h : s.Ended) {hd : Handler} {a : HandlerAction}
    (hmove : s.HandlerMove cfg hd a s') : s'.Ended := by
  have he := evolves_of_handlerMove hmove
  rw [handlerMove_eq hmove] at he ⊢
  exact h.of_tables hwf he rfl rfl (onward_of_flow rfl)

theorem Ended.of_setChan (hwf : s.Wf) (h : s.Ended) (he : s.Evolves (s.setChan c ch))
    (hnotified : ch.Notified → ch.died = true) : (s.setChan c ch).Ended := by
  refine h.of_chans hwf he rfl ?_ (onward_of_flow rfl)
  intro c' ch' hch'
  by_cases heq : c' = c
  . subst heq
    have hnew : some ch = some ch' := (update_self c' _ _).symm.trans hch'
    exact some.inj hnew ▸ hnotified
  . exact h.chans ((update_of_ne heq _ _).symm.trans hch')

theorem ended_of_envMove (hwf : s.Wf) (h : s.Ended) {a : EnvAction} (hmove : s.EnvMove a s')
    : s'.Ended := by
  have he := evolves_of_envMove hmove
  cases hmove with
  | deliver i d sub hsub =>
    exact h.of_setSub hwf he hsub rfl rfl
      ((h.subs hsub).of_evolves hwf he (onward_of_flow rfl).excused hsub rfl id id rfl id)
      (onward_of_flow rfl) (fun hc hbuf => ⟨hc, hbuf⟩)
  | cancelCtx => exact h.of_tables hwf he rfl rfl ⟨fun _ => .inl rfl, fun hrec => ⟨hrec, rfl⟩⟩
  | die c ch closeCh hch => exact h.of_setChan hwf he (fun _ => rfl)
  | dieStreams c ch hch hdied =>
    refine h.of_mapSubs hwf he rfl rfl (onward_of_flow rfl) (fun _ => rfl) (fun _ => id) ?_
      (fun _ => rfl) (fun _ => rfl)
    intro sub hc _
    exact .inr (dead_of_died (hc ▸ hch) hdied)
  | cancelByBroker c ch cancelCh hch hclosed =>
    have heChan : s.Evolves (s.setChan c { ch with cancelCh }) := evolves_of_setChan hch rfl id
    have hChan : (s.setChan c { ch with cancelCh }).Ended := by
      refine h.of_setChan hwf heChan ?_
      intro hn
      have hold : ch.Notified := hn.imp id (Or.imp id (hclosed ▸ ·))
      have hdied : ch.died = true := h.chans hch hold
      exact hdied
    exact hChan.of_mapSubs (hwf.of_same_refs heChan rfl rfl) (evolves_of_endConsumes _ c) rfl rfl
      (onward_of_flow rfl) (fun _ => rfl) (fun _ _ => rfl) (fun _ _ => .inl) (fun _ => rfl)
      (fun _ => rfl)
  | endStream i sub hsub hcancelled =>
    have hold := h.subs hsub
    refine h.of_setSub hwf he hsub rfl rfl ?_ (onward_of_flow rfl) (fun hc hbuf => ⟨hc, hbuf⟩)
    exact ⟨fun _ => .inl hcancelled, fun _ => .inl (.inl hcancelled), hold.out⟩
  | _ => exact h.of_tables hwf he rfl rfl (onward_of_flow rfl)

theorem ended_step {a : Action} (hwf : s.Wf) (h : s.Ended) (hstep : s.step cfg a = some s')
    : s'.Ended := by
  cases a with
  | openDeliveryCh who a => exact ended_of_openMove hwf h (openStep_move hstep)
  | loop a => exact ended_of_loopMove hwf h (loopStep_move hstep)
  | hook b a =>
    have hmove := hookStep_move hstep
    have he := evolves_of_hookMove hmove
    cases hmove with
    | _ => exact h.of_tables hwf he rfl rfl (onward_of_flow rfl)
  | mu a => exact ended_of_muMove hwf h (muStep_move hstep)
  | pump i a =>
    have ⟨sub, ch, hsub, hch, _, hmove⟩ := pumpStep_move hstep
    exact ended_of_pumpMove hwf h hsub hch hmove
  | handler hd a => exact ended_of_handlerMove hwf h (handlerStep_move hstep).2
  | super a =>
    have hmove := superStep_move hstep
    have he := evolves_of_superMove hmove
    cases hmove with
    | _ => exact h.of_tables hwf he rfl rfl (onward_of_flow rfl)
  | env a => exact ended_of_envMove hwf h (envStep_move hstep)

section Run

variable {bootDegraded : Bool} {as : List Action}

theorem wf_of_run (hrun : Run.run (step cfg) (init prefetch bootDegraded) as = some s)
    : s.Wf ∧ s.Ended := by
  refine Run.inv_of_steps (I := fun s => s.Wf ∧ s.Ended) ?_ ⟨wf_init _ _, ended_init _ _⟩ hrun
  intro s a s' h hstep
  exact ⟨wf_step h.1 hstep, ended_step h.1 h.2 hstep⟩

/--
The loop recovers only when its pump has closed the channel and it has read all that the pump has
sent, and the pump has not stopped for nothing.
-/
theorem recovers_of_run (hrun : Run.run (step cfg) (init prefetch bootDegraded) as = some s)
    (hrecovering : s.loop.recovering = true)
    : ∃ i sub, s.cur = some i ∧ s.subs i = some sub ∧ sub.out.closed = true ∧ sub.out.buf = [] ∧
        (s.Dead sub ∨ s.Excused) := by
  have h := (wf_of_run hrun).2
  obtain ⟨i, sub, hcur, hsub, hclosed, hbuf⟩ := h.recovering hrecovering
  have hstopped := (h.subs hsub).out hclosed
  exact ⟨i, sub, hcur, hsub, hclosed, hbuf, (h.subs hsub).stopped hstopped⟩

end Run

def channelLostRun : List Action :=
  .loop .registerHook :: Caller.loop.subscribes ++
    [.env (.die 0), .pump 0 .recvClose, .pump 0 .closeDone, .loop .seeClosed]

theorem recovers_of_run_channelLost
    : ∃ s : State 1, Run.run (step plainConsume) (init 1 false) channelLostRun = some s
        ∧ ∃ i sub, s.cur = some i ∧ s.subs i = some sub ∧ sub.out.closed = true ∧
          sub.out.buf = [] ∧ (s.Dead sub ∨ s.Excused) := by
  obtain ⟨s, hrun, hrecovering⟩ :=
    (by decide : ∃ s ∈ Run.run (step plainConsume) (init 1 false : State 1) channelLostRun,
      s.loop.recovering = true)
  exact ⟨s, hrun, recovers_of_run hrun hrecovering⟩

end State
end Subscription
