import Warren.Consumer.Subscription.Ended
import Warren.Consumer.Subscription.Links

namespace Subscription

def HookPhase.pending : HookPhase → Bool
  | .after => false
  | .finished => false
  | _ => true

def HookPhase.unpublished : HookPhase → Bool
  | .entered => true
  | .opening _ => true
  | _ => false

def LoopPhase.away : LoopPhase → Bool
  | .entered => true
  | .opening _ => true
  | .polled => true
  | .notReconnecting => true
  | .reopening _ => true
  | _ => false

namespace State

variable {prefetch : Nat}

def subLive (s : State prefetch) (i : Nat) : Bool :=
  (s.subs i).any (fun sub => sub.cancelled = false ∧ s.chanOpen sub.chan)

def liveShut (s : State prefetch) : Bool := s.live.all (fun c => s.chanOpen c = false)

def alone (s : State prefetch) : Bool :=
  s.reconnecting = false ∧ s.resubCh.buf = [] ∧ s.mu.sub = none ∧
  (∀ b < s.nextBarrier, (s.hooks b).all (fun run => run.phase.pending = false)) ∧ s.liveShut

def subscribesAlone (s : State prefetch) : Action → Bool
  | .openDeliveryCh .loop .readRaw => s.alone
  | .openDeliveryCh (.hook b) .consumeOk => s.super = .barrier b
  | .openDeliveryCh (.hook b) .publish => s.super = .barrier b
  | .hook b .send => s.super = .barrier b
  | .hook b .sendCancelled =>
    (s.hooks b).all (fun run => run.phase.sub.all (fun i => s.subLive i = false))
  | .mu .resumeConsumeOk => s.reconnecting = false
  | .mu (.resumeCancel false) => s.liveShut
  | _ => true

def Open (s : State prefetch) (i : Nat) : Prop :=
  ∃ sub, s.subs i = some sub ∧ s.chanOpen sub.chan = true

structure Alone (s : State prefetch) : Prop where
  reconnecting : s.reconnecting = false
  resubCh : s.resubCh.buf = []
  mu : s.mu.sub = none
  hooks : ∀ {b run}, s.hooks b = some run → run.phase.pending = false
  live : ∀ {c}, s.live = some c → s.chanOpen c = false

def Usable (s : State prefetch) : OpenPhase → Prop
  | .opening socket => s.up = some socket
  | .subscribing c => s.chanOpen c = true
  | .publishing i => s.Open i
  | _ => False

def HookDue (s : State prefetch) : Prop :=
  ∃ b run, s.super = .barrier b ∧ s.hooks b = some run ∧ run.phase.pending = true

inductive Sits (s : State prefetch) (i : Nat) : Prop where
  | cur (hcur : s.cur = some i) (hresub : s.resubCh.buf = []) (hmu : s.mu.sub = none)
    (hdue : ¬s.HookDue)
  | resubCh (hmem : i ∈ s.resubCh.buf) (hmu : s.mu.sub = none) (hdue : ¬s.HookDue)
  | mu (hmu : s.mu.sub = some i) (hdue : ¬s.HookDue)
  | loop (hloop : s.loop.sub = some i)
  | sending (b : Nat) (run : HookRun) (hrun : s.hooks b = some run) (hphase : run.phase = .sending i)
    (hmu : s.mu.sub = none)
  | publishing (b : Nat) (run : HookRun) (hrun : s.hooks b = some run)
    (hphase : run.phase = .opening (.publishing i))

structure Sole (s : State prefetch) : Prop where
  only : ∀ {i j}, s.subLive i = true → s.subLive j = true → i = j
  live_chan : ∀ {i sub c}, s.subLive i = true → s.subs i = some sub → s.live = some c →
    s.chanOpen c = true → sub.chan = c
  sits : ∀ {i}, s.subLive i = true → s.Sits i
  dialed : s.super = .dialed → ∀ i, ¬s.Open i
  waited : ∀ {b run i}, s.super = .barrier b → s.hooks b = some run →
    run.phase.unpublished = true → s.Open i → run.phase.sub = some i
  window : ∀ {p}, s.openPhase .loop = some p → s.Usable p →
    s.Alone ∧ ∀ {i}, s.subLive i = true → p.sub = some i
  away : ∀ {i}, s.loop.away = true → s.cur = some i → s.subLive i = false

variable {s s' : State prefetch}

variable {i : Nat}

theorem subLive_iff
    : s.subLive i = true ↔
        ∃ sub, s.subs i = some sub ∧ sub.cancelled = false ∧ s.chanOpen sub.chan = true := by
  unfold subLive
  cases hsub : s.subs i with
  | none => simp
  | some sub => simp

theorem open_of_subLive (h : s.subLive i = true) : s.Open i := by
  have ⟨sub, hsub, _, hopen⟩ := subLive_iff.mp h
  exact ⟨sub, hsub, hopen⟩

theorem alone_iff (hwf : s.Wf) : s.alone = true ↔ s.Alone := by
  unfold alone liveShut
  rw [decide_eq_true_iff]
  constructor
  . intro ⟨hreconnecting, hresub, hmu, hhooks, hlive⟩
    refine ⟨hreconnecting, hresub, hmu, ?_, ?_⟩
    . intro b run hrun
      have hall := hhooks b (hwf.hook_lt hrun)
      rw [hrun] at hall
      exact of_decide_eq_true hall
    . intro c hc
      rw [hc] at hlive
      exact of_decide_eq_true hlive
  . intro h
    refine ⟨h.reconnecting, h.resubCh, h.mu, ?_, ?_⟩
    . intro b _
      cases hrun : s.hooks b with
      | none => rfl
      | some run => exact decide_eq_true (h.hooks hrun)
    . cases hc : s.live with
      | none => rfl
      | some c => exact decide_eq_true (h.live hc)

theorem open_of_evolves (hwf : s.Wf) (he : s.Evolves s') (h : s'.Open i)
    : s.Open i ∨ (i = s.nextSub ∧ s'.nextSub = s.nextSub + 1) := by
  have ⟨sub', hsub', hopen⟩ := h
  cases he.subs_of hsub' with
  | inr hnew => exact .inr ⟨hnew.1, hnew.2.1⟩
  | inl hold =>
    have ⟨sub, hsub⟩ := hold
    have ⟨sub₁, hsub₁, hchan, _⟩ := he.subs hsub
    have ⟨ch, hch⟩ := hwf.sub_chan hsub
    rw [hsub', Option.some.injEq] at hsub₁
    rw [hsub₁, hchan] at hopen
    exact .inl ⟨sub, hsub, chanOpen_of_evolves hwf he hch hopen⟩

theorem subLive_of_evolves (hwf : s.Wf) (he : s.Evolves s') (h : s'.subLive i = true)
    : s.subLive i = true ∨ (i = s.nextSub ∧ s'.nextSub = s.nextSub + 1) := by
  cases open_of_evolves hwf he (open_of_subLive h) with
  | inr hnew => exact .inr hnew
  | inl hold =>
    left
    have ⟨sub, hsub, hopen⟩ := hold
    have ⟨sub', hsub', hcancelled', _⟩ := subLive_iff.mp h
    have ⟨sub₁, hsub₁, _, hcancelled⟩ := he.subs hsub
    rw [hsub', Option.some.injEq] at hsub₁
    rw [hsub₁] at hcancelled'
    rw [subLive_iff]
    refine ⟨sub, hsub, ?_, hopen⟩
    rw [Bool.eq_false_iff] at hcancelled' ⊢
    exact mt hcancelled hcancelled'

theorem open_of_same (hwf : s.Wf) (he : s.Evolves s') (hnext : s'.nextSub = s.nextSub)
    (h : s'.Open i) : s.Open i := by
  cases open_of_evolves hwf he h with
  | inl hold => exact hold
  | inr hnew => omega

theorem subLive_of_same (hwf : s.Wf) (he : s.Evolves s') (hnext : s'.nextSub = s.nextSub)
    (h : s'.subLive i = true) : s.subLive i = true := by
  cases subLive_of_evolves hwf he h with
  | inl hold => exact hold
  | inr hnew => omega

theorem shut_of_evolves (hwf : s.Wf) (he : s.Evolves s') (hlive : s'.live = s.live)
    (h : ∀ {c}, s.live = some c → s.chanOpen c = false) {c : Nat} (hc : s'.live = some c)
    : s'.chanOpen c = false := by
  rw [hlive] at hc
  have ⟨ch, hch⟩ := hwf.refers_chan (.inl hc)
  rw [Bool.eq_false_iff]
  intro hopen
  have hold := chanOpen_of_evolves hwf he hch hopen
  rw [h hc] at hold
  contradiction

theorem loop_refs_of_openPhase {p : OpenPhase} (h : s.openPhase .loop = some p)
    : s.loop.socket = p.socket ∧ s.loop.chan = p.chan ∧ s.loop.sub = p.sub ∧ s.loop.away = true := by
  cases loop_of_openPhase h with
  | _ hloop => rw [hloop]; exact ⟨rfl, rfl, rfl, rfl⟩

theorem usable_of_evolves (hwf : s.Wf) (hlinks : s.Links) (he : s.Evolves s') {p : OpenPhase}
    (hphase : s.openPhase .loop = some p) (h : s'.Usable p) : s.Usable p := by
  have ⟨hsocket, hchan, hsub, _⟩ := loop_refs_of_openPhase hphase
  cases p with
  | rotating => exact h
  | reading => exact h
  | opening socket =>
    have hlt := hlinks.opening_lt hsocket
    have hup' : s'.up = some socket := h
    rcases he.up with hup | hup | ⟨hup, _⟩
    . exact hup.symm.trans hup'
    . rw [hup] at hup'
      contradiction
    . rw [hup, Option.some.injEq] at hup'
      omega
  | subscribing c =>
    have ⟨ch, hch⟩ := hwf.refers_chan (.inr (.inl hchan))
    exact chanOpen_of_evolves hwf he hch h
  | publishing i =>
    have ⟨sub, hsub⟩ := hwf.refers (.inr (.inr (.inr (.inl hsub))))
    cases open_of_evolves hwf he h with
    | inl hold => exact hold
    | inr hnew => exact absurd hnew.1 (hwf.ne_nextSub hsub)

theorem Sole.live_chan_of_evolves (hwf : s.Wf) (h : s.Sole) (he : s.Evolves s')
    (hlive : s'.live = s.live) {sub : Sub prefetch} {c : Nat} (hi : s.subLive i = true)
    (hsub : s.subs i = some sub) (hc : s'.live = some c) (hopen : s'.chanOpen c = true)
    : sub.chan = c := by
  rw [hlive] at hc
  have ⟨ch, hch⟩ := hwf.refers_chan (.inl hc)
  exact h.live_chan hi hsub hc (chanOpen_of_evolves hwf he hch hopen)

theorem Sole.of_sits (hwf : s.Wf) (h : s.Sole) (he : s.Evolves s') (hnext : s'.nextSub = s.nextSub)
    (hlive : ∀ {i sub c}, s.subLive i = true → s.subs i = some sub → s'.live = some c →
      s'.chanOpen c = true → sub.chan = c)
    (hsits : ∀ {i}, s'.subLive i = true → s.Sits i → s'.Sits i)
    (hdialed : s'.super = .dialed → ∀ i, ¬s.Open i)
    (hwaited : ∀ {b run i}, s'.super = .barrier b → s'.hooks b = some run →
      run.phase.unpublished = true → s.Open i → run.phase.sub = some i)
    (hwindow : ∀ {p}, s'.openPhase .loop = some p → s'.Usable p →
      s'.Alone ∧ ∀ {i}, s.subLive i = true → p.sub = some i)
    (haway : ∀ {i}, s'.loop.away = true → s'.cur = some i → s.subLive i = false) : s'.Sole := by
  have hlive' : ∀ {i}, s'.subLive i = true → s.subLive i = true := subLive_of_same hwf he hnext
  have hopen' : ∀ {i}, s'.Open i → s.Open i := open_of_same hwf he hnext
  constructor
  . exact fun hi hj => h.only (hlive' hi) (hlive' hj)
  . intro i sub' c hi hsub' hc hopen
    have ⟨sub, hsub, _⟩ := subLive_iff.mp (hlive' hi)
    have ⟨sub₁, hsub₁, hchan, _⟩ := he.subs hsub
    rw [hsub', Option.some.injEq] at hsub₁
    rw [hsub₁, hchan]
    exact hlive (hlive' hi) hsub hc hopen
  . exact fun hi => hsits hi (h.sits (hlive' hi))
  . exact fun hs i hi => hdialed hs i (hopen' hi)
  . exact fun hs hrun hphase hi => hwaited hs hrun hphase (hopen' hi)
  . intro p hp husable
    have ⟨halone, honly⟩ := hwindow hp husable
    exact ⟨halone, fun hi => honly (hlive' hi)⟩
  . intro i haway' hcur
    have hdead := haway haway' hcur
    rw [Bool.eq_false_iff] at hdead ⊢
    exact mt hlive' hdead

structure Places where
  cur : Option Nat
  resubCh : List Nat
  mu : Option Nat
  live : Option Nat
  nextSub : Nat

def places (s : State prefetch) : Places := ⟨s.cur, s.resubCh.buf, s.mu.sub, s.live, s.nextSub⟩

structure HooksOn (s s' : State prefetch) : Prop where
  held : ∀ {b run i}, s.hooks b = some run → run.phase.sub = some i → s'.subLive i = true →
    ∃ run', s'.hooks b = some run' ∧ run'.phase = run.phase
  back : ∀ {b run'}, s'.hooks b = some run' → ∃ run, s.hooks b = some run ∧
    (run'.phase.pending = true → run.phase.pending = true) ∧
    (run'.phase.unpublished = true →
      run.phase.unpublished = true ∧ run.phase.sub = run'.phase.sub)

theorem hooksOn_of_same (h : s'.hooks = s.hooks) : s.HooksOn s' where
  held := fun hrun _ _ => ⟨_, (congrFun h _).trans hrun, rfl⟩
  back := fun hrun => ⟨_, (congrFun h _).symm.trans hrun, id, fun hphase => ⟨hphase, rfl⟩⟩

theorem hookDue_of_hooksOn (h : s.HooksOn s') (hsuper : s'.super = s.super) (hdue : s'.HookDue)
    : s.HookDue := by
  have ⟨b, run', hb, hrun', hpending⟩ := hdue
  have ⟨run, hrun, hphase, _⟩ := h.back hrun'
  exact ⟨b, run, hsuper ▸ hb, hrun, hphase hpending⟩

theorem Alone.of_hooksOn (hwf : s.Wf) (h : s.Alone) (he : s.Evolves s')
    (hplaces : s'.places = s.places) (hhooks : s.HooksOn s')
    (hreconnecting : s'.reconnecting = s.reconnecting) : s'.Alone where
  reconnecting := hreconnecting.trans h.reconnecting
  resubCh := (congrArg Places.resubCh hplaces).trans h.resubCh
  mu := (congrArg Places.mu hplaces).trans h.mu
  hooks := by
    intro b run' hrun'
    have ⟨run, hrun, hphase, _⟩ := hhooks.back hrun'
    have hdone := h.hooks hrun
    rw [Bool.eq_false_iff] at hdone ⊢
    exact mt hphase hdone
  live := shut_of_evolves hwf he (congrArg Places.live hplaces) h.live

theorem Sits.of_places (hplaces : s'.places = s.places) (hdue : s'.HookDue → s.HookDue)
    (hloop : ∀ {i}, s.loop.sub = some i → s'.loop.sub = some i)
    (hhooks : ∀ {b run}, s.hooks b = some run → run.phase.sub = some i →
      ∃ run', s'.hooks b = some run' ∧ run'.phase = run.phase) (h : s.Sits i) : s'.Sits i := by
  have hcur' : s'.cur = s.cur := congrArg Places.cur hplaces
  have hresub' : s'.resubCh.buf = s.resubCh.buf := congrArg Places.resubCh hplaces
  have hmu' : s'.mu.sub = s.mu.sub := congrArg Places.mu hplaces
  cases h with
  | cur hcur hresub hmu hno =>
    exact .cur (hcur'.trans hcur) (hresub'.trans hresub) (hmu'.trans hmu) (mt hdue hno)
  | resubCh hmem hmu hno => exact .resubCh (hresub' ▸ hmem) (hmu'.trans hmu) (mt hdue hno)
  | mu hmu hno => exact .mu (hmu'.trans hmu) (mt hdue hno)
  | loop h => exact .loop (hloop h)
  | sending b run hrun hphase hmu =>
    have ⟨run', hrun', hphase'⟩ := hhooks hrun (by rw [hphase]; rfl)
    exact .sending b run' hrun' (hphase'.trans hphase) (hmu'.trans hmu)
  | publishing b run hrun hphase =>
    have ⟨run', hrun', hphase'⟩ := hhooks hrun (by rw [hphase]; rfl)
    exact .publishing b run' hrun' (hphase'.trans hphase)

theorem Sole.of_places (hwf : s.Wf) (h : s.Sole) (he : s.Evolves s') (hplaces : s'.places = s.places)
    (hsuper : s'.super = s.super) (hhooks : s.HooksOn s')
    (hloop : ∀ {i}, s.loop.sub = some i → s'.loop.sub = some i)
    (hwindow : ∀ {p}, s'.openPhase .loop = some p → s'.Usable p →
      s'.Alone ∧ ∀ {i}, s.subLive i = true → p.sub = some i)
    (haway : ∀ {i}, s'.loop.away = true → s.cur = some i → s.subLive i = false) : s'.Sole := by
  refine h.of_sits hwf he (congrArg Places.nextSub hplaces)
    (h.live_chan_of_evolves hwf he (congrArg Places.live hplaces)) ?_ ?_ ?_ hwindow ?_
  . intro i hi
    exact Sits.of_places hplaces (hookDue_of_hooksOn hhooks hsuper) hloop
      (fun hrun hsub => hhooks.held hrun hsub hi)
  . rw [hsuper]
    exact h.dialed
  . intro b run' i hb hrun' hphase hopen
    have ⟨run, hrun, _, hun⟩ := hhooks.back hrun'
    have ⟨hphase, hsub⟩ := hun hphase
    exact hsub ▸ h.waited (hsuper ▸ hb) hrun hphase hopen
  . have hcur : s'.cur = s.cur := congrArg Places.cur hplaces
    intro i haway' hi
    exact haway haway' (hcur ▸ hi)

theorem Sole.quiet (hwf : s.Wf) (hlinks : s.Links) (h : s.Sole) (he : s.Evolves s')
    (hplaces : s'.places = s.places) (hsuper : s'.super = s.super) (hhooks : s.HooksOn s')
    (hreconnecting : s'.reconnecting = s.reconnecting) (hloop : s'.loop = s.loop) : s'.Sole := by
  refine h.of_places hwf he hplaces hsuper hhooks (hloop ▸ id) ?_ (hloop ▸ h.away)
  intro p hp husable
  have hphase : s.openPhase .loop = some p := by
    unfold openPhase at hp ⊢
    rwa [hloop] at hp
  have ⟨halone, honly⟩ := h.window hphase (usable_of_evolves hwf hlinks he hphase husable)
  exact ⟨halone.of_hooksOn hwf he hplaces hhooks hreconnecting, honly⟩

end State
end Subscription
