import Warren.Consumer.Subscription.Ended
import Warren.Consumer.Subscription.Links

namespace Subscription

open Function Option

def holding : Pause.PumpPhase → Bool
  | .holding _ => true
  | _ => false

def LoopPhase.first : LoopPhase → Bool
  | .entered => true
  | .opening _ => true
  | _ => false

variable {prefetch : Nat}

namespace Sub

def empty (sub : Sub prefetch) : Bool :=
  sub.queue = [] ∧ holding sub.pump = false ∧ sub.out.buf = []

def spent (sub : Sub prefetch) : Bool := sub.cancelled ∧ sub.empty

def Holds (sub : Sub prefetch) (d : Nat) : Prop :=
  d ∈ sub.queue ∨ sub.pump = .holding d ∨ d ∈ sub.out.buf

def Drained (sub : Sub prefetch) : Prop :=
  stopping sub.pump = true → sub.cancelled = true ∧ sub.queue = []

structure Ages (sub sub' : Sub prefetch) : Prop where
  drained : sub.Drained → sub'.Drained
  spent : sub.spent = true → sub'.spent = true
  holds : ∀ {d}, sub.Holds d → sub'.Holds d

theorem Ages.refl (sub : Sub prefetch) : sub.Ages sub := ⟨id, id, id⟩

theorem spent_iff {sub : Sub prefetch}
    : sub.spent = true ↔
        sub.cancelled = true ∧ sub.queue = [] ∧ holding sub.pump = false ∧ sub.out.buf = [] := by
  unfold spent empty
  simp

variable {sub' : Sub prefetch}

theorem ages_of_flags {sub : Sub prefetch} (hqueue : sub'.queue = sub.queue)
    (hpump : sub'.pump = sub.pump) (hout : sub'.out = sub.out)
    (hcancelled : sub.cancelled = true → sub'.cancelled = true) : sub.Ages sub' := by
  constructor
  . intro h hstop
    rw [hpump] at hstop
    rw [hqueue]
    exact (h hstop).imp hcancelled id
  . rw [spent_iff, spent_iff, hqueue, hpump, hout]
    exact And.imp hcancelled id
  . unfold Holds
    rw [hqueue, hpump, hout]
    exact id

end Sub

namespace State

def shut (s : State prefetch) (sub : Sub prefetch) : Bool := s.chanOpen sub.chan = false

def settled (s : State prefetch) (i : Nat) : Bool :=
  (s.subs i).all (fun sub => s.shut sub ∨ sub.spent)

def handedOver (s : State prefetch) : Bool :=
  s.resubCh.buf.all s.settled ∧ s.mu.sub.all s.settled ∧
  ∀ b < s.nextBarrier, (s.hooks b).all (fun run => run.phase.sub.all s.settled)

def streamEnded (s : State prefetch) (i : Nat) : Bool :=
  (s.subs i).all (fun sub => s.shut sub ∨ (sub.cancelled ∧ sub.queue = [] ∧ sub.pump = .idle))

def givesUp (s : State prefetch) (ok : Bool) (i : Nat) : Bool :=
  (s.subs i).all (fun sub => s.shut sub ∨ (sub.empty ∧ (ok ∨ sub.cancelled)))

-- no subscription is given up with something in it
def keepsSubs (s : State prefetch) : Action → Bool
  | .pump i .ctx => s.streamEnded i
  | .pump i .recvCancel => s.streamEnded i
  | .loop .adopt => s.loop = .selecting → s.cur.all s.settled
  | .hook b .sendCancelled => (s.hooks b).all (fun run => run.phase.sub.all s.settled)
  | .mu (.resumeCancel ok) => s.mu.sub.all (s.givesUp ok)
  | _ => true

structure Kept (s : State prefetch) : Prop where
  drained : ∀ {i sub}, s.subs i = some sub → s.chanOpen sub.chan = true → sub.Drained
  kept : ∀ {i sub}, s.subs i = some sub → s.chanOpen sub.chan = true →
    sub.spent = true ∨ s.Refers i
  first : s.loop.first = true → s.cur = none

def Ages (s s' : State prefetch) : Prop :=
  ∀ i sub, s.subs i = some sub → s'.chanOpen sub.chan = true →
    ∃ sub', s'.subs i = some sub' ∧ sub.Ages sub'

variable {s s' : State prefetch}

variable {i c b : Nat} {sub : Sub prefetch} {who : Caller} {t : State prefetch} {run : HookRun}
  {phase : HookPhase} {p : OpenPhase}

theorem settled_iff
    : s.settled i = true ↔
        ∀ {sub}, s.subs i = some sub → s.chanOpen sub.chan = true → sub.spent = true := by
  unfold settled shut
  cases hsub : s.subs i with
  | none => simp
  | some sub =>
    cases hopen : s.chanOpen sub.chan with
    | false => simp [hopen]
    | true => simp [hopen]

theorem ages_of_same (h : s'.subs = s.subs) : s.Ages s' := by
  intro i sub hsub _
  exact ⟨sub, (congrFun h i).trans hsub, .refl sub⟩

theorem ages_of_update (hsub : s.subs i = some sub) (hsubs : s'.subs = update s.subs i (some sub'))
    (hages : s'.chanOpen sub.chan = true → sub.Ages sub') : s.Ages s' := by
  intro j subj hj hopen
  rw [hsubs]
  by_cases heq : j = i
  . subst heq
    rw [hsub] at hj
    cases hj
    exact ⟨sub', update_self j _ _, hages hopen⟩
  . exact ⟨subj, (update_of_ne heq _ _).trans hj, .refl subj⟩

theorem ages_of_newSub (hwf : s.Wf) {started : Bool} (hsubs : s'.subs = (s.newSub c started).subs)
    : s.Ages s' := by
  intro i sub hsub _
  rw [hsubs]
  exact ⟨sub, (update_of_ne (hwf.ne_nextSub hsub) _ _).trans hsub, .refl sub⟩

theorem ages_of_map {f : Sub prefetch → Sub prefetch}
    (hsubs : s'.subs = fun i => (s.subs i).map (fun sub => if sub.chan = c then f sub else sub))
    (hages : ∀ sub : Sub prefetch, sub.chan = c → s'.chanOpen sub.chan = true → sub.Ages (f sub))
    : s.Ages s' := by
  intro i sub hsub hopen
  rw [hsubs]
  refine ⟨if sub.chan = c then f sub else sub, by simp [hsub], ?_⟩
  split
  . next hc => exact hages sub hc hopen
  . exact .refl sub

theorem ages_of_cancelOn (hsubs : s'.subs = (s.cancelOn c).subs) : s.Ages s' :=
  ages_of_map hsubs (fun _ _ _ => Sub.ages_of_flags rfl rfl rfl (fun _ => rfl))

theorem streamEnded_iff (hsub : s.subs i = some sub) (hopen : s.chanOpen sub.chan = true)
    : s.streamEnded i = true ↔ sub.cancelled = true ∧ sub.queue = [] ∧ sub.pump = .idle := by
  unfold streamEnded shut
  simp [hsub, hopen]

theorem holding_of_stopping {pump : Pause.PumpPhase} (h : stopping pump = true)
    : holding pump = false := by
  cases pump with
  | holding d => contradiction
  | _ => rfl

theorem ages_of_stop {pump : Pause.PumpPhase} {out : Chan Nat prefetch}
    (hpump : ∀ {d}, sub.pump ≠ .holding d) (hpump' : stopping pump = true)
    (hout : out = sub.out ∨ out = sub.out.close)
    (hdrained : sub.Drained → sub.cancelled = true ∧ sub.queue = [])
    : sub.Ages { sub with pump, out } := by
  have hbuf : out.buf = sub.out.buf := by
    cases hout with
    | inl hout => rw [hout]
    | inr hout => rw [hout]; rfl
  constructor
  . exact fun h _ => hdrained h
  . rw [Sub.spent_iff, Sub.spent_iff]
    intro ⟨hcancelled, hqueue, _, hempty⟩
    exact ⟨hcancelled, hqueue, holding_of_stopping hpump', hbuf.trans hempty⟩
  . rintro d (hd | hd | hd)
    . exact .inl hd
    . exact absurd hd hpump
    . exact .inr (.inr (hbuf ▸ hd))

theorem ages_of_pumpMove (hwf : s.Wf) (hended : s.Ended) {ch : Channel} {a : Pause.PumpAction}
    (hok : s.keepsSubs (.pump i a) = true) (hsub : s.subs i = some sub)
    (hch : s.chans sub.chan = some ch) (hmove : s.PumpMove i sub ch a s') : s.Ages s' := by
  have hopen' : s'.chanOpen sub.chan = true → s.chanOpen sub.chan = true :=
    chanOpen_of_evolves hwf (evolves_of_pumpMove hsub hch hmove) hch
  have hidle : sub.pump = .idle → ∀ {d}, sub.pump ≠ .holding d := by
    intro hpump d hd
    rw [hpump] at hd
    contradiction
  cases hmove with
  | take d queue hpump hqueue =>
    refine ages_of_update hsub rfl (fun _ => ⟨fun _ hstop => by contradiction, ?_, ?_⟩)
    . rw [Sub.spent_iff, hqueue]
      intro ⟨_, hempty, _⟩
      contradiction
    . rintro d' (hd | hd | hd)
      . rw [hqueue] at hd
        cases List.mem_cons.mp hd with
        | inl heq => exact .inr (.inl (by rw [heq]))
        | inr hmem => exact .inl hmem
      . exact absurd hd (hidle hpump)
      . exact .inr (.inr hd)
  | send d out hpump hsend =>
    have ⟨_, _, hbuf, _⟩ := Chan.trySend_eq_some_iff.mp hsend
    refine ages_of_update hsub rfl (fun _ => ⟨fun _ hstop => by contradiction, ?_, ?_⟩)
    . rw [Sub.spent_iff, hpump]
      intro ⟨_, _, hno, _⟩
      contradiction
    . rintro d' (hd | hd | hd)
      . exact .inl hd
      . rw [hpump, Pause.PumpPhase.holding.injEq] at hd
        exact .inr (.inr (by simp [hbuf, hd]))
      . exact .inr (.inr (by simp [hbuf, hd]))
  | seeClosed hpump hqueue hclosed =>
    refine ages_of_update hsub rfl (fun hopen => ?_)
    refine ages_of_stop (hidle hpump) rfl (.inl rfl) (fun _ => ⟨?_, hqueue⟩)
    cases (hended.subs hsub).closed hclosed with
    | inl hcancelled => exact hcancelled
    | inr hshut =>
      rw [hopen' hopen] at hshut
      contradiction
  | advance a pump out closeCh cancelCh cancelReasonCh done hpump hpump' hout =>
    refine ages_of_update hsub rfl (fun _ => ages_of_stop ?_ hpump' hout (fun h => h hpump))
    intro d hd
    rw [hd] at hpump
    contradiction
  | recvCancel cancelCh cancelReasonCh hpump =>
    refine ages_of_update hsub rfl (fun hopen => ?_)
    have ⟨hcancelled, hqueue, _⟩ := (streamEnded_iff hsub (hopen' hopen)).mp hok
    exact ages_of_stop (hidle hpump) rfl (.inl rfl) (fun _ => ⟨hcancelled, hqueue⟩)
  | recvClose closeCh hpump hclose hready =>
    refine ages_of_update hsub rfl (fun hopen => ?_)
    have hdied := hended.chans hch (hready.imp id .inl)
    have ⟨ch', hch', hlive, _⟩ := chanOpen_iff.mp (hopen' hopen)
    rw [hch, some.injEq] at hch'
    rw [← hch', hdied] at hlive
    contradiction
  | ctx hpump hctx =>
    refine ages_of_update hsub rfl (fun hopen => ?_)
    have ⟨hcancelled, hqueue, hpump⟩ := (streamEnded_iff hsub (hopen' hopen)).mp hok
    exact ages_of_stop (hidle hpump) rfl (.inr rfl) (fun _ => ⟨hcancelled, hqueue⟩)

theorem ages_of_envMove {a : EnvAction} (hmove : s.EnvMove a s') : s.Ages s' := by
  cases hmove with
  | deliver i d sub hsub hopen hcancelled =>
    refine ages_of_update hsub rfl (fun _ => ⟨?_, ?_, ?_⟩)
    . intro h hstop
      have hc := (h hstop).1
      rw [hcancelled] at hc
      contradiction
    . rw [Sub.spent_iff, hcancelled]
      intro ⟨hc, _⟩
      contradiction
    . rintro d' (hd | hd | hd)
      . exact .inl (List.mem_append_left _ hd)
      . exact .inr (.inl hd)
      . exact .inr (.inr hd)
  | dieStreams c ch hch hdied =>
    refine ages_of_map rfl ?_
    intro sub hc hopen
    have ⟨ch', hch', hlive, _⟩ := chanOpen_iff.mp hopen
    have heq : some ch = some ch' := hch.symm.trans (hc ▸ hch')
    rw [← some.inj heq, hdied] at hlive
    contradiction
  | cancelByBroker c => exact ages_of_map rfl (fun _ _ _ => Sub.ages_of_flags rfl rfl rfl (fun _ => rfl))
  | endStream i sub hsub => exact ages_of_update hsub rfl (fun _ => Sub.ages_of_flags rfl rfl rfl id)
  | _ => exact ages_of_same rfl

theorem ages_of_muMove (hwf : s.Wf) {a : MuAction} (hmove : s.MuMove a s') : s.Ages s' := by
  cases hmove with
  | pauseOk c | rollbackOk i c => exact ages_of_cancelOn rfl
  | resumeConsumeOk c => exact ages_of_newSub hwf rfl
  | _ => exact ages_of_same rfl

theorem ages_of_openMove (hwf : s.Wf) {a : OpenAction} (hmove : s.OpenMove who a s')
    : s.Ages s' := by
  cases hmove with
  | consumeOk c => exact ages_of_newSub hwf (congrArg Tables.subs (tables_openGoto _ who _))
  | publish i sub _ hsub =>
    exact ages_of_update hsub (congrArg Tables.subs (tables_openReturn _ who i))
      (fun _ => Sub.ages_of_flags rfl rfl rfl id)
  | rotate | readRaw | channelOk =>
    exact ages_of_same (congrArg Tables.subs (tables_openGoto _ who _))
  | _ => exact ages_of_same (congrArg Tables.subs (tables_openFail _ who))

theorem Ages.back (hwf : s.Wf) (h : s.Ages s') (he : s.Evolves s')
    (hsub' : s'.subs i = some sub') (hopen' : s'.chanOpen sub'.chan = true)
    : (∃ sub, s.subs i = some sub ∧ s.chanOpen sub.chan = true ∧ sub.Ages sub') ∨
        (i = s.nextSub ∧ s'.nextSub = s.nextSub + 1) := by
  cases he.subs_of hsub' with
  | inr hnew => exact .inr ⟨hnew.1, hnew.2.1⟩
  | inl hold =>
    left
    have ⟨sub, hsub⟩ := hold
    have ⟨ch, hch⟩ := hwf.sub_chan hsub
    have ⟨sub₁, hsub₁, hchan, _⟩ := he.subs hsub
    rw [hsub'] at hsub₁
    cases hsub₁
    rw [hchan] at hopen'
    have ⟨sub₂, hsub₂, hages⟩ := h i sub hsub hopen'
    rw [hsub'] at hsub₂
    cases hsub₂
    exact ⟨sub, hsub, chanOpen_of_evolves hwf he hch hopen', hages⟩

theorem settled_of_ages (hwf : s.Wf) (h : s.Ages s') (he : s.Evolves s') (hi : s.Refers i)
    (hsettled : s.settled i = true) : s'.settled i = true := by
  rw [settled_iff] at hsettled ⊢
  intro sub' hsub' hopen'
  cases h.back hwf he hsub' hopen' with
  | inl hold =>
    have ⟨sub, hsub, hopen, hages⟩ := hold
    exact hages.spent (hsettled hsub hopen)
  | inr hnew =>
    have ⟨sub, hsub⟩ := hwf.refers hi
    exact absurd hnew.1 (hwf.ne_nextSub hsub)

theorem Kept.of_refers (hwf : s.Wf) (h : s.Kept) (he : s.Evolves s') (hages : s.Ages s')
    (hnew : ∀ {sub}, s'.nextSub = s.nextSub + 1 → s'.subs s.nextSub = some sub →
      stopping sub.pump = false ∧ s'.Refers s.nextSub)
    (hrefers : ∀ {i}, s.Refers i → s'.settled i = true ∨ s'.Refers i)
    (hfirst : s'.loop.first = true → s'.cur = none) : s'.Kept := by
  refine ⟨?_, ?_, hfirst⟩
  . intro i sub' hsub' hopen' hstop
    rcases hages.back hwf he hsub' hopen' with ⟨sub, hsub, hopen, hage⟩ | ⟨hi, hnext⟩
    . exact hage.drained (h.drained hsub hopen) hstop
    . rw [(hnew hnext (hi ▸ hsub')).1] at hstop
      contradiction
  . intro i sub' hsub' hopen'
    rcases hages.back hwf he hsub' hopen' with ⟨sub, hsub, hopen, hage⟩ | ⟨hi, hnext⟩
    . cases h.kept hsub hopen with
      | inl hspent => exact .inl (hage.spent hspent)
      | inr href =>
        cases hrefers href with
        | inl hsettled => exact .inl (settled_iff.mp hsettled hsub' hopen')
        | inr href => exact .inr href
    . exact .inr (hi ▸ (hnew hnext (hi ▸ hsub')).2)

theorem Kept.frame (hwf : s.Wf) (h : s.Kept) (he : s.Evolves s') (hages : s.Ages s')
    (hnext : s'.nextSub = s.nextSub)
    (hrefers : ∀ {i}, s.Refers i → s'.settled i = true ∨ s'.Refers i)
    (hfirst : s'.loop.first = true → s'.cur = none) : s'.Kept := by
  refine h.of_refers hwf he hages ?_ hrefers hfirst
  intro sub hnew
  omega

theorem Kept.settled_of_closed (h : s.Kept) (hended : s.Ended) (hsub : s.subs i = some sub)
    (hclosed : sub.out.closed = true) (hbuf : sub.out.buf = []) : s.settled i = true := by
  rw [settled_iff]
  intro sub' hsub' hopen
  rw [hsub] at hsub'
  cases hsub'
  have hstop := (hended.subs hsub).out hclosed
  have ⟨hcancelled, hqueue⟩ := h.drained hsub hopen hstop
  exact Sub.spent_iff.mpr ⟨hcancelled, hqueue, holding_of_stopping hstop, hbuf⟩

theorem Kept.settled_of_recovering (h : s.Kept) (hended : s.Ended) (hrec : s.loop.recovering = true)
    (hcur : s.cur = some i) : s.settled i = true := by
  have ⟨j, sub, hj, hsub, hclosed, hbuf⟩ := hended.recovering hrec
  rw [hcur] at hj
  cases hj
  exact h.settled_of_closed hended hsub hclosed hbuf

theorem refers_forth (hcur : s'.cur = s.cur) (hresub : s'.resubCh = s.resubCh)
    (hmu : s'.mu.sub = s.mu.sub) (hloop : s.loop.sub = some i → s'.loop.sub = some i)
    (hhooks : ∀ {b run}, s.hooks b = some run → run.phase.sub = some i →
      ∃ b' run', s'.hooks b' = some run' ∧ run'.phase.sub = some i) (h : s.Refers i)
    : s'.Refers i := by
  rcases h with h | h | h | h | ⟨b, run, hrun, h⟩
  . exact .inl (hcur.trans h)
  . exact .inr (.inl (hresub ▸ h))
  . exact .inr (.inr (.inl (hmu.trans h)))
  . exact .inr (.inr (.inr (.inl (hloop h))))
  . exact .inr (.inr (.inr (.inr (hhooks hrun h))))

theorem hooks_forth_hookGoto (ht : t.hooks = s.hooks) (hrun : s.hooks b = some run)
    (hsub : run.phase.sub = some i → phase.sub = some i) {b' : Nat} {run' : HookRun}
    (hrun' : s.hooks b' = some run') (hi : run'.phase.sub = some i)
    : ∃ b₁ run₁, (t.hookGoto b phase).hooks b₁ = some run₁ ∧ run₁.phase.sub = some i := by
  rw [← ht] at hrun hrun'
  by_cases heq : b' = b
  . subst heq
    rw [hrun, some.injEq] at hrun'
    exact ⟨b', _, hookGoto_self hrun phase, hsub (hrun' ▸ hi)⟩
  . exact ⟨b', run', (update_of_ne heq _ _).trans hrun', hi⟩

theorem sub_of_openPhase (h : s.openPhase .loop = some p) : s.loop.sub = p.sub := by
  cases loop_of_openPhase h with
  | _ hloop => rw [hloop]; rfl

theorem Refers.same (hrefs : s'.refs = s.refs) (h : s.Refers i) : s'.Refers i :=
  refers_forth (congrArg Refs.cur hrefs) (congrArg Refs.resubCh hrefs)
    (congrArg (fun r => r.mu.sub) hrefs) (congrArg (fun r => r.loop.sub) hrefs).trans
    (fun hrun hi => ⟨_, _, (congrFun (congrArg Refs.hooks hrefs) _).trans hrun, hi⟩) h

theorem Refers.hookGoto (hrefs : t.refs = s.refs) (hrun : s.hooks b = some run)
    (hsub : run.phase.sub = some i → phase.sub = some i) (h : s.Refers i)
    : (t.hookGoto b phase).Refers i :=
  refers_forth (congrArg Refs.cur hrefs) (congrArg Refs.resubCh hrefs)
    (congrArg (fun r => r.mu.sub) hrefs) (congrArg (fun r => r.loop.sub) hrefs).trans
    (hooks_forth_hookGoto (congrArg Refs.hooks hrefs) hrun hsub) h

theorem Refers.loopGoto {loop : LoopPhase} (hrefs : t.refs = s.refs) (hsub : s.loop.sub = none)
    (h : s.Refers i) : { t with loop }.Refers i := by
  refine refers_forth (congrArg Refs.cur hrefs) (congrArg Refs.resubCh hrefs)
    (congrArg (fun r => r.mu.sub) hrefs) (fun hi => ?_)
    (fun hrun hi => ⟨_, _, (congrFun (congrArg Refs.hooks hrefs) _).trans hrun, hi⟩) h
  rw [hsub] at hi
  contradiction

theorem Refers.hookLeaves (hrefs : t.refs = s.refs) (hphase : s.openPhase (.hook b) = some p)
    (hp : p.sub = none) (h : s.Refers i) : (t.hookGoto b phase).Refers i := by
  have ⟨run, hrun, hopening⟩ := hook_of_openPhase hphase
  refine h.hookGoto hrefs hrun (fun hi => ?_)
  rw [hopening, HookPhase.sub, hp] at hi
  contradiction

theorem Refers.openGoto {q : OpenPhase} (hrefs : t.refs = s.refs)
    (hphase : s.openPhase who = some p) (hp : p.sub = none) (h : s.Refers i)
    : (t.openGoto who q).Refers i := by
  cases who with
  | hook b => exact h.hookLeaves hrefs hphase hp
  | loop => exact h.loopGoto hrefs ((sub_of_openPhase hphase).trans hp)

theorem Refers.openFail (hrefs : t.refs = s.refs) (hphase : s.openPhase who = some p)
    (hp : p.sub = none) (h : s.Refers i) : (t.openFail who).Refers i := by
  cases who with
  | hook b => exact h.hookLeaves hrefs hphase hp
  | loop => exact h.loopGoto hrefs ((sub_of_openPhase hphase).trans hp)

theorem refers_openGoto_publishing (hrefs : t.refs = s.refs) (hphase : s.openPhase who = some p)
    : (t.openGoto who (.publishing i)).Refers i := by
  right; right; right
  cases who with
  | loop =>
    left
    cases loop_openGoto_loop t (.publishing i) with
    | _ hloop => rw [hloop]; rfl
  | hook b =>
    right
    have ⟨run, hrun, _⟩ := hook_of_openPhase hphase
    have hrun' : t.hooks b = some run := (congrFun (congrArg Refs.hooks hrefs) b).trans hrun
    exact ⟨b, _, hookGoto_self hrun' _, rfl⟩

theorem Kept.first_openGoto (h : s.Kept) {q : OpenPhase} (hrefs : t.refs = s.refs)
    (hphase : s.openPhase who = some p) (hfirst : (t.openGoto who q).loop.first = true)
    : (t.openGoto who q).cur = none := by
  have hcur : t.cur = s.cur := congrArg Refs.cur hrefs
  have hloop : t.loop = s.loop := congrArg Refs.loop hrefs
  cases who with
  | hook b => exact hcur.trans (h.first (hloop ▸ hfirst))
  | loop =>
    refine hcur.trans (h.first ?_)
    cases loop_of_openPhase hphase with
    | inl hopening => rw [hopening]; rfl
    | inr hreopening =>
      unfold State.openGoto at hfirst
      rw [hloop, hreopening] at hfirst
      contradiction

theorem Kept.first_openFail (h : s.Kept) (hrefs : t.refs = s.refs)
    (hfirst : (t.openFail who).loop.first = true) : (t.openFail who).cur = none := by
  have hcur : t.cur = s.cur := congrArg Refs.cur hrefs
  have hloop : t.loop = s.loop := congrArg Refs.loop hrefs
  cases who with
  | hook b => exact hcur.trans (h.first (hloop ▸ hfirst))
  | loop =>
    cases loop_openFail_loop t with
    | _ hreturned => rw [hreturned] at hfirst; contradiction

theorem Kept.settled_cur_of_openPhase (h : s.Kept) (hended : s.Ended)
    (hphase : s.openPhase .loop = some p) {j : Nat} (hcur : s.cur = some j)
    : s.settled j = true := by
  cases loop_of_openPhase hphase with
  | inl hopening =>
    have hfirst : s.cur = none := h.first (by rw [hopening]; rfl)
    rw [hfirst] at hcur
    contradiction
  | inr hreopening => exact h.settled_of_recovering hended (by rw [hreopening]; rfl) hcur

theorem kept_init (prefetch : Nat) (bootDegraded : Bool) : (init prefetch bootDegraded).Kept where
  drained := by
    intro i sub h
    contradiction
  kept := by
    intro i sub h
    contradiction
  first := fun _ => rfl

theorem kept_of_openMove (hwf : s.Wf) (hended : s.Ended) (h : s.Kept) {a : OpenAction}
    (hmove : s.OpenMove who a s') : s'.Kept := by
  have he := evolves_of_openMove hwf hmove
  have hages := ages_of_openMove hwf hmove
  cases hmove with
  | rotate hphase =>
    exact h.frame hwf he hages (congrArg Tables.nextSub (tables_openGoto _ who _))
      (fun hi => .inr (hi.openGoto (t := s.newCounter) rfl hphase rfl))
      (h.first_openGoto (t := s.newCounter) rfl hphase)
  | notConnected hphase | channelErr socket hphase =>
    exact h.frame hwf he hages (congrArg Tables.nextSub (tables_openFail _ who))
      (fun hi => .inr (hi.openFail (t := s) rfl hphase rfl)) (h.first_openFail (t := s) rfl)
  | readRaw socket hphase =>
    exact h.frame hwf he hages (congrArg Tables.nextSub (tables_openGoto _ who _))
      (fun hi => .inr (hi.openGoto (t := s) rfl hphase rfl)) (h.first_openGoto (t := s) rfl hphase)
  | channelOk socket hphase =>
    exact h.frame hwf he hages (congrArg Tables.nextSub (tables_openGoto _ who _))
      (fun hi => .inr (hi.openGoto (t := s.newChan socket) rfl hphase rfl))
      (h.first_openGoto (t := s.newChan socket) rfl hphase)
  | consumeOk c hphase =>
    refine h.of_refers hwf he hages ?_
      (fun hi => .inr (hi.openGoto (t := s.newSub c false) rfl hphase rfl))
      (h.first_openGoto (t := s.newSub c false) rfl hphase)
    intro sub _ hsub
    have hnew : (s.newSub c false).subs s.nextSub = some _ := update_self s.nextSub _ _
    have hsame := congrFun (congrArg Tables.subs (tables_openGoto (s.newSub c false) who
      (.publishing s.nextSub))) s.nextSub
    rw [← some.inj ((hsame.trans hnew).symm.trans hsub)]
    exact ⟨rfl, refers_openGoto_publishing (t := s.newSub c false) rfl hphase⟩
  | consumeErr c hphase =>
    exact h.frame hwf he hages (congrArg Tables.nextSub (tables_openFail _ who))
      (fun hi => .inr (hi.openFail (t := s.closeChan c) rfl hphase rfl))
      (h.first_openFail (t := s.closeChan c) rfl)
  | publish i sub hphase hsub =>
    cases who with
    | loop =>
      refine h.frame hwf he hages rfl ?_ (fun hfirst => by contradiction)
      rintro j (hj | hj | hj | hj | hj)
      . exact .inl (settled_of_ages hwf hages he (.inl hj)
          (h.settled_cur_of_openPhase hended hphase hj))
      . exact .inr (.inr (.inl hj))
      . exact .inr (.inr (.inr (.inl hj)))
      . rw [sub_of_openPhase hphase] at hj
        exact .inr (.inl hj)
      . exact .inr (.inr (.inr (.inr (.inr hj))))
    | hook b =>
      have ⟨run, hrun, hopening⟩ := hook_of_openPhase hphase
      refine h.frame hwf he hages rfl (fun hj => .inr ?_) h.first
      refine refers_forth (s := s) rfl rfl rfl id ?_ hj
      refine hooks_forth_hookGoto rfl hrun (fun hi => ?_)
      rwa [hopening] at hi

theorem Kept.receive (hwf : s.Wf) (h : s.Kept) (he : s.Evolves s') {out : Chan Nat prefetch}
    (hcur : s.cur = some i) (hsub : s.subs i = some sub)
    (hsubs : s'.subs = update s.subs i (some { sub with out })) (hcur' : s'.cur = s.cur)
    (hrefers : ∀ {j}, s.Refers j → s'.Refers j) (hfirst : s'.loop.first = false) : s'.Kept := by
  have hcases : ∀ {j sub'}, s'.subs j = some sub' → s'.chanOpen sub'.chan = true →
      (j = i ∧ sub' = { sub with out } ∧ s.chanOpen sub.chan = true) ∨
        (s.subs j = some sub' ∧ s.chanOpen sub'.chan = true) := by
    intro j sub' hsub' hopen'
    rw [hsubs] at hsub'
    by_cases heq : j = i
    . left
      subst heq
      rw [update_self] at hsub'
      cases hsub'
      have ⟨ch, hch⟩ := hwf.sub_chan hsub
      exact ⟨rfl, rfl, chanOpen_of_evolves hwf he hch hopen'⟩
    . right
      rw [update_of_ne heq] at hsub'
      have ⟨ch, hch⟩ := hwf.sub_chan hsub'
      exact ⟨hsub', chanOpen_of_evolves hwf he hch hopen'⟩
  refine ⟨?_, ?_, ?_⟩
  . intro j sub' hsub' hopen'
    rcases hcases hsub' hopen' with ⟨_, heq, hopen⟩ | ⟨hold, hopen⟩
    . have hdrained : sub.Drained := h.drained hsub hopen
      rw [heq]
      exact hdrained
    . exact h.drained hold hopen
  . intro j sub' hsub' hopen'
    rcases hcases hsub' hopen' with ⟨heq, _⟩ | ⟨hold, hopen⟩
    . exact .inr (.inl (heq ▸ hcur'.trans hcur))
    . exact (h.kept hold hopen).imp id hrefers
  . rw [hfirst]
    intro hno
    contradiction

theorem Kept.settled_of_inSelect (h : s.Kept) (hended : s.Ended) (hselect : s.inSelect = true)
    (hok : s.keepsSubs (.loop .adopt) = true) {j : Nat} (hcur : s.cur = some j)
    : s.settled j = true := by
  rcases of_decide_eq_true hselect with hloop | hrecover
  . have hall := of_decide_eq_true hok hloop
    rwa [hcur] at hall
  . exact h.settled_of_recovering hended (recovering_of_inRecoverSelect hrecover) hcur

theorem kept_of_loopMove (hwf : s.Wf) (hended : s.Ended) (h : s.Kept) {cfg : Config}
    {a : LoopAction} (hok : s.keepsSubs (.loop a) = true) (hmove : s.LoopMove cfg a s')
    : s'.Kept := by
  have he := evolves_of_loopMove hmove
  have hnone := sub_of_loopMove hmove
  cases hmove with
  | registerHook hloop =>
    exact h.frame hwf he (ages_of_same rfl) rfl
      (fun hi => .inr (hi.loopGoto (t := { s with registered := true }) rfl hnone))
      (fun _ => h.first (by rw [hloop]; rfl))
  | adopt i resubCh hselect hbuf hempty =>
    refine h.frame hwf he (ages_of_same rfl) rfl ?_ (fun hfirst => by contradiction)
    rintro j (hj | hj | hj | hj | hj)
    . exact .inl (h.settled_of_inSelect hended hselect hok hj)
    . rw [hbuf, List.mem_singleton] at hj
      exact .inr (.inl (by rw [hj]))
    . exact .inr (.inr (.inr (.inl hj)))
    . rw [hnone] at hj
      contradiction
    . exact .inr (.inr (.inr (.inr (.inr hj))))
  | recv i sub d out _ hcur hsub | drainErr i sub d out _ hcur hsub =>
    exact h.receive hwf he hcur hsub rfl rfl
      (fun hj => hj.loopGoto (t := s.setSub i { sub with out }) rfl hnone) rfl
  | cancelOk c =>
    exact h.frame hwf he (ages_of_cancelOn rfl) rfl
      (fun hi => .inr (hi.loopGoto (t := s.cancelOn c) rfl hnone)) (fun hfirst => by contradiction)
  | drain i sub d out hloop _ hcur hsub =>
    rw [sendFrame_eq] at he ⊢
    exact h.receive hwf he hcur hsub rfl rfl (fun hj => hj.same rfl)
      (congrArg LoopPhase.first hloop)
  | brokerCancel cancelReasonCh =>
    exact h.frame hwf he (ages_of_same rfl) rfl
      (fun hi => .inr (hi.loopGoto (t := { s with cancelReasonCh }) rfl hnone))
      (fun hfirst => by contradiction)
  | acquire c d =>
    exact h.frame hwf he (ages_of_same rfl) rfl
      (fun hi => .inr (hi.loopGoto
        (t := { s with handlers := s.handlers ++ [⟨c, d, none, false⟩] }) rfl hnone))
      (fun hfirst => by contradiction)
  | _ =>
    exact h.frame hwf he (ages_of_same rfl) rfl
      (fun hi => .inr (hi.loopGoto (t := s) rfl hnone)) (fun hfirst => by contradiction)

theorem kept_of_hookMove (hwf : s.Wf) (h : s.Kept) {a : HookAction}
    (hok : s.keepsSubs (.hook b a) = true) (hmove : s.HookMove b a s') : s'.Kept := by
  have he := evolves_of_hookMove hmove
  have hidle : ∀ {run phase}, s.hooks b = some run → run.phase.sub = none →
      ∀ {j}, s.Refers j → (s.hookGoto b phase).Refers j := by
    intro run phase hrun hnone j hj
    refine hj.hookGoto rfl hrun (fun hi => ?_)
    rw [hnone] at hi
    contradiction
  cases hmove with
  | sendCancelled run i hrun hphase =>
    refine h.frame hwf he (ages_of_same rfl) rfl ?_ h.first
    intro j hj
    have hsettled : s.settled i = true := by
      simpa [keepsSubs, hrun, hphase, HookPhase.sub] using hok
    by_cases heq : i = j
    . exact .inl (heq ▸ hsettled)
    . refine .inr (hj.hookGoto rfl hrun (fun hi => ?_))
      rw [hphase] at hi
      exact absurd (some.inj hi) heq
  | send run i resubCh hrun hphase hempty hbuf =>
    refine h.frame hwf he (ages_of_same rfl) rfl ?_ h.first
    rintro j (hj | hj | hj | hj | ⟨b', run', hrun', hj⟩)
    . exact .inr (.inl hj)
    . rw [hempty] at hj
      contradiction
    . exact .inr (.inr (.inr (.inl hj)))
    . exact .inr (.inr (.inr (.inr (.inl hj))))
    . by_cases heq : b' = b
      . subst heq
        rw [hrun, some.injEq] at hrun'
        rw [← hrun', hphase] at hj
        refine .inr (.inr (.inl ?_))
        show j ∈ resubCh.buf
        rw [hbuf, ← some.inj hj]
        exact List.mem_singleton_self i
      . exact .inr (.inr (.inr (.inr (.inr
          ⟨b', run', (update_of_ne heq _ _).trans hrun', hj⟩))))
  | _ _ hrun hphase =>
    exact h.frame hwf he (ages_of_same rfl) rfl
      (fun hj => .inr (hidle hrun (by rw [hphase]; rfl) hj)) h.first

theorem Refers.muGoto {mu : MuPhase} (hrefs : t.refs = s.refs)
    (hsub : s.mu.sub = some i → mu.sub = some i) (h : s.Refers i) : { t with mu }.Refers i := by
  have hresub : t.resubCh = s.resubCh := congrArg Refs.resubCh hrefs
  rcases h with h | h | h | h | ⟨b, run, hrun, h⟩
  . exact .inl ((congrArg Refs.cur hrefs).trans h)
  . exact .inr (.inl (hresub ▸ h))
  . exact .inr (.inr (.inl (hsub h)))
  . exact .inr (.inr (.inr (.inl ((congrArg (fun r => r.loop.sub) hrefs).trans h))))
  . exact .inr (.inr (.inr (.inr
      ⟨b, run, (congrFun (congrArg Refs.hooks hrefs) b).trans hrun, h⟩)))

theorem givesUp_iff {ok : Bool} (hsub : s.subs i = some sub) (hopen : s.chanOpen sub.chan = true)
    : s.givesUp ok i = true ↔ sub.empty = true ∧ (ok = true ∨ sub.cancelled = true) := by
  unfold givesUp shut
  simp [hsub, hopen]

theorem settled_of_rollbackOk (hlinks : s.Links) (hmu : s.mu = .rollingBack i)
    (hlive : s.live = some c) (hok : s.keepsSubs (.mu (.resumeCancel true)) = true)
    : { s.cancelOn c with mu := .free }.settled i = true := by
  have hheld : s.mu.sub = some i := by rw [hmu]; rfl
  have hgives : s.givesUp true i = true := by simpa [keepsSubs, hheld] using hok
  have ⟨sub, hsub, hchan⟩ := hlinks.mu_sub hheld
  rw [hlive, some.injEq] at hchan
  rw [settled_iff]
  intro sub' hsub' hopen
  have hsub₁ : (s.cancelOn c).subs i = some { sub with cancelled := true, closed := true } := by
    simp [cancelOn, hsub, hchan]
  rw [← some.inj (hsub₁.symm.trans hsub')] at hopen ⊢
  have ⟨hempty, _⟩ := (givesUp_iff hsub hopen).mp hgives
  exact decide_eq_true ⟨rfl, hempty⟩

theorem settled_of_rollbackErr (hmu : s.mu = .rollingBack i)
    (hok : s.keepsSubs (.mu (.resumeCancel false)) = true) : s.settled i = true := by
  have hheld : s.mu.sub = some i := by rw [hmu]; rfl
  have hgives : s.givesUp false i = true := by simpa [keepsSubs, hheld] using hok
  rw [settled_iff]
  intro sub hsub hopen
  have ⟨hempty, hcancelled⟩ := (givesUp_iff hsub hopen).mp hgives
  exact decide_eq_true ⟨hcancelled.resolve_left Bool.false_ne_true, hempty⟩

theorem kept_of_muMove (hwf : s.Wf) (hlinks : s.Links) (h : s.Kept) {a : MuAction}
    (hok : s.keepsSubs (.mu a) = true) (hmove : s.MuMove a s') : s'.Kept := by
  have he := evolves_of_muMove hwf hmove
  have hages := ages_of_muMove hwf hmove
  have hidle : ∀ {t : State prefetch} {mu mu' : MuPhase}, t.refs = s.refs → s.mu = mu →
      mu.sub = none → ∀ {j}, s.Refers j → { t with mu := mu' }.Refers j := by
    intro t mu mu' hrefs hmu hnone j hj
    refine hj.muGoto hrefs (fun hi => ?_)
    rw [hmu, hnone] at hi
    contradiction
  have hgone : ∀ {t : State prefetch} {i : Nat}, t.refs = s.refs → s.mu.sub = some i →
      { t with mu := .free }.settled i = true → ∀ {j}, s.Refers j →
      { t with mu := .free }.settled j = true ∨ { t with mu := .free }.Refers j := by
    intro t i hrefs hheld hsettled j hj
    by_cases heq : i = j
    . exact .inl (heq ▸ hsettled)
    . refine .inr (hj.muGoto hrefs (fun hi => ?_))
      rw [hheld] at hi
      exact absurd (some.inj hi) heq
  cases hmove with
  | pauseBegin hmu =>
    exact h.frame hwf he hages rfl
      (fun hj => .inr (hidle (t := { s with paused := true }) rfl hmu rfl hj)) h.first
  | pauseOk c hmu =>
    exact h.frame hwf he hages rfl
      (fun hj => .inr (hidle (t := s.cancelOn c) rfl hmu rfl hj)) h.first
  | resumeBegin hmu | resumeConsumeErr hmu =>
    exact h.frame hwf he hages rfl (fun hj => .inr (hidle (t := s) rfl hmu rfl hj)) h.first
  | resumeConsumeOk c hmu =>
    refine h.of_refers hwf he hages ?_
      (fun hj => .inr (hidle (t := s.newSub c true) rfl hmu rfl hj)) h.first
    intro sub _ hsub
    have hnew : (s.newSub c true).subs s.nextSub = some _ := update_self s.nextSub _ _
    rw [← some.inj (hnew.symm.trans hsub)]
    exact ⟨rfl, .inr (.inr (.inl rfl))⟩
  | resumeSwap i hmu =>
    refine h.frame hwf he hages rfl (fun hj => .inr ?_) h.first
    exact hj.muGoto (s := s) (t := s.newCounter) rfl (fun hi => by rwa [hmu] at hi)
  | resumeSend i prevCounter resubCh hmu hempty hbuf =>
    refine h.frame hwf he hages rfl ?_ h.first
    rintro j (hj | hj | hj | hj)
    . exact .inr (.inl hj)
    . rw [hempty] at hj
      contradiction
    . rw [hmu] at hj
      refine .inr (.inr (.inl ?_))
      rw [hbuf, ← some.inj hj]
      exact List.mem_singleton_self i
    . exact .inr (.inr (.inr (.inr hj)))
  | resumeRollback i prevCounter hmu =>
    refine h.frame hwf he hages rfl (fun hj => .inr ?_) h.first
    exact hj.muGoto (s := s) (t := { s with counterState := prevCounter }) rfl
      (fun hi => by rwa [hmu] at hi)
  | rollbackOk i c hmu hlive =>
    exact h.frame hwf he hages rfl
      (hgone (t := s.cancelOn c) rfl (by rw [hmu]; rfl) (settled_of_rollbackOk hlinks hmu hlive hok))
      h.first
  | rollbackErr i hmu =>
    have hsettled : s.settled i = true := settled_of_rollbackErr hmu hok
    exact h.frame hwf he hages rfl (hgone (t := s) rfl (by rw [hmu]; rfl) hsettled) h.first
  | _ hmu =>
    exact h.frame hwf he hages rfl
      (fun hj => .inr (hidle (t := { s with paused := false }) rfl hmu rfl hj)) h.first

theorem hooks_forth_cancelHookCtx {b' : Nat} (hrun : s.hooks b' = some run)
    (hi : run.phase.sub = some i)
    : ∃ b₁ run₁, (s.cancelHookCtx b).hooks b₁ = some run₁ ∧ run₁.phase.sub = some i := by
  by_cases heq : b' = b
  . subst heq
    refine ⟨b', { run with hookCtxDone := true }, ?_, hi⟩
    unfold cancelHookCtx
    dsimp only
    rw [update_self, hrun]
    rfl
  . exact ⟨b', run, (update_of_ne heq _ _).trans hrun, hi⟩

theorem kept_of_superMove (hwf : s.Wf) (h : s.Kept) {a : SuperAction} (hmove : s.SuperMove a s')
    : s'.Kept := by
  have he := evolves_of_superMove hmove
  cases hmove with
  | runBarrier =>
    refine h.frame hwf he (ages_of_same rfl) rfl (fun hj => .inr ?_) h.first
    refine refers_forth (s := s) rfl rfl rfl id (fun {b run} hrun hi => ⟨b, run, ?_, hi⟩) hj
    exact (update_of_ne (Nat.ne_of_lt (hwf.hook_lt hrun)) _ _).trans hrun
  | done b | cap b | shutdown b =>
    exact h.frame hwf he (ages_of_same rfl) rfl
      (fun hj => .inr (refers_forth (s := s) rfl rfl rfl id hooks_forth_cancelHookCtx hj)) h.first
  | _ => exact h.frame hwf he (ages_of_same rfl) rfl (fun hj => .inr (hj.same rfl)) h.first

theorem kept_of_envMove (hwf : s.Wf) (h : s.Kept) {a : EnvAction} (hmove : s.EnvMove a s')
    : s'.Kept := by
  have he := evolves_of_envMove hmove
  have hages := ages_of_envMove hmove
  cases hmove with
  | closeConn =>
    refine h.frame hwf he hages rfl (fun hj => .inr ?_) h.first
    refine refers_forth (s := s) rfl rfl rfl id (fun {b run} hrun hi => ?_) hj
    exact ⟨b, { run with hookCtxDone := true }, map_eq_some_iff.mpr ⟨run, hrun, rfl⟩, hi⟩
  | _ => exact h.frame hwf he hages rfl (fun hj => .inr (hj.same rfl)) h.first

theorem kept_step {cfg : Config} {a : Action} (hwf : s.Wf) (hended : s.Ended) (hlinks : s.Links)
    (h : s.Kept) (hok : s.keepsSubs a = true) (hstep : s.step cfg a = some s') : s'.Kept := by
  cases a with
  | openDeliveryCh who a => exact kept_of_openMove hwf hended h (openStep_move hstep)
  | loop a => exact kept_of_loopMove hwf hended h hok (loopStep_move hstep)
  | hook b a => exact kept_of_hookMove hwf h hok (hookStep_move hstep)
  | mu a => exact kept_of_muMove hwf hlinks h hok (muStep_move hstep)
  | pump i a =>
    have ⟨sub, ch, hsub, hch, _, hmove⟩ := pumpStep_move hstep
    have hages := ages_of_pumpMove hwf hended hok hsub hch hmove
    have he := evolves_of_pumpMove hsub hch hmove
    cases hmove with
    | _ => exact h.frame hwf he hages rfl (fun hj => .inr (hj.same rfl)) h.first
  | handler hd a =>
    have hmove := (handlerStep_move hstep).2
    have he := evolves_of_handlerMove hmove
    rw [handlerMove_eq hmove] at he ⊢
    exact h.frame hwf he (ages_of_same rfl) rfl (fun hj => .inr (hj.same rfl)) h.first
  | super a => exact kept_of_superMove hwf h (superStep_move hstep)
  | env a => exact kept_of_envMove hwf h (envStep_move hstep)

end State
end Subscription
