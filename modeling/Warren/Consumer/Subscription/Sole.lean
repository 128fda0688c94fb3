import Warren.Consumer.Subscription.Live

/-!
How many subscriptions the consumer has at the broker.
-/

namespace Subscription

open Function Option
namespace State

variable {prefetch : Nat} {s s' : State prefetch}

variable {i b : Nat} {resubCh : Chan Nat 1} {t : State prefetch} {run : HookRun} {p : OpenPhase}
  {sub : Sub prefetch}

theorem Sole.adopt (hwf : s.Wf) (h : s.Sole) (hselect : s.inSelect = true)
    (hbuf : s.resubCh.buf = [i]) (hempty : resubCh.buf = [])
    : { s with cur := some i, resubCh, loop := .selecting }.Sole := by
  refine h.of_sits hwf (evolves_of_same rfl) rfl h.live_chan ?_ h.dialed h.waited
    (fun hp => by contradiction) (fun haway => by contradiction)
  intro j _ hj
  cases hj with
  | cur _ hresub =>
    rw [hresub] at hbuf
    contradiction
  | resubCh hmem hmu hdue =>
    rw [hbuf, List.mem_singleton] at hmem
    exact .cur (by rw [hmem]) hempty hmu hdue
  | mu hmu hdue => exact .mu hmu hdue
  | loop hloop =>
    rw [sub_of_inSelect hselect] at hloop
    contradiction
  | sending b run hrun hphase hmu => exact .sending b run hrun hphase hmu
  | publishing b run hrun hphase => exact .publishing b run hrun hphase

theorem subLive_of_poll (hended : s.Ended) (hloop : s.loop = .polling) (hctx : s.ctxDone = false)
    (hreason : s.cancelReasonCh.buf = []) (hcur : s.cur = some i) : s.subLive i = false := by
  have ⟨j, sub, hj, hsub, hclosed, _⟩ := hended.recovering (by rw [hloop]; rfl)
  rw [hcur] at hj
  cases hj
  have hold := hended.subs hsub
  rw [Bool.eq_false_iff, ne_eq, subLive_iff]
  rintro ⟨sub', hsub', hcancelled, hopen⟩
  rw [hsub] at hsub'
  cases hsub'
  rcases hold.stopped (hold.out hclosed) with (hdead | hdead) | hex | hex | hex
  . rw [hdead] at hcancelled
    contradiction
  . rw [hdead] at hopen
    contradiction
  . rw [hctx] at hex
    contradiction
  . exact hex hreason
  . rw [hloop] at hex
    contradiction

theorem sole_of_loopMove (hwf : s.Wf) (hlinks : s.Links) (hended : s.Ended) (h : s.Sole)
    {cfg : Config} {a : LoopAction} (hmove : s.LoopMove cfg a s') : s'.Sole := by
  have he := evolves_of_loopMove hmove
  have hsub : ∀ {i p}, s.loop.sub = some i → LoopPhase.sub p = some i := by
    intro i p hi
    rw [sub_of_loopMove hmove] at hi
    contradiction
  cases hmove with
  | adopt i resubCh hselect hbuf hempty => exact h.adopt hwf hselect hbuf hempty
  | registerHook hloop | reopen hloop =>
    exact h.of_places hwf he rfl rfl (hooksOn_of_same rfl) hsub
      (fun hp husable => by cases hp; contradiction) (fun _ => h.away (by rw [hloop]; rfl))
  | pollDefault hloop hctx hreason hresub =>
    exact h.of_places hwf he rfl rfl (hooksOn_of_same rfl) hsub (fun hp => by contradiction)
      (fun _ => subLive_of_poll hended hloop hctx hreason)
  | seeConnected hloop =>
    exact h.of_places hwf he rfl rfl (hooksOn_of_same rfl) hsub (fun hp => by contradiction)
      (fun _ => h.away (by rw [hloop]; rfl))
  | drain =>
    rw [sendFrame_eq] at he ⊢
    exact h.quiet hwf hlinks he rfl rfl (hooksOn_of_same rfl) rfl rfl
  | _ =>
    exact h.of_places hwf he rfl rfl (hooksOn_of_same rfl) hsub (fun hp => by contradiction)
      (fun haway => by contradiction)

theorem hooksOn_hookGoto {phase : HookPhase} (ht : t.hooks = s.hooks) (hrun : s.hooks b = some run)
    (hsub : ∀ {i}, run.phase.sub = some i → (t.hookGoto b phase).subLive i = false)
    (hpending : phase.pending = true → run.phase.pending = true)
    (hunpublished : phase.unpublished = true →
      run.phase.unpublished = true ∧ run.phase.sub = phase.sub)
    : s.HooksOn (t.hookGoto b phase) := by
  constructor
  . intro b' run' i hrun' hi hlive
    by_cases heq : b' = b
    . subst heq
      rw [hrun, some.injEq] at hrun'
      rw [← hrun'] at hi
      rw [hsub hi] at hlive
      contradiction
    . refine ⟨run', ?_, rfl⟩
      rw [← ht] at hrun'
      exact (update_of_ne heq _ _).trans hrun'
  . intro b' run' hrun'
    rcases hooks_hookGoto hrun' with ⟨heq, hphase, _⟩ | ⟨_, hold⟩
    . rw [heq, hphase]
      exact ⟨run, hrun, hpending, hunpublished⟩
    . rw [ht] at hold
      exact ⟨run', hold, id, fun hun => ⟨hun, rfl⟩⟩

theorem openPhase_openGoto_loop {q : OpenPhase} (h : (t.openGoto .loop q).openPhase .loop = some p)
    : p = q := by
  unfold openPhase at h
  cases loop_openGoto_loop t q with
  | _ hloop =>
    rw [hloop] at h
    exact (some.inj h).symm

theorem Sole.openGoto_loop (hwf : s.Wf) (h : s.Sole) {q : OpenPhase}
    (he : s.Evolves (t.openGoto .loop q)) (hphase : s.openPhase .loop = some p)
    (hsub : p.sub = none) (hplaces : (t.openGoto .loop q).places = s.places)
    (hsuper : t.super = s.super) (hhooks : t.hooks = s.hooks)
    (hwindow : (t.openGoto .loop q).Usable q →
      (t.openGoto .loop q).Alone ∧ ∀ {i}, s.subLive i = true → q.sub = some i)
    : (t.openGoto .loop q).Sole := by
  have ⟨_, _, hloop, haway⟩ := loop_refs_of_openPhase hphase
  refine h.of_places hwf he hplaces hsuper (hooksOn_of_same hhooks) ?_ ?_ (fun _ => h.away haway)
  . intro i hi
    rw [hloop, hsub] at hi
    contradiction
  . intro p' hp' husable
    rw [openPhase_openGoto_loop hp'] at husable ⊢
    exact hwindow husable

theorem Sole.openFail_loop (hwf : s.Wf) (h : s.Sole) (he : s.Evolves (t.openFail .loop))
    (hphase : s.openPhase .loop = some p) (hsub : p.sub = none)
    (hplaces : (t.openFail .loop).places = s.places) (hsuper : t.super = s.super)
    (hhooks : t.hooks = s.hooks) : (t.openFail .loop).Sole := by
  have ⟨_, _, hloop, _⟩ := loop_refs_of_openPhase hphase
  refine h.of_places hwf he hplaces hsuper (hooksOn_of_same hhooks) ?_ ?_ ?_
  . intro i hi
    rw [hloop, hsub] at hi
    contradiction
  . intro p' hp'
    unfold openPhase at hp'
    cases loop_openFail_loop t with
    | _ hend => rw [hend] at hp'; contradiction
  . intro i haway
    cases loop_openFail_loop t with
    | _ hend => rw [hend] at haway; contradiction

theorem Sole.hookGoto_opening (hwf : s.Wf) (hlinks : s.Links) (h : s.Sole) {phase : HookPhase}
    (he : s.Evolves (t.hookGoto b phase)) (hphase : s.openPhase (.hook b) = some p)
    (hp : p.sub = none) (hsub : phase.sub = none) (hplaces : t.places = s.places)
    (hsuper : t.super = s.super) (hhooks : t.hooks = s.hooks)
    (hreconnecting : t.reconnecting = s.reconnecting) (hloop : t.loop = s.loop)
    : (t.hookGoto b phase).Sole := by
  have ⟨run, hrun, hrunPhase⟩ := hook_of_openPhase hphase
  refine h.quiet hwf hlinks he hplaces hsuper ?_ hreconnecting hloop
  refine hooksOn_hookGoto hhooks hrun ?_ ?_ ?_
  . intro i hi
    rw [hrunPhase] at hi
    exact absurd (hp.symm.trans hi) (by simp)
  . rw [hrunPhase]
    exact fun _ => rfl
  . rw [hrunPhase]
    exact fun _ => ⟨rfl, hp.trans hsub.symm⟩

theorem Links.not_alone (h : s.Links) (hwatching : s.super ≠ .watching) (hexited : s.super ≠ .exited)
    : ¬s.Alone := by
  intro halone
  cases h.connecting halone.reconnecting with
  | inl hsuper => exact hwatching hsuper
  | inr hsuper => exact hexited hsuper

theorem Links.not_alone_of_barrier (h : s.Links) (hsuper : s.super = .barrier b) : ¬s.Alone :=
  h.not_alone (by simp [hsuper]) (by simp [hsuper])

theorem Alone.not_hookDue (h : s.Alone) : ¬s.HookDue := by
  intro ⟨b, run, _, hrun, hpending⟩
  rw [h.hooks hrun] at hpending
  contradiction

theorem Sole.subLive_of_alone (h : s.Sole) (halone : s.Alone) (haway : s.loop.away = true)
    (hsub : s.loop.sub = none) (i : Nat) : s.subLive i = false := by
  rw [Bool.eq_false_iff]
  intro hi
  cases h.sits hi with
  | cur hcur =>
    rw [h.away haway hcur] at hi
    contradiction
  | resubCh hmem =>
    rw [halone.resubCh] at hmem
    contradiction
  | mu hmu =>
    rw [halone.mu] at hmu
    contradiction
  | loop hloop =>
    rw [hsub] at hloop
    contradiction
  | _ _ _ hrun hphase =>
    have hdone := halone.hooks hrun
    rw [hphase] at hdone
    contradiction

theorem Sole.of_newSub (hwf : s.Wf) (he : s.Evolves s') (hnone : ∀ i, s.subLive i = false)
    (hsub : s'.subs s.nextSub = some sub) (hlive : s'.live = s.live)
    (hchan : ∀ {c}, s.live = some c → s.chanOpen c = true → sub.chan = c)
    (hsits : s'.Sits s.nextSub) (hdialed : s'.super ≠ .dialed)
    (hwaited : ∀ {b run}, s'.super = .barrier b → s'.hooks b = some run →
      run.phase.unpublished = true → run.phase.sub = some s.nextSub ∧ ∀ i, ¬s.Open i)
    (hwindow : ∀ {p}, s'.openPhase .loop = some p → s'.Usable p → s'.Alone ∧ p.sub = some s.nextSub)
    (hcur : s'.cur = s.cur) : s'.Sole := by
  have hnew : ∀ {i}, s'.subLive i = true → i = s.nextSub := by
    intro i hi
    cases subLive_of_evolves hwf he hi with
    | inl hold =>
      rw [hnone i] at hold
      contradiction
    | inr hnew => exact hnew.1
  constructor
  . exact fun hi hj => (hnew hi).trans (hnew hj).symm
  . intro i sub' c hi hsub' hc hopen
    rw [hnew hi, hsub, some.injEq] at hsub'
    rw [hlive] at hc
    have ⟨ch, hch⟩ := hwf.refers_chan (.inl hc)
    exact hsub' ▸ hchan hc (chanOpen_of_evolves hwf he hch hopen)
  . exact fun hi => hnew hi ▸ hsits
  . exact fun hs => absurd hs hdialed
  . intro b run i hs hrun hphase hi
    have ⟨hsub, hnoOpen⟩ := hwaited hs hrun hphase
    cases open_of_evolves hwf he hi with
    | inl hold => exact absurd hold (hnoOpen i)
    | inr hi => rw [hi.1, hsub]
  . intro p hp husable
    have ⟨halone, hsub⟩ := hwindow hp husable
    exact ⟨halone, fun hi => by rw [hnew hi, hsub]⟩
  . intro i _ hi
    rw [Bool.eq_false_iff]
    intro hi'
    rw [hcur] at hi
    have ⟨sub₀, hsub₀⟩ := hwf.refers (.inl hi)
    exact hwf.ne_nextSub hsub₀ (hnew hi')

theorem Sole.consumeOk_loop (hwf : s.Wf) (hlinks : s.Links) (h : s.Sole) {c : Nat}
    (hphase : s.openPhase .loop = some (.subscribing c)) (hopen : s.chanOpen c = true)
    : ((s.newSub c false).openGoto .loop (.publishing s.nextSub)).Sole := by
  have he := evolves_of_openMove hwf (.consumeOk c hphase hopen)
  have ⟨halone, honly⟩ := h.window hphase hopen
  have ⟨_, _, hloop, haway⟩ := loop_refs_of_openPhase hphase
  have hsuper := hlinks.connecting halone.reconnecting
  refine Sole.of_newSub hwf he (h.subLive_of_alone halone haway hloop)
    (update_self s.nextSub _ _) rfl ?_ ?_ ?_ ?_ ?_ rfl
  . intro c' hc' hopen'
    rw [halone.live hc'] at hopen'
    contradiction
  . apply Sits.loop
    cases loop_openGoto_loop (s.newSub c false) (.publishing s.nextSub) with
    | _ hnew => rw [hnew]; rfl
  . show s.super ≠ .dialed
    intro hdialed
    simp [hdialed] at hsuper
  . intro b run hb
    have hb : s.super = .barrier b := hb
    simp [hb] at hsuper
  . intro p hp _
    rw [openPhase_openGoto_loop hp]
    refine ⟨⟨halone.reconnecting, halone.resubCh, halone.mu, halone.hooks, ?_⟩, rfl⟩
    exact shut_of_evolves hwf he rfl halone.live

theorem barrier_eq {b' : Nat} (hsuper : s.super = .barrier b) (hb' : s.super = .barrier b')
    : b' = b := by
  rw [hsuper, SuperPhase.barrier.injEq] at hb'
  exact hb'.symm

theorem Sole.consumeOk_hook (hwf : s.Wf) (hlinks : s.Links) (h : s.Sole) {c : Nat}
    (hsuper : s.super = .barrier b) (hphase : s.openPhase (.hook b) = some (.subscribing c))
    (hopen : s.chanOpen c = true)
    : ((s.newSub c false).openGoto (.hook b) (.publishing s.nextSub)).Sole := by
  have he := evolves_of_openMove hwf (.consumeOk c hphase hopen)
  have ⟨run, hrun, hrunPhase⟩ := hook_of_openPhase hphase
  have hnoOpen : ∀ i, ¬s.Open i := by
    intro i hi
    have hsub := h.waited hsuper hrun (by rw [hrunPhase]; rfl) hi
    rw [hrunPhase] at hsub
    contradiction
  have hrun' : ((s.newSub c false).openGoto (.hook b) (.publishing s.nextSub)).hooks b =
      some { run with phase := .opening (.publishing s.nextSub) } :=
    hookGoto_self (s := s.newSub c false) hrun _
  refine Sole.of_newSub hwf he ?_ (update_self s.nextSub _ _) rfl ?_
    (.publishing b _ hrun' rfl) ?_ ?_ ?_ rfl
  . intro i
    rw [Bool.eq_false_iff]
    exact fun hi => hnoOpen i (open_of_subLive hi)
  . intro c' hc' hopen'
    have ⟨i, sub, hsub, hchan⟩ := hlinks.live_sub hc'
    exact absurd ⟨sub, hsub, hchan ▸ hopen'⟩ (hnoOpen i)
  . show s.super ≠ .dialed
    simp [hsuper]
  . intro b' run' hb' hrun₁ _
    obtain rfl := barrier_eq hsuper hb'
    rw [hrun', some.injEq] at hrun₁
    exact ⟨by rw [← hrun₁]; rfl, hnoOpen⟩
  . intro p hp husable
    have halone := (h.window hp (usable_of_evolves hwf hlinks he hp husable)).1
    exact absurd halone (hlinks.not_alone_of_barrier hsuper)

theorem Sole.publish_loop (hwf : s.Wf) (h : s.Sole)
    (hphase : s.openPhase .loop = some (.publishing i)) (hsub : s.subs i = some sub)
    (hmu : s.mu = .free)
    : (({ s with live := some sub.chan, paused := false }.setSub i
        { sub with started := true }).openReturn .loop i).Sole := by
  have he := evolves_of_openMove hwf (.publish i sub hphase hsub hmu)
  have ⟨_, _, hloop, haway⟩ := loop_refs_of_openPhase hphase
  refine h.of_sits hwf he rfl ?_ ?_ h.dialed h.waited (fun hp => by contradiction)
    (fun haway => by contradiction)
  . intro j subj c hj hsubj hc hopen
    have hopen' : s.chanOpen sub.chan = true := by
      have ⟨ch, hch⟩ := hwf.sub_chan hsub
      exact chanOpen_of_evolves hwf he hch (some.inj hc ▸ hopen)
    have hij : some i = some j := (h.window hphase ⟨sub, hsub, hopen'⟩).2 hj
    rw [← some.inj hij, hsub] at hsubj
    cases hsubj
    exact some.inj hc
  . intro j hlive hj
    have hlive : s.subLive j = true := subLive_of_same hwf he rfl hlive
    cases hj with
    | cur hcur =>
      rw [h.away haway hcur] at hlive
      contradiction
    | resubCh hmem hmu hdue => exact .resubCh hmem hmu hdue
    | mu hmu hdue => exact .mu hmu hdue
    | loop hj =>
      have hij : some i = some j := hloop.symm.trans hj
      cases hij
      have ⟨halone, _⟩ := h.window hphase (open_of_subLive hlive)
      exact .cur rfl halone.resubCh halone.mu halone.not_hookDue
    | sending b run hrun hphase hmu => exact .sending b run hrun hphase hmu
    | publishing b run hrun hphase => exact .publishing b run hrun hphase

theorem Sole.publish_hook (hwf : s.Wf) (hlinks : s.Links) (h : s.Sole)
    (hsuper : s.super = .barrier b) (hphase : s.openPhase (.hook b) = some (.publishing i))
    (hsub : s.subs i = some sub) (hmu : s.mu = .free)
    : (({ s with live := some sub.chan, paused := false }.setSub i
        { sub with started := true }).openReturn (.hook b) i).Sole := by
  have he := evolves_of_openMove hwf (.publish i sub hphase hsub hmu)
  have ⟨run, hrun, hrunPhase⟩ := hook_of_openPhase hphase
  have honly : ∀ {j}, s.Open j → some i = some j := by
    intro j hj
    have hij := h.waited hsuper hrun (by rw [hrunPhase]; rfl) hj
    rwa [hrunPhase] at hij
  have hrun' := hookGoto_self (s := { s with live := some sub.chan, paused := false }.setSub i
    { sub with started := true }) hrun (.sending i)
  refine h.of_sits hwf he rfl ?_ ?_ h.dialed ?_ ?_ h.away
  . intro j subj c hj hsubj hc _
    rw [← some.inj (honly (open_of_subLive hj)), hsub] at hsubj
    cases hsubj
    exact some.inj hc
  . intro j hlive _
    have hij := honly (open_of_same hwf he rfl (open_of_subLive hlive))
    refine .sending b _ hrun' (by rw [some.inj hij]) ?_
    rw [hmu]
    rfl
  . intro b' run' j hb' hrun₁ hun
    obtain rfl := barrier_eq hsuper hb'
    have hphase' := some.inj (hrun'.symm.trans hrun₁)
    rw [← hphase'] at hun
    contradiction
  . intro p hp husable
    have halone := (h.window hp (usable_of_evolves hwf hlinks he hp husable)).1
    exact absurd halone (hlinks.not_alone_of_barrier hsuper)

theorem sole_of_openMove (hwf : s.Wf) (hlinks : s.Links) (h : s.Sole) {who : Caller} {a : OpenAction}
    (hok : s.subscribesAlone (.openDeliveryCh who a) = true) (hmove : s.OpenMove who a s')
    : s'.Sole := by
  have he := evolves_of_openMove hwf hmove
  cases who with
  | loop =>
    cases hmove with
    | rotate hphase =>
      exact h.openGoto_loop hwf he hphase rfl rfl rfl rfl (fun husable => by contradiction)
    | notConnected hphase | channelErr socket hphase | consumeErr c hphase =>
      exact h.openFail_loop hwf he hphase rfl rfl rfl rfl
    | readRaw socket hphase =>
      have halone : s.Alone := (alone_iff hwf).mp hok
      have ⟨_, _, hsub, haway⟩ := loop_refs_of_openPhase hphase
      refine h.openGoto_loop hwf he hphase rfl rfl rfl rfl (fun _ => ?_)
      refine ⟨halone.of_hooksOn hwf he rfl (hooksOn_of_same rfl) rfl, ?_⟩
      intro i hi
      rw [h.subLive_of_alone halone haway hsub i] at hi
      contradiction
    | channelOk socket hphase hup =>
      have ⟨halone, honly⟩ := h.window hphase hup
      exact h.openGoto_loop hwf he hphase rfl rfl rfl rfl
        (fun _ => ⟨halone.of_hooksOn hwf he rfl (hooksOn_of_same rfl) rfl, honly⟩)
    | consumeOk c hphase hopen => exact h.consumeOk_loop hwf hlinks hphase hopen
    | publish i sub hphase hsub hmu => exact h.publish_loop hwf hphase hsub hmu
  | hook b =>
    cases hmove with
    | rotate hphase | notConnected hphase | readRaw socket hphase | channelOk socket hphase
    | channelErr socket hphase | consumeErr c hphase =>
      exact h.hookGoto_opening hwf hlinks he hphase rfl rfl rfl rfl rfl rfl rfl
    | consumeOk c hphase hopen =>
      exact h.consumeOk_hook hwf hlinks (of_decide_eq_true hok) hphase hopen
    | publish i sub hphase hsub hmu =>
      exact h.publish_hook hwf hlinks (of_decide_eq_true hok) hphase hsub hmu

theorem Sole.send (hwf : s.Wf) (hlinks : s.Links) (h : s.Sole) (hsuper : s.super = .barrier b)
    (hrun : s.hooks b = some run) (hphase : run.phase = .sending i) (hbuf : resubCh.buf = [i])
    : ({ s with resubCh }.hookGoto b .after).Sole := by
  have hdue : s.HookDue := ⟨b, run, hsuper, hrun, by rw [hphase]; rfl⟩
  have hafter {b' : Nat} {run' : HookRun} (hb' : s.super = .barrier b')
      (hrun' : ({ s with resubCh }.hookGoto b .after).hooks b' = some run') : run'.phase = .after := by
    rcases hooks_hookGoto hrun' with ⟨_, hafter, _⟩ | ⟨hne, _⟩
    . rw [hafter]
    . exact absurd (barrier_eq hsuper hb') hne
  have hnotDue : ¬({ s with resubCh }.hookGoto b .after).HookDue := by
    intro ⟨b', run', hb', hrun', hpending⟩
    rw [hafter hb' hrun'] at hpending
    contradiction
  have hother : ∀ {b' run'}, b' ≠ b → s.hooks b' = some run' →
      ({ s with resubCh }.hookGoto b .after).hooks b' = some run' :=
    fun hne hrun' => (update_of_ne hne _ _).trans hrun'
  have hnoWindow : ∀ {p}, s.openPhase .loop = some p → ¬s.Usable p := by
    intro p hp husable
    exact hlinks.not_alone_of_barrier hsuper (h.window hp husable).1
  refine h.of_sits hwf (evolves_of_same rfl) rfl h.live_chan ?_ h.dialed ?_ ?_ h.away
  . intro j hlive hj
    cases hj with
    | cur _ _ _ hno | resubCh _ _ hno | mu _ hno => exact absurd hdue hno
    | loop hloop => exact .loop hloop
    | sending b' run' hrun' hphase' hmu =>
      by_cases heq : b' = b
      . subst heq
        rw [hrun, some.injEq] at hrun'
        rw [← hrun', hphase, HookPhase.sending.injEq] at hphase'
        refine .resubCh ?_ hmu hnotDue
        show j ∈ resubCh.buf
        rw [hbuf, hphase', List.mem_singleton]
      . exact .sending b' run' (hother heq hrun') hphase' hmu
    | publishing b' run' hrun' hphase' =>
      by_cases heq : b' = b
      . subst heq
        rw [hrun, some.injEq] at hrun'
        rw [← hrun', hphase] at hphase'
        contradiction
      . exact .publishing b' run' (hother heq hrun') hphase'
  . intro b' run' j hb' hrun' hun
    rw [hafter hb' hrun'] at hun
    contradiction
  . intro p hp husable
    exact absurd husable (hnoWindow hp)

theorem sole_of_hookMove (hwf : s.Wf) (hlinks : s.Links) (h : s.Sole) {a : HookAction}
    (hok : s.subscribesAlone (.hook b a) = true) (hmove : s.HookMove b a s') : s'.Sole := by
  have he := evolves_of_hookMove hmove
  cases hmove with
  | jitterElapsed run hrun hphase =>
    refine h.quiet hwf hlinks he rfl rfl (hooksOn_hookGoto rfl hrun ?_ ?_ ?_) rfl rfl
    . intro i hi
      rw [hphase] at hi
      contradiction
    . rw [hphase]
      exact id
    . rw [hphase]
      exact fun _ => ⟨rfl, rfl⟩
  | send run i resubCh hrun hphase _ hbuf =>
    exact h.send hwf hlinks (of_decide_eq_true hok) hrun hphase hbuf
  | sendCancelled run i hrun hphase =>
    refine h.quiet hwf hlinks he rfl rfl (hooksOn_hookGoto rfl hrun ?_ (fun hp => by contradiction)
      (fun hun => by contradiction)) rfl rfl
    intro j hj
    have hdead : (s.hooks b).all (fun run => run.phase.sub.all (fun i => s.subLive i = false)) = true :=
      hok
    rw [hrun, all_some, hj, all_some] at hdead
    exact of_decide_eq_true hdead
  | _ _ hrun hphase =>
    refine h.quiet hwf hlinks he rfl rfl (hooksOn_hookGoto rfl hrun ?_ (fun hp => by contradiction)
      (fun hun => by contradiction)) rfl rfl
    intro i hi
    rw [hphase] at hi
    contradiction

theorem consumes_of_subLive (hwf : s.Wf) (h : s.subLive i = true) (hsub : s.subs i = some sub)
    : s.consumes sub.chan = true := by
  have ⟨sub', hsub', hcancelled, _⟩ := subLive_iff.mp h
  rw [hsub] at hsub'
  cases hsub'
  apply decide_eq_true
  exact ⟨i, hwf.sub_lt hsub, by simp [hsub, hcancelled]⟩

theorem Sole.resumeConsumeOk (hwf : s.Wf) (hlinks : s.Links) (h : s.Sole) {c : Nat}
    (hreconnecting : s.reconnecting = false) (hmu : s.mu = .resuming) (hlive : s.live = some c)
    (hopen : s.chanOpen c = true) (hconsumes : s.consumes c = false)
    : { s.newSub c true with mu := .subscribed s.nextSub }.Sole := by
  have he := evolves_of_muMove hwf (.resumeConsumeOk c hmu hlive hopen hconsumes)
  have hsuper := hlinks.connecting hreconnecting
  have hnotBarrier : ∀ {b}, s.super ≠ .barrier b := by
    intro b hb
    simp [hb] at hsuper
  refine Sole.of_newSub hwf he ?_ (update_self s.nextSub _ _) rfl ?_ ?_ ?_ ?_ ?_ rfl
  . intro i
    rw [Bool.eq_false_iff]
    intro hi
    have ⟨sub, hsub, _⟩ := subLive_iff.mp hi
    have hc := consumes_of_subLive hwf hi hsub
    rw [h.live_chan hi hsub hlive hopen, hconsumes] at hc
    contradiction
  . intro c' hc' _
    exact some.inj (hlive.symm.trans hc')
  . refine .mu rfl ?_
    intro ⟨b, run, hb, _⟩
    exact hnotBarrier hb
  . show s.super ≠ .dialed
    intro hdialed
    simp [hdialed] at hsuper
  . intro b run hb
    exact absurd hb hnotBarrier
  . intro p hp husable
    have halone := (h.window hp (usable_of_evolves hwf hlinks he hp husable)).1
    rw [halone.live hlive] at hopen
    contradiction

theorem Sole.resumeSend (hwf : s.Wf) (h : s.Sole) (hmu : s.mu.sub = some i)
    (hbuf : resubCh.buf = [i]) : { s with resubCh, mu := .handedOver }.Sole := by
  have hheld : s.mu.sub ≠ none := by simp [hmu]
  refine h.of_sits hwf (evolves_of_same rfl) rfl h.live_chan ?_ h.dialed h.waited ?_ h.away
  . intro j hlive hj
    cases hj with
    | cur _ _ hno | resubCh _ hno | sending _ _ _ _ hno => exact absurd hno hheld
    | mu hj hdue =>
      refine .resubCh ?_ rfl hdue
      rw [hbuf, List.mem_singleton]
      exact some.inj (hj.symm.trans hmu)
    | loop hloop => exact .loop hloop
    | publishing b run hrun hphase => exact .publishing b run hrun hphase
  . intro p hp husable
    exact absurd (h.window hp husable).1.mu hheld

theorem Sole.giveUp (hwf : s.Wf) (hlinks : s.Links) (h : s.Sole) (he : s.Evolves s')
    (hmu : s.mu.sub = some i) (hdead : s'.subLive i = false) (hnext : s'.nextSub = s.nextSub)
    (hlive : s'.live = s.live) (hloop : s'.loop = s.loop) (hcur : s'.cur = s.cur)
    (hsuper : s'.super = s.super) (hhooks : s'.hooks = s.hooks) : s'.Sole := by
  have hheld : s.mu.sub ≠ none := by simp [hmu]
  refine h.of_sits hwf he hnext (h.live_chan_of_evolves hwf he hlive) ?_ ?_ ?_ ?_ ?_
  . intro j hj hsits
    cases hsits with
    | cur _ _ hno | resubCh _ hno | sending _ _ _ _ hno => exact absurd hno hheld
    | mu hj' =>
      rw [hmu, some.injEq] at hj'
      rw [← hj', hdead] at hj
      contradiction
    | loop hj => exact .loop (hloop ▸ hj)
    | publishing b run hrun hphase => exact .publishing b run (hhooks ▸ hrun) hphase
  . rw [hsuper]
    exact h.dialed
  . rw [hsuper, hhooks]
    exact h.waited
  . intro p hp husable
    have hp : s.openPhase .loop = some p := by
      unfold openPhase at hp ⊢
      rwa [hloop] at hp
    have halone := (h.window hp (usable_of_evolves hwf hlinks he hp husable)).1
    exact absurd halone.mu hheld
  . rw [hloop, hcur]
    exact h.away

theorem sole_of_muMove (hwf : s.Wf) (hlinks : s.Links) (h : s.Sole) {a : MuAction}
    (hok : s.subscribesAlone (.mu a) = true) (hmove : s.MuMove a s') : s'.Sole := by
  have he := evolves_of_muMove hwf hmove
  cases hmove with
  | resumeConsumeOk c hmu hlive hopen hconsumes =>
    exact h.resumeConsumeOk hwf hlinks (of_decide_eq_true hok) hmu hlive hopen hconsumes
  | resumeSend i prevCounter resubCh hmu _ hbuf =>
    exact h.resumeSend hwf (by rw [hmu]; rfl) hbuf
  | rollbackOk i c hmu hlive =>
    have hheld : s.mu.sub = some i := by rw [hmu]; rfl
    have ⟨sub, hsub, hchan⟩ := hlinks.mu_sub hheld
    refine h.giveUp hwf hlinks he hheld ?_ rfl rfl rfl rfl rfl rfl
    have hc : sub.chan = c := some.inj (hchan.symm.trans hlive)
    simp [subLive, cancelOn, hsub, hc]
  | rollbackErr i hmu =>
    have hheld : s.mu.sub = some i := by rw [hmu]; rfl
    have ⟨sub, hsub, hchan⟩ := hlinks.mu_sub hheld
    refine h.giveUp hwf hlinks he hheld ?_ rfl rfl rfl rfl rfl rfl
    have hshut : s.live.all (fun c => s.chanOpen c = false) = true := hok
    rw [hchan, all_some, decide_eq_true_iff] at hshut
    show s.subLive i = false
    simp [subLive, hsub, hshut]
  | _ =>
    exact h.quiet hwf hlinks he (by simp [places, MuPhase.sub, newCounter, cancelOn, *]) rfl
      (hooksOn_of_same rfl) rfl rfl

theorem sole_of_noneOpen (hnone : ∀ i, ¬s.Open i)
    (hwindow : ∀ {p}, s.openPhase .loop = some p → ¬s.Usable p) : s.Sole := by
  have hlive : ∀ {i}, s.subLive i ≠ true := fun hi => hnone _ (open_of_subLive hi)
  constructor
  . exact fun hi => absurd hi hlive
  . exact fun hi => absurd hi hlive
  . exact fun hi => absurd hi hlive
  . exact fun _ => hnone
  . exact fun _ _ _ hi => absurd hi (hnone _)
  . exact fun hp husable => absurd husable (hwindow hp)
  . exact fun _ _ => Bool.eq_false_iff.mpr hlive

theorem chanOpen_of_down (h : s.up = none) (c : Nat) : s.chanOpen c ≠ true := by
  intro hopen
  have ⟨ch, _, _, hup⟩ := chanOpen_iff.mp hopen
  rw [h] at hup
  contradiction

theorem sole_of_down (h : s.up = none) : s.Sole := by
  have hnone : ∀ i, ¬s.Open i := by
    intro i ⟨sub, _, hopen⟩
    exact chanOpen_of_down h sub.chan hopen
  refine sole_of_noneOpen hnone ?_
  intro p _ husable
  cases p with
  | rotating => exact husable
  | reading => exact husable
  | opening socket =>
    have hup : s.up = some socket := husable
    rw [h] at hup
    contradiction
  | subscribing c => exact chanOpen_of_down h c husable
  | publishing i => exact hnone i husable

theorem Sole.of_super (hwf : s.Wf) (h : s.Sole) (he : s.Evolves s')
    (hplaces : s'.places = s.places) (hloop : s'.loop = s.loop)
    (hhooks : ∀ {b run}, s.hooks b = some run →
      ∃ run', s'.hooks b = some run' ∧ run'.phase = run.phase)
    (hdialed : s'.super ≠ .dialed) (hbarrier : ∀ {b}, s'.super ≠ .barrier b)
    (hwindow : ∀ {p}, s'.openPhase .loop = some p → ¬s'.Usable p) : s'.Sole := by
  have hcur : s'.cur = s.cur := congrArg Places.cur hplaces
  refine h.of_sits hwf he (congrArg Places.nextSub hplaces)
    (h.live_chan_of_evolves hwf he (congrArg Places.live hplaces)) ?_
    (fun hs => absurd hs hdialed) (fun hb => absurd hb hbarrier)
    (fun hp husable => absurd husable (hwindow hp)) ?_
  . intro i _
    refine Sits.of_places hplaces ?_ (hloop ▸ id) (fun hrun _ => hhooks hrun)
    intro ⟨b, _, hb, _⟩
    exact absurd hb hbarrier
  . intro i haway hi
    exact h.away (hloop ▸ haway) (hcur ▸ hi)

theorem open_dial (hwf : s.Wf) (hup : s'.up = some s.nextSocket) (hchans : s'.chans = s.chans)
    (i : Nat) : ¬s'.Open i := by
  intro ⟨sub, _, hopen⟩
  have ⟨ch, hch, _, hsocket⟩ := chanOpen_iff.mp hopen
  have hlt := hwf.socket_lt (hchans ▸ hch)
  rw [hup, some.injEq] at hsocket
  omega

theorem hooks_cancelHookCtx_forth (b : Nat) {b' : Nat} (h : s.hooks b' = some run)
    : ∃ run', (s.cancelHookCtx b).hooks b' = some run' ∧ run'.phase = run.phase := by
  unfold cancelHookCtx
  dsimp only
  by_cases heq : b' = b
  . subst heq
    rw [update_self, h]
    exact ⟨_, rfl, rfl⟩
  . rw [update_of_ne heq]
    exact ⟨run, h, rfl⟩

theorem sole_of_superMove (hwf : s.Wf) (hlinks : s.Links) (h : s.Sole) {a : SuperAction}
    (hmove : s.SuperMove a s') : s'.Sole := by
  have he := evolves_of_superMove hmove
  -- a reopen of the loop comes to nothing while the socket is being replaced
  have hreplaced : s.super ≠ .watching ∧ s.super ≠ .exited → s'.loop = s.loop →
      ∀ {p}, s'.openPhase .loop = some p → ¬s'.Usable p := by
    intro hsuper hloop p hp husable
    have hp : s.openPhase .loop = some p := by
      unfold openPhase at hp ⊢
      rwa [hloop] at hp
    exact hlinks.not_alone hsuper.1 hsuper.2
      (h.window hp (usable_of_evolves hwf hlinks he hp husable)).1
  cases hmove with
  | reconnect _ hup => exact sole_of_down hup
  | capClose | exit => exact sole_of_down rfl
  | dial hsuper =>
    exact sole_of_noneOpen (open_dial hwf rfl rfl) (hreplaced (by simp [hsuper]) rfl)
  | runBarrier hsuper =>
    exact sole_of_noneOpen (fun i hi => h.dialed hsuper i (open_of_same hwf he rfl hi))
      (hreplaced (by simp [hsuper]) rfl)
  | dialFailed hsuper | capRaw b hsuper | exitRedialing hsuper =>
    exact h.of_super hwf he rfl rfl (fun hrun => ⟨_, hrun, rfl⟩) (by simp) (by simp)
      (hreplaced (by simp [hsuper]) rfl)
  | _ b hsuper =>
    exact h.of_super hwf he rfl rfl (hooks_cancelHookCtx_forth b) (by simp) (by simp)
      (hreplaced (by simp [hsuper]) rfl)

theorem hooksOn_closeConn
    : s.HooksOn { s with
        connCtxDone := true
        hooks := fun b => (s.hooks b).map (fun run => { run with hookCtxDone := true }) } := by
  constructor
  . intro b run i hrun _ _
    exact ⟨{ run with hookCtxDone := true }, by simp [hrun], rfl⟩
  . intro b run' hrun'
    have ⟨run, hrun, heq⟩ := map_eq_some_iff.mp hrun'
    exact ⟨run, hrun, by rw [← heq]; exact id, by rw [← heq]; exact fun hun => ⟨hun, rfl⟩⟩

theorem sole_step {cfg : Config} {a : Action} (hwf : s.Wf) (hlinks : s.Links) (hended : s.Ended)
    (h : s.Sole) (hok : s.subscribesAlone a = true) (hstep : s.step cfg a = some s') : s'.Sole := by
  cases a with
  | openDeliveryCh who a => exact sole_of_openMove hwf hlinks h hok (openStep_move hstep)
  | loop a => exact sole_of_loopMove hwf hlinks hended h (loopStep_move hstep)
  | hook b a => exact sole_of_hookMove hwf hlinks h hok (hookStep_move hstep)
  | mu a => exact sole_of_muMove hwf hlinks h hok (muStep_move hstep)
  | pump i a =>
    have ⟨sub, ch, hsub, hch, _, hmove⟩ := pumpStep_move hstep
    have he := evolves_of_pumpMove hsub hch hmove
    cases hmove with
    | _ => exact h.quiet hwf hlinks he rfl rfl (hooksOn_of_same rfl) rfl rfl
  | handler hd a =>
    have hmove := (handlerStep_move hstep).2
    have he := evolves_of_handlerMove hmove
    rw [handlerMove_eq hmove] at he ⊢
    exact h.quiet hwf hlinks he rfl rfl (hooksOn_of_same rfl) rfl rfl
  | super a => exact sole_of_superMove hwf hlinks h (superStep_move hstep)
  | env a =>
    have hmove := envStep_move hstep
    have he := evolves_of_envMove hmove
    cases hmove with
    | closeConn => exact h.quiet hwf hlinks he rfl rfl hooksOn_closeConn rfl rfl
    | _ => exact h.quiet hwf hlinks he rfl rfl (hooksOn_of_same rfl) rfl rfl

theorem sole_init (prefetch : Nat) (bootDegraded : Bool) : (init prefetch bootDegraded).Sole := by
  refine sole_of_noneOpen ?_ (fun hp => by contradiction)
  intro i ⟨sub, hsub, _⟩
  contradiction

theorem Sits.refers (h : s.Sits i) : s.Refers i := by
  cases h with
  | cur hcur => exact .inl hcur
  | resubCh hmem => exact .inr (.inl hmem)
  | mu hmu => exact .inr (.inr (.inl hmu))
  | loop hloop => exact .inr (.inr (.inr (.inl hloop)))
  | _ b run hrun hphase =>
    exact .inr (.inr (.inr (.inr ⟨b, run, hrun, by rw [hphase]; rfl⟩)))

end State

open State

variable {prefetch : Nat}

/--
At most one subscription is live, and it is behind `cur`, in `resubCh` or still in the hand of the
call that has made it, in every run that keeps to `subscribesAlone`.
-/
theorem oneLive_of_run {cfg : Config} {bootDegraded : Bool} {s : State prefetch} {as : List Action}
    (hok : Run.Along (step cfg) (fun s a => s.subscribesAlone a = true)
      (.init prefetch bootDegraded) as)
    (hrun : Run.run (step cfg) (.init prefetch bootDegraded) as = some s)
    : (∀ i j, s.subLive i = true → s.subLive j = true → i = j) ∧
        ∀ i, s.subLive i = true → s.cur = some i ∨ i ∈ s.resubCh.buf ∨ s.InHand i := by
  have hstep : ∀ (s : State prefetch) a s', (s.Wf ∧ s.Links) ∧ s.Ended ∧ s.Sole →
      s.subscribesAlone a = true → s.step cfg a = some s' →
      (s'.Wf ∧ s'.Links) ∧ s'.Ended ∧ s'.Sole := by
    intro s a s' ⟨⟨hwf, hlinks⟩, hended, hsole⟩ hok hstep
    exact ⟨⟨wf_step hwf hstep, links_step hwf hlinks hstep⟩,
      ended_step hwf hended hstep, sole_step hwf hlinks hended hsole hok hstep⟩
  have hinit : ((init prefetch bootDegraded).Wf ∧ (init prefetch bootDegraded).Links) ∧
      (init prefetch bootDegraded).Ended ∧ (init prefetch bootDegraded).Sole :=
    ⟨⟨wf_init prefetch bootDegraded, links_init prefetch bootDegraded⟩,
      ended_init prefetch bootDegraded, sole_init prefetch bootDegraded⟩
  have ⟨_, _, hsole⟩ := Run.inv_of_run hstep hinit hok hrun
  exact ⟨fun _ _ hi hj => hsole.only hi hj, fun _ hi => (hsole.sits hi).refers⟩

def channelDies (c i : Nat) : List Action :=
  [.env (.die c), .env (.dieStreams c), .pump i .recvClose, .pump i .closeDone]

def selfHeals : List Action :=
  [.loop .seeClosed, .loop (.readPaused false), .loop .pollDefault, .loop .checkReconnecting,
    .loop .checkPaused]

def healedRun : List Action :=
  .loop .registerHook :: Caller.loop.subscribes ++ reconnects 0 ++ (Caller.hook 0).subscribes ++
  [.hook 0 .send, .loop .adopt, .hook 0 .later, .super .done] ++ channelDies 1 1 ++ selfHeals ++
  Caller.loop.subscribes

theorem oneLive_of_run_healed
    : ∃ s : State 1, Run.run (step plainConsume) (.init 1 false) healedRun = some s ∧
        s.cur = some 2 ∧ s.subLive 2 = true ∧ ∀ i, s.subLive i = true → i = 2 := by
  have ⟨s, hrun, hs⟩ := map_eq_some_iff.mp
    (by decide : (Run.run (step plainConsume) (.init 1 false : State 1) healedRun).map
      (fun s => (s.cur, s.subLive 2)) = some (some 2, true))
  have hcur : s.cur = some 2 := congrArg Prod.fst hs
  have hlive : s.subLive 2 = true := congrArg Prod.snd hs
  exact ⟨s, hrun, hcur, hlive, fun i hi => (oneLive_of_run (by decide) hrun).1 i 2 hi hlive⟩

-- the socket is lost after the loop has seen that it is not reconnecting
def hookDuringReopenRun : List Action :=
  .loop .registerHook :: Caller.loop.subscribes ++ channelDies 0 0 ++ selfHeals ++ reconnects 0 ++
  (Caller.hook 0).subscribes ++ Caller.loop.subscribes ++ [.hook 0 .send, .loop .adopt]

theorem two_live_hookDuringReopen
    : ∃ s : State 1,
        Run.run (step plainConsume) (.init 1 false) hookDuringReopenRun = some s ∧
        s.subLive 1 = true ∧ s.subLive 2 = true ∧ s.cur = some 1 ∧ s.resubCh.buf = [] := by
  have ⟨s, hrun, hs⟩ := map_eq_some_iff.mp
    (by decide : (Run.run (step plainConsume) (.init 1 false : State 1)
      hookDuringReopenRun).map (fun s => (s.subLive 1, s.subLive 2, s.cur, s.resubCh.buf)) =
        some (true, true, some 1, []))
  simp only [Prod.mk.injEq] at hs
  exact ⟨s, hrun, hs⟩

end Subscription
