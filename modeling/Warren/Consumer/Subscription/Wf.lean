import Warren.Consumer.Subscription.Evolves

namespace Subscription

open Function Option
open Nat
namespace State

variable {prefetch : Nat} {s s' t : State prefetch}

variable {i b : Nat} {phase : HookPhase} {run : HookRun} {cfg : Config}

theorem refers_of_loop (h : s'.Refers i) (hmu : s'.mu = s.mu) (hhooks : s'.hooks = s.hooks)
    : s.Refers i ∨ s'.cur = some i ∨ i ∈ s'.resubCh.buf ∨ s'.loop.sub = some i := by
  rcases h with h | h | h | h | h
  . exact .inr (.inl h)
  . exact .inr (.inr (.inl h))
  . exact .inl (.inr (.inr (.inl (hmu ▸ h))))
  . exact .inr (.inr (.inr h))
  . exact .inl (.inr (.inr (.inr (.inr (hhooks ▸ h)))))

theorem refers_of_mu (h : s'.Refers i) (hcur : s'.cur = s.cur) (hloop : s'.loop = s.loop)
    (hhooks : s'.hooks = s.hooks) : s.Refers i ∨ i ∈ s'.resubCh.buf ∨ s'.mu.sub = some i := by
  rcases h with h | h | h | h | h
  . exact .inl (.inl (hcur ▸ h))
  . exact .inr (.inl h)
  . exact .inr (.inr h)
  . exact .inl (.inr (.inr (.inr (.inl (hloop ▸ h)))))
  . exact .inl (.inr (.inr (.inr (.inr (hhooks ▸ h)))))

theorem hooks_hookGoto {b' : Nat} (h : (s.hookGoto b phase).hooks b' = some run)
    : (b' = b ∧ run.phase = phase ∧ ∃ run₀, s.hooks b = some run₀) ∨
        (b' ≠ b ∧ s.hooks b' = some run) := by
  unfold hookGoto at h
  dsimp only at h
  by_cases heq : b' = b
  . left
    subst heq
    rw [update_self] at h
    have ⟨run₀, hrun₀, hrun⟩ := map_eq_some_iff.mp h
    exact ⟨rfl, by rw [← hrun], run₀, hrun₀⟩
  . right
    exact ⟨heq, by rwa [update_of_ne heq] at h⟩

theorem refers_hookGoto (h : (s.hookGoto b phase).Refers i) : s.Refers i ∨ phase.sub = some i := by
  rcases h with h | h | h | h | ⟨b', run, hrun, hsub⟩
  . exact .inl (.inl h)
  . exact .inl (.inr (.inl h))
  . exact .inl (.inr (.inr (.inl h)))
  . exact .inl (.inr (.inr (.inr (.inl h))))
  . cases hooks_hookGoto hrun with
    | inl hself => exact .inr (hself.2.1 ▸ hsub)
    | inr hother => exact .inl (.inr (.inr (.inr (.inr ⟨b', run, hother.2, hsub⟩))))

theorem refersChan_hookGoto {c : Nat} (h : (s.hookGoto b phase).RefersChan c)
    : s.RefersChan c ∨ phase.chan = some c := by
  rcases h with h | h | ⟨b', run, hrun, hchan⟩
  . exact .inl (.inl h)
  . exact .inl (.inr (.inl h))
  . cases hooks_hookGoto hrun with
    | inl hself => exact .inr (hself.2.1 ▸ hchan)
    | inr hother => exact .inl (.inr (.inr ⟨b', run, hother.2, hchan⟩))

theorem sub_of_inSelect (h : s.inSelect = true) : s.loop.sub = none := by
  rcases of_decide_eq_true h with hloop | hselect
  . rw [hloop]; rfl
  . rcases of_decide_eq_true hselect with hloop | hloop | hloop | hloop
    . rw [hloop]; rfl
    . rw [hloop]; rfl
    . rw [hloop]; rfl
    . rw [hloop]; rfl

theorem sub_of_loopMove {a : LoopAction} (hmove : s.LoopMove cfg a s') : s.loop.sub = none := by
  cases hmove with
  | recoverStop hselect => exact sub_of_inSelect (decide_eq_true (.inr hselect))
  | adopt _ _ hselect | brokerCancel _ hselect => exact sub_of_inSelect hselect
  | _ => simp [LoopPhase.sub, *]

theorem hook_of_openPhase {p : OpenPhase} (h : s.openPhase (.hook b) = some p)
    : ∃ run, s.hooks b = some run ∧ run.phase = .opening p := by
  unfold openPhase at h
  dsimp only at h
  split at h
  . next q ctx hrun => exact ⟨_, hrun, by rw [some.inj h]⟩
  . contradiction

theorem hookGoto_self (h : s.hooks b = some run) (phase : HookPhase)
    : (s.hookGoto b phase).hooks b = some { run with phase } := by
  unfold hookGoto
  dsimp only
  rw [update_self, h]
  rfl

theorem loop_openGoto_loop (s : State prefetch) (p : OpenPhase)
    : (s.openGoto .loop p).loop = .opening p ∨ (s.openGoto .loop p).loop = .reopening p := by
  unfold openGoto
  dsimp only
  split
  . exact .inl rfl
  . exact .inr rfl

theorem loop_openFail_loop (s : State prefetch)
    : (s.openFail .loop).loop = .returned .openErr ∨ (s.openFail .loop).loop = .backingOff := by
  unfold openFail
  dsimp only
  split
  . exact .inl rfl
  . exact .inr rfl

theorem Wf.of_evolves (h : s.Wf) (he : s.Evolves s')
    (hrefers : ∀ {i}, s'.Refers i → s.Refers i ∨ ∃ sub, s'.subs i = some sub)
    (hrefersChan : ∀ {c}, s'.RefersChan c → s.RefersChan c ∨ ∃ ch, s'.chans c = some ch)
    (hhook : ∀ {b run}, s'.hooks b = some run → b < s'.nextBarrier)
    (hreason : s'.cancelReasonCh.closed = false) : s'.Wf where
  socket_lt := by
    intro c ch' hc
    apply lt_of_lt_of_le _ he.next_socket
    cases he.chans_of hc with
    | inl hold =>
      have ⟨ch, hch⟩ := hold
      have ⟨ch₁, hc₁, hsocket, _⟩ := he.chans hch
      rw [hc, some.injEq] at hc₁
      rw [hc₁, hsocket]
      exact h.socket_lt hch
    | inr hnew => exact h.up_lt hnew.2.2
  up_lt := by
    intro n hn
    rcases he.up with hup | hup | ⟨hup, hnext⟩
    . exact lt_of_lt_of_le (h.up_lt (hup ▸ hn)) he.next_socket
    . rw [hup] at hn
      contradiction
    . rw [hup, some.injEq] at hn
      omega
  chan_lt := by
    intro c ch' hc
    cases he.chans_of hc with
    | inl hold => exact lt_of_lt_of_le (h.chan_lt hold.choose_spec) he.next_chan
    | inr hnew => omega
  sub_lt := by
    intro i sub' hi
    cases he.subs_of hi with
    | inl hold => exact lt_of_lt_of_le (h.sub_lt hold.choose_spec) he.next_sub
    | inr hnew => omega
  sub_chan := by
    intro i sub' hi
    cases he.subs_of hi with
    | inl hold =>
      have ⟨sub, hsub⟩ := hold
      have ⟨sub₁, hi₁, hchan, _⟩ := he.subs hsub
      rw [hi, some.injEq] at hi₁
      have ⟨ch, hch⟩ := h.sub_chan hsub
      have ⟨ch', hch', _⟩ := he.chans hch
      exact ⟨ch', by rwa [hi₁, hchan]⟩
    | inr hnew =>
      have ⟨ch, hch, _⟩ := chanOpen_iff.mp hnew.2.2
      have ⟨ch', hch', _⟩ := he.chans hch
      exact ⟨ch', hch'⟩
  refers := by
    intro i hi
    cases hrefers hi with
    | inl hold =>
      have ⟨sub, hsub⟩ := h.refers hold
      have ⟨sub', hsub', _⟩ := he.subs hsub
      exact ⟨sub', hsub'⟩
    | inr hnew => exact hnew
  refers_chan := by
    intro c hc
    cases hrefersChan hc with
    | inl hold =>
      have ⟨ch, hch⟩ := h.refers_chan hold
      have ⟨ch', hch', _⟩ := he.chans hch
      exact ⟨ch', hch'⟩
    | inr hnew => exact hnew
  hook_lt := hhook
  reason_closed := hreason

theorem Wf.of_hooks (h : s.Wf) (he : s.Evolves s') (hcur : s'.cur = s.cur)
    (hresub : s'.resubCh = s.resubCh) (hmu : s'.mu = s.mu) (hloop : s'.loop = s.loop)
    (hlive : s'.live = s.live)
    (hhooks : ∀ {b run}, s'.hooks b = some run → b < s'.nextBarrier ∧
      ((∃ run₀, s.hooks b = some run₀ ∧ run₀.phase = run.phase) ∨
        (run.phase.sub = none ∧ run.phase.chan = none)))
    (hreason : s'.cancelReasonCh.closed = s.cancelReasonCh.closed) : s'.Wf := by
  refine h.of_evolves he ?_ ?_ (fun hrun => (hhooks hrun).1) (hreason.trans h.reason_closed)
  . rintro i (hi | hi | hi | hi | ⟨b, run, hrun, hi⟩)
    . exact .inl (.inl (hcur ▸ hi))
    . exact .inl (.inr (.inl (hresub ▸ hi)))
    . exact .inl (.inr (.inr (.inl (hmu ▸ hi))))
    . exact .inl (.inr (.inr (.inr (.inl (hloop ▸ hi)))))
    . cases (hhooks hrun).2 with
      | inl hold =>
        have ⟨run₀, hrun₀, hphase⟩ := hold
        exact .inl (.inr (.inr (.inr (.inr ⟨b, run₀, hrun₀, hphase ▸ hi⟩))))
      | inr hnew =>
        rw [hnew.1] at hi
        contradiction
  . rintro c (hc | hc | ⟨b, run, hrun, hc⟩)
    . exact .inl (.inl (hlive ▸ hc))
    . exact .inl (.inr (.inl (hloop ▸ hc)))
    . cases (hhooks hrun).2 with
      | inl hold =>
        have ⟨run₀, hrun₀, hphase⟩ := hold
        exact .inl (.inr (.inr ⟨b, run₀, hrun₀, hphase ▸ hc⟩))
      | inr hnew =>
        rw [hnew.2] at hc
        contradiction

structure Refs where
  cur : Option Nat
  resubCh : Chan Nat 1
  mu : MuPhase
  loop : LoopPhase
  live : Option Nat
  hooks : Nat → Option HookRun
  nextBarrier : Nat

def refs (s : State prefetch) : Refs :=
  ⟨s.cur, s.resubCh, s.mu, s.loop, s.live, s.hooks, s.nextBarrier⟩

theorem Wf.of_same_refs (h : s.Wf) (he : s.Evolves s') (hrefs : s'.refs = s.refs)
    (hreason : s'.cancelReasonCh.closed = s.cancelReasonCh.closed) : s'.Wf := by
  have hhooks : s'.hooks = s.hooks := congrArg Refs.hooks hrefs
  have hnext : s'.nextBarrier = s.nextBarrier := congrArg Refs.nextBarrier hrefs
  refine h.of_hooks he (congrArg Refs.cur hrefs) (congrArg Refs.resubCh hrefs)
    (congrArg Refs.mu hrefs) (congrArg Refs.loop hrefs) (congrArg Refs.live hrefs) ?_ hreason
  intro b run hrun
  rw [hhooks] at hrun
  exact ⟨hnext ▸ h.hook_lt hrun, .inl ⟨run, hrun, rfl⟩⟩

theorem Wf.hookGoto (h : s.Wf) (b : Nat)
    (hsub : ∀ i, phase.sub = some i → ∃ sub, s.subs i = some sub)
    (hchan : ∀ c, phase.chan = some c → ∃ ch, s.chans c = some ch) : (s.hookGoto b phase).Wf := by
  refine h.of_evolves (evolves_of_same rfl) ?_ ?_ ?_ h.reason_closed
  . intro i hi
    exact (refers_hookGoto hi).imp id (hsub i)
  . intro c hc
    exact (refersChan_hookGoto hc).imp id (hchan c)
  . intro b' run hrun
    cases hooks_hookGoto hrun with
    | inl hself =>
      have ⟨heq, _, run₀, hrun₀⟩ := hself
      exact h.hook_lt (heq ▸ hrun₀)
    | inr hother => exact h.hook_lt hother.2

theorem Wf.loopGoto (h : s.Wf) (htables : s'.tables = s.tables)
    (hcur : ∀ i, s'.cur = some i → ∃ sub, s.subs i = some sub)
    (hresub : ∀ i ∈ s'.resubCh.buf, ∃ sub, s.subs i = some sub) (hmu : s'.mu = s.mu)
    (hsub : ∀ i, s'.loop.sub = some i → ∃ sub, s.subs i = some sub)
    (hchan : ∀ c, s'.loop.chan = some c → ∃ ch, s.chans c = some ch)
    (hlive : s'.live = s.live) (hhooks : s'.hooks = s.hooks) (hnext : s'.nextBarrier = s.nextBarrier)
    (hreason : s'.cancelReasonCh.closed = s.cancelReasonCh.closed) : s'.Wf := by
  have hsubs : s'.subs = s.subs := congrArg Tables.subs htables
  have hchans : s'.chans = s.chans := congrArg Tables.chans htables
  refine h.of_evolves (evolves_of_same htables) ?_ ?_ ?_ (hreason.trans h.reason_closed)
  . intro i hi
    rw [hsubs]
    rcases refers_of_loop hi hmu hhooks with hi | hi | hi | hi
    . exact .inl hi
    . exact .inr (hcur i hi)
    . exact .inr (hresub i hi)
    . exact .inr (hsub i hi)
  . intro c hc
    rw [hchans]
    rcases hc with hc | hc | hc
    . exact .inl (.inl (hlive ▸ hc))
    . exact .inr (hchan c hc)
    . exact .inl (.inr (.inr (hhooks ▸ hc)))
  . rw [hhooks, hnext]
    exact h.hook_lt

theorem Wf.openGoto (h : s.Wf) (who : Caller) {p : OpenPhase}
    (hsub : ∀ i, p.sub = some i → ∃ sub, s.subs i = some sub)
    (hchan : ∀ c, p.chan = some c → ∃ ch, s.chans c = some ch) : (s.openGoto who p).Wf := by
  cases who with
  | hook b => exact h.hookGoto b hsub hchan
  | loop =>
    refine h.loopGoto rfl (fun i hi => h.refers (.inl hi))
      (fun i hi => h.refers (.inr (.inl hi))) rfl ?_ ?_ rfl rfl rfl rfl
    . intro i hi
      cases loop_openGoto_loop s p with
      | _ hloop => exact hsub i (by rwa [hloop] at hi)
    . intro c hc
      cases loop_openGoto_loop s p with
      | _ hloop => exact hchan c (by rwa [hloop] at hc)

theorem Wf.openFail (h : s.Wf) (who : Caller) : (s.openFail who).Wf := by
  cases who with
  | hook b => exact h.hookGoto b (fun _ hi => by contradiction) (fun _ hc => by contradiction)
  | loop =>
    refine h.loopGoto rfl (fun i hi => h.refers (.inl hi))
      (fun i hi => h.refers (.inr (.inl hi))) rfl ?_ ?_ rfl rfl rfl rfl
    . intro i hi
      cases loop_openFail_loop s with
      | _ hloop => rw [hloop] at hi; contradiction
    . intro c hc
      cases loop_openFail_loop s with
      | _ hloop => rw [hloop] at hc; contradiction

theorem Wf.openReturn (h : s.Wf) (who : Caller) (hi : ∃ sub, s.subs i = some sub)
    : (s.openReturn who i).Wf := by
  cases who with
  | hook b =>
    refine h.hookGoto b ?_ (fun _ hc => by contradiction)
    intro j hj
    exact some.inj hj ▸ hi
  | loop =>
    refine h.loopGoto rfl ?_ (fun i hi => h.refers (.inr (.inl hi))) rfl
      (fun _ hj => by contradiction) (fun _ hc => by contradiction) rfl rfl rfl rfl
    intro j hj
    exact some.inj hj ▸ hi

theorem Wf.newChan (h : s.Wf) {socket : Nat} (hup : s.up = some socket) : (s.newChan socket).Wf :=
  h.of_same_refs (evolves_of_newChan h hup) rfl rfl

theorem Wf.newSub (h : s.Wf) {c : Nat} (hopen : s.chanOpen c = true) (started : Bool)
    : (s.newSub c started).Wf :=
  h.of_same_refs (evolves_of_newSub h hopen started) rfl rfl

theorem Wf.setSub (h : s.Wf) {sub sub' : Sub prefetch} (hsub : s.subs i = some sub)
    (hchan : sub'.chan = sub.chan) (hcancelled : sub'.cancelled = sub.cancelled)
    : (s.setSub i sub').Wf :=
  h.of_same_refs (evolves_of_setSub hsub hchan hcancelled) rfl rfl

theorem Wf.cancelOn (h : s.Wf) (c : Nat) : (s.cancelOn c).Wf :=
  h.of_same_refs (evolves_of_cancelOn s c) rfl rfl

theorem Wf.sendFrame (h : s.Wf) (c d : Nat) (v : Dispatch.Verdict) : (s.sendFrame c d v).Wf := by
  unfold State.sendFrame
  split
  . exact h.of_same_refs (evolves_of_same rfl) rfl rfl
  . exact h

theorem wf_init (prefetch : Nat) (bootDegraded : Bool) : (init prefetch bootDegraded).Wf where
  socket_lt := by
    intro c ch h
    contradiction
  up_lt := by
    intro n h
    cases bootDegraded
    . cases h
      exact Nat.zero_lt_one
    . contradiction
  chan_lt := by
    intro c ch h
    contradiction
  sub_lt := by
    intro i sub h
    contradiction
  sub_chan := by
    intro i sub h
    contradiction
  refers := by
    rintro i (h | h | h | h | ⟨b, run, h, _⟩)
    all_goals contradiction
  refers_chan := by
    rintro c (h | h | ⟨b, run, h, _⟩)
    all_goals contradiction
  hook_lt := by
    intro b run h
    contradiction
  reason_closed := rfl

theorem wf_of_openMove (h : s.Wf) {who : Caller} {a : OpenAction} (hmove : s.OpenMove who a s')
    : s'.Wf := by
  cases hmove with
  | rotate =>
    have hcounter : s.newCounter.Wf :=
      h.of_same_refs (evolves_of_same rfl) rfl rfl
    exact hcounter.openGoto who (fun _ hi => by contradiction) (fun _ hc => by contradiction)
  | notConnected | channelErr => exact h.openFail who
  | readRaw socket =>
    exact h.openGoto who (fun _ hi => by contradiction) (fun _ hc => by contradiction)
  | channelOk socket _ hup =>
    refine (h.newChan hup).openGoto who (fun _ hi => by contradiction) ?_
    intro c hc
    rw [← some.inj hc]
    exact ⟨_, update_self s.nextChan _ _⟩
  | consumeOk c _ hopen =>
    refine (h.newSub hopen false).openGoto who ?_ (fun _ hc => by contradiction)
    intro i hi
    rw [← some.inj hi]
    exact ⟨_, update_self s.nextSub _ _⟩
  | consumeErr c =>
    have hclose : (s.closeChan c).Wf :=
      h.of_same_refs (evolves_of_closeChan s c) rfl rfl
    exact hclose.openFail who
  | publish i sub _ hsub =>
    have hset : s.Evolves (s.setSub i { sub with started := true }) :=
      evolves_of_setSub hsub rfl rfl
    have hlive : ({ s with live := some sub.chan, paused := false }.setSub i
        { sub with started := true }).Wf := by
      refine h.of_evolves (hset.congr rfl) (fun hi => .inl hi) ?_ h.hook_lt h.reason_closed
      rintro c (hc | hc)
      . right
        rw [← some.inj hc]
        exact h.sub_chan hsub
      . exact .inl (.inr hc)
    exact hlive.openReturn who ⟨_, update_self i _ _⟩

theorem wf_of_loopMove (h : s.Wf) {a : LoopAction} (hmove : s.LoopMove cfg a s') : s'.Wf := by
  have hcur : ∀ i, s.cur = some i → ∃ sub, s.subs i = some sub := fun i hi => h.refers (.inl hi)
  have hresub : ∀ i ∈ s.resubCh.buf, ∃ sub, s.subs i = some sub :=
    fun i hi => h.refers (.inr (.inl hi))
  cases hmove with
  | adopt i resubCh _ hbuf hempty =>
    refine h.loopGoto rfl ?_ ?_ rfl (fun _ hi => by contradiction) (fun _ hc => by contradiction)
      rfl rfl rfl rfl
    . intro j hj
      rw [← some.inj hj]
      exact hresub i (by simp [hbuf])
    . intro j hj
      simp [hempty] at hj
  | brokerCancel cancelReasonCh _ hclosed =>
    exact h.loopGoto rfl hcur hresub rfl (fun _ hi => by contradiction)
      (fun _ hc => by contradiction) rfl rfl rfl hclosed
  | recv i sub d out _ _ hsub | drainErr i sub d out _ _ hsub =>
    have hset : (s.setSub i { sub with out }).Wf := h.setSub hsub rfl rfl
    exact hset.loopGoto rfl (fun _ hi => hset.refers (.inl hi))
      (fun _ hi => hset.refers (.inr (.inl hi))) rfl (fun _ hi => by contradiction)
      (fun _ hc => by contradiction) rfl rfl rfl rfl
  | cancelOk c =>
    have hcancel : (s.cancelOn c).Wf := h.cancelOn c
    exact hcancel.loopGoto rfl (fun _ hi => hcancel.refers (.inl hi))
      (fun _ hi => hcancel.refers (.inr (.inl hi))) rfl (fun _ hi => by contradiction)
      (fun _ hc => by contradiction) rfl rfl rfl rfl
  | drain i sub d out _ _ _ hsub =>
    have hset : (s.setSub i { sub with out }).Wf := h.setSub hsub rfl rfl
    exact hset.sendFrame sub.chan d _
  | _ =>
    exact h.loopGoto rfl hcur hresub rfl (fun _ hi => by contradiction)
      (fun _ hc => by contradiction) rfl rfl rfl rfl

theorem wf_of_hookMove (h : s.Wf) {a : HookAction} (hmove : s.HookMove b a s') : s'.Wf := by
  cases hmove with
  | send run i resubCh hrun hphase _ hbuf =>
    have hi : ∃ sub, s.subs i = some sub :=
      h.refers (.inr (.inr (.inr (.inr ⟨b, run, hrun, by rw [hphase]; rfl⟩))))
    have hsend : { s with resubCh }.Wf := by
      refine h.of_evolves (evolves_of_same rfl) ?_ (fun hc => .inl hc) h.hook_lt h.reason_closed
      rintro j (hj | hj | hj)
      . exact .inl (.inl hj)
      . rw [hbuf, List.mem_singleton] at hj
        exact .inr (hj ▸ hi)
      . exact .inl (.inr (.inr hj))
    exact hsend.hookGoto b (fun _ hi => by contradiction) (fun _ hc => by contradiction)
  | _ => exact h.hookGoto b (fun _ hi => by contradiction) (fun _ hc => by contradiction)

theorem Wf.muGoto (h : s.Wf) (htables : s'.tables = s.tables) (hcur : s'.cur = s.cur)
    (hresub : ∀ i ∈ s'.resubCh.buf, ∃ sub, s.subs i = some sub)
    (hmu : ∀ i, s'.mu.sub = some i → ∃ sub, s.subs i = some sub) (hloop : s'.loop = s.loop)
    (hlive : s'.live = s.live) (hhooks : s'.hooks = s.hooks) (hnext : s'.nextBarrier = s.nextBarrier)
    (hreason : s'.cancelReasonCh = s.cancelReasonCh) : s'.Wf := by
  have hsubs : s'.subs = s.subs := congrArg Tables.subs htables
  refine h.of_evolves (evolves_of_same htables) ?_ ?_ ?_ (hreason ▸ h.reason_closed)
  . intro i hi
    rw [hsubs]
    rcases refers_of_mu hi hcur hloop hhooks with hi | hi | hi
    . exact .inl hi
    . exact .inr (hresub i hi)
    . exact .inr (hmu i hi)
  . intro c hc
    left
    unfold RefersChan at hc ⊢
    rwa [hlive, hloop, hhooks] at hc
  . rw [hhooks, hnext]
    exact h.hook_lt

theorem wf_of_muMove (h : s.Wf) {a : MuAction} (hmove : s.MuMove a s') : s'.Wf := by
  have hresub : ∀ i ∈ s.resubCh.buf, ∃ sub, s.subs i = some sub :=
    fun i hi => h.refers (.inr (.inl hi))
  have hheld : ∀ i, s.mu.sub = some i → ∃ sub, s.subs i = some sub :=
    fun i hi => h.refers (.inr (.inr (.inl hi)))
  cases hmove with
  | pauseOk c | rollbackOk i c =>
    have hcancel : (s.cancelOn c).Wf := h.cancelOn c
    exact hcancel.muGoto rfl rfl (fun _ hi => hcancel.refers (.inr (.inl hi)))
      (fun _ hi => by contradiction) rfl rfl rfl rfl rfl
  | resumeConsumeOk c _ _ hopen =>
    have hnew : (s.newSub c true).Wf := h.newSub hopen true
    refine hnew.muGoto rfl rfl (fun _ hi => hnew.refers (.inr (.inl hi))) ?_ rfl rfl rfl rfl rfl
    intro i hi
    rw [← some.inj hi]
    exact ⟨_, update_self s.nextSub _ _⟩
  | resumeSwap i hmu | resumeRollback i prevCounter hmu =>
    rw [hmu] at hheld
    exact h.muGoto rfl rfl hresub hheld rfl rfl rfl rfl rfl
  | resumeSend i prevCounter resubCh hmu _ hbuf =>
    rw [hmu] at hheld
    refine h.muGoto rfl rfl ?_ (fun _ hi => by contradiction) rfl rfl rfl rfl rfl
    intro j hj
    rw [hbuf, List.mem_singleton] at hj
    exact hj ▸ hheld i rfl
  | _ => exact h.muGoto rfl rfl hresub (fun _ hi => by contradiction) rfl rfl rfl rfl rfl

theorem wf_of_pumpMove (h : s.Wf) {sub : Sub prefetch} {ch : Channel} {a : Pause.PumpAction}
    (hsub : s.subs i = some sub) (hch : s.chans sub.chan = some ch)
    (hmove : s.PumpMove i sub ch a s') : s'.Wf := by
  have he := evolves_of_pumpMove hsub hch hmove
  cases hmove with
  | advance _ _ _ _ _ _ _ _ _ _ _ _ hreason | recvCancel _ _ _ _ hreason =>
    exact h.of_same_refs he rfl hreason.closed
  | _ => exact h.of_same_refs he rfl rfl

theorem wf_of_handlerMove (h : s.Wf) {hd : Handler} {a : HandlerAction}
    (hmove : s.HandlerMove cfg hd a s') : s'.Wf := by
  rw [handlerMove_eq hmove]
  exact h.of_same_refs (evolves_of_same rfl) rfl rfl

theorem hooks_cancelHookCtx {b' : Nat} (h : (s.cancelHookCtx b).hooks b' = some run)
    : ∃ run₀, s.hooks b' = some run₀ ∧ run₀.phase = run.phase := by
  unfold cancelHookCtx at h
  dsimp only at h
  by_cases heq : b' = b
  . subst heq
    rw [update_self] at h
    have ⟨run₀, hrun₀, hrun⟩ := map_eq_some_iff.mp h
    exact ⟨run₀, hrun₀, by rw [← hrun]⟩
  . rw [update_of_ne heq] at h
    exact ⟨run, h, rfl⟩

theorem hooks_runBarrier (h : s.runBarrier.hooks b = some run)
    : (b = s.nextBarrier ∧ (run.phase = .entered ∨ run.phase = .after)) ∨
        (b ≠ s.nextBarrier ∧ s.hooks b = some run) := by
  by_cases heq : b = s.nextBarrier
  . left
    refine ⟨heq, ?_⟩
    subst heq
    have hnew : some _ = some run := (update_self s.nextBarrier _ _).symm.trans h
    rw [← some.inj hnew]
    split
    . exact .inl rfl
    . exact .inr rfl
  . exact .inr ⟨heq, (update_of_ne heq _ _).symm.trans h⟩

theorem wf_of_superMove (h : s.Wf) {a : SuperAction} (hmove : s.SuperMove a s') : s'.Wf := by
  have hcancel : ∀ b b' run, (s.cancelHookCtx b).hooks b' = some run → b' < s.nextBarrier ∧
      ((∃ run₀, s.hooks b' = some run₀ ∧ run₀.phase = run.phase) ∨
        (run.phase.sub = none ∧ run.phase.chan = none)) := by
    intro b b' run hrun
    have hold := hooks_cancelHookCtx hrun
    exact ⟨h.hook_lt hold.choose_spec.1, .inl hold⟩
  have he := evolves_of_superMove hmove
  cases hmove with
  | runBarrier =>
    refine h.of_hooks he rfl rfl rfl rfl rfl ?_ rfl
    intro b run hrun
    rcases hooks_runBarrier hrun with ⟨heq, hphase | hphase⟩ | ⟨_, hold⟩
    . exact ⟨heq ▸ lt_succ_self _, .inr (by rw [hphase]; exact ⟨rfl, rfl⟩)⟩
    . exact ⟨heq ▸ lt_succ_self _, .inr (by rw [hphase]; exact ⟨rfl, rfl⟩)⟩
    . exact ⟨lt_succ_of_lt (h.hook_lt hold), .inl ⟨run, hold, rfl⟩⟩
  | done b | cap b | shutdown b => exact h.of_hooks he rfl rfl rfl rfl rfl (hcancel b _ _) rfl
  | _ => exact h.of_same_refs he rfl rfl

theorem wf_of_envMove (h : s.Wf) {a : EnvAction} (hmove : s.EnvMove a s') : s'.Wf := by
  have he := evolves_of_envMove hmove
  cases hmove with
  | closeConn =>
    refine h.of_hooks he rfl rfl rfl rfl rfl ?_ rfl
    intro b run hrun
    have ⟨run₀, hrun₀, hrun⟩ := map_eq_some_iff.mp hrun
    exact ⟨h.hook_lt hrun₀, .inl ⟨run₀, hrun₀, by rw [← hrun]⟩⟩
  | _ => exact h.of_same_refs he rfl rfl

theorem wf_step {a : Action} (h : s.Wf) (hstep : s.step cfg a = some s') : s'.Wf := by
  cases a with
  | openDeliveryCh who a => exact wf_of_openMove h (openStep_move hstep)
  | loop a => exact wf_of_loopMove h (loopStep_move hstep)
  | hook b a => exact wf_of_hookMove h (hookStep_move hstep)
  | mu a => exact wf_of_muMove h (muStep_move hstep)
  | pump i a =>
    have ⟨sub, ch, hsub, hch, _, hmove⟩ := pumpStep_move hstep
    exact wf_of_pumpMove h hsub hch hmove
  | handler hd a => exact wf_of_handlerMove h (handlerStep_move hstep).2
  | super a => exact wf_of_superMove h (superStep_move hstep)
  | env a => exact wf_of_envMove h (envStep_move hstep)

end State
end Subscription
