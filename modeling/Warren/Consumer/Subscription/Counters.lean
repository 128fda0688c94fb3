import Warren.Consumer.Subscription.Wf

/-!
Which channel's dispatches use which `redeliveryCounter`.
-/

namespace Subscription

open List Option

def OpenPhase.rotated : OpenPhase → Bool
  | .rotating => false
  | _ => true

def LoopPhase.rotated : LoopPhase → Bool
  | .opening p => p.rotated
  | .reopening p => p.rotated
  | _ => false

def HookPhase.rotated : HookPhase → Bool
  | .opening p => p.rotated
  | .sending _ => true
  | _ => false

def MuPhase.rotated : MuPhase → Bool
  | .swapped _ _ => true
  | _ => false

namespace State

variable {prefetch : Nat}

def curChan (s : State prefetch) : Option Nat := s.curSub.map (·.2.chan)

def quiet (s : State prefetch) : Bool :=
  s.loop.rotated = false ∧ (∀ b < s.nextBarrier, (s.hooks b).all (fun run => !run.phase.rotated)) ∧
  s.mu.rotated = false ∧ s.resubCh.buf = []

-- nothing is installed or loaded between the installation of a counter and the adoption
def adoptsFirst (s : State prefetch) : Action → Bool
  | .openDeliveryCh _ .rotate => s.quiet
  | .mu .resumeSwap => s.quiet
  | .handler h .load => s.quiet ∧ s.curChan = some h.chan
  | _ => true

def Opening (s : State prefetch) : Prop :=
  s.loop.rotated = true ∨ ∃ b run, s.hooks b = some run ∧ run.phase.rotated = true

def Busy (s : State prefetch) : Prop :=
  s.Opening ∨ s.mu.rotated = true ∨ s.resubCh.buf ≠ []

def Used (s : State prefetch) (k c : Nat) : Prop :=
  (c, k) ∈ s.uses ∨ ∃ h ∈ s.handlers, h.chan = c ∧ h.cs = some k

structure Apart (s : State prefetch) : Prop where
  used_lt : ∀ {k c}, s.Used k c → k < s.nextCounter
  current_lt : s.counterState < s.nextCounter
  single : ∀ {k c c'}, s.Used k c → s.Used k c' → c = c'
  current : ∀ {c}, s.Used s.counterState c → ¬s.Busy ∧ s.curChan = some c
  swapped : ∀ {i prevCounter}, s.mu = .swapped i prevCounter →
    ¬s.Opening ∧ s.resubCh.buf = [] ∧ prevCounter < s.nextCounter ∧
    ∀ {c}, s.Used prevCounter c → s.curChan = some c

variable {s s' : State prefetch}

theorem not_busy_of_quiet (hwf : s.Wf) (h : s.quiet = true) : ¬s.Busy := by
  have ⟨hloop, hhooks, hmu, hresub⟩ := of_decide_eq_true h
  rintro ((hbusy | ⟨b, run, hrun, hbusy⟩) | hbusy | hbusy)
  . rw [hloop] at hbusy
    contradiction
  . have hall := hhooks b (hwf.hook_lt hrun)
    rw [hrun, all_some, hbusy] at hall
    contradiction
  . rw [hmu] at hbusy
    contradiction
  . exact hbusy hresub

theorem curChan_of_evolves (hwf : s.Wf) (he : s.Evolves s') (hcur : s'.cur = s.cur)
    : s'.curChan = s.curChan := by
  cases hi : s.cur with
  | none =>
    have hnone : s.curSub = none := by simp [curSub, hi]
    have hnone' : s'.curSub = none := by simp [curSub, hcur, hi]
    simp [curChan, hnone, hnone']
  | some i =>
    have ⟨sub, hsub⟩ := hwf.refers (.inl hi)
    have ⟨sub', hsub', hchan, _⟩ := he.subs hsub
    simp [curChan, curSub, hcur, hi, hsub, hsub', hchan]

theorem swapped_of_rotated {mu : MuPhase} (h : mu.rotated = true)
    : ∃ i prevCounter, mu = .swapped i prevCounter := by
  unfold MuPhase.rotated at h
  split at h
  . next i prevCounter => exact ⟨i, prevCounter, rfl⟩
  . contradiction

theorem apart_init (prefetch : Nat) (bootDegraded : Bool) : (init prefetch bootDegraded).Apart where
  used_lt := by
    rintro k c (h | ⟨hd, h, _⟩)
    all_goals contradiction
  current_lt := Nat.zero_lt_one
  single := by
    rintro k c c' (h | ⟨hd, h, _⟩)
    all_goals contradiction
  current := by
    rintro c (h | ⟨hd, h, _⟩)
    all_goals contradiction
  swapped := by
    intro i prevCounter h
    contradiction

theorem Apart.frame (h : s.Apart) (hused : ∀ {k c}, s'.Used k c → s.Used k c)
    (hstate : s'.counterState = s.counterState) (hnext : s'.nextCounter = s.nextCounter)
    (hopening : s'.Opening → s.Opening) (hbusy : s'.Busy → s.Busy)
    (hcur : s'.curChan = s.curChan ∨ s.Opening ∨ s.resubCh.buf ≠ [])
    (hmu : s'.mu.rotated = true → s'.mu = s.mu ∧ s'.resubCh = s.resubCh) : s'.Apart where
  used_lt := fun hk => hnext ▸ h.used_lt (hused hk)
  current_lt := by
    rw [hstate, hnext]
    exact h.current_lt
  single := fun hk hk' => h.single (hused hk) (hused hk')
  current := by
    intro c hc
    rw [hstate] at hc
    have ⟨hidle, hchan⟩ := h.current (hused hc)
    refine ⟨mt hbusy hidle, ?_⟩
    rcases hcur with hcur | hcur | hcur
    . rw [hcur, hchan]
    . exact absurd (.inl hcur) hidle
    . exact absurd (.inr (.inr hcur)) hidle
  swapped := by
    intro i prevCounter hmu'
    have ⟨hsame, hresub⟩ := hmu (by rw [hmu']; rfl)
    have ⟨hidle, hempty, hlt, hprev⟩ := h.swapped (hsame ▸ hmu')
    refine ⟨mt hopening hidle, hresub ▸ hempty, hnext ▸ hlt, ?_⟩
    intro c hc
    rcases hcur with hcur | hcur | hcur
    . rw [hcur, hprev (hused hc)]
    . exact absurd hcur hidle
    . exact absurd hempty hcur

variable {who : Caller} {cfg : Config} {hd : Handler}

theorem opening_of_openPhase {p : OpenPhase} (h : s.openPhase who = some p) (hp : p.rotated = true)
    : s.Opening := by
  cases who with
  | loop =>
    left
    unfold openPhase at h
    dsimp only at h
    split at h
    . next q hloop => rw [hloop]; exact some.inj h ▸ hp
    . next q hloop => rw [hloop]; exact some.inj h ▸ hp
    . contradiction
  | hook b =>
    right
    unfold openPhase at h
    dsimp only at h
    split at h
    . next q ctx hrun => exact ⟨b, _, hrun, some.inj h ▸ hp⟩
    . contradiction

theorem Apart.of_opening (h : s.Apart) (hop : s.Opening) (hused : ∀ {k c}, s'.Used k c → s.Used k c)
    (hstate : s'.counterState = s.counterState) (hnext : s'.nextCounter = s.nextCounter)
    (hmu : s'.mu = s.mu) (hresub : s'.resubCh = s.resubCh) : s'.Apart :=
  h.frame hused hstate hnext (fun _ => hop) (fun _ => .inl hop) (.inr (.inl hop))
    (fun _ => ⟨hmu, hresub⟩)

theorem Apart.rotate (h : s.Apart) (hused : ∀ {k c}, s'.Used k c → s.Used k c)
    (hstate : s'.counterState = s.nextCounter) (hnext : s'.nextCounter = s.nextCounter + 1)
    (hswapped : ∀ {i prevCounter}, s'.mu = .swapped i prevCounter →
      ¬s'.Opening ∧ s'.resubCh.buf = [] ∧ prevCounter < s'.nextCounter ∧
      ∀ {c}, s'.Used prevCounter c → s'.curChan = some c) : s'.Apart where
  used_lt := by
    intro k c hk
    rw [hnext]
    exact Nat.lt_succ_of_lt (h.used_lt (hused hk))
  current_lt := by
    rw [hstate, hnext]
    exact Nat.lt_succ_self _
  single := fun hk hk' => h.single (hused hk) (hused hk')
  current := by
    intro c hc
    rw [hstate] at hc
    exact absurd (h.used_lt (hused hc)) (Nat.lt_irrefl _)
  swapped := hswapped

theorem opening_of_openMove {a : OpenAction} (hmove : s.OpenMove who a s') (ha : a ≠ .rotate)
    : s.Opening := by
  cases hmove with
  | rotate => contradiction
  | notConnected hphase => exact opening_of_openPhase hphase rfl
  | publish _ _ hphase => exact opening_of_openPhase hphase rfl
  | _ _ hphase => exact opening_of_openPhase hphase rfl

theorem apart_of_openMove (hwf : s.Wf) (h : s.Apart) {a : OpenAction}
    (hok : s.adoptsFirst (.openDeliveryCh who a) = true) (hmove : s.OpenMove who a s')
    : s'.Apart := by
  by_cases ha : a = .rotate
  . subst ha
    cases hmove
    have hmu : ∀ i prevCounter, s.mu ≠ .swapped i prevCounter := by
      intro i prevCounter hmu
      exact not_busy_of_quiet hwf hok (.inr (.inl (by rw [hmu]; rfl)))
    cases who with
    | _ => exact h.rotate id rfl rfl (fun hswapped => absurd hswapped (hmu _ _))
  . have hop : s.Opening := opening_of_openMove hmove ha
    cases hmove with
    | rotate => contradiction
    | _ =>
      cases who with
      | _ => exact h.of_opening hop id rfl rfl rfl rfl

theorem apart_of_loopMove (hwf : s.Wf) (h : s.Apart) {a : LoopAction} (hmove : s.LoopMove cfg a s')
    : s'.Apart := by
  have hchan : s'.cur = s.cur → s'.curChan = s.curChan :=
    curChan_of_evolves hwf (evolves_of_loopMove hmove)
  have hopening : s'.loop.rotated = false → s'.hooks = s.hooks → s'.Opening → s.Opening := by
    rintro hloop hhooks (hop | hop)
    . rw [hloop] at hop
      contradiction
    . exact .inr (hhooks ▸ hop)
  cases hmove with
  | adopt i resubCh _ hbuf hempty =>
    have hfull : s.resubCh.buf ≠ [] := by simp [hbuf]
    refine h.frame id rfl rfl (hopening rfl rfl) ?_ (.inr (.inr hfull)) ?_
    . intro _
      exact .inr (.inr hfull)
    . intro hmu
      have ⟨i, prevCounter, hswapped⟩ := swapped_of_rotated hmu
      exact absurd (h.swapped hswapped).2.1 hfull
  | acquire c d =>
    refine h.frame ?_ rfl rfl (hopening rfl rfl) ?_ (.inl (hchan rfl)) (fun _ => ⟨rfl, rfl⟩)
    . rintro k c' (huse | ⟨hd, hmem, hc, hcs⟩)
      . exact .inl huse
      . cases mem_append.mp hmem with
        | inl hmem => exact .inr ⟨hd, hmem, hc, hcs⟩
        | inr hmem =>
          rw [mem_singleton.mp hmem] at hcs
          contradiction
    . exact Or.imp (hopening rfl rfl) id
  | drain i sub d out hloop =>
    rw [sendFrame_eq] at hchan hopening ⊢
    have hrotated : s.loop.rotated = false := by rw [hloop]; rfl
    refine h.frame id rfl rfl (hopening hrotated rfl) ?_ (.inl (hchan rfl))
      (fun _ => ⟨rfl, rfl⟩)
    exact Or.imp (hopening hrotated rfl) id
  | _ =>
    refine h.frame id rfl rfl (hopening rfl rfl) ?_ (.inl (hchan rfl)) (fun _ => ⟨rfl, rfl⟩)
    exact Or.imp (hopening rfl rfl) id

theorem apart_of_hookMove (h : s.Apart) {b : Nat} {a : HookAction} (hmove : s.HookMove b a s')
    : s'.Apart := by
  have hopening : ∀ {t : State prefetch} {phase}, t.hooks = s.hooks → t.loop = s.loop →
      phase.rotated = false → (t.hookGoto b phase).Opening → s.Opening := by
    rintro t phase hhooks hloop hphase (hop | ⟨b', run, hrun, hop⟩)
    . exact .inl (hloop ▸ hop)
    . cases hooks_hookGoto hrun with
      | inl hself =>
        rw [hself.2.1, hphase] at hop
        contradiction
      | inr hother => exact .inr ⟨b', run, hhooks ▸ hother.2, hop⟩
  cases hmove with
  | send run i resubCh hrun hphase hempty hbuf =>
    have hop : s.Opening := .inr ⟨b, run, hrun, by rw [hphase]; rfl⟩
    refine h.frame id rfl rfl (fun _ => hop) (fun _ => .inl hop) (.inl rfl) ?_
    intro hmu
    have ⟨i, prevCounter, hswapped⟩ := swapped_of_rotated hmu
    exact absurd hop (h.swapped hswapped).1
  | _ =>
    refine h.frame id rfl rfl (hopening rfl rfl rfl) ?_ (.inl rfl) (fun _ => ⟨rfl, rfl⟩)
    exact Or.imp (hopening rfl rfl rfl) id

theorem apart_of_muMove (hwf : s.Wf) (h : s.Apart) {a : MuAction}
    (hok : s.adoptsFirst (.mu a) = true) (hmove : s.MuMove a s') : s'.Apart := by
  have hchan : s'.cur = s.cur → s'.curChan = s.curChan :=
    curChan_of_evolves hwf (evolves_of_muMove hwf hmove)
  cases hmove with
  | resumeSwap i hmu =>
    have hidle : ¬s.Busy := not_busy_of_quiet hwf hok
    refine h.rotate id rfl rfl ?_
    intro j prevCounter hswapped
    cases hswapped
    refine ⟨fun hop => hidle (.inl hop), ?_, Nat.lt_succ_of_lt h.current_lt, ?_⟩
    . exact Decidable.byContradiction fun hresub => hidle (.inr (.inr hresub))
    . exact fun hc => (h.current hc).2
  | resumeSend i prevCounter resubCh hmu =>
    have hbusy : s.Busy := .inr (.inl (by rw [hmu]; rfl))
    exact h.frame id rfl rfl id (fun _ => hbusy) (.inl rfl) (fun hmu => by contradiction)
  | resumeRollback i prevCounter hmu =>
    have ⟨hidle, hempty, hlt, hprev⟩ := h.swapped hmu
    refine ⟨h.used_lt, hlt, h.single, ?_, fun hmu => by contradiction⟩
    intro c hc
    refine ⟨?_, hprev hc⟩
    rintro (hop | hmu | hresub)
    . exact hidle hop
    . contradiction
    . exact hresub hempty
  | _ =>
    refine h.frame id rfl rfl id ?_ (.inl (hchan rfl)) (fun hmu => by contradiction)
    rintro (hop | hmu | hresub)
    . exact .inl hop
    . contradiction
    . exact .inr (.inr hresub)

theorem apart_of_pumpMove (hwf : s.Wf) (h : s.Apart) {i : Nat} {sub : Sub prefetch} {ch : Channel}
    {a : Pause.PumpAction} (hsub : s.subs i = some sub) (hch : s.chans sub.chan = some ch)
    (hmove : s.PumpMove i sub ch a s') : s'.Apart := by
  have hchan : s'.cur = s.cur → s'.curChan = s.curChan :=
    curChan_of_evolves hwf (evolves_of_pumpMove hsub hch hmove)
  cases hmove with
  | _ => exact h.frame id rfl rfl id id (.inl (hchan rfl)) (fun _ => ⟨rfl, rfl⟩)

theorem Apart.load (hwf : s.Wf) (h : s.Apart) (hquiet : s.quiet = true)
    (hchan : s.curChan = some hd.chan)
    : (s.replaceHandler hd { hd with cs := some s.counterState }).Apart := by
  have hidle : ¬s.Busy := not_busy_of_quiet hwf hquiet
  have hused : ∀ {k c}, (s.replaceHandler hd { hd with cs := some s.counterState }).Used k c →
      s.Used k c ∨ (k = s.counterState ∧ c = hd.chan) := by
    rintro k c (huse | ⟨hd', hmem, hc, hcs⟩)
    . exact .inl (.inl huse)
    . cases mem_cons.mp hmem with
      | inl heq =>
        subst heq
        exact .inr ⟨(some.inj hcs).symm, hc.symm⟩
      | inr hmem => exact .inl (.inr ⟨hd', mem_of_mem_erase hmem, hc, hcs⟩)
  constructor
  . intro k c hk
    rcases hused hk with hk | ⟨hk, _⟩
    . exact h.used_lt hk
    . exact hk ▸ h.current_lt
  . exact h.current_lt
  . intro k c c' hk hk'
    have hcurrent : ∀ {c}, s.Used s.counterState c → c = hd.chan := by
      intro c hc
      exact some.inj ((h.current hc).2.symm.trans hchan)
    rcases hused hk with hk | ⟨hk, hc⟩
    . rcases hused hk' with hk' | ⟨hk', hc'⟩
      . exact h.single hk hk'
      . exact (hcurrent (hk' ▸ hk)).trans hc'.symm
    . rcases hused hk' with hk' | ⟨_, hc'⟩
      . exact hc.trans (hcurrent (hk ▸ hk')).symm
      . exact hc.trans hc'.symm
  . intro c hc
    rcases hused hc with hc | ⟨_, hc⟩
    . exact h.current hc
    . exact ⟨hidle, hc ▸ hchan⟩
  . intro i prevCounter hmu
    exact absurd (.inr (.inl (congrArg MuPhase.rotated hmu))) hidle

theorem used_useCounter {handling : Dispatch.Handling} {cs : CounterB.RedeliveryCounter}
    (hmem : hd ∈ s.handlers) {k c : Nat} (h : (s.useCounter hd handling cs).Used k c)
    : s.Used k c := by
  unfold useCounter at h
  split at h
  . exact h
  . next k' hcs =>
    split at h
    . rcases h with huse | hload
      . cases mem_append.mp huse with
        | inl huse => exact .inl huse
        | inr huse =>
          cases mem_singleton.mp huse
          exact .inr ⟨hd, hmem, rfl, hcs⟩
      . exact .inr hload
    . exact h

theorem apart_of_handlerMove (hwf : s.Wf) (h : s.Apart) {a : HandlerAction}
    (hok : s.adoptsFirst (.handler hd a) = true) (hmem : hd ∈ s.handlers)
    (hmove : s.HandlerMove cfg hd a s') : s'.Apart := by
  cases hmove with
  | load =>
    have ⟨hquiet, hchan⟩ := of_decide_eq_true hok
    exact h.load hwf hquiet hchan
  | verdict v =>
    rw [sendFrame_eq]
    refine h.frame ?_ rfl rfl id id (.inl rfl) (fun _ => ⟨rfl, rfl⟩)
    rintro k c (huse | ⟨hd', hmem', hc, hcs⟩)
    . exact .inl huse
    . cases mem_cons.mp hmem' with
      | inl heq =>
        subst heq
        exact .inr ⟨hd, hmem, hc, hcs⟩
      | inr hmem' => exact .inr ⟨hd', mem_of_mem_erase hmem', hc, hcs⟩
  | finish handling cs cs' v =>
    have huses : ∀ {k c}, (c, k) ∈ (s.useCounter hd handling cs').uses → s.Used k c :=
      fun huse => used_useCounter hmem (.inl huse)
    rw [sendVerdict_eq, useCounter_eq]
    refine h.frame ?_ rfl rfl id id (.inl rfl) (fun _ => ⟨rfl, rfl⟩)
    rintro k c (huse | ⟨hd', hmem', hc, hcs⟩)
    . exact huses huse
    . exact .inr ⟨hd', mem_of_mem_erase hmem', hc, hcs⟩

theorem apart_of_superMove (h : s.Apart) {a : SuperAction} (hmove : s.SuperMove a s')
    : s'.Apart := by
  have hcancel : ∀ {b} {t : State prefetch}, t.hooks = (s.cancelHookCtx b).hooks →
      t.loop = s.loop → t.Opening → s.Opening := by
    rintro b t hhooks hloop (hop | ⟨b', run, hrun, hop⟩)
    . exact .inl (hloop ▸ hop)
    . have ⟨run₀, hrun₀, hphase⟩ := hooks_cancelHookCtx (hhooks ▸ hrun)
      exact .inr ⟨b', run₀, hrun₀, hphase ▸ hop⟩
  cases hmove with
  | runBarrier =>
    have hopening : s.runBarrier.Opening → s.Opening := by
      rintro (hop | ⟨b, run, hrun, hop⟩)
      . exact .inl hop
      . rcases hooks_runBarrier hrun with ⟨_, hphase | hphase⟩ | ⟨_, hold⟩
        . rw [hphase] at hop
          contradiction
        . rw [hphase] at hop
          contradiction
        . exact .inr ⟨b, run, hold, hop⟩
    exact h.frame id rfl rfl hopening (Or.imp hopening id) (.inl rfl) (fun _ => ⟨rfl, rfl⟩)
  | done b | cap b | shutdown b =>
    exact h.frame id rfl rfl (hcancel rfl rfl) (Or.imp (hcancel rfl rfl) id) (.inl rfl)
      (fun _ => ⟨rfl, rfl⟩)
  | _ => exact h.frame id rfl rfl id id (.inl rfl) (fun _ => ⟨rfl, rfl⟩)

theorem apart_of_envMove (hwf : s.Wf) (h : s.Apart) {a : EnvAction} (hmove : s.EnvMove a s')
    : s'.Apart := by
  have hchan : s'.cur = s.cur → s'.curChan = s.curChan :=
    curChan_of_evolves hwf (evolves_of_envMove hmove)
  cases hmove with
  | closeConn =>
    have hopening : ∀ {t : State prefetch}, t.loop = s.loop →
        t.hooks = (fun b => (s.hooks b).map (fun run => { run with hookCtxDone := true })) →
        t.Opening → s.Opening := by
      rintro t hloop hhooks (hop | ⟨b, run, hrun, hop⟩)
      . exact .inl (hloop ▸ hop)
      . rw [hhooks] at hrun
        have ⟨run₀, hrun₀, hrun⟩ := map_eq_some_iff.mp hrun
        exact .inr ⟨b, run₀, hrun₀, by rw [← hrun] at hop; exact hop⟩
    exact h.frame id rfl rfl (hopening rfl rfl) (Or.imp (hopening rfl rfl) id) (.inl (hchan rfl))
      (fun _ => ⟨rfl, rfl⟩)
  | _ => exact h.frame id rfl rfl id id (.inl (hchan rfl)) (fun _ => ⟨rfl, rfl⟩)

theorem apart_step {a : Action} (hwf : s.Wf) (h : s.Apart) (hok : s.adoptsFirst a = true)
    (hstep : s.step cfg a = some s') : s'.Apart := by
  cases a with
  | openDeliveryCh who a => exact apart_of_openMove hwf h hok (openStep_move hstep)
  | loop a => exact apart_of_loopMove hwf h (loopStep_move hstep)
  | hook b a => exact apart_of_hookMove h (hookStep_move hstep)
  | mu a => exact apart_of_muMove hwf h hok (muStep_move hstep)
  | pump i a =>
    have ⟨sub, ch, hsub, hch, _, hmove⟩ := pumpStep_move hstep
    exact apart_of_pumpMove hwf h hsub hch hmove
  | handler hd a =>
    have ⟨hmem, hmove⟩ := handlerStep_move hstep
    exact apart_of_handlerMove hwf h hok hmem hmove
  | super a => exact apart_of_superMove h (superStep_move hstep)
  | env a => exact apart_of_envMove hwf h (envStep_move hstep)

end State

open State

variable {prefetch : Nat}

/--
The dispatches that use one `redeliveryCounter` are those of one channel, in every run in which
nothing is installed or loaded between an installation and the adoption.
-/
theorem usesOneChannel_of_run {cfg : Config} {bootDegraded : Bool} {s : State prefetch}
    {as : List Action}
    (hok : Run.Along (step cfg) (fun s a => s.adoptsFirst a = true)
      (.init prefetch bootDegraded) as)
    (hrun : Run.run (step cfg) (.init prefetch bootDegraded) as = some s) {k c c' : Nat}
    (hc : (c, k) ∈ s.uses) (hc' : (c', k) ∈ s.uses)
    : c = c' := by
  have hstep : ∀ (s : State prefetch) a s', s.Wf ∧ s.Apart → s.adoptsFirst a = true →
      s.step cfg a = some s' → s'.Wf ∧ s'.Apart :=
    fun s a s' h hok hstep => ⟨wf_step h.1 hstep, apart_step h.1 h.2 hok hstep⟩
  have hinit : (init prefetch bootDegraded).Wf ∧ (init prefetch bootDegraded).Apart :=
    ⟨wf_init prefetch bootDegraded, apart_init prefetch bootDegraded⟩
  have ⟨_, hapart⟩ := Run.inv_of_run hstep hinit hok hrun
  exact hapart.single (.inl hc) (.inl hc')

def firstDeliveries : Config where
  consumer := ⟨[], 3, false, false, false, .nackNoRequeue⟩
  autoAck := true
  concurrency := 1
  message := fun _ => ⟨[], 1, true, 0, false, false⟩

def counts (c d k : Nat) : List Action :=
  [.handler ⟨c, d, none, false⟩ .load, .handler ⟨c, d, some k, false⟩ (.finish (.returned none false))]

def ownCountersRun : List Action :=
  .loop .registerHook :: Caller.loop.subscribes ++ dispatches 0 7 ++ counts 0 7 1 ++ reconnects 0 ++
  (Caller.hook 0).subscribes ++ [.hook 0 .send, .loop .adopt] ++ dispatches 1 8 ++ counts 1 8 2

theorem usesOneChannel_of_run_ownCounters
    : ∃ s : State 1, Run.run (step firstDeliveries) (.init 1 false) ownCountersRun = some s ∧
        s.uses = [(0, 1), (1, 2)] ∧
        ∀ k c c', (c, k) ∈ s.uses → (c', k) ∈ s.uses → c = c' := by
  have ⟨s, hrun, huses⟩ := map_eq_some_iff.mp
    (by decide : (Run.run (step firstDeliveries) (.init 1 false : State 1)
      ownCountersRun).map (·.uses) = some [(0, 1), (1, 2)])
  refine ⟨s, hrun, huses, ?_⟩
  intro k c c' hc hc'
  exact usesOneChannel_of_run (by decide) hrun hc hc'

def hookRotatesRun : List Action :=
  .loop .registerHook :: Caller.loop.subscribes ++ dispatches 0 7 ++ reconnects 0 ++
  (Caller.hook 0).subscribes ++ counts 0 7 2 ++ [.hook 0 .send, .loop .adopt] ++ dispatches 1 8 ++
  counts 1 8 2

theorem uses_two_channels_hookRotates
    : ∃ s : State 1, Run.run (step firstDeliveries) (.init 1 false) hookRotatesRun = some s ∧
        (0, 2) ∈ s.uses ∧ (1, 2) ∈ s.uses := by
  have ⟨s, hrun, huses⟩ := map_eq_some_iff.mp
    (by decide : (Run.run (step firstDeliveries) (.init 1 false : State 1)
      hookRotatesRun).map (·.uses) = some [(0, 2), (1, 2)])
  exact ⟨s, hrun, by simp [huses], by simp [huses]⟩

end Subscription
