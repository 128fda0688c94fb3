import Warren.Publisher.Closing.Linked

/-!
`Close` leaves no channel behind.
-/

namespace Closing

open Procs

def ClosePhase.Sound {size : Nat} (s : State size) : ClosePhase → Prop
  | entering => True
  | waiting => s.closed = true
  | atPool k => s.closed = true ∧ s.wg = 0 ∧ ∀ k' < k, (s.pools k').free.buf = []
  | draining k j =>
    s.closed = true ∧ s.wg = 0 ∧ (∀ k' < k, (s.pools k').free.buf = []) ∧
      ((s.pools k).drains[j]? = some .done → (s.pools k).free.buf = [])
  | returned r =>
    r = .nil → s.closed = true ∧ s.wg = 0 ∧ ∀ k < s.numPools, (s.pools k).free.buf = []

namespace State

variable {size : Nat} {s s' : State size}

theorem Later.sound (h : s.Later s') {p : ClosePhase} (hp : p.Sound s) : p.Sound s' := by
  cases p with
  | entering => trivial
  | waiting => exact h.closed hp
  | atPool k =>
    have ⟨hclosed, hwg, hfree⟩ := hp
    exact ⟨h.closed hclosed, h.wg hclosed hwg,
      fun k' hk' => (h.pools hclosed hwg k').free (hfree k' hk')⟩
  | draining k j =>
    have ⟨hclosed, hwg, hfree, hdone⟩ := hp
    have hquiet := h.pools hclosed hwg
    refine ⟨h.closed hclosed, h.wg hclosed hwg, fun k' hk' => (hquiet k').free (hfree k' hk'), ?_⟩
    intro hdone'
    rcases (hquiet k).doneNow hdone' with hold | hempty
    . exact (hquiet k).free (hdone hold)
    . exact hempty
  | returned r =>
    intro hr
    have ⟨hclosed, hwg, hfree⟩ := hp hr
    refine ⟨h.closed hclosed, h.wg hclosed hwg, ?_⟩
    intro k hk
    rw [h.numPools] at hk
    exact (h.pools hclosed hwg k).free (hfree k hk)

theorem CloseMove.sound {i : Nat} {a : CloseAction} (hmove : s.CloseMove i a s')
    (hsound : ∀ {p}, s.closes[i]? = some p → p.Sound s)
    : ∃ q, s'.closes = s.closes.set i q ∧ q.Sound s' := by
  cases hmove with
  | refuse hclose hclosed => exact ⟨_, rfl, fun hr => by contradiction⟩
  | enter hclose hopen => exact ⟨.waiting, rfl, rfl⟩
  | wait hclose hwg => exact ⟨.atPool 0, rfl, hsound hclose, hwg, by simp⟩
  | closeAll k pool hclose hk hpool =>
    have ⟨hclosed, hwg, hfree⟩ := hsound hclose
    refine ⟨_, rfl, hclosed, hwg, ?_, ?_⟩
    . intro k' hk'
      show ((s.setPool k pool).pools k').free.buf = []
      rw [pools_setPool_of_ne s (by omega)]
      exact hfree k' hk'
    . show ((s.setPool k pool).pools k).drains[_]? = _ → _
      rw [pools_setPool_self]
      cases hpool
      simp
  | returnNil k hclose hk =>
    have ⟨hclosed, hwg, hfree⟩ := hsound hclose
    exact ⟨_, rfl, fun _ => ⟨hclosed, hwg, fun k' hk' => hfree k' (Nat.lt_of_lt_of_le hk' hk)⟩⟩
  | drained k j hclose hdone =>
    have ⟨hclosed, hwg, hfree, hempty⟩ := hsound hclose
    refine ⟨_, rfl, hclosed, hwg, ?_⟩
    intro k' hk'
    by_cases heq : k' = k
    . exact heq ▸ hempty hdone
    . exact hfree k' (by omega)

end State

def ClosePhase.passed : ClosePhase → Bool
  | entering => false
  | returned r => r = .nil
  | _ => true

namespace State

variable {size : Nat} {s s' : State size}

structure Ending (s : State size) : Prop where
  sound : ∀ {i : Nat} {p : ClosePhase}, s.closes[i]? = some p → p.Sound s
  sole : s.closes.countP ClosePhase.passed = s.closed.toNat
  drains : ∀ {k j : Nat} {p : Pool.DrainPhase}, (s.pools k).drains[j]? = some p → p ≠ .done →
    j ∈ s.hookDrains k ∨ ∃ i : Nat, s.closes[i]? = some (.draining k j)

theorem ending_init (size numPools : Nat) : (init size numPools).Ending where
  sound := by
    intro i p h
    contradiction
  sole := rfl
  drains := by
    intro k j p h
    contradiction

variable {k j : Nat}

theorem undrained_setPool {a : Pool.Action} {pool : Pool.State size}
    (hpool : (s.pools k).step a = some pool) {k' : Nat} {p : Pool.DrainPhase}
    (hp : ((s.setPool k pool).pools k').drains[j]? = some p) (hdone : p ≠ .done)
    : (∃ p, (s.pools k').drains[j]? = some p ∧ p ≠ .done) ∨
        (a = .drain ∧ k' = k ∧ j = (s.pools k).drains.length) := by
  grind [pools_setPool_self, Pool.State.undrained_of_step, pools_setPool_of_ne]

theorem subset_hookDrains (s : State size) (k j k' : Nat)
    : s.hookDrains k' ⊆ Function.update s.hookDrains k (s.hookDrains k ++ [j]) k' := by
  by_cases heq : k' = k
  . rw [heq, Function.update_self]
    simp
  . rw [Function.update_of_ne heq]
    exact List.Subset.refl _

theorem Ending.frame (h : s.Ending) (hlater : s.Later s') (hcloses : s'.closes = s.closes)
    (hclosed : s'.closed = s.closed) (hhooks : ∀ k, s.hookDrains k ⊆ s'.hookDrains k)
    (hdrains : ∀ {k j : Nat} {p : Pool.DrainPhase}, (s'.pools k).drains[j]? = some p → p ≠ .done →
      j ∈ s'.hookDrains k ∨ ∃ p, (s.pools k).drains[j]? = some p ∧ p ≠ .done) : s'.Ending where
  sound := by
    intro i p hp
    rw [hcloses] at hp
    exact hlater.sound (h.sound hp)
  sole := by rw [hcloses, hclosed, h.sole]
  drains := by
    intro k j p hp hdone
    rcases hdrains hp hdone with hhook | ⟨p', hp', hdone'⟩
    . exact .inl hhook
    . rw [hcloses]
      rcases h.drains hp' hdone' with hhook | hclose
      . exact .inl (hhooks k hhook)
      . exact .inr hclose

theorem drains_setPool {pool : Pool.State size} (h : pool.drains = (s.pools k).drains) (k' : Nat)
    : ((s.setPool k pool).pools k').drains = (s.pools k').drains := by
  by_cases heq : k' = k
  . rw [heq, pools_setPool_self, h]
  . rw [pools_setPool_of_ne s heq]

variable {i : Nat} {p : ClosePhase} {a : Action}

theorem CallMove.same {kind : Kind} {a : CallAction} (hmove : s.CallMove i kind a s')
    : s'.closes = s.closes ∧ s'.closed = s.closed ∧ s'.hookDrains = s.hookDrains ∧
        ∀ k, (s'.pools k).drains = (s.pools k).drains := by
  cases hmove with
  | acquire k pool hcall hpool =>
    exact ⟨rfl, rfl, rfl, drains_setPool (Pool.State.drains_of_acquire hpool)⟩
  | sent k j r pool hcall hpool =>
    exact ⟨rfl, rfl, rfl, drains_setPool (Pool.State.drains_of_callStep hpool)⟩
  | _ => exact ⟨rfl, rfl, rfl, fun _ => rfl⟩

theorem Ending.closeGoto (h : s.Ending) (q : ClosePhase) (hclose : s.closes[i]? = some p)
    (hcloses : s'.closes = s.closes.set i q)
    (hsound : ∀ {i : Nat} {p : ClosePhase}, s'.closes[i]? = some p → p.Sound s')
    (hhooks : s'.hookDrains = s.hookDrains)
    (hsole : q.passed.toNat + s.closed.toNat = p.passed.toNat + s'.closed.toNat)
    (hdrains : ∀ {k j : Nat} {r : Pool.DrainPhase}, (s'.pools k).drains[j]? = some r → r ≠ .done →
      q = .draining k j ∨
      p ≠ .draining k j ∧ ∃ r, (s.pools k).drains[j]? = some r ∧ r ≠ .done) : s'.Ending := by
  refine ⟨hsound, ?_, ?_⟩
  . have hcount := countP_set ClosePhase.passed hclose q
    have hold := h.sole
    rw [hcloses]
    omega
  . intro k j r hr hdone
    rw [hcloses, hhooks]
    rcases hdrains hr hdone with hq | ⟨hp, r', hr', hdone'⟩
    . exact .inr ⟨i, hq ▸ getElem?_set_of_eq_some hclose q⟩
    . rcases h.drains hr' hdone' with hhook | ⟨i', hi'⟩
      . exact .inl hhook
      . have hne : i ≠ i' := by
          rintro rfl
          rw [hclose, Option.some.injEq] at hi'
          exact hp hi'
        exact .inr ⟨i', (List.getElem?_set_ne hne).trans hi'⟩

theorem Ending.closeMove (h : s.Ending) (hlater : s.Later s') {a : CloseAction}
    (hmove : s.CloseMove i a s') : s'.Ending := by
  have ⟨q, hcloses, hq⟩ := hmove.sound h.sound
  have hsound {i' : Nat} {p : ClosePhase} (hp : s'.closes[i']? = some p) : p.Sound s' := by
    rw [hcloses] at hp
    rcases getElem?_set_eq_some hp with ⟨_, heq⟩ | ⟨_, hold⟩
    . exact heq ▸ hq
    . exact hlater.sound (h.sound hold)
  cases hmove with
  | enter hclose hopen =>
    refine h.closeGoto _ hclose rfl hsound rfl ?_ (fun hr hd => .inr ⟨by simp, _, hr, hd⟩)
    rw [hopen]
    rfl
  | closeAll k pool hclose hk hpool =>
    refine h.closeGoto _ hclose rfl hsound rfl rfl ?_
    intro k' j r hr hd
    rcases undrained_setPool hpool hr hd with hold | ⟨_, hk', hj⟩
    . exact .inr ⟨by simp, hold⟩
    . exact .inl (by rw [hk', hj])
  | returnNil k hclose hk =>
    exact h.closeGoto _ hclose rfl hsound rfl rfl (fun hr hd => .inr ⟨by simp, _, hr, hd⟩)
  | drained k j hclose hdone =>
    refine h.closeGoto _ hclose rfl hsound rfl rfl ?_
    intro k' j' r hr hd
    refine .inr ⟨?_, r, hr, hd⟩
    intro heq
    rw [ClosePhase.draining.injEq] at heq
    rw [heq.1, heq.2] at hdone
    exact hd (Option.some.inj (hr.symm.trans hdone))
  | _ hclose =>
    exact h.closeGoto _ hclose rfl hsound rfl rfl (fun hr hd => .inr ⟨by simp, _, hr, hd⟩)

theorem Ending.move (h : s.Ending) (hlater : s.Later s') (hmove : s.Move a s') : s'.Ending := by
  cases hmove with
  | start kind =>
    exact h.frame hlater rfl rfl (fun _ => List.Subset.refl _) (fun hp hd => .inr ⟨_, hp, hd⟩)
  | close =>
    refine ⟨?_, ?_, ?_⟩
    . intro i p hp
      rcases getElem?_concat_eq_some hp with ⟨_, heq⟩ | hold
      . rw [heq]
        trivial
      . exact hlater.sound (h.sound hold)
    . show (s.closes ++ [ClosePhase.entering]).countP ClosePhase.passed = s.closed.toNat
      rw [countP_concat, h.sole]
      rfl
    . intro k j p hp hdone
      rcases h.drains hp hdone with hhook | ⟨i, hi⟩
      . exact .inl hhook
      . exact .inr ⟨i, getElem?_concat_of_eq_some hi _⟩
  | call i kind a s' hmove =>
    have ⟨hcloses, hclosed, hhooks, hdrains⟩ := hmove.same
    refine h.frame hlater hcloses hclosed (fun _ => by rw [hhooks]; exact List.Subset.refl _) ?_
    intro k j p hp hdone
    rw [hdrains] at hp
    exact .inr ⟨p, hp, hdone⟩
  | closer i a s' hmove => exact h.closeMove hlater hmove
  | pool k a pool hown hpool =>
    refine h.frame hlater rfl rfl (fun _ => List.Subset.refl _) ?_
    intro k' j p hp hdone
    rcases undrained_setPool hpool hp hdone with hold | ⟨hdrain, _⟩
    . exact .inr hold
    . rw [hdrain] at hown
      contradiction
  | hook k pool hpool =>
    refine h.frame hlater rfl rfl ?_ ?_
    . intro k'
      exact subset_hookDrains s k _ k'
    . intro k' j p hp hdone
      rcases undrained_setPool hpool hp hdone with hold | ⟨_, hk, hj⟩
      . exact .inr hold
      . left
        subst hk hj
        simp

theorem inv_of_run {numPools : Nat} {as : List Action}
    (hrun : Run.run step (init size numPools) as = some s) : s.Linked ∧ s.Ending := by
  apply Run.inv_of_steps (I := fun s => s.Linked ∧ s.Ending) _
    ⟨linked_init size numPools, ending_init size numPools⟩ hrun
  intro s a s' h hstep
  have hmove := step_move hstep
  exact ⟨h.1.move hmove, h.2.move (h.1.later hmove) hmove⟩

structure After (s t : State size) : Prop where
  linked : t.Linked
  closed : t.closed = true
  wg : t.wg = 0
  uses : ∀ k, (t.pools k).calls = (s.pools k).calls
  calls : ∀ {i : Nat} {c : Call}, (∀ c, s.calls[i]? = some c → c.phase = .entering) →
    t.calls[i]? = some c → c.kind.precheck = none →
    c.phase = .entering ∨ c.phase = .returned .alreadyClosed
  closes : ∀ {i : Nat} {p : ClosePhase}, (∀ p, s.closes[i]? = some p → p = .entering) →
    t.closes[i]? = some p → p = .entering ∨ p = .returned .alreadyClosed

theorem After.refl (hlinked : s.Linked) (hclosed : s.closed = true) (hwg : s.wg = 0)
    : s.After s where
  linked := hlinked
  closed := hclosed
  wg := hwg
  uses := fun _ => rfl
  calls := fun hlate hc _ => .inl (hlate _ hc)
  closes := fun hlate hp => .inl (hlate _ hp)

variable {t t' : State size}

theorem After.calls_of_callMove (h : s.After t) {kind : Kind} {a : CallAction}
    (hmove : t.CallMove i kind a t')
    : ∃ r, t'.calls = t.calls.set i ⟨kind, .returned r⟩ ∧
        (kind.precheck = none → r = .alreadyClosed) := by
  have hcounted {p : Phase} (hcall : t.calls[i]? = some ⟨kind, p⟩) (hp : p.executing = true)
      : False := by
    have hpos := h.linked.wg_pos hcall hp
    have hwg := h.wg
    omega
  cases hmove with
  | refuse hcall r hr =>
    refine ⟨r, rfl, ?_⟩
    intro hpre
    rw [hr] at hpre
    contradiction
  | enterClosed hcall hpre hclosed => exact ⟨_, rfl, fun _ => rfl⟩
  | enter hcall hpre hopen =>
    rw [h.closed] at hopen
    contradiction
  | goOn a p q hcall hp huse hq huse' => exact (hcounted hcall hp).elim
  | acquire k pool hcall hpool | acquired k j hcall | sent k j r pool hcall hpool | wgDone r hcall =>
    exact (hcounted hcall rfl).elim
  | ended a p k j r o hcall huse hdone => exact (hcounted hcall (Phase.executing_of_use huse)).elim

theorem After.calls_of_move (h : s.After t) (hmove : t.Move a t') {c : Call}
    (hlate : ∀ c, s.calls[i]? = some c → c.phase = .entering) (hcall : t'.calls[i]? = some c)
    (hpre : c.kind.precheck = none) : c.phase = .entering ∨ c.phase = .returned .alreadyClosed := by
  cases hmove with
  | start kind =>
    rcases getElem?_concat_eq_some hcall with ⟨_, hc⟩ | hold
    . exact .inl (by rw [hc])
    . exact h.calls hlate hold hpre
  | call j kind a t' hmove =>
    have ⟨r, hcalls, hr⟩ := h.calls_of_callMove hmove
    rw [hcalls] at hcall
    rcases getElem?_set_eq_some hcall with ⟨_, hc⟩ | ⟨_, hold⟩
    . rw [hc] at hpre ⊢
      exact .inr (by rw [hr hpre])
    . exact h.calls hlate hold hpre
  | closer j a t' hmove =>
    have hcalls : t'.calls = t.calls := by cases hmove <;> rfl
    exact h.calls hlate (hcalls ▸ hcall) hpre
  | _ => exact h.calls hlate hcall hpre

theorem After.closes_of_closeMove (h : s.After t) {a : CloseAction} (hmove : t.CloseMove j a t')
    (hlate : ∀ p, s.closes[i]? = some p → p = .entering) (hclose : t'.closes[i]? = some p)
    : p = .entering ∨ p = .returned .alreadyClosed := by
  have hother {q r : ClosePhase} (hset : t'.closes = t.closes.set j q)
      (hj : t.closes[j]? = some r) (hr : r ≠ .entering ∧ r ≠ .returned .alreadyClosed)
      : p = .entering ∨ p = .returned .alreadyClosed := by
    rw [hset] at hclose
    rcases getElem?_set_eq_some hclose with ⟨heq, _⟩ | ⟨_, hold⟩
    . rcases h.closes hlate (heq ▸ hj) with hentering | hreturned
      . exact absurd hentering hr.1
      . exact absurd hreturned hr.2
    . exact h.closes hlate hold
  cases hmove with
  | refuse hj hclosed =>
    rcases getElem?_set_eq_some hclose with ⟨_, hp⟩ | ⟨_, hold⟩
    . exact .inr hp
    . exact h.closes hlate hold
  | enter hj hopen =>
    rw [h.closed] at hopen
    contradiction
  | wait hj hwg | closeAll k pool hj hk hpool | returnNil k hj hk | drained k d hj hdone =>
    exact hother rfl hj (by simp)

theorem After.closes_of_move (h : s.After t) (hmove : t.Move a t')
    (hlate : ∀ p, s.closes[i]? = some p → p = .entering) (hclose : t'.closes[i]? = some p)
    : p = .entering ∨ p = .returned .alreadyClosed := by
  cases hmove with
  | close =>
    rcases getElem?_concat_eq_some hclose with ⟨_, hp⟩ | hold
    . exact .inl hp
    . exact h.closes hlate hold
  | call j kind a t' hmove => exact h.closes hlate (hmove.same.1 ▸ hclose)
  | closer j a t' hmove => exact h.closes_of_closeMove hmove hlate hclose
  | _ => exact h.closes hlate hclose

theorem After.move (h : s.After t) (hmove : t.Move a t') : s.After t' := by
  have hlater := h.linked.later hmove
  exact {
    linked := h.linked.move hmove
    closed := hlater.closed h.closed
    wg := hlater.wg h.closed h.wg
    uses := fun k => ((hlater.pools h.closed h.wg k).calls).trans (h.uses k)
    calls := h.calls_of_move hmove
    closes := h.closes_of_move hmove }

theorem After.enter (h : s.After t) {c : Call} (hcall : t.calls[i]? = some c)
    (hphase : c.phase = .entering) (hpre : c.kind.precheck = none)
    : t.step (.call i .enter) = some (t.goto i c.kind (.returned .alreadyClosed)) := by
  obtain ⟨kind, phase⟩ := c
  subst hphase
  simp [step, callStep, hcall, State.enter, hpre, h.closed]

theorem After.closeEnter (h : s.After t) (hclose : t.closes[i]? = some .entering)
    : t.step (.closer i .enter) = some (t.closeGoto i (.returned .alreadyClosed)) := by
  simp [step, closeStep, hclose, State.closeEnter, h.closed]

variable {numPools : Nat} {as : List Action}

theorem hookDrains_of_run (hrun : Run.run step (init size numPools) as = some s)
    (hhook : ∀ k, .hook k ∉ as) (k : Nat) : s.hookDrains k = [] := by
  have halong : Run.Along step (fun _ a => ∀ k, a ≠ .hook k) (init size numPools) as := by
    apply Run.along_of_forall_mem
    intro a ha _ k heq
    exact hhook k (heq ▸ ha)
  apply Run.inv_of_run (I := fun s => s.hookDrains k = []) _ rfl halong hrun
  intro s a s' h ha hstep
  cases step_move hstep with
  | call i kind a s' hmove => rw [hmove.same.2.2.1]; exact h
  | closer i a s' hmove => cases hmove <;> exact h
  | hook k pool hpool => exact absurd rfl (ha k)
  | _ => exact h

theorem Ending.closed_of_returned (hlinked : s.Linked) (h : s.Ending)
    (hclose : s.closes[i]? = some (.returned .nil)) (hk : k < s.numPools) {e : Nat}
    {entry : Pool.Entry} (hentry : (s.pools k).entries e = some entry)
    : entry.closed = true ∨
        ∃ j ∈ s.hookDrains k, (s.pools k).drains[j]? = some (.closing e) := by
  have ⟨_, hwg, hfree⟩ := h.sound hclose rfl
  rcases (hlinked.owned k).closed_of_idle (hlinked.idle hwg k) (hfree k hk) hentry with hc | ⟨j, hj⟩
  . exact .inl hc
  . rcases h.drains hj (by simp) with hhook | ⟨i', hi'⟩
    . exact .inr ⟨j, hhook, hj⟩
    . have hle : s.closes.countP ClosePhase.passed ≤ 1 := by
        rw [h.sole]
        exact Bool.toNat_le _
      have heq := eq_of_countP_le_one hclose hi' rfl rfl hle
      simp [heq, hi'] at hclose

/--
Once a `Close` has returned nil, no call is executing and every channel that the pools have opened
is closed, apart from those that a reconnect hook is about to close.
-/
theorem closed_of_run (hrun : Run.run step (init size numPools) as = some s) {i : Nat}
    (hclose : s.closes[i]? = some (.returned .nil))
    : (∀ c ∈ s.calls, c.phase.executing = false) ∧
      (∀ k < s.numPools, ∀ e entry, (s.pools k).entries e = some entry →
        entry.closed = true ∨
          ∃ j ∈ s.hookDrains k, (s.pools k).drains[j]? = some (.closing e)) ∧
      ((∀ k, .hook k ∉ as) → ∀ k < s.numPools, ∀ e entry,
        (s.pools k).entries e = some entry → entry.closed = true) ∧
      ∀ bs t, Run.run step s bs = some t →
        (∀ k, (t.pools k).calls = (s.pools k).calls) ∧
        (∀ j c, (∀ c, s.calls[j]? = some c → c.phase = .entering) → t.calls[j]? = some c →
          c.kind.precheck = none →
          (c.phase = .entering ∧
            t.step (.call j .enter) = some (t.goto j c.kind (.returned .alreadyClosed))) ∨
          c.phase = .returned .alreadyClosed) ∧
        ∀ j p, (∀ p, s.closes[j]? = some p → p = .entering) → t.closes[j]? = some p →
          (p = .entering ∧
            t.step (.closer j .enter) = some (t.closeGoto j (.returned .alreadyClosed))) ∨
          p = .returned .alreadyClosed := by
  have ⟨hlinked, hending⟩ := inv_of_run hrun
  have ⟨hclosed, hwg, _⟩ := hending.sound hclose rfl
  refine ⟨?_, ?_, ?_, ?_⟩
  . intro c hc
    have ⟨j, hj⟩ := List.mem_iff_getElem?.mp hc
    rw [Bool.eq_false_iff]
    intro hexec
    have := hlinked.wg_pos hj hexec
    omega
  . intro k hk e entry hentry
    exact hending.closed_of_returned hlinked hclose hk hentry
  . intro hhook k hk e entry hentry
    rcases hending.closed_of_returned hlinked hclose hk hentry with hc | ⟨j, hj, _⟩
    . exact hc
    . rw [hookDrains_of_run hrun hhook k] at hj
      contradiction
  . intro bs t hrun'
    have hafter : s.After t := by
      apply Run.inv_of_steps _ (After.refl hlinked hclosed hwg) hrun'
      intro t a t' h hstep
      exact h.move (step_move hstep)
    refine ⟨hafter.uses, ?_, ?_⟩
    . intro j c hlate hc hpre
      rcases hafter.calls hlate hc hpre with hphase | hphase
      . exact .inl ⟨hphase, hafter.enter hc hphase hpre⟩
      . exact .inr hphase
    . intro j p hlate hp
      rcases hafter.closes hlate hp with hphase | hphase
      . exact .inl ⟨hphase, hafter.closeEnter (hphase ▸ hp)⟩
      . exact .inr hphase

def closedRun : List Action :=
  [.start .publish, .call 0 .enter, .close, .closer 0 .enter, .start (.batch .passed),
    .call 1 .enter, .call 0 .encoded, .call 0 (.acquire 0), .pool 0 (.call 0 .openFn),
    .pool 0 (.call 0 .opened), .call 0 .acquired, .call 0 (.sent .nil),
    .pool 0 (.call 0 .releaseCheck), .pool 0 (.call 0 .handBack), .pool 0 (.call 0 .returnToken),
    .call 0 .released, .call 0 .finish, .call 0 .wgDone, .closer 0 .wait, .closer 0 .closeAll,
    .pool 0 (.drainer 0 .poll), .pool 0 (.drainer 0 .close), .pool 0 (.drainer 0 .poll),
    .closer 0 .drained, .closer 0 .closeAll]

theorem closed_of_run_closedRun
    : ∃ s : State 1, Run.run step (init 1 1) closedRun = some s ∧
        s.closes[0]? = some (.returned .nil) ∧
        s.calls[1]? = some ⟨.batch .passed, .returned .alreadyClosed⟩ ∧
        ∃ entry, (s.pools 0).entries 0 = some entry ∧ entry.closed = true := by
  have ⟨s, hrun, heq⟩ := Option.map_eq_some_iff.mp
    (by decide : (Run.run step (init 1 1 : State 1) closedRun).map
      (fun s => (s.numPools, s.closes[0]?, s.calls[1]?, ((s.pools 0).entries 0).isSome))
        = some (1, some (.returned .nil), some ⟨.batch .passed, .returned .alreadyClosed⟩, true))
  simp only [Prod.mk.injEq] at heq
  have ⟨hpools, hclose, hcall, hentry⟩ := heq
  have ⟨entry, hentry⟩ := Option.isSome_iff_exists.mp hentry
  have ⟨_, _, hclosed, _⟩ := closed_of_run hrun hclose
  have hhook : ∀ k, .hook k ∉ closedRun := by
    intro k
    simp [closedRun]
  exact ⟨s, hrun, hclose, hcall, entry, hentry, hclosed hhook 0 (by omega) 0 entry hentry⟩

end State
end Closing
