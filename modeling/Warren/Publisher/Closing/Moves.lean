import Warren.Publisher.Closing.Impl

namespace Closing

open Option

namespace Phase

def executing : Phase → Bool
  | entering => false
  | returned _ => false
  | _ => true

def use : Phase → Option (Nat × Nat)
  | acquiring k j => some (k, j)
  | sending k j => some (k, j)
  | releasing k j _ => some (k, j)
  | _ => none

end Phase

namespace State

variable {size : Nat}

inductive CallMove (s : State size) (i : Nat) (kind : Kind) : CallAction → State size → Prop where
  | refuse (hcall : s.calls[i]? = some ⟨kind, .entering⟩) (r : Result)
    (hr : kind.precheck = some r)
    : CallMove s i kind .enter (s.goto i kind (.returned r))
  | enterClosed (hcall : s.calls[i]? = some ⟨kind, .entering⟩) (hpre : kind.precheck = none)
    (hclosed : s.closed = true)
    : CallMove s i kind .enter (s.goto i kind (.returned .alreadyClosed))
  | enter (hcall : s.calls[i]? = some ⟨kind, .entering⟩) (hpre : kind.precheck = none)
    (hopen : s.closed = false)
    : CallMove s i kind .enter { s.goto i kind .encoding with wg := s.wg + 1 }
  | goOn (a : CallAction) (p q : Phase) (hcall : s.calls[i]? = some ⟨kind, p⟩)
    (hp : p.executing = true) (huse : p.use = none) (hq : q.executing = true) (huse' : q.use = none)
    : CallMove s i kind a (s.goto i kind q)
  | acquire (k : Nat) (pool : Pool.State size) (hcall : s.calls[i]? = some ⟨kind, .attempting⟩)
    (hpool : (s.pools k).step .acquire = some pool)
    : CallMove s i kind (.acquire k)
        ((s.setPool k pool).goto i kind (.acquiring k (s.pools k).calls.length))
  | acquired (k j : Nat) (hcall : s.calls[i]? = some ⟨kind, .acquiring k j⟩)
    : CallMove s i kind .acquired (s.goto i kind (.sending k j))
  | sent (k j : Nat) (r : Result) (pool : Pool.State size)
    (hcall : s.calls[i]? = some ⟨kind, .sending k j⟩)
    (hpool : (s.pools k).step (.call j .release) = some pool)
    : CallMove s i kind (.sent r) ((s.setPool k pool).goto i kind (.releasing k j r))
  | ended (a : CallAction) (p : Phase) (k j : Nat) (r : Result) (o : Pool.Outcome)
    (hcall : s.calls[i]? = some ⟨kind, p⟩) (huse : p.use = some (k, j))
    (hdone : (s.pools k).calls[j]? = some (.done o))
    : CallMove s i kind a (s.goto i kind (.attempted r))
  | wgDone (r : Result) (hcall : s.calls[i]? = some ⟨kind, .finishing r⟩)
    : CallMove s i kind .wgDone { s.goto i kind (.returned r) with wg := s.wg - 1 }

inductive CloseMove (s : State size) (i : Nat) : CloseAction → State size → Prop where
  | refuse (hclose : s.closes[i]? = some .entering) (hclosed : s.closed = true)
    : CloseMove s i .enter (s.closeGoto i (.returned .alreadyClosed))
  | enter (hclose : s.closes[i]? = some .entering) (hopen : s.closed = false)
    : CloseMove s i .enter { s.closeGoto i .waiting with closed := true }
  | wait (hclose : s.closes[i]? = some .waiting) (hwg : s.wg = 0)
    : CloseMove s i .wait (s.closeGoto i (.atPool 0))
  | closeAll (k : Nat) (pool : Pool.State size) (hclose : s.closes[i]? = some (.atPool k))
    (hk : k < s.numPools) (hpool : (s.pools k).step .drain = some pool)
    : CloseMove s i .closeAll
        ((s.setPool k pool).closeGoto i (.draining k (s.pools k).drains.length))
  | returnNil (k : Nat) (hclose : s.closes[i]? = some (.atPool k)) (hk : s.numPools ≤ k)
    : CloseMove s i .closeAll (s.closeGoto i (.returned .nil))
  | drained (k j : Nat) (hclose : s.closes[i]? = some (.draining k j))
    (hdone : (s.pools k).drains[j]? = some .done)
    : CloseMove s i .drained (s.closeGoto i (.atPool (k + 1)))

inductive Move (s : State size) : Action → State size → Prop where
  | start (kind : Kind) : Move s (.start kind) { s with calls := s.calls ++ [⟨kind, .entering⟩] }
  | close : Move s .close { s with closes := s.closes ++ [.entering] }
  | call (i : Nat) (kind : Kind) (a : CallAction) (s' : State size) (hmove : s.CallMove i kind a s')
    : Move s (.call i a) s'
  | closer (i : Nat) (a : CloseAction) (s' : State size) (hmove : s.CloseMove i a s')
    : Move s (.closer i a) s'
  | pool (k : Nat) (a : Pool.Action) (pool : Pool.State size) (hown : ownAction a = true)
    (hpool : (s.pools k).step a = some pool)
    : Move s (.pool k a) (s.setPool k pool)
  | hook (k : Nat) (pool : Pool.State size) (hpool : (s.pools k).step .drain = some pool)
    : Move s (.hook k)
        { s.setPool k pool with
          hookDrains := Function.update s.hookDrains k
            (s.hookDrains k ++ [(s.pools k).drains.length]) }

variable {s s' : State size}

theorem poolStep_eq_some {k : Nat} {a : Pool.Action} (h : s.poolStep k a = some s')
    : ∃ pool, (s.pools k).step a = some pool ∧ s' = s.setPool k pool := by
  have ⟨pool, hpool, heq⟩ := map_eq_some_iff.mp h
  exact ⟨pool, hpool, heq.symm⟩

theorem enter_move {i : Nat} {kind : Kind} (hcall : s.calls[i]? = some ⟨kind, .entering⟩)
    : s.CallMove i kind .enter (s.enter i kind) := by
  grind [CallMove, enter]

theorem callStep_move {i : Nat} {a : CallAction} (hstep : s.callStep i a = some s')
    : ∃ kind, s.CallMove i kind a s' := by
  unfold callStep at hstep
  split at hstep
  . contradiction
  . next kind phase hcall =>
    refine ⟨kind, ?_⟩
    split at hstep
    . cases hstep
      apply enter_move hcall
    . cases hstep
      exact .goOn _ _ _ hcall rfl rfl rfl rfl
    . cases hstep
      exact .goOn _ _ _ hcall rfl rfl rfl rfl
    . split at hstep
      . cases hstep
        exact .goOn _ _ _ hcall rfl rfl rfl rfl
      . contradiction
    . cases hstep
      exact .goOn _ _ _ hcall rfl rfl rfl rfl
    . next k =>
      unfold acquire at hstep
      split at hstep
      . have ⟨t, ht, heq⟩ := map_eq_some_iff.mp hstep
        have ⟨pool, hpool, ht⟩ := poolStep_eq_some ht
        rw [← heq, ht]
        exact .acquire k pool hcall hpool
      . contradiction
    . next k j =>
      unfold acquired at hstep
      split at hstep
      . cases hstep
        exact .acquired k j hcall
      . contradiction
    . next k j =>
      unfold acquireErr at hstep
      split at hstep
      . next r hdone =>
        cases hstep
        exact .ended _ _ k j _ r hcall rfl hdone
      . contradiction
    . next r k j =>
      have ⟨t, ht, heq⟩ := map_eq_some_iff.mp hstep
      have ⟨pool, hpool, ht⟩ := poolStep_eq_some ht
      rw [← heq, ht]
      exact .sent k j r pool hcall hpool
    . next k j r =>
      unfold released at hstep
      split at hstep
      . next o hdone =>
        cases hstep
        exact .ended _ _ k j r o hcall rfl hdone
      . contradiction
    . split at hstep
      . cases hstep
        exact .goOn _ _ _ hcall rfl rfl rfl rfl
      . contradiction
    . cases hstep
      exact .goOn _ _ _ hcall rfl rfl rfl rfl
    . next r =>
      cases hstep
      exact .wgDone r hcall
    . contradiction

theorem closeStep_move {i : Nat} {a : CloseAction} (hstep : s.closeStep i a = some s')
    : s.CloseMove i a s' := by
  unfold closeStep at hstep
  split at hstep
  . next hclose =>
    cases hstep
    unfold closeEnter
    split
    . next hclosed => exact .refuse hclose hclosed
    . next hopen => exact .enter hclose (Bool.eq_false_iff.mpr hopen)
  . next hclose =>
    split at hstep
    . next hwg =>
      cases hstep
      exact .wait hclose hwg
    . contradiction
  . next k hclose =>
    unfold closeAll at hstep
    split at hstep
    . next hk =>
      have ⟨t, ht, heq⟩ := map_eq_some_iff.mp hstep
      have ⟨pool, hpool, ht⟩ := poolStep_eq_some ht
      rw [← heq, ht]
      exact .closeAll k pool hclose hk hpool
    . next hk =>
      cases hstep
      exact .returnNil k hclose (Nat.le_of_not_lt hk)
  . next k j hclose =>
    split at hstep
    . next hdone =>
      cases hstep
      exact .drained k j hclose hdone
    . contradiction
  . contradiction

theorem step_move {a : Action} (hstep : s.step a = some s') : s.Move a s' := by
  cases a with
  | start kind =>
    cases hstep
    exact .start kind
  | close =>
    cases hstep
    exact .close
  | call i a =>
    have ⟨kind, hmove⟩ := callStep_move hstep
    exact .call i kind a s' hmove
  | closer i a => exact .closer i a s' (closeStep_move hstep)
  | pool k a =>
    simp only [step] at hstep
    split at hstep
    . next hown =>
      have ⟨pool, hpool, heq⟩ := poolStep_eq_some hstep
      rw [heq]
      exact .pool k a pool hown hpool
    . contradiction
  | hook k =>
    unfold step hook at hstep
    have ⟨t, ht, heq⟩ := map_eq_some_iff.mp hstep
    have ⟨pool, hpool, ht⟩ := poolStep_eq_some ht
    rw [← heq, ht]
    exact .hook k pool hpool

end State
end Closing
