import Warren.Publisher.Closing.Moves
import Warren.Publisher.Pool.Idle

namespace Closing

open Procs

theorem Phase.executing_of_use {p : Phase} {u : Nat × Nat} (h : p.use = some u)
    : p.executing = true := by
  cases p with
  | entering => contradiction
  | returned r => contradiction
  | _ => rfl

def Call.executing (c : Call) : Bool := c.phase.executing

namespace State

variable {size : Nat} {s s' : State size}

structure Linked (s : State size) : Prop where
  owned : ∀ k, (s.pools k).Owned
  uses : ∀ {k j : Nat} {p : Pool.CallPhase}, (s.pools k).calls[j]? = some p → p.isDone = false →
    ∃ (i : Nat) (c : Call), s.calls[i]? = some c ∧ c.phase.use = some (k, j)
  wg : s.wg = s.calls.countP Call.executing

theorem linked_init (size numPools : Nat) : (init size numPools).Linked where
  owned := fun _ => Pool.State.owned_init size
  uses := by
    intro k j p h
    contradiction
  wg := rfl

variable {i k : Nat} {pool : Pool.State size} {a : Pool.Action} {kind : Kind}

theorem Linked.wg_pos (h : s.Linked) {c : Call} (hcall : s.calls[i]? = some c)
    (hc : c.executing = true) : 0 < s.wg := by
  have hle := toNat_le_countP Call.executing hcall
  rw [hc, ← h.wg] at hle
  exact hle

theorem Linked.idle (h : s.Linked) (hwg : s.wg = 0) (k : Nat) : (s.pools k).Idle := by
  intro j p hp
  cases hdone : p.isDone with
  | true => rfl
  | false =>
    have ⟨i, c, hcall, huse⟩ := h.uses hp hdone
    have := h.wg_pos hcall (Phase.executing_of_use huse)
    omega

theorem pools_setPool_self (s : State size) (k : Nat) (pool : Pool.State size)
    : (s.setPool k pool).pools k = pool :=
  Function.update_self ..

theorem pools_setPool_of_ne (s : State size) {k' : Nat} (h : k' ≠ k) (pool : Pool.State size)
    : (s.setPool k pool).pools k' = s.pools k' :=
  Function.update_of_ne h ..

theorem Linked.owned_setPool (h : s.Linked) (hpool : (s.pools k).step a = some pool) (k' : Nat)
    : ((s.setPool k pool).pools k').Owned := by
  by_cases heq : k' = k
  . rw [heq, pools_setPool_self]
    exact Pool.State.owned_step (h.owned k) hpool
  . rw [pools_setPool_of_ne s heq]
    exact h.owned k'

theorem unfinished_setPool (hpool : (s.pools k).step a = some pool) {k' j : Nat}
    {p : Pool.CallPhase} (hp : ((s.setPool k pool).pools k').calls[j]? = some p)
    (hdone : p.isDone = false)
    : (∃ p, (s.pools k').calls[j]? = some p ∧ p.isDone = false) ∨
        (a = .acquire ∧ k' = k ∧ j = (s.pools k).calls.length) := by
  grind [pools_setPool_self, Pool.State.unfinished_of_step, pools_setPool_of_ne]

theorem Linked.goto (h : s.Linked) (t : State size) {p : Phase} (q : Phase)
    (hcall : s.calls[i]? = some ⟨kind, p⟩) (hcalls : t.calls = s.calls)
    (howned : ∀ k, (t.pools k).Owned)
    (huses : ∀ {k j r}, (t.pools k).calls[j]? = some r → r.isDone = false →
      q.use = some (k, j) ∨
      p.use ≠ some (k, j) ∧ ∃ r, (s.pools k).calls[j]? = some r ∧ r.isDone = false) (wg : Nat)
    (hwg : wg + p.executing.toNat = s.wg + q.executing.toNat)
    : Linked { t.goto i kind q with wg } := by
  refine ⟨howned, ?_, ?_⟩
  . intro k j r hr hdone
    have hcalls' : (t.goto i kind q).calls = s.calls.set i ⟨kind, q⟩ := by
      rw [State.goto, hcalls]
    rcases huses hr hdone with hq | ⟨hp, r', hr', hdone'⟩
    . refine ⟨i, ⟨kind, q⟩, ?_, hq⟩
      exact hcalls'.symm ▸ getElem?_set_of_eq_some hcall _
    . have ⟨i', c, hc, huse⟩ := h.uses hr' hdone'
      have hne : i ≠ i' := by
        rintro rfl
        rw [hcall, Option.some.injEq] at hc
        rw [← hc] at huse
        exact hp huse
      refine ⟨i', c, ?_, huse⟩
      exact hcalls'.symm ▸ (List.getElem?_set_ne hne).trans hc
  . have hcount := countP_set Call.executing hcall ⟨kind, q⟩
    have hold := h.wg
    change _ + p.executing.toNat = _ + q.executing.toNat at hcount
    show wg = (t.calls.set i ⟨kind, q⟩).countP Call.executing
    rw [hcalls]
    omega

theorem Linked.goto_same (h : s.Linked) {p : Phase} (q : Phase)
    (hcall : s.calls[i]? = some ⟨kind, p⟩)
    (huse : ∀ k j, p.use = some (k, j) →
      q.use = some (k, j) ∨ ∃ o, (s.pools k).calls[j]? = some (.done o)) (wg : Nat)
    (hwg : wg + p.executing.toNat = s.wg + q.executing.toNat)
    : Linked { s.goto i kind q with wg } := by
  refine h.goto s q hcall rfl h.owned ?_ wg hwg
  intro k j r hr hdone
  by_cases hp : p.use = some (k, j)
  . rcases huse k j hp with hq | ⟨o, ho⟩
    . exact .inl hq
    . rw [hr, Option.some.injEq] at ho
      rw [ho] at hdone
      contradiction
  . exact .inr ⟨hp, r, hr, hdone⟩

theorem Linked.callMove (h : s.Linked) {a : CallAction} (hmove : s.CallMove i kind a s')
    : s'.Linked := by
  cases hmove with
  | refuse hcall r hr | enterClosed hcall hpre hclosed =>
    exact h.goto_same _ hcall (by simp [Phase.use]) s.wg rfl
  | enter hcall hpre hopen => exact h.goto_same _ hcall (by simp [Phase.use]) (s.wg + 1) rfl
  | goOn a p q hcall hp huse hq huse' =>
    refine h.goto_same _ hcall ?_ s.wg (by rw [hp, hq])
    intro k j hkj
    rw [huse] at hkj
    contradiction
  | acquire k pool hcall hpool =>
    refine h.goto (s.setPool k pool) _ hcall rfl (h.owned_setPool hpool) ?_ s.wg rfl
    intro k' j r hr hdone
    rcases unfinished_setPool hpool hr hdone with hold | ⟨_, hk, hj⟩
    . exact .inr ⟨by simp [Phase.use], hold⟩
    . exact .inl (by rw [hk, hj]; rfl)
  | acquired k j hcall =>
    exact h.goto_same (.sending k j) hcall (fun _ _ hkj => .inl hkj) s.wg rfl
  | sent k j r pool hcall hpool =>
    refine h.goto (s.setPool k pool) _ hcall rfl (h.owned_setPool hpool) ?_ s.wg rfl
    intro k' j' r' hr hdone
    rcases unfinished_setPool hpool hr hdone with hold | ⟨ha, _⟩
    . by_cases heq : some (k, j) = some (k', j')
      . exact .inl heq
      . exact .inr ⟨heq, hold⟩
    . contradiction
  | ended a p k j r o hcall huse hdone =>
    refine h.goto_same _ hcall ?_ s.wg (by rw [Phase.executing_of_use huse]; rfl)
    intro k' j' hkj
    rw [huse, Option.some.injEq, Prod.mk.injEq] at hkj
    exact .inr ⟨o, by rw [← hkj.1, ← hkj.2]; exact hdone⟩
  | wgDone r hcall =>
    have hpos := h.wg_pos hcall rfl
    refine h.goto_same _ hcall (by simp [Phase.use]) (s.wg - 1) ?_
    show s.wg - 1 + 1 = s.wg + 0
    omega

theorem Linked.setPool (h : s.Linked) (ha : a ≠ .acquire) (hpool : (s.pools k).step a = some pool)
    : (s.setPool k pool).Linked where
  owned := h.owned_setPool hpool
  uses := by
    intro k' j p hp hdone
    rcases unfinished_setPool hpool hp hdone with ⟨p', hp', hdone'⟩ | ⟨hacquire, _⟩
    . exact h.uses hp' hdone'
    . contradiction
  wg := h.wg

theorem ne_acquire_of_ownAction (h : ownAction a = true) : a ≠ .acquire := by
  rintro rfl
  contradiction

theorem Linked.move (h : s.Linked) {a : Action} (hmove : s.Move a s') : s'.Linked := by
  cases hmove with
  | start kind =>
    refine ⟨h.owned, ?_, ?_⟩
    . intro k j p hp hdone
      have ⟨i, c, hc, huse⟩ := h.uses hp hdone
      exact ⟨i, c, getElem?_concat_of_eq_some hc _, huse⟩
    . show s.wg = (s.calls ++ [Call.mk kind .entering]).countP Call.executing
      rw [countP_concat, h.wg]
      rfl
  | close => exact ⟨h.owned, h.uses, h.wg⟩
  | call i kind a s' hmove => exact h.callMove hmove
  | closer i a s' hmove =>
    cases hmove with
    | closeAll k pool hclose hk hpool =>
      have hlinked := h.setPool (by simp) hpool
      exact ⟨hlinked.owned, hlinked.uses, hlinked.wg⟩
    | _ => exact ⟨h.owned, h.uses, h.wg⟩
  | pool k a pool hown hpool => exact h.setPool (ne_acquire_of_ownAction hown) hpool
  | hook k pool hpool =>
    have hlinked := h.setPool (by simp) hpool
    exact ⟨hlinked.owned, hlinked.uses, hlinked.wg⟩

structure Later (s s' : State size) : Prop where
  closed : s.closed = true → s'.closed = true
  numPools : s'.numPools = s.numPools
  wg : s.closed = true → s.wg = 0 → s'.wg = 0
  pools : s.closed = true → s.wg = 0 → ∀ k, (s.pools k).Quiet (s'.pools k)

theorem Later.of_pools (hclosed : s.closed = true → s'.closed = true)
    (hnumPools : s'.numPools = s.numPools) (hwg : s'.wg = s.wg) (hpools : s'.pools = s.pools)
    : s.Later s' :=
  ⟨hclosed, hnumPools, fun _ h => hwg.trans h, fun _ _ k => by rw [hpools]; exact .refl _⟩

theorem Linked.quiet_setPool (h : s.Linked) (hwg : s.wg = 0) (ha : a ≠ .acquire)
    (hpool : (s.pools k).step a = some pool) (k' : Nat)
    : (s.pools k').Quiet ((s.setPool k pool).pools k') := by
  by_cases heq : k' = k
  . rw [heq, pools_setPool_self]
    exact Pool.State.Idle.quiet (h.idle hwg k) ha hpool
  . rw [pools_setPool_of_ne s heq]
    exact .refl _

theorem Linked.later_of_callMove (h : s.Linked) {a : CallAction} (hmove : s.CallMove i kind a s')
    : s.Later s' := by
  have hcounted {p : Phase} (hcall : s.calls[i]? = some ⟨kind, p⟩) (hp : p.executing = true)
      (hclosed : s'.closed = s.closed) (hnumPools : s'.numPools = s.numPools) : s.Later s' := by
    have hpos := h.wg_pos hcall hp
    refine ⟨fun hc => hclosed.trans hc, hnumPools, ?_, ?_⟩
    . intro _ hwg
      omega
    . intro _ hwg
      omega
  cases hmove with
  | refuse hcall r hr | enterClosed hcall hpre hclosed => exact .of_pools id rfl rfl rfl
  | enter hcall hpre hopen =>
    refine ⟨id, rfl, ?_, ?_⟩
    . intro hclosed
      rw [hopen] at hclosed
      contradiction
    . intro hclosed
      rw [hopen] at hclosed
      contradiction
  | goOn a p q hcall hp huse hq huse' => exact hcounted hcall hp rfl rfl
  | acquire k pool hcall hpool | acquired k j hcall | sent k j r pool hcall hpool | wgDone r hcall =>
    exact hcounted hcall rfl rfl rfl
  | ended a p k j r o hcall huse hdone => exact hcounted hcall (Phase.executing_of_use huse) rfl rfl

theorem Linked.later (h : s.Linked) {a : Action} (hmove : s.Move a s') : s.Later s' := by
  cases hmove with
  | start kind | close => exact .of_pools id rfl rfl rfl
  | call i kind a s' hmove => exact h.later_of_callMove hmove
  | closer i a s' hmove =>
    cases hmove with
    | enter hclose hopen => exact .of_pools (fun _ => rfl) rfl rfl rfl
    | closeAll k pool hclose hk hpool =>
      exact ⟨id, rfl, fun _ => id, fun _ hwg => h.quiet_setPool hwg (by simp) hpool⟩
    | _ => exact .of_pools id rfl rfl rfl
  | pool k a pool hown hpool =>
    exact ⟨id, rfl, fun _ => id,
      fun _ hwg => h.quiet_setPool hwg (ne_acquire_of_ownAction hown) hpool⟩
  | hook k pool hpool =>
    exact ⟨id, rfl, fun _ => id, fun _ hwg => h.quiet_setPool hwg (by simp) hpool⟩

end State
end Closing
