import Warren.Base.Run
import Warren.Connection.WaitBarrier.Impl

/-!
When a caller of `waitBarrier` can sleep on after its ctx ended or its cap timer fired.
-/

namespace WaitBarrier

open Option

namespace Phase

def watcher? : Phase → Option Nat
  | .enqueuing w | .unlocking _ w | .sleeping _ w | .relocking w | .awake w => some w
  | _ => none

def ticket? : Phase → Option Nat
  | .unlocking ticket _ | .sleeping ticket _ => some ticket
  | _ => none

structure Follows (p q : Phase) : Prop where
  watcher : ∀ w, p.watcher? = some w → q.watcher? = some w
  ticket : ∀ t, p.ticket? = some t → q.ticket? = some t
  enqueuing : ∀ w, p = .enqueuing w → q = .enqueuing w

theorem follows_of_unlocking (t w : Nat) : (sleeping t w).Follows (unlocking t w) := by
  constructor <;> simp [watcher?, ticket?]

theorem follows_of_sleeping (t w : Nat) : (relocking w).Follows (sleeping t w) := by
  constructor <;> simp [watcher?, ticket?]

theorem follows_of_relocking (w : Nat) : (awake w).Follows (relocking w) := by
  constructor <;> simp [watcher?, ticket?]

theorem follows_of_watcher_none {p : Phase} (q : Phase) (h : p.watcher? = none) : p.Follows q := by
  cases p <;> first | contradiction | constructor <;> simp [watcher?, ticket?]

end Phase

namespace State

-- the caller is due to be woken, its watcher has ended, and no broadcast came after its ticket
def LostWakeup (s : State) (i : Nat) : Prop :=
  ∃ ticket w r, (s.callers i).phase = .sleeping ticket w ∧ s.watchers w = some r ∧
    ((s.callers i).ctxDone = true ∨ r.fired = true) ∧ r.phase = .ended ∧
    s.barrierCond.woken ticket = false

-- a watcher broadcasts only after its caller has drawn its ticket
def BroadcastAfterAdd (s : State) : Action → Prop
  | .watcher w .broadcast => ∀ r ∈ s.watchers w, (s.callers r.caller).phase ≠ .enqueuing w
  | _ => True

instance (s : State) (a : Action) : Decidable (s.BroadcastAfterAdd a) := by
  unfold BroadcastAfterAdd
  split <;> infer_instance

def Heard (s : State) (p : Phase) (w : Nat) : Prop :=
  p ≠ .enqueuing w ∧ ∀ t, p.ticket? = some t → s.barrierCond.woken t = true

structure Covered (s : State) (i : Nat) (p : Phase) : Prop where
  ticket : ∀ t, p.ticket? = some t → t < s.barrierCond.wait
  watched : ∀ w, p.watcher? = some w → ∃ r, s.watchers w = some r ∧ r.caller = i ∧ r.done = false ∧
    (r.phase = .ended → s.Heard p w)

structure Inv (s : State) : Prop where
  fresh : ∀ w, s.nextWatcher ≤ w → s.watchers w = none
  covered : ∀ i, s.Covered i (s.callers i).phase

variable {s : State} {i w : Nat} {p q : Phase}

theorem Covered.follows (h : s.Covered i q) (hp : p.Follows q) : s.Covered i p := by
  constructor
  . intro t ht
    exact h.ticket t (hp.ticket t ht)
  . intro w hw
    have ⟨r, hr, hcaller, hdone, hheard⟩ := h.watched w (hp.watcher w hw)
    refine ⟨r, hr, hcaller, hdone, fun hended => ?_⟩
    have ⟨hadded, hwoken⟩ := hheard hended
    exact ⟨fun h => hadded (hp.enqueuing w h), fun t ht => hwoken t (hp.ticket t ht)⟩

theorem Covered.of_watcher_none (s : State) (i : Nat) (h : p.watcher? = none) : s.Covered i p := by
  cases p <;> first | contradiction | constructor <;> simp [Phase.watcher?, Phase.ticket?]

theorem Covered.broadcast (h : s.Covered i p)
    : Covered { s with barrierCond := s.barrierCond.broadcast } i p := by
  constructor
  . exact h.ticket
  . intro w hw
    have ⟨r, hr, hcaller, hdone, hheard⟩ := h.watched w hw
    refine ⟨r, hr, hcaller, hdone, fun hended => ⟨(hheard hended).1, ?_⟩⟩
    intro t ht
    exact Cond.woken_broadcast (h.ticket t ht)

theorem Covered.add (h : s.Covered i p) : Covered { s with barrierCond := s.barrierCond.add } i p :=
  ⟨fun t ht => Nat.lt_succ_of_lt (h.ticket t ht), h.watched⟩

theorem Covered.add_self (h : s.Covered i (.enqueuing w))
    : Covered { s with barrierCond := s.barrierCond.add } i (.unlocking s.barrierCond.wait w) := by
  have ⟨r, hr, hcaller, hdone, hheard⟩ := h.watched w rfl
  constructor
  . simp [Phase.ticket?, Cond.add]
  . intro v hv
    cases hv
    refine ⟨r, hr, hcaller, hdone, fun hended => ?_⟩
    have := (hheard hended).1
    contradiction

variable {r : Watcher} {s' : State}

theorem Covered.setWatcher (h : s.Covered i p) {r' : Watcher} (hr : s.watchers w = some r)
    (hcaller : r'.caller = r.caller) (hdone : r.caller = i → r'.done = r.done)
    (hended : r'.phase = .ended → r.phase = .ended ∨ r.done = true ∨ (r.caller = i → s.Heard p w))
    : (s.setWatcher w r').Covered i p := by
  constructor
  . exact h.ticket
  . intro v hv
    have ⟨q, hq, hqc, hqd, hqh⟩ := h.watched v hv
    by_cases hvw : v = w
    . subst hvw
      rw [hr] at hq
      cases hq
      refine ⟨r', by simp [State.setWatcher], hcaller.trans hqc, (hdone hqc).trans hqd, ?_⟩
      intro hended'
      rcases hended hended' with hold | hold | hold
      . exact hqh hold
      . simp [hqd] at hold
      . exact hold hqc
    . exact ⟨q, by simpa [State.setWatcher, hvw] using hq, hqc, hqd, hqh⟩

theorem watcherStep_cases {a : WatcherAction} (hstep : s.watcherStep w a = some s')
    : ∃ r, s.watchers w = some r ∧
      (s' = s.setWatcher w { r with phase := .broadcasting } ∨
        (r.done = true ∧ s' = s.setWatcher w { r with phase := .ended }) ∨
        (a = .broadcast ∧ s' = { s.setWatcher w { r with phase := .ended } with
          barrierCond := s.barrierCond.broadcast })) := by
  grind [watcherStep]

theorem exists_watcher_of_fire (hstep : s.fire w = some s')
    : ∃ r, s.watchers w = some r ∧ s' = s.setWatcher w { r with fired := true } := by
  grind [fire]

theorem inv_init (reconnectBarrierTimeout : Nat) (bootDegraded : Bool)
    : (init reconnectBarrierTimeout bootDegraded).Inv :=
  ⟨fun _ _ => rfl, fun _ => .of_watcher_none _ _ rfl⟩

theorem Inv.frame (h : s.Inv) (hcallers : s'.callers = s.callers)
    (hwatchers : s'.watchers = s.watchers) (hnext : s'.nextWatcher = s.nextWatcher)
    (hcond : s'.barrierCond = s.barrierCond) : s'.Inv := by
  cases s
  cases s'
  dsimp only at hcallers hwatchers hnext hcond
  subst hcallers hwatchers hnext hcond
  exact ⟨h.fresh, fun i => ⟨(h.covered i).ticket, (h.covered i).watched⟩⟩

theorem Inv.setCaller (h : s.Inv) {c : Caller} (hc : s.Covered i c.phase)
    : (s.setCaller i c).Inv := by
  refine ⟨h.fresh, fun j => ?_⟩
  by_cases hj : j = i
  . subst hj
    simpa [State.setCaller] using ⟨hc.ticket, hc.watched⟩
  . simpa [State.setCaller, hj] using ⟨(h.covered j).ticket, (h.covered j).watched⟩

theorem Inv.goto (h : s.Inv) (hp : p.Follows (s.callers i).phase) : (s.goto i p).Inv :=
  h.setCaller ((h.covered i).follows hp)

theorem Inv.releaseMu (h : s.Inv) (hp : p.Follows (s.callers i).phase) : (s.releaseMu i p).Inv :=
  (h.goto hp).frame rfl rfl rfl rfl

theorem Inv.takeMu (h : s.Inv) (hp : p.Follows (s.callers i).phase) (hstep : s.takeMu i p = some s')
    : s'.Inv := by
  unfold State.takeMu at hstep
  split at hstep
  . cases hstep
    exact (h.goto hp).frame rfl rfl rfl rfl
  . contradiction

theorem Inv.broadcast (h : s.Inv) : Inv { s with barrierCond := s.barrierCond.broadcast } :=
  ⟨h.fresh, fun i => (h.covered i).broadcast⟩

theorem Inv.setWatcher (h : s.Inv) {r' : Watcher} (hr : s.watchers w = some r)
    (hcovered : ∀ i, (s.setWatcher w r').Covered i (s.callers i).phase)
    : (s.setWatcher w r').Inv := by
  refine ⟨fun v hv => ?_, hcovered⟩
  have hne : v ≠ w := by
    rintro rfl
    simp [h.fresh v hv] at hr
  simpa [State.setWatcher, hne] using h.fresh v hv

theorem Inv.newWatcher (h : s.Inv)
    : Inv { s.setWatcher s.nextWatcher r with nextWatcher := s.nextWatcher + 1 } := by
  refine ⟨fun w hw => ?_, fun i => ⟨(h.covered i).ticket, fun w hw => ?_⟩⟩
  . have hne : w ≠ s.nextWatcher := Nat.ne_of_gt hw
    simpa [State.setWatcher, hne] using h.fresh w (Nat.le_of_lt hw)
  . have ⟨q, hq, hrest⟩ := (h.covered i).watched w hw
    have hne : w ≠ s.nextWatcher := by
      rintro rfl
      simp [h.fresh] at hq
    exact ⟨q, by simpa [State.setWatcher, hne] using hq, hrest⟩

theorem Inv.startWatcher (h : s.Inv) (i : Nat) (capDeadline timer : Option Nat)
    : (s.startWatcher i capDeadline timer).Inv := by
  refine Inv.setCaller h.newWatcher (i := i) ⟨?_, ?_⟩
  . simp [Phase.ticket?]
  . intro w hw
    cases hw
    exact ⟨_, Function.update_self .., rfl, rfl, fun hended => by contradiction⟩

theorem Inv.loop (h : s.Inv) (i : Nat) : (s.loop i).Inv := by
  unfold State.loop
  split
  . exact h.startWatcher ..
  . split
    . exact h.startWatcher ..
    . exact h.releaseMu (Phase.follows_of_watcher_none _ rfl)

theorem Inv.closeDone (h : s.Inv) (hr : s.watchers w = some r)
    (hcaller : (s.callers r.caller).phase.watcher? = none)
    : (s.setWatcher w { r with done := true }).Inv := by
  apply h.setWatcher hr
  intro j
  by_cases hj : r.caller = j
  . subst hj
    exact .of_watcher_none _ _ hcaller
  . exact (h.covered j).setWatcher hr rfl (fun h => absurd h hj) .inl

theorem Inv.check (h : s.Inv) (hi : (s.callers i).phase = .awake w) (hr : s.watchers w = some r)
    : (s.check i w r).Inv := by
  have hcaller : r.caller = i := by
    have ⟨q, hq, hqc, _⟩ := (h.covered i).watched w (by rw [hi]; rfl)
    rw [hr] at hq
    cases hq
    exact hqc
  have leaves {p : Phase} (hp : p.watcher? = none)
      : ((s.goto i p).setWatcher w { r with done := true }).Inv := by
    apply (h.goto (Phase.follows_of_watcher_none _ hp)).closeDone hr
    simpa [State.goto, State.setCaller, hcaller] using hp
  unfold State.check
  dsimp only
  split
  . split
    all_goals exact (leaves rfl).frame rfl rfl rfl rfl
  . split
    . exact (leaves rfl).frame rfl rfl rfl rfl
    . exact leaves rfl

theorem Inv.add (h : s.Inv) (hi : (s.callers i).phase = .enqueuing w)
    : Inv { s.goto i (.unlocking s.barrierCond.wait w) with barrierCond := s.barrierCond.add } := by
  have hadd : Inv { s with barrierCond := s.barrierCond.add } :=
    ⟨h.fresh, fun j => (h.covered j).add⟩
  exact hadd.setCaller (hi ▸ h.covered i).add_self

theorem inv_callerStep (h : s.Inv) {a : CallerAction} (hstep : s.callerStep i a = some s')
    : s'.Inv := by
  unfold callerStep at hstep
  split at hstep
  . exact h.takeMu (Phase.follows_of_watcher_none _ rfl) hstep
  . cases hstep
    exact h.loop i
  . next w hi =>
    cases hstep
    exact h.add hi
  . next t w hi =>
    cases hstep
    exact h.releaseMu (hi ▸ Phase.follows_of_unlocking t w)
  . next t w hi =>
    split at hstep
    . cases hstep
      exact h.goto (hi ▸ Phase.follows_of_sleeping t w)
    . contradiction
  . next w hi => exact h.takeMu (hi ▸ Phase.follows_of_relocking w) hstep
  . next w hi =>
    split at hstep
    . contradiction
    . next r hr =>
      cases hstep
      exact h.check hi hr
  . cases hstep
    exact h.goto (Phase.follows_of_watcher_none _ rfl)
  . split at hstep
    . cases hstep
      exact h.goto (Phase.follows_of_watcher_none _ rfl)
    . contradiction
  . contradiction

theorem inv_watcherStep (h : s.Inv) {a : WatcherAction} (hP : s.BroadcastAfterAdd (.watcher w a))
    (hstep : s.watcherStep w a = some s') : s'.Inv := by
  have ⟨r, hr, hcases⟩ := watcherStep_cases hstep
  rcases hcases with hs' | ⟨hdone, hs'⟩ | ⟨ha, hs'⟩
  . rw [hs']
    exact h.setWatcher hr fun i => (h.covered i).setWatcher hr rfl (fun _ => rfl) nofun
  . rw [hs']
    exact h.setWatcher hr fun i =>
      (h.covered i).setWatcher hr rfl (fun _ => rfl) fun _ => .inr (.inl hdone)
  . -- every ticket is older than the broadcast, and the caller of `w` has drawn one
    rw [hs']
    refine h.broadcast.setWatcher hr fun i =>
      (h.broadcast.covered i).setWatcher hr rfl (fun _ => rfl) fun _ => .inr (.inr ?_)
    rintro rfl
    rw [ha] at hP
    exact ⟨hP r hr, fun t ht => Cond.woken_broadcast ((h.covered _).ticket t ht)⟩

theorem inv_superStep (h : s.Inv) {a : SuperAction} (hstep : s.superStep a = some s') : s'.Inv := by
  cases a with
  | blocked | reconnect =>
    simp only [superStep] at hstep
    split at hstep
    . cases hstep
      exact h.frame rfl rfl rfl rfl
    . contradiction
  | unblocked | reconnected | barrierCap =>
    simp only [superStep] at hstep
    split at hstep
    . cases hstep
      exact h.broadcast.frame rfl rfl rfl rfl
    . contradiction

theorem inv_step (s : State) (a : Action) (s' : State) (h : s.Inv) (hP : s.BroadcastAfterAdd a)
    (hstep : s.step a = some s') : s'.Inv := by
  cases a with
  | caller i a => exact inv_callerStep h hstep
  | watcher w a => exact inv_watcherStep h hP hstep
  | super a => exact inv_superStep h hstep
  | degraded err | tick =>
    cases hstep
    exact h.frame rfl rfl rfl rfl
  | cancelCtx i =>
    cases hstep
    exact h.setCaller (h.covered i)
  | fire w =>
    have ⟨r, hr, hs'⟩ := exists_watcher_of_fire hstep
    rw [hs']
    exact h.setWatcher hr fun i => (h.covered i).setWatcher hr rfl (fun _ => rfl) .inl

theorem Inv.not_lostWakeup (h : s.Inv) (i : Nat) : ¬s.LostWakeup i := by
  rintro ⟨t, w, r, hi, hr, _, hended, hwoken⟩
  have ⟨q, hq, _, _, hheard⟩ := (h.covered i).watched w (by rw [hi]; rfl)
  rw [hr] at hq
  cases hq
  rw [hi] at hheard
  simp [(hheard hended).2 t rfl] at hwoken

end State

open State

theorem no_lostWakeup_of_broadcastAfterAdd (reconnectBarrierTimeout : Nat) (bootDegraded : Bool)
    (as : List Action) (s : State) (i : Nat)
    (hP : Run.Along step BroadcastAfterAdd
      (.init reconnectBarrierTimeout bootDegraded) as)
    (hrun : Run.run step (.init reconnectBarrierTimeout bootDegraded) as = some s)
    : ¬s.LostWakeup i := by
  have h := Run.inv_of_run inv_step (inv_init reconnectBarrierTimeout bootDegraded)
    hP hrun
  exact h.not_lostWakeup i

def woken : List Action :=
  [.caller 0 .lock, .caller 0 .loop, .caller 0 .add, .caller 0 .unlock,
    .caller 1 .lock, .caller 1 .loop, .cancelCtx 0, .watcher 0 .ctxDone, .watcher 0 .broadcast,
    .caller 1 .add, .caller 1 .unlock]

theorem no_lostWakeup_of_woken
    : ∃ s, Run.run step (.init 30 true) woken = some s ∧
        (s.callers 0).phase = .sleeping 0 0 ∧ ¬s.LostWakeup 0 := by
  have ⟨s, hs, hphase⟩ := map_eq_some_iff.mp (by decide :
    (Run.run step (.init 30 true) woken).map (fun s => (s.callers 0).phase) =
      some (.sleeping 0 0))
  exact ⟨s, hs, hphase, no_lostWakeup_of_broadcastAfterAdd 30 true woken s 0 (by decide) hs⟩

/-!
The ctx of the caller ends between `go func()` and `barrierCond.Wait`; the watcher broadcasts and
ends, and only then the caller draws its ticket.
-/

def broadcastFirst : List Action :=
  [.caller 0 .lock, .caller 0 .loop, .cancelCtx 0, .watcher 0 .ctxDone, .watcher 0 .broadcast,
    .caller 0 .add, .caller 0 .unlock]

theorem lostWakeup_of_broadcastFirst
    : ∃ s, Run.run step (.init 30 true) broadcastFirst = some s ∧ s.LostWakeup 0 := by
  have ⟨s, hs, h⟩ := map_eq_some_iff.mp (by decide :
    (Run.run step (.init 30 true) broadcastFirst).map
      (fun s => (s.callers 0, s.watchers 0, s.barrierCond.woken 0)) =
    some (⟨true, some 30, .sleeping 0 0⟩, some ⟨0, some 30, false, false, .ended⟩, false))
  simp only [Prod.mk.injEq] at h
  have ⟨hcaller, hwatcher, hwoken⟩ := h
  exact ⟨s, hs, 0, 0, _, by rw [hcaller], hwatcher, .inl (by rw [hcaller]), rfl, hwoken⟩

end WaitBarrier
