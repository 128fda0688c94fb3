import Warren.Connection.WaitBarrier.LostWakeup

/-!
Who sleeps in `waitBarrier` without a broadcast since its ticket waits for a flag that is still set.
-/

namespace WaitBarrier

namespace Phase

def holdsMu : Phase → Bool
  | .looping | .enqueuing _ | .unlocking _ _ | .awake _ => true
  | _ => false

def Waits (barrierCond : Cond) : Phase → Prop
  | .enqueuing _ => True
  | .unlocking ticket _ | .sleeping ticket _ => barrierCond.woken ticket = false
  | _ => False

theorem Waits.of_broadcast {barrierCond : Cond} {p : Phase} (h : p.Waits barrierCond.broadcast)
    (hticket : ∀ t, p.ticket? = some t → t < barrierCond.wait) : p.Waits barrierCond := by
  cases p with
  | unlocking t w | sleeping t w => simp [Waits, Cond.woken_broadcast (hticket t rfl)] at h
  | _ => exact h

theorem not_waits_broadcast {barrierCond : Cond} {p : Phase} (hmu : p.holdsMu = false)
    (hticket : ∀ t, p.ticket? = some t → t < barrierCond.wait)
    : ¬p.Waits barrierCond.broadcast := by
  cases p with
  | sleeping t w => simp [Waits, Cond.woken_broadcast (hticket t rfl)]
  | _ => simp_all [Waits, holdsMu]

end Phase

namespace State

structure Attends (s : State) (i : Nat) (p : Phase) : Prop where
  ticket : ∀ t, p.ticket? = some t → t < s.barrierCond.wait
  holdsMu : p.holdsMu = true → s.barrierMu = some i
  waits : p.Waits s.barrierCond → s.reconnecting = true ∨ s.blocked = true

def Pending (s : State) : Prop :=
  ∀ i, s.Attends i (s.callers i).phase

variable {s : State} {i w : Nat} {p : Phase}

theorem pending_init (reconnectBarrierTimeout : Nat) (bootDegraded : Bool)
    : (init reconnectBarrierTimeout bootDegraded).Pending := by
  intro i
  constructor <;> simp [init, Phase.ticket?, Phase.holdsMu, Phase.Waits]

theorem Attends.of_idle (s : State) (i : Nat) (hticket : p.ticket? = none)
    (hmu : p.holdsMu = false) (hwaits : ¬p.Waits s.barrierCond) : s.Attends i p :=
  ⟨by simp [hticket], by simp [hmu], fun h => absurd h hwaits⟩

theorem Pending.not_holdsMu (h : s.Pending) (hmu : s.barrierMu = none) (i : Nat)
    : (s.callers i).phase.holdsMu = false := by
  rw [Bool.eq_false_iff]
  intro hi
  simp [(h i).holdsMu hi] at hmu

theorem Pending.setCaller (h : s.Pending) {c : Caller} {mu : Option Nat}
    (hmu : mu = s.barrierMu ∨ s.barrierMu = none ∨ s.barrierMu = some i)
    (hc : Attends { s with barrierMu := mu } i c.phase)
    : Pending { s.setCaller i c with barrierMu := mu } := by
  intro j
  by_cases hj : j = i
  . subst hj
    simpa [State.setCaller] using ⟨hc.ticket, hc.holdsMu, hc.waits⟩
  . have hkeep : (s.callers j).phase.holdsMu = true → mu = some j := by
      intro hholds
      have hself := (h j).holdsMu hholds
      rcases hmu with hmu | hmu | hmu
      . rw [hmu, hself]
      . simp [hself] at hmu
      . simp [hself, hj] at hmu
    simpa [State.setCaller, hj] using ⟨(h j).ticket, hkeep, (h j).waits⟩

theorem Pending.setWatcher (h : s.Pending) (w : Nat) (r : Watcher) : (s.setWatcher w r).Pending :=
  fun i => ⟨(h i).ticket, (h i).holdsMu, (h i).waits⟩

theorem Pending.watcherBroadcast (h : s.Pending)
    : Pending { s with barrierCond := s.barrierCond.broadcast } :=
  fun i => ⟨(h i).ticket, (h i).holdsMu, fun hwaits =>
    (h i).waits (hwaits.of_broadcast (h i).ticket)⟩

theorem Pending.section (h : s.Pending) (hmu : s.barrierMu = none) {reconnecting blocked : Bool}
    {barrierCond : Cond}
    (hflags : barrierCond = s.barrierCond ∧ (reconnecting = true ∨ blocked = true) ∨
      barrierCond = s.barrierCond.broadcast)
    : Pending { s with reconnecting, blocked, barrierCond } := by
  intro i
  have hholds := h.not_holdsMu hmu i
  cases hflags with
  | inl hflags =>
    rw [hflags.1]
    exact ⟨(h i).ticket, (h i).holdsMu, fun _ => hflags.2⟩
  | inr hflags =>
    rw [hflags]
    exact ⟨(h i).ticket, (h i).holdsMu, fun hwaits =>
      absurd hwaits (Phase.not_waits_broadcast hholds (h i).ticket)⟩

variable {s' : State}

theorem Pending.takeMu (h : s.Pending) (hp : Attends { s with barrierMu := some i } i p)
    (hstep : s.takeMu i p = some s') : s'.Pending := by
  unfold State.takeMu at hstep
  split at hstep
  . next hmu =>
    cases hstep
    exact h.setCaller (.inr (.inl hmu)) hp
  . contradiction

theorem Pending.releaseMu (h : s.Pending) (hmu : s.barrierMu = some i)
    (hp : Attends { s with barrierMu := none } i p) : (s.releaseMu i p).Pending :=
  h.setCaller (.inr (.inr hmu)) hp

theorem Pending.startWatcher (h : s.Pending) (hmu : s.barrierMu = some i)
    (hflags : s.reconnecting = true ∨ s.blocked = true) (capDeadline timer : Option Nat)
    : (s.startWatcher i capDeadline timer).Pending := by
  have := (h.setWatcher s.nextWatcher ⟨i, timer, false, false, .selecting⟩).setCaller (.inl rfl)
    (c := { s.callers i with capDeadline, phase := .enqueuing s.nextWatcher })
    ⟨by simp [Phase.ticket?], fun _ => hmu, fun _ => hflags⟩
  exact fun j => ⟨(this j).ticket, (this j).holdsMu, (this j).waits⟩

theorem Pending.loop (h : s.Pending) (hmu : s.barrierMu = some i) : (s.loop i).Pending := by
  unfold State.loop
  split
  . next hreconnecting => exact h.startWatcher hmu (.inl hreconnecting) _ _
  . split
    . next hblocked => exact h.startWatcher hmu (.inr hblocked) _ _
    . exact h.releaseMu hmu (.of_idle _ _ rfl rfl id)

theorem Pending.check (h : s.Pending) (hmu : s.barrierMu = some i) (w : Nat) (r : Watcher)
    : (s.check i w r).Pending := by
  have hdone := h.setWatcher w { r with done := true }
  unfold State.check
  dsimp only
  split
  . split
    all_goals exact hdone.releaseMu hmu (.of_idle _ _ rfl rfl id)
  . split
    . exact hdone.releaseMu hmu (.of_idle _ _ rfl rfl id)
    . exact hdone.setCaller (.inl rfl)
        ⟨by simp [Phase.ticket?], fun _ => hmu, by simp [Phase.Waits]⟩

theorem Pending.add (h : s.Pending) (hi : (s.callers i).phase = .enqueuing w)
    : Pending { s.goto i (.unlocking s.barrierCond.wait w) with
        barrierCond := s.barrierCond.add } := by
  have hadd : Pending { s with barrierCond := s.barrierCond.add } := fun j =>
    ⟨fun t ht => Nat.lt_succ_of_lt ((h j).ticket t ht), (h j).holdsMu, (h j).waits⟩
  apply hadd.setCaller (.inl rfl)
  have := h i
  rw [hi] at this
  exact ⟨by simp [Phase.ticket?, Cond.add], fun _ => this.holdsMu rfl, fun _ => this.waits trivial⟩

theorem pending_callerStep (h : s.Pending) {a : CallerAction} (hstep : s.callerStep i a = some s')
    : s'.Pending := by
  have hself := h i
  unfold callerStep at hstep
  split at hstep
  . exact h.takeMu ⟨by simp [Phase.ticket?], fun _ => rfl, by simp [Phase.Waits]⟩ hstep
  . next hi =>
    cases hstep
    exact h.loop (hself.holdsMu (by rw [hi]; rfl))
  . next w hi =>
    cases hstep
    exact h.add hi
  . next t w hi =>
    cases hstep
    rw [hi] at hself
    exact h.releaseMu (hself.holdsMu rfl) ⟨hself.ticket, by simp [Phase.holdsMu], hself.waits⟩
  . split at hstep
    . cases hstep
      exact h.setCaller (.inl rfl) (.of_idle _ _ rfl rfl id)
    . contradiction
  . exact h.takeMu ⟨by simp [Phase.ticket?], fun _ => rfl, by simp [Phase.Waits]⟩ hstep
  . next w hi =>
    split at hstep
    . contradiction
    . next r hr =>
      cases hstep
      exact h.check (hself.holdsMu (by rw [hi]; rfl)) w r
  . cases hstep
    exact h.setCaller (.inl rfl) (.of_idle _ _ rfl rfl id)
  . split at hstep
    . cases hstep
      exact h.setCaller (.inl rfl) (.of_idle _ _ rfl rfl id)
    . contradiction
  . contradiction

theorem pending_watcherStep (h : s.Pending) {a : WatcherAction}
    (hstep : s.watcherStep w a = some s') : s'.Pending := by
  have ⟨r, _, hcases⟩ := watcherStep_cases hstep
  rcases hcases with hs' | ⟨_, hs'⟩ | ⟨_, hs'⟩
  . exact hs' ▸ h.setWatcher _ _
  . exact hs' ▸ h.setWatcher _ _
  . exact hs' ▸ h.watcherBroadcast.setWatcher _ _

theorem pending_superStep (h : s.Pending) {a : SuperAction} (hstep : s.superStep a = some s')
    : s'.Pending := by
  cases a <;>
  . simp only [superStep] at hstep
    split at hstep
    . next hmu =>
      cases hstep
      exact h.section hmu (by simp)
    . contradiction

theorem pending_step {a : Action} (h : s.Pending) (hstep : s.step a = some s') : s'.Pending := by
  cases a with
  | caller i a => exact pending_callerStep h hstep
  | watcher w a => exact pending_watcherStep h hstep
  | super a => exact pending_superStep h hstep
  | degraded err | tick =>
    cases hstep
    exact fun i => ⟨(h i).ticket, (h i).holdsMu, (h i).waits⟩
  | cancelCtx i =>
    cases hstep
    exact h.setCaller (.inl rfl) (h i)
  | fire w =>
    have ⟨_, _, hs'⟩ := exists_watcher_of_fire hstep
    exact hs' ▸ h.setWatcher _ _

/--
No broadcast of the supervisor is missed, and no two callers are in their critical sections.
-/
theorem waits_of_run {reconnectBarrierTimeout : Nat} {bootDegraded : Bool} {as : List Action}
    (hrun : Run.run step (.init reconnectBarrierTimeout bootDegraded) as = some s)
    : (∀ i, (s.callers i).phase.Waits s.barrierCond → s.reconnecting = true ∨ s.blocked = true)
        ∧ ∀ i j, (s.callers i).phase.holdsMu = true → (s.callers j).phase.holdsMu = true → i = j := by
  have h : s.Pending := Run.inv_of_steps (fun _ _ _ h => pending_step h) (pending_init _ _) hrun
  refine ⟨fun i => (h i).waits, ?_⟩
  intro i j hi hj
  exact Option.some.inj (((h i).holdsMu hi).symm.trans ((h j).holdsMu hj))

theorem waits_of_run_woken
    : ∃ s, Run.run step (.init 30 true) woken = some s ∧
        (s.callers 1).phase.Waits s.barrierCond ∧ (s.reconnecting = true ∨ s.blocked = true) := by
  obtain ⟨s, hrun, hphase, hwoken⟩ := (by decide : ∃ s ∈ Run.run step (.init 30 true) woken,
    (s.callers 1).phase = .sleeping 1 1 ∧ s.barrierCond.woken 1 = false)
  have hwaits : (s.callers 1).phase.Waits s.barrierCond := by
    rw [hphase]
    exact hwoken
  exact ⟨s, hrun, hwaits, (waits_of_run hrun).1 1 hwaits⟩

def flags (s : State) : Bool × Bool := (s.reconnecting, s.blocked)

theorem flags_loop (s : State) (i : Nat) : (s.loop i).flags = s.flags := by
  unfold loop
  split
  . rfl
  . split <;> rfl

theorem flags_check (s : State) (i w : Nat) (r : Watcher) : (s.check i w r).flags = s.flags := by
  unfold check
  dsimp only
  split
  . split <;> rfl
  . split <;> rfl

theorem flags_takeMu (hstep : s.takeMu i p = some s') : s'.flags = s.flags := by
  unfold takeMu at hstep
  split at hstep
  . cases hstep
    rfl
  . contradiction

theorem flags_callerStep {a : CallerAction} (hstep : s.callerStep i a = some s')
    : s'.flags = s.flags := by
  unfold callerStep at hstep
  split at hstep
  . exact flags_takeMu hstep
  . cases hstep
    exact flags_loop s i
  . cases hstep
    rfl
  . cases hstep
    rfl
  . split at hstep
    . cases hstep
      rfl
    . contradiction
  . exact flags_takeMu hstep
  . split at hstep
    . contradiction
    . cases hstep
      apply flags_check
  . cases hstep
    rfl
  . split at hstep
    . cases hstep
      rfl
    . contradiction
  . contradiction

theorem flags_step {a : Action} (ha : ∀ b, a ≠ .super b) (hstep : s.step a = some s')
    : s'.flags = s.flags := by
  cases a with
  | caller i a => exact flags_callerStep hstep
  | watcher w a =>
    have ⟨_, _, hcases⟩ := watcherStep_cases hstep
    rcases hcases with hs' | ⟨_, hs'⟩ | ⟨_, hs'⟩ <;> exact hs' ▸ rfl
  | super b => exact absurd rfl (ha b)
  | fire w =>
    have ⟨_, _, hs'⟩ := exists_watcher_of_fire hstep
    exact hs' ▸ rfl
  | _ =>
    cases hstep
    rfl

end State
end WaitBarrier
