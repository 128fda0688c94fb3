import Mathlib.Algebra.GroupWithZero.Nat
import Mathlib.Algebra.Order.BigOperators.Group.List
import Mathlib.Algebra.Order.Group.Nat
import Warren.Base.Procs
import Warren.Base.Run
import Warren.Consumer.ByteLimiter.Impl

/-!
The cap on the bytes in flight, over every interleaving of the acquires and the releases.
-/

namespace ByteLimiter

open List
open State

def Delivery.held (d : Delivery) : Nat :=
  match d.phase with
  | .granted | .dispatching | .ended _ => d.size
  | _ => 0

def Phase.pending : Phase → Bool
  | .releasing _ => true
  | _ => false

def Phase.releases : Phase → Nat
  | .releasing _ | .done _ => 1
  | _ => 0

def Limiter.fits (bl : Limiter) (n : Nat) : Bool := bl.inflight = 0 ∨ bl.inflight + n ≤ bl.limit

def held (ds : List Delivery) : Nat := (ds.map Delivery.held).sum

variable {bl bl' : Limiter} {d d' : Delivery} {ds : List Delivery} {i : Nat} {a : Move}

theorem held_set (h : ds[i]? = some d) (d' : Delivery)
    : held (ds.set i d') + d.held = held ds + d'.held := by
  induction ds generalizing i with
  | nil => contradiction
  | cons x ds ih =>
    cases i with
    | zero =>
      cases h
      simp only [held, set_cons_zero, map_cons, sum_cons]
      omega
    | succ i =>
      have h := ih h
      simp only [held, set_cons_succ, map_cons, sum_cons] at h ⊢
      omega

theorem held_le (h : d ∈ ds) : d.held ≤ held ds :=
  single_le_sum (by simp) _ (mem_map_of_mem h)

theorem filter_held (h : d ∈ ds) (hheld : d.held = held ds) (hpos : 0 < d.held)
    : ds.filter (·.held ≠ 0) = [d] := by
  induction ds with
  | nil => contradiction
  | cons x ds ih =>
    have hsum : held (x :: ds) = x.held + held ds := rfl
    cases mem_cons.mp h with
    | inl hx =>
      subst hx
      have hnone : ds.filter (·.held ≠ 0) = [] := by
        rw [filter_eq_nil_iff]
        intro y hy
        have hle := held_le hy
        simp
        omega
      rw [filter_cons_of_pos (by simp; omega), hnone]
    | inr hmem =>
      have hle := held_le hmem
      rw [filter_cons_of_neg (by simp; omega)]
      apply ih hmem
      omega

inductive Moved (bl : Limiter) (d : Delivery) : Limiter → Delivery → Prop where
  | wait (hphase : d.phase = .acquiring) (hfull : 0 < bl.inflight ∧ bl.limit < bl.inflight + d.size)
    : Moved bl d { bl with cond := bl.cond.add } { d with phase := .asleep bl.cond.wait }
  | grant (hphase : d.phase = .acquiring)
    (hroom : ¬(0 < bl.inflight ∧ bl.limit < bl.inflight + d.size))
    : Moved bl d { bl with inflight := bl.inflight + d.size } { d with phase := .granted }
  | goOn (phase : Phase) (hheld : { d with phase }.held = d.held) (hawake : ∀ t, phase ≠ .asleep t)
    (hpending : d.phase.pending = false) (hreleases : phase.releases = d.phase.releases)
    : Moved bl d bl { d with phase }
  | release (e : End) (hphase : d.phase = .ended e)
    : Moved bl d { bl with inflight := bl.inflight - d.size }
        { d with phase := .releasing e, releases := d.releases + 1 }
  | broadcast (e : End) (hphase : d.phase = .releasing e)
    : Moved bl d { bl with cond := bl.cond.broadcast } { d with phase := .done e }

theorem moved_of_move (h : d.move bl a = some (bl', d')) : Moved bl d bl' d' := by
  unfold Delivery.move at h
  split at h
  next hphase =>
    cases h
    unfold Limiter.acquire
    split
    next hfull => exact .wait hphase hfull
    next hroom => exact .grant hphase hroom
  next ticket hphase =>
    have ⟨_, heq⟩ := Option.ite_none_right_eq_some.mp h
    cases heq
    apply Moved.goOn
    all_goals simp [Delivery.held, hphase, Phase.pending, Phase.releases]
  next hphase =>
    cases h
    apply Moved.goOn
    all_goals simp [Delivery.held, hphase, Phase.pending, Phase.releases]
  next e hphase =>
    cases h
    apply Moved.goOn
    all_goals simp [Delivery.held, hphase, Phase.pending, Phase.releases]
  next e hphase =>
    cases h
    exact .release e hphase
  next e hphase =>
    cases h
    exact .broadcast e hphase
  next => contradiction

def Delivery.Waits (bl : Limiter) (ds : List Delivery) (d : Delivery) : Prop :=
  ∀ t, d.phase = .asleep t → t < bl.cond.wait
    ∧ (bl.cond.woken t = true ∨ bl.fits d.size = false ∨ ∃ d' ∈ ds, d'.phase.pending = true)

structure Inv (limit : Int) (s : State) : Prop where
  pos : 0 < limit
  limit : s.bl.limit = limit
  inflight : s.bl.inflight = held s.deliveries
  cap : s.bl.inflight ≤ s.bl.limit ∨ ∃ d ∈ s.deliveries, d.held = held s.deliveries
  waits : ∀ d ∈ s.deliveries, d.Waits s.bl s.deliveries
  releases : ∀ d ∈ s.deliveries, d.releases = d.phase.releases

variable {limit : Int} {s s' : State}

theorem inv_receive (h : Inv limit s) (size : Nat)
    : Inv limit { s with deliveries := s.deliveries ++ [⟨size, .acquiring, 0⟩] } := by
  have hheld : held (s.deliveries ++ [⟨size, .acquiring, 0⟩]) = held s.deliveries := by
    simp [held, Delivery.held]
  refine ⟨h.pos, h.limit, by rw [hheld, h.inflight], ?_, ?_, ?_⟩
  . rw [hheld]
    exact h.cap.imp_right (fun ⟨d, hd, heq⟩ => ⟨d, mem_append_left _ hd, heq⟩)
  . intro d hd t ht
    cases mem_append.mp hd with
    | inl hd =>
      have ⟨hlt, hwoken⟩ := h.waits d hd t ht
      refine ⟨hlt, hwoken.imp_right (Or.imp_right ?_)⟩
      exact fun ⟨d', hd', hpending⟩ => ⟨d', mem_append_left _ hd', hpending⟩
    | inr hd =>
      cases mem_singleton.mp hd
      contradiction
  . intro d hd
    cases mem_append.mp hd with
    | inl hd => apply h.releases d hd
    | inr hd => cases mem_singleton.mp hd; rfl

theorem mem_set_of_ne {x : Delivery} (hi : ds[i]? = some d) (hx : x ∈ ds) (hne : x ≠ d)
    (d' : Delivery) : x ∈ ds.set i d' := by
  have ⟨j, hj⟩ := mem_iff_getElem?.mp hx
  apply mem_of_getElem? (i := j)
  rw [getElem?_set_ne _, hj]
  intro hij
  rw [hij, hj] at hi
  cases hi
  contradiction

theorem Moved.held (h : Moved bl d bl' d')
    : bl'.limit = bl.limit ∧ bl'.inflight + d.held = bl.inflight + d'.held
        ∧ (d'.held = d.held ∨ d'.held = 0
          ∨ (bl.inflight ≤ 0 ∨ bl'.inflight ≤ bl.limit) ∧ d.held = 0) := by
  cases h with
  | wait hphase hfull | release e hphase | broadcast e hphase => simp [Delivery.held, hphase]
  | grant hphase hroom =>
    refine ⟨rfl, by simp [Delivery.held, hphase], .inr (.inr ⟨?_, by simp [Delivery.held, hphase]⟩)⟩
    dsimp only
    omega
  | goOn phase hheld => simp [hheld]

theorem cap_of_moved (h : Inv limit s) (hi : s.deliveries[i]? = some d) (hmoved : Moved s.bl d bl' d')
    : bl'.inflight = held (s.deliveries.set i d')
        ∧ (bl'.inflight ≤ bl'.limit
          ∨ ∃ x ∈ s.deliveries.set i d', x.held = held (s.deliveries.set i d')) := by
  have ⟨hlimit, hheld, hkind⟩ := hmoved.held
  have hset := held_set hi d'
  have hpos := h.pos
  have hold := h.limit
  have hinflight := h.inflight
  have hself := mem_of_getElem? (Procs.getElem?_set_of_eq_some hi d')
  have hsum : bl'.inflight = held (s.deliveries.set i d') := by omega
  refine ⟨hsum, ?_⟩
  rcases hkind with hsame | hnone | ⟨hroom, hd⟩
  . cases h.cap with
    | inl hle => left; omega
    | inr hex =>
      have ⟨x, hx, heq⟩ := hex
      right
      by_cases hxd : x = d
      . exact ⟨d', hself, by rw [hxd] at heq; omega⟩
      . exact ⟨x, mem_set_of_ne hi hx hxd d', by omega⟩
  . cases h.cap with
    | inl hle => left; omega
    | inr hex =>
      have ⟨x, hx, heq⟩ := hex
      by_cases hxd : x = d
      . left
        rw [hxd] at heq
        omega
      . right
        have hmem := mem_set_of_ne hi hx hxd d'
        have hle := held_le hmem
        exact ⟨x, hmem, by omega⟩
  . cases hroom with
    | inl hempty => exact .inr ⟨d', hself, by omega⟩
    | inr hle => left; omega

theorem Delivery.Waits.move {x : Delivery} (h : x.Waits bl ds) (hi : ds[i]? = some d)
    (hpending : d.phase.pending = false) (hwait : bl.cond.wait ≤ bl'.cond.wait)
    (hnotify : bl'.cond.notify = bl.cond.notify)
    (hfits : bl.fits x.size = false → bl'.fits x.size = false) : x.Waits bl' (ds.set i d') := by
  intro t ht
  have ⟨hlt, hwoken⟩ := h t ht
  refine ⟨by omega, ?_⟩
  rcases hwoken with hwoken | hfull | ⟨y, hy, hpend⟩
  . left
    unfold Cond.woken at hwoken ⊢
    rw [hnotify, hwoken]
  . exact .inr (.inl (hfits hfull))
  . have hne : y ≠ d := by
      intro heq
      rw [heq, hpending] at hpend
      contradiction
    exact .inr (.inr ⟨y, mem_set_of_ne hi hy hne d', hpend⟩)

theorem waits_of_moved (h : Inv limit s) (hi : s.deliveries[i]? = some d) (hmoved : Moved s.bl d bl' d')
    {x : Delivery} (hx : x ∈ s.deliveries.set i d')
    : x.Waits bl' (s.deliveries.set i d') := by
  have hold := h.waits x
  have hinflight := h.inflight
  cases hmoved with
  | wait hphase hfull =>
    have hd : d.phase.pending = false := by rw [hphase]; rfl
    cases mem_or_eq_of_mem_set hx with
    | inl hx => exact (hold hx).move hi hd (Nat.le_succ _) rfl id
    | inr hx =>
      subst hx
      intro t ht
      cases ht
      refine ⟨Nat.lt_succ_self _, .inr (.inl ?_)⟩
      simp only [Limiter.fits, decide_eq_false_iff_not]
      omega
  | grant hphase hroom =>
    have hd : d.phase.pending = false := by rw [hphase]; rfl
    cases mem_or_eq_of_mem_set hx with
    | inl hx =>
      refine (hold hx).move hi hd (Nat.le_refl _) rfl ?_
      simp only [Limiter.fits, decide_eq_false_iff_not]
      omega
    | inr hx => subst hx; nofun
  | goOn phase _ hawake hd =>
    cases mem_or_eq_of_mem_set hx with
    | inl hx => exact (hold hx).move hi hd (Nat.le_refl _) rfl id
    | inr hx => subst hx; exact fun t ht => absurd ht (hawake t)
  | release e hphase =>
    have hself := mem_of_getElem? (Procs.getElem?_set_of_eq_some hi
      { d with phase := .releasing e, releases := d.releases + 1 })
    cases mem_or_eq_of_mem_set hx with
    | inl hx => exact fun t ht => ⟨(hold hx t ht).1, .inr (.inr ⟨_, hself, rfl⟩)⟩
    | inr hx => subst hx; nofun
  | broadcast e hphase =>
    cases mem_or_eq_of_mem_set hx with
    | inl hx =>
      intro t ht
      have hlt := (hold hx t ht).1
      exact ⟨hlt, .inl (Cond.woken_broadcast hlt)⟩
    | inr hx => subst hx; nofun

theorem inv_step {a : Action} (h : Inv limit s) (hstep : s.step a = some s') : Inv limit s' := by
  cases a with
  | receive size =>
    cases hstep
    apply inv_receive h
  | move i a =>
    unfold step at hstep
    dsimp only at hstep
    split at hstep
    next => contradiction
    next d hi =>
      have ⟨⟨bl', d'⟩, hmove, heq⟩ := Option.map_eq_some_iff.mp hstep
      cases heq
      have hmoved := moved_of_move hmove
      have ⟨hinflight, hcap⟩ := cap_of_moved h hi hmoved
      refine ⟨h.pos, hmoved.held.1.trans h.limit, hinflight, hcap, fun x => waits_of_moved h hi hmoved, ?_⟩
      intro x hx
      cases mem_or_eq_of_mem_set hx with
      | inl hx => apply h.releases x hx
      | inr hx =>
        have hreleases := h.releases d (mem_of_getElem? hi)
        subst hx
        cases hmoved with
        | goOn phase _ _ _ hsame => rw [hreleases, hsame]
        | _ => simp [Phase.releases, *]

theorem step_move (hi : s.deliveries[i]? = some d) (hmove : d.move s.bl a = some (bl', d'))
    : s.step (.move i a) = some ⟨bl', s.deliveries.set i d'⟩ := by
  simp [step, hi, hmove]

theorem release_of_ended {e : End} (bl : Limiter) (hphase : d.phase = .ended e)
    : d.move bl .release = some ({ bl with inflight := bl.inflight - d.size },
        { d with phase := .releasing e, releases := d.releases + 1 }) := by
  simp [Delivery.move, hphase]

theorem broadcast_of_releasing {e : End} (bl : Limiter) (hphase : d.phase = .releasing e)
    : d.move bl .broadcast
        = some ({ bl with cond := bl.cond.broadcast }, { d with phase := .done e }) := by
  simp [Delivery.move, hphase]

structure Capped (s : State) : Prop where
  inflight : s.bl.inflight = held s.deliveries
  nonneg : 0 ≤ s.bl.inflight
  cap : s.bl.inflight ≤ s.bl.limit
    ∨ ∃ d, s.deliveries.filter (·.held ≠ 0) = [d] ∧ s.bl.limit < d.held
  -- a sleeper whose bytes fit is woken, or a broadcast that wakes it is still to come
  awake : ∀ d ∈ s.deliveries, ∀ t, d.phase = .asleep t → s.bl.fits d.size = true →
    s.bl.cond.woken t = true ∨ ∃ d' ∈ s.deliveries, d'.phase.pending = true
  releases : ∀ d ∈ s.deliveries, d.releases ≤ 1 ∧ ∀ e, d.phase = .done e → d.releases = 1
  released : ∀ i d e, s.deliveries[i]? = some d → d.phase = .ended e →
    ∃ s', Run.run step s [.move i .release, .move i .broadcast] = some s'
      ∧ s'.deliveries[i]? = some { d with phase := .done e, releases := 1 }

theorem Inv.capped (h : Inv limit s) : Capped s := by
  have hinflight := h.inflight
  have hpos := h.pos
  have hlimit := h.limit
  refine ⟨hinflight, by omega, ?_, ?_, ?_, ?_⟩
  . by_cases hle : s.bl.inflight ≤ s.bl.limit
    . exact .inl hle
    . right
      have ⟨d, hd, heq⟩ := h.cap.resolve_left hle
      exact ⟨d, filter_held hd heq (by omega), by omega⟩
  . intro d hd t ht hfits
    rcases (h.waits d hd t ht).2 with hwoken | hfull | hpending
    . exact .inl hwoken
    . rw [hfull] at hfits
      contradiction
    . exact .inr hpending
  . intro d hd
    rw [h.releases d hd]
    refine ⟨?_, fun e hphase => by rw [hphase]; rfl⟩
    cases d.phase with
    | _ => simp [Phase.releases]
  . intro i d e hi hphase
    have hreleases := h.releases d (mem_of_getElem? hi)
    rw [hphase] at hreleases
    have hrelease := step_move hi (release_of_ended s.bl hphase)
    have hset := Procs.getElem?_set_of_eq_some hi
      { d with phase := .releasing e, releases := d.releases + 1 }
    have hbroadcast := step_move (s := ⟨{ s.bl with inflight := s.bl.inflight - d.size }, _⟩) hset
      (broadcast_of_releasing _ rfl)
    refine ⟨_, (Run.run_cons_of_step _ hrelease).trans (Run.run_singleton_of_step hbroadcast), ?_⟩
    rw [Procs.getElem?_set_of_eq_some hset, hreleases]
    rfl

theorem capped_of_run (limit : Int) (bl : Limiter) (hnew : newByteLimiter limit = some bl)
    (as : List Action) (s : State) (hrun : Run.run step ⟨bl, []⟩ as = some s)
    : Capped s ∧ s.bl.limit = limit := by
  have hinit : Inv limit ⟨bl, []⟩ := by
    unfold newByteLimiter at hnew
    split at hnew
    next => contradiction
    next hpos =>
      cases hnew
      exact ⟨by omega, rfl, rfl, .inl (by dsimp only; omega), nofun, nofun⟩
  have h := Run.inv_of_steps (fun _ _ _ => inv_step) hinit hrun
  exact ⟨h.capped, h.limit⟩

def oversizeRun : List Action :=
  [.receive 3, .move 0 .acquire, .receive 9, .move 1 .acquire, .move 0 .launch,
    .move 0 (.finish .panicked), .move 0 .release, .move 0 .broadcast, .move 1 .wake,
    .move 1 .acquire]

theorem capped_of_run_oversizeRun
    : ∃ s, Run.run step ⟨⟨5, 0, .make⟩, []⟩ oversizeRun = some s ∧ Capped s
        ∧ s.bl.inflight = 9 := by
  have hfinal : (Run.run step ⟨⟨5, 0, .make⟩, []⟩ oversizeRun).map (·.bl.inflight)
      = some 9 := by decide
  have ⟨s, hrun, hs⟩ := Option.map_eq_some_iff.mp hfinal
  exact ⟨s, hrun, (capped_of_run 5 _ rfl oversizeRun s hrun).1, hs⟩

end ByteLimiter
