import Warren.Base.Run
import Warren.Errors.Paths
import Warren.Topology.Redeclare.Impl

/-!
At most one redeclare is in flight.
-/

namespace Topology.Redeclare

def Phase.owns : Phase → Option Nat
  | .snapshotting wait | .declaring wait _ | .finishing wait _ => some wait
  | _ => none

namespace State

def ReturnsAfter (s : State) (c : Call) (failed : Nat) : Result → Prop
  | .coalesced run => failed < run ∧ s.outcome run = some none
  | .ran run err => failed < run ∧ s.outcome run = some err
  | .ctx => c.ctxDone = true

structure SingleFlight (s : State) : Prop where
  unique : ∀ i j v w, (s.calls i).phase.owns = some v → (s.calls j).phase.owns = some w → i = j
  inFlight : ∀ w, s.topoRedeclareWait = some w ↔ ∃ i, (s.calls i).phase.owns = some w
  ended : ∀ w, s.waitClosed w = true ↔ (s.outcome w).isSome
  running : ∀ w, s.topoRedeclareWait = some w → s.outcome w = none
  failed : ∀ i w err r, w ∈ (s.calls i).waited → s.outcome w = some (some err) →
    (s.calls i).phase = .returned r → s.ReturnsAfter (s.calls i) w r

def Justified (s : State) (c : Call) : Result → Prop
  | .coalesced run => s.outcome run = some none ∧ ∀ w ∈ c.waited, w ≤ run
  | .ran run err => s.outcome run = some err ∧ ∀ w ∈ c.waited, w < run
  | .ctx => c.ctxDone = true

structure Sound (s : State) (c : Call) : Prop where
  waited : ∀ w ∈ c.waited, w < s.nextWait ∧ ∀ last, s.topoLastDeclare = some last → last.run < w →
    topoRedeclareCoalesceWindow ≤ s.now - last.time
  owns : ∀ v, c.phase.owns = some v → s.topoRedeclareWait = some v ∧ ∀ w ∈ c.waited, w < v
  result : ∀ r, c.phase = .returned r → s.Justified c r

structure Inv (s : State) : Prop where
  calls : ∀ i, s.Sound (s.calls i)
  idle : ∀ i, s.nextCall ≤ i → (s.calls i).phase = .idle
  owner : ∀ w, s.topoRedeclareWait = some w → ∃ i, (s.calls i).phase.owns = some w
  unique : ∀ i j v w, (s.calls i).phase.owns = some v → (s.calls j).phase.owns = some w → i = j
  latest : ∀ w, s.topoRedeclareWait = some w → w + 1 = s.nextWait ∧ s.outcome w = none
  closed : ∀ w, s.waitClosed w = true ↔ (s.outcome w).isSome
  fresh : ∀ w, s.nextWait ≤ w → s.outcome w = none
  last : ∀ last, s.topoLastDeclare = some last →
    s.outcome last.run = some none ∧ last.run < s.nextWait

variable {s : State} {i : Nat}

theorem inv_init : init.Inv := by
  constructor
  . intro i
    constructor <;> simp [init, Phase.owns]
  all_goals simp [init, Phase.owns]

theorem Inv.setCall (h : s.Inv) {c : Call} (hidle : s.nextCall ≤ i → c.phase = .idle)
    (howns : c.phase.owns = (s.calls i).phase.owns) (hc : s.Sound c) : (s.setCall i c).Inv := by
  have owns (j : Nat) : ((s.setCall i c).calls j).phase.owns = (s.calls j).phase.owns := by
    by_cases hj : j = i
    . simp [State.setCall, hj, howns]
    . simp [State.setCall, hj]
  constructor
  . intro j
    by_cases hj : j = i
    . subst hj
      simpa [State.setCall] using ⟨hc.waited, hc.owns, hc.result⟩
    . simpa [State.setCall, hj] using
        ⟨(h.calls j).waited, (h.calls j).owns, (h.calls j).result⟩
  . intro j hj
    by_cases hne : j = i
    . subst hne
      simpa [State.setCall] using hidle hj
    . simpa [State.setCall, hne] using h.idle j hj
  . simp only [owns]
    exact h.owner
  . simp only [owns]
    exact h.unique
  . exact h.latest
  . exact h.closed
  . exact h.fresh
  . exact h.last

theorem recent_eq_some {run : Nat} (h : s.recent = some run)
    : ∃ last, s.topoLastDeclare = some last ∧ last.run = run ∧
        s.now - last.time < topoRedeclareCoalesceWindow := by
  unfold recent at h
  split at h
  . contradiction
  . next last hlast =>
    split at h
    . next hlt =>
      cases h
      exact ⟨last, hlast, rfl, hlt⟩
    . contradiction

theorem recent_eq_none (h : s.recent = none) {last : LastDeclare}
    (hlast : s.topoLastDeclare = some last) : topoRedeclareCoalesceWindow ≤ s.now - last.time := by
  simpa [recent, hlast] using h

theorem Sound.goto {c : Call} {p : Phase} (h : s.Sound c) (howns : p.owns = c.phase.owns)
    (hreturned : ∀ r, p = .returned r → s.Justified c r) : s.Sound { c with phase := p } := by
  refine ⟨h.waited, ?_, fun r hr => ?_⟩
  . intro v hv
    exact h.owns v (howns ▸ hv)
  . have := hreturned r hr
    cases r <;> exact this

theorem Inv.goto (h : s.Inv) {p : Phase} (hi : i < s.nextCall)
    (howns : p.owns = (s.calls i).phase.owns)
    (hreturned : ∀ r, p = .returned r → s.Justified (s.calls i) r) : (s.goto i p).Inv :=
  h.setCall (fun hle => absurd hi (Nat.not_lt.mpr hle)) howns ((h.calls i).goto howns hreturned)

theorem Inv.lt_nextCall (h : s.Inv) (hi : (s.calls i).phase ≠ .idle) : i < s.nextCall := by
  by_contra hle
  exact hi (h.idle i (Nat.le_of_not_lt hle))

theorem Inv.startRun (h : s.Inv) (hi : i < s.nextCall) (hwait : s.topoRedeclareWait = none)
    : (s.startRun i).Inv := by
  have none_owns (j v : Nat) : (s.calls j).phase.owns ≠ some v := by
    intro hj
    simp [((h.calls j).owns v hj).1] at hwait
  have other {j : Nat} (hj : j ≠ i) : (s.startRun i).calls j = s.calls j := by
    simp [State.startRun, State.goto, State.setCall, hj]
  have self : (s.startRun i).calls i =
      { s.calls i with phase := .snapshotting s.nextWait } := by
    simp [State.startRun, State.goto, State.setCall]
  have waited (j w : Nat) (hw : w ∈ (s.calls j).waited) :=
    ((h.calls j).waited w hw).imp_left (Nat.lt_succ_of_lt ·)
  constructor
  . intro j
    by_cases hj : j = i
    . subst hj
      rw [self]
      refine ⟨waited j, ?_, nofun⟩
      rintro v ⟨⟩
      exact ⟨rfl, fun w hw => ((h.calls j).waited w hw).1⟩
    . rw [other hj]
      refine ⟨waited j, fun v hv => absurd hv (none_owns j v), fun r hr => ?_⟩
      have := (h.calls j).result r hr
      cases r <;> exact this
  . intro j hj
    have hne : j ≠ i := Nat.ne_of_gt (Nat.lt_of_lt_of_le hi hj)
    rw [other hne]
    exact h.idle j hj
  . rintro w ⟨⟩
    exact ⟨i, by rw [self]; rfl⟩
  . have only (j v : Nat) (hj : ((s.startRun i).calls j).phase.owns = some v) : j = i := by
      by_contra hne
      rw [other hne] at hj
      exact none_owns j v hj
    intro j k v w hj hk
    rw [only j v hj, only k w hk]
  . rintro w ⟨⟩
    exact ⟨rfl, h.fresh _ (Nat.le_refl _)⟩
  . exact h.closed
  . intro w hw
    exact h.fresh w (Nat.le_of_lt hw)
  . intro last hlast
    exact (h.last last hlast).imp_right (Nat.lt_succ_of_lt ·)

theorem Inv.lock (h : s.Inv) (hi : (s.calls i).phase = .locking) : (s.lock i).Inv := by
  have hlt : i < s.nextCall := h.lt_nextCall (by simp [hi])
  have howns : (s.calls i).phase.owns = none := by simp [hi, Phase.owns]
  unfold State.lock
  split
  . next run hrecent =>
    have ⟨last, hlast, hrun, hyoung⟩ := recent_eq_some hrecent
    refine h.goto hlt howns.symm ?_
    rintro r ⟨⟩
    refine ⟨hrun ▸ (h.last last hlast).1, fun w hw => ?_⟩
    by_contra hlt
    have := ((h.calls i).waited w hw).2 last hlast (by omega)
    omega
  . next wait hrecent hwait =>
    refine h.setCall (fun hle => absurd hlt (Nat.not_lt.mpr hle)) howns.symm ⟨?_, nofun, nofun⟩
    intro w hw
    cases List.mem_append.mp hw with
    | inl hold => exact (h.calls i).waited w hold
    | inr hnew =>
      rw [List.mem_singleton.mp hnew]
      refine ⟨?_, fun last hlast _ => recent_eq_none hrecent hlast⟩
      have := (h.latest wait hwait).1
      omega
  . next hrecent hwait => exact h.startRun hlt hwait

theorem Inv.finish (h : s.Inv) {wait : Nat} {err : Option Err}
    (hi : (s.calls i).phase = .finishing wait err) : (s.finish i wait err).Inv := by
  have hlt : i < s.nextCall := h.lt_nextCall (by simp [hi])
  have howns : (s.calls i).phase.owns = some wait := by simp [hi, Phase.owns]
  have ⟨hwait, hwaited⟩ := (h.calls i).owns wait howns
  have ⟨hnext, hrunning⟩ := h.latest wait hwait
  have outcome_self : (s.finish i wait err).outcome wait = some err := by
    simp [State.finish]
  have outcome_other {w : Nat} (hw : w ≠ wait) : (s.finish i wait err).outcome w = s.outcome w := by
    simp [State.finish, hw]
  have outcome_keeps {w : Nat} {e : Option Err} (hw : s.outcome w = some e)
      : (s.finish i wait err).outcome w = some e := by
    rw [outcome_other, hw]
    rintro rfl
    simp [hrunning] at hw
  have other {j : Nat} (hj : j ≠ i) : (s.finish i wait err).calls j = s.calls j := by
    simp [State.finish, State.goto, State.setCall, hj]
  have self : (s.finish i wait err).calls i =
      { s.calls i with phase := .returned (.ran wait err) } := by
    simp [State.finish, State.goto, State.setCall]
  have none_owns (j v : Nat) : ((s.finish i wait err).calls j).phase.owns ≠ some v := by
    intro hj
    by_cases hne : j = i
    . rw [hne, self] at hj
      contradiction
    . rw [other hne] at hj
      exact hne (h.unique j i v wait hj howns)
  have last_cases (last : LastDeclare) (hlast : (s.finish i wait err).topoLastDeclare = some last)
      : s.topoLastDeclare = some last ∨ (err = none ∧ last = ⟨s.now, wait⟩) := by
    simp only [State.finish] at hlast
    split at hlast
    . next herr =>
      cases hlast
      exact .inr ⟨herr, rfl⟩
    . exact .inl hlast
  -- no run is later than the one that ends, so nobody has waited for one
  have waited (j w : Nat) (hw : w ∈ (s.calls j).waited)
      : w < s.nextWait ∧ ∀ last, (s.finish i wait err).topoLastDeclare = some last → last.run < w →
        topoRedeclareCoalesceWindow ≤ s.now - last.time := by
    have hold := (h.calls j).waited w hw
    refine ⟨hold.1, fun last hlast hlater => ?_⟩
    cases last_cases last hlast with
    | inl hsame => exact hold.2 last hsame hlater
    | inr hnew =>
      rw [hnew.2] at hlater
      have := hold.1
      have : wait < w := hlater
      omega
  constructor
  . intro j
    by_cases hj : j = i
    . subst hj
      rw [self]
      refine ⟨waited j, nofun, ?_⟩
      rintro r ⟨⟩
      exact ⟨outcome_self, hwaited⟩
    . refine ⟨other hj ▸ waited j, fun v hv => absurd hv (none_owns j v), fun r hr => ?_⟩
      rw [other hj] at hr ⊢
      have := (h.calls j).result r hr
      cases r with
      | coalesced run | ran run err' => exact this.imp_left outcome_keeps
      | ctx => exact this
  . intro j hj
    have hne : j ≠ i := Nat.ne_of_gt (Nat.lt_of_lt_of_le hlt hj)
    rw [other hne]
    exact h.idle j hj
  . nofun
  . intro j k v w hj
    exact absurd hj (none_owns j v)
  . nofun
  . intro w
    by_cases hw : w = wait
    . subst hw
      simp [State.finish]
    . rw [outcome_other hw]
      simpa [State.finish, hw] using h.closed w
  . intro w hw
    have hne : w ≠ wait := by
      have : s.nextWait ≤ w := hw
      omega
    rw [outcome_other hne]
    exact h.fresh w hw
  . intro last hlast
    cases last_cases last hlast with
    | inl hsame => exact (h.last last hsame).imp_left outcome_keeps
    | inr hnew =>
      rw [hnew.2]
      refine ⟨?_, ?_⟩
      . simpa [hnew.1] using outcome_self
      . show wait < s.nextWait
        omega

theorem Inv.declare (h : s.Inv) {wait : Nat} {rest : List (Nat × Nat)} (err : Option Err)
    (hi : (s.calls i).phase = .declaring wait rest) : (s.declare i wait rest err).Inv := by
  have hlt : i < s.nextCall := h.lt_nextCall (by simp [hi])
  have hgoto {p : Phase} (hp : p.owns = some wait) (hr : ∀ r, p ≠ .returned r) : (s.goto i p).Inv :=
    h.goto hlt (by rw [hp, hi]; rfl) (fun r h => absurd h (hr r))
  cases rest with
  | nil => exact hgoto rfl nofun
  | cons p rest =>
    simp only [State.declare]
    split
    . exact hgoto rfl nofun
    . split
      . exact hgoto rfl nofun
      . have := hgoto (p := .declaring wait rest) rfl nofun
        exact ⟨fun j => ⟨(this.calls j).waited, (this.calls j).owns, (this.calls j).result⟩,
          this.idle, this.owner, this.unique, this.latest, this.closed, this.fresh, this.last⟩

theorem inv_callStep {s' : State} {a : CallAction} (h : s.Inv) (hstep : s.callStep i a = some s')
    : s'.Inv := by
  have hlt (hi : (s.calls i).phase ≠ .idle) : i < s.nextCall := h.lt_nextCall hi
  unfold callStep at hstep
  split at hstep
  . next hi =>
    cases hstep
    exact h.lock hi
  . next wait hi =>
    split at hstep
    . cases hstep
      exact h.goto (hlt (by simp [hi])) (by simp [hi, Phase.owns]) nofun
    . contradiction
  . next wait hi =>
    split at hstep
    . next hctx =>
      cases hstep
      refine h.goto (hlt (by simp [hi])) (by simp [hi, Phase.owns]) ?_
      rintro r ⟨⟩
      exact hctx
    . contradiction
  . next wait hi =>
    cases hstep
    exact h.goto (hlt (by simp [hi])) (by simp [hi, Phase.owns]) nofun
  . next hi =>
    cases hstep
    exact h.declare _ hi
  . next hi =>
    cases hstep
    exact h.finish hi
  . contradiction

theorem Inv.enter (h : s.Inv) (mc : Nat) : (s.enter mc).Inv := by
  have hidle := h.idle s.nextCall (Nat.le_refl _)
  have hnext : Inv { s with nextCall := s.nextCall + 1 } :=
    ⟨fun j => ⟨(h.calls j).waited, (h.calls j).owns, (h.calls j).result⟩,
      fun j hj => h.idle j (Nat.le_of_succ_le hj), h.owner, h.unique, h.latest, h.closed, h.fresh,
      h.last⟩
  refine hnext.setCall (i := s.nextCall)
    (c := ⟨false, .locking, [], s.lossOf mc, s.registry.registered⟩) ?_
    (by simp [hidle, Phase.owns]) ⟨by simp, nofun, nofun⟩
  intro hle
  exact absurd hle (Nat.not_succ_le_self _)

theorem Inv.frame (h : s.Inv) {now losses : Nat} {registry : Registry} {lossOf : Nat → Nat}
    (hnow : s.now ≤ now) : Inv { s with now, losses, registry, lossOf } := by
  refine ⟨fun j => ⟨?_, (h.calls j).owns, (h.calls j).result⟩, h.idle, h.owner, h.unique, h.latest,
    h.closed, h.fresh, h.last⟩
  intro w hw
  refine ⟨((h.calls j).waited w hw).1, fun last hlast hlater => ?_⟩
  have := ((h.calls j).waited w hw).2 last hlast hlater
  show topoRedeclareCoalesceWindow ≤ now - last.time
  omega

theorem inv_step (s : State) (a : Action) (s' : State) (h : s.Inv) (hstep : s.step a = some s')
    : s'.Inv := by
  cases a with
  | attachTo t snapshot | lose mc =>
    cases hstep
    exact h.frame (Nat.le_refl _)
  | enter mc =>
    cases hstep
    exact h.enter mc
  | call i a => exact inv_callStep h hstep
  | cancel i =>
    cases hstep
    refine h.setCall (h.idle i) rfl ⟨(h.calls i).waited, (h.calls i).owns, fun r hr => ?_⟩
    have := (h.calls i).result r hr
    cases r with
    | ctx => rfl
    | _ => exact this
  | advance ms =>
    cases hstep
    exact h.frame (Nat.le_add_right ..)

theorem Inv.singleFlight (h : s.Inv) : s.SingleFlight where
  unique := h.unique
  inFlight := by
    intro w
    refine ⟨h.owner w, ?_⟩
    rintro ⟨i, hi⟩
    exact ((h.calls i).owns w hi).1
  ended := h.closed
  running := fun w hw => (h.latest w hw).2
  failed := by
    intro i w err r hw hfailed hr
    have := (h.calls i).result r hr
    cases r with
    | coalesced run =>
      refine ⟨?_, this.1⟩
      apply Nat.lt_of_le_of_ne (this.2 w hw)
      rintro rfl
      simp [this.1] at hfailed
    | ran run err' => exact ⟨this.2 w hw, this.1⟩
    | ctx => exact this

end State

theorem singleFlight_of_run (as : List Action) (s : State)
    (hrun : Run.run State.step .init as = some s) : s.SingleFlight := by
  have h := Run.inv_of_steps State.inv_step State.inv_init hrun
  exact h.singleFlight

def failedRun : List Action :=
  [.attachTo 7 (some 1), .lose 0, .lose 1, .enter 0, .enter 1, .call 0 .lock, .call 1 .lock,
    .call 0 .snapshot, .call 0 (.declare (some .openChannel)), .call 0 .finish, .call 1 .waitClosed,
    .call 1 .lock, .call 1 .snapshot, .call 1 (.declare none), .call 1 (.declare none),
    .call 1 .finish]

theorem singleFlight_of_run_failedRun
    : ∃ s, Run.run State.step .init failedRun = some s ∧ s.outcome 0 = some (some .openChannel) ∧
        (s.calls 1).waited = [0] ∧ (s.calls 1).phase = .returned (.ran 1 none) ∧
        s.SingleFlight := by
  have ⟨s, hs, h⟩ := Option.map_eq_some_iff.mp (by decide :
    (Run.run State.step .init failedRun).map
      (fun s => (s.outcome 0, (s.calls 1).waited, (s.calls 1).phase)) =
    some (some (some .openChannel), [0], .returned (.ran 1 none)))
  simp only [Prod.mk.injEq] at h
  exact ⟨s, hs, h.1, h.2.1, h.2.2, singleFlight_of_run failedRun s hs⟩

/-!
The rounds of a run that is not cancelled, as `Errors.runTopologyRedeclare` has them.
-/

def answer (r : Errors.Redeclare) : Option Err :=
  match Errors.openChannel r.channel, Errors.declareOnChannel r.replies with
  | some _, _ => some .openChannel
  | none, some _ => some .declare
  | none, none => none

def rounds (i : Nat) : List Errors.Redeclare → List Action
  | [] => [.call i (.declare none)]
  | r :: rs => .call i (.declare (answer r)) :: if answer r = none then rounds i rs else []

theorem answer_eq_none_iff {r : Errors.Redeclare} (hctx : r.ctxErr = none)
    : answer r = none ↔ r.run = none := by
  simp only [answer, Errors.Redeclare.run, hctx, Option.map_none, Option.none_or,
    Option.or_eq_none_iff]
  split <;> simp_all

theorem findSome?_answer_eq_none_iff {rs : List Errors.Redeclare} (hctx : ∀ r ∈ rs, r.ctxErr = none)
    : rs.findSome? answer = none ↔ Errors.runTopologyRedeclare rs = none := by
  simp only [Errors.runTopologyRedeclare, List.findSome?_eq_none_iff]
  exact forall₂_congr fun r hr => answer_eq_none_iff (hctx r hr)

theorem run_rounds {s : State} {i wait : Nat} {rest : List (Nat × Nat)} {rs : List Errors.Redeclare}
    (hlength : rs.length = rest.length) (hphase : (s.calls i).phase = .declaring wait rest)
    (hdone : (s.calls i).ctxDone = false)
    : ∃ s', Run.run State.step s (rounds i rs) = some s' ∧
        (s'.calls i).phase = .finishing wait (rs.findSome? answer) := by
  have hstep (err : Option Err)
      : s.step (.call i (.declare err)) = some (s.declare i wait rest err) := by
    simp [State.step, State.callStep, hphase]
  induction rs generalizing s rest with
  | nil =>
    cases List.length_eq_zero_iff.mp hlength.symm
    refine ⟨_, Run.run_singleton_of_step (hstep none), ?_⟩
    simp [State.declare, State.goto, State.setCall]
  | cons r rs ih =>
    cases rest with
    | nil => contradiction
    | cons p rest =>
      rw [rounds, Run.run_cons_of_step _ (hstep (answer r)), List.findSome?_cons]
      cases answer r with
      | some err =>
        refine ⟨_, rfl, ?_⟩
        simp [State.declare, hdone, State.goto, State.setCall]
      | none =>
        have hphase' : ((s.declare i wait (p :: rest) none).calls i).phase =
            .declaring wait rest := by
          simp [State.declare, hdone, State.goto, State.setCall]
        apply ih (Nat.succ.inj hlength) hphase'
        . simp [State.declare, hdone, State.goto, State.setCall]
        . simp [State.step, State.callStep, hphase']

end Topology.Redeclare
