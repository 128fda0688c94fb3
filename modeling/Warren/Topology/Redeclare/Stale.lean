import Warren.Topology.Redeclare.SingleFlight

/-!
When a barrier may rely on a redeclare that it has not run itself.
-/

namespace Topology.Redeclare

open List

def Phase.inside : Phase → Bool
  | .idle | .returned _ => false
  | _ => true

namespace State

-- every snapshot that the call found registered was declared by a run from after the loss
def Redeclared (s : State) (c : Call) : Prop :=
  ∀ p ∈ c.registered, ∃ run, (run, p) ∈ s.declared ∧ c.loss ≤ s.lossesBefore run

def NoneStale (s : State) : Prop :=
  ∀ i r, (s.calls i).phase = .returned r → r.err = none → s.Redeclared (s.calls i)

-- no run is in flight and none has succeeded within the coalesce window
def Quiet (s : State) : Prop :=
  s.topoRedeclareWait = none ∧ s.recent = none

-- sockets are lost and topologies are attached in quiet times, the latter not under a call
def ChangesQuietly (s : State) : Action → Prop
  | .lose _ => s.Quiet
  | .attachTo _ (some _) => s.Quiet ∧ ∀ i < s.nextCall, (s.calls i).phase.inside = false
  | _ => True

instance (s : State) (a : Action) : Decidable (s.ChangesQuietly a) := by
  unfold ChangesQuietly Quiet
  split <;> infer_instance

structure Served (s : State) (c : Call) : Prop where
  inside : c.phase.inside = true → c.registered = s.registry.registered ∧ c.loss ≤ s.losses
  owns : ∀ w, c.phase.owns = some w → s.lossesBefore w = s.losses
  declaring : ∀ w rest, c.phase = .declaring w rest →
    ∀ p ∈ s.registry.registered, p ∈ rest ∨ (w, p) ∈ s.declared
  finishing : ∀ w, c.phase = .finishing w none → ∀ p ∈ s.registry.registered, (w, p) ∈ s.declared
  returned : ∀ r, c.phase = .returned r → r.err = none → s.Redeclared c

structure Fresh (s : State) : Prop where
  calls : ∀ i, s.Served (s.calls i)
  lossOf : ∀ mc, s.lossOf mc ≤ s.losses
  declared : ∀ e ∈ s.declared, e.1 < s.nextWait
  recent : ∀ run, s.recent = some run →
    s.lossesBefore run = s.losses ∧ ∀ p ∈ s.registry.registered, (run, p) ∈ s.declared

variable {s : State} {i : Nat}

theorem fresh_init : init.Fresh := by
  constructor
  . intro i
    constructor <;> simp [init, Phase.inside, Phase.owns]
  all_goals simp [init, State.recent]

variable {c : Call}

theorem Fresh.setCall (h : s.Fresh) (hc : s.Served c) : (s.setCall i c).Fresh := by
  refine ⟨fun j => ?_, h.lossOf, h.declared, h.recent⟩
  by_cases hj : j = i
  . subst hj
    simpa [State.setCall] using ⟨hc.inside, hc.owns, hc.declaring, hc.finishing, hc.returned⟩
  . have hold := h.calls j
    simpa [State.setCall, hj] using
      ⟨hold.inside, hold.owns, hold.declaring, hold.finishing, hold.returned⟩

theorem Served.of_plain
    (hinside : c.phase.inside = true → c.registered = s.registry.registered ∧ c.loss ≤ s.losses)
    (howns : c.phase.owns = none) (hreturned : ∀ r, c.phase = .returned r → r.err ≠ none)
    : s.Served c := by
  constructor
  . exact hinside
  . simp [howns]
  . intro w rest hphase
    simp [hphase, Phase.owns] at howns
  . intro w hphase
    simp [hphase, Phase.owns] at howns
  . intro r hphase herr
    exact absurd herr (hreturned r hphase)

theorem Served.finishing_err (h : s.Served c) {w : Nat} (hinside : c.phase.inside = true)
    (howns : c.phase.owns = some w) (err : Err)
    : s.Served { c with phase := .finishing w (some err) } :=
  ⟨fun _ => h.inside hinside, fun v hv => by cases hv; exact h.owns w howns, nofun, nofun, nofun⟩

theorem Redeclared.of_recent {run : Nat} (hregistered : c.registered = s.registry.registered)
    (hloss : c.loss ≤ s.losses) (hrun : s.lossesBefore run = s.losses)
    (hdeclared : ∀ p ∈ s.registry.registered, (run, p) ∈ s.declared) : s.Redeclared c := by
  intro p hp
  exact ⟨run, hdeclared p (hregistered ▸ hp), hrun ▸ hloss⟩

theorem Fresh.startRun (h : s.Fresh) (hinv : s.Inv) (hi : (s.calls i).phase = .locking)
    (hwait : s.topoRedeclareWait = none) : (s.startRun i).Fresh := by
  have keeps {run : Nat} (hrun : run < s.nextWait)
      : (s.startRun i).lossesBefore run = s.lossesBefore run := by
    simp [State.startRun, Nat.ne_of_lt hrun]
  have none_owns (j v : Nat) : (s.calls j).phase.owns ≠ some v := by
    intro hj
    simp [((hinv.calls j).owns v hj).1] at hwait
  constructor
  . intro j
    have hold := h.calls j
    by_cases hj : j = i
    . subst hj
      have hinside := hold.inside (by simp [hi, Phase.inside])
      have self : (s.startRun j).calls j =
          { s.calls j with phase := .snapshotting s.nextWait } := by
        simp [State.startRun, State.goto, State.setCall]
      rw [self]
      refine ⟨fun _ => hinside, ?_, by rintro _ _ ⟨⟩, by rintro _ ⟨⟩, by rintro _ ⟨⟩⟩
      rintro w ⟨⟩
      simp [State.startRun, State.goto, State.setCall]
    . have other : (s.startRun i).calls j = s.calls j := by
        simp [State.startRun, State.goto, State.setCall, hj]
      rw [other]
      refine ⟨hold.inside, fun v hv => absurd hv (none_owns j v), hold.declaring, hold.finishing,
        ?_⟩
      intro r hr herr p hp
      obtain ⟨run, hrun, hloss⟩ := hold.returned r hr herr p hp
      exact ⟨run, hrun, by rwa [keeps (h.declared _ hrun)]⟩
  . exact h.lossOf
  . intro e he
    exact Nat.lt_succ_of_lt (h.declared e he)
  . intro run hrun
    obtain ⟨last, hlast, hlastRun, _⟩ := recent_eq_some (s := s) hrun
    have hlt := (hinv.last last hlast).2
    rw [keeps (hlastRun ▸ hlt)]
    exact h.recent run hrun

theorem Fresh.lock (h : s.Fresh) (hinv : s.Inv) (hi : (s.calls i).phase = .locking)
    : (s.lock i).Fresh := by
  have ⟨hregistered, hloss⟩ := (h.calls i).inside (by simp [hi, Phase.inside])
  unfold State.lock
  split
  . next run hrecent =>
    have ⟨hrun, hdeclared⟩ := h.recent run hrecent
    refine h.setCall ⟨nofun, nofun, nofun, nofun, ?_⟩
    intro r _ _
    exact Redeclared.of_recent hregistered hloss hrun hdeclared
  . exact h.setCall (.of_plain (fun _ => ⟨hregistered, hloss⟩) rfl nofun)
  . next hwait => exact h.startRun hinv hi hwait

theorem Fresh.concat (h : s.Fresh) {e : Nat × Nat × Nat} (he : e.1 < s.nextWait)
    : Fresh { s with declared := s.declared ++ [e] } := by
  have keeps {e' : Nat × Nat × Nat} (he' : e' ∈ s.declared) : e' ∈ s.declared ++ [e] :=
    mem_append_left _ he'
  constructor
  . intro j
    have hold := h.calls j
    refine ⟨hold.inside, hold.owns, ?_, ?_, ?_⟩
    . intro w rest hw p hp
      exact (hold.declaring w rest hw p hp).imp_right keeps
    . intro w hw p hp
      exact keeps (hold.finishing w hw p hp)
    . intro r hr herr p hp
      have ⟨run, hrun, hloss⟩ := hold.returned r hr herr p hp
      exact ⟨run, keeps hrun, hloss⟩
  . exact h.lossOf
  . intro e' he'
    cases mem_append.mp he' with
    | inl hold => exact h.declared e' hold
    | inr hnew => exact mem_singleton.mp hnew ▸ he
  . intro run hrun
    exact (h.recent run hrun).imp_right (fun hdeclared p hp => keeps (hdeclared p hp))

theorem Fresh.declare (h : s.Fresh) (hinv : s.Inv) {wait : Nat} {rest : List (Nat × Nat)}
    (err : Option Err) (hi : (s.calls i).phase = .declaring wait rest)
    : (s.declare i wait rest err).Fresh := by
  have hold := h.calls i
  have hinside : (s.calls i).phase.inside = true := by simp [hi, Phase.inside]
  have howns : (s.calls i).phase.owns = some wait := by simp [hi, Phase.owns]
  have hdeclaring := hold.declaring wait rest hi
  cases rest with
  | nil =>
    refine h.setCall ⟨fun _ => hold.inside hinside, ?_, by rintro _ _ ⟨⟩, ?_, by rintro _ ⟨⟩⟩
    . rintro w ⟨⟩
      exact hold.owns wait howns
    . rintro w ⟨⟩
      simpa using hdeclaring
  | cons p rest =>
    simp only [State.declare]
    split
    . exact h.setCall (hold.finishing_err hinside howns .ctx)
    . split
      . next err => exact h.setCall (hold.finishing_err hinside howns err)
      . have hlt : wait < s.nextWait := by
          have := (hinv.latest wait ((hinv.calls i).owns wait howns).1).1
          omega
        refine (h.concat (e := (wait, p)) hlt).setCall (i := i)
          (c := { s.calls i with phase := .declaring wait rest })
          ⟨fun _ => hold.inside hinside, ?_, ?_, by rintro _ ⟨⟩, by rintro _ ⟨⟩⟩
        . rintro w ⟨⟩
          exact hold.owns wait howns
        . rintro w rest' ⟨⟩ q hq
          have := hdeclaring q hq
          simp only [mem_cons] at this
          simp only [mem_append, mem_singleton, Prod.mk.injEq, true_and]
          tauto

theorem Fresh.finish (h : s.Fresh) {wait : Nat} {err : Option Err}
    (hi : (s.calls i).phase = .finishing wait err) : (s.finish i wait err).Fresh := by
  have hold := h.calls i
  obtain ⟨hregistered, hloss⟩ := hold.inside (by simp [hi, Phase.inside])
  have hrun := hold.owns wait (by simp [hi, Phase.owns])
  have hset : (s.goto i (.returned (.ran wait err))).Fresh := by
    refine h.setCall
      ⟨by rintro ⟨⟩, by rintro _ ⟨⟩, by rintro _ _ ⟨⟩, by rintro _ ⟨⟩, ?_⟩
    rintro r ⟨⟩ herr
    have hnone : err = none := herr
    exact Redeclared.of_recent hregistered hloss hrun (hold.finishing wait (hnone ▸ hi))
  refine ⟨fun j => ?_, hset.lossOf, hset.declared, ?_⟩
  . have := hset.calls j
    exact ⟨this.inside, this.owns, this.declaring, this.finishing, this.returned⟩
  . intro run hrecent
    cases err with
    | some err => exact h.recent run hrecent
    | none =>
      have hrunEq : wait = run := by
        simpa [State.finish, State.recent, State.goto, State.setCall,
          topoRedeclareCoalesceWindow] using hrecent
      subst hrunEq
      exact ⟨hrun, hold.finishing wait hi⟩

theorem fresh_callStep {s' : State} {a : CallAction} (h : s.Fresh) (hinv : s.Inv)
    (hstep : s.callStep i a = some s') : s'.Fresh := by
  have hold := h.calls i
  unfold callStep at hstep
  split at hstep
  . next hi =>
    cases hstep
    exact h.lock hinv hi
  . next wait hi =>
    split at hstep
    . cases hstep
      exact h.setCall (.of_plain (fun _ => hold.inside (by simp [hi, Phase.inside])) rfl nofun)
    . contradiction
  . split at hstep
    . cases hstep
      refine h.setCall (.of_plain nofun rfl ?_)
      rintro r ⟨⟩
      simp [Result.err]
    . contradiction
  . next wait hi =>
    cases hstep
    refine h.setCall ⟨fun _ => hold.inside (by simp [hi, Phase.inside]), ?_, ?_, nofun, nofun⟩
    . rintro w ⟨⟩
      exact hold.owns wait (by simp [hi, Phase.owns])
    . rintro w rest ⟨⟩ p hp
      exact .inl hp
  . next hi =>
    cases hstep
    exact h.declare hinv _ hi
  . next hi =>
    cases hstep
    exact h.finish hi
  . contradiction

theorem Fresh.lose (h : s.Fresh) (hinv : s.Inv) (hquiet : s.Quiet) (mc : Nat)
    : (s.lose mc).Fresh := by
  constructor
  . intro j
    have hold := h.calls j
    refine ⟨?_, ?_, hold.declaring, hold.finishing, hold.returned⟩
    . intro hinside
      exact (hold.inside hinside).imp_right (Nat.le_succ_of_le ·)
    . intro w hw
      simp [((hinv.calls j).owns w hw).1, Quiet] at hquiet
  . intro mc'
    have := h.lossOf mc'
    simp only [State.lose, Function.update_apply]
    split <;> omega
  . exact h.declared
  . intro run hrun
    have hnone : (s.lose mc).recent = none := hquiet.2
    simp [hnone] at hrun

theorem Fresh.attach (h : s.Fresh) (hinv : s.Inv) (hquiet : s.Quiet)
    (hinside : ∀ i < s.nextCall, (s.calls i).phase.inside = false) (registry : Registry)
    : Fresh { s with registry } := by
  have outside (j : Nat) : (s.calls j).phase.inside = false := by
    by_cases hj : j < s.nextCall
    . exact hinside j hj
    . rw [hinv.idle j (Nat.le_of_not_lt hj)]
      rfl
  refine ⟨fun j => ⟨?_, (h.calls j).owns, ?_, ?_, (h.calls j).returned⟩, h.lossOf, h.declared, ?_⟩
  . intro hj
    simp [outside j] at hj
  . intro w rest hphase
    have : Phase.inside (.declaring w rest) = false := hphase ▸ outside j
    contradiction
  . intro w hphase
    have : Phase.inside (.finishing w none) = false := hphase ▸ outside j
    contradiction
  . intro run hrun
    have hnone : State.recent { s with registry } = none := hquiet.2
    simp [hnone] at hrun

theorem Fresh.enter (h : s.Fresh) (mc : Nat) : (s.enter mc).Fresh := by
  have := h.setCall (i := s.nextCall)
    (c := ⟨false, .locking, [], s.lossOf mc, s.registry.registered⟩)
    (.of_plain (fun _ => ⟨rfl, h.lossOf mc⟩) rfl nofun)
  exact ⟨fun j => ⟨(this.calls j).inside, (this.calls j).owns, (this.calls j).declaring,
    (this.calls j).finishing, (this.calls j).returned⟩, this.lossOf, this.declared, this.recent⟩

theorem Fresh.advance (h : s.Fresh) (ms : Nat) : Fresh { s with now := s.now + ms } := by
  refine ⟨fun j => ⟨(h.calls j).inside, (h.calls j).owns, (h.calls j).declaring,
    (h.calls j).finishing, (h.calls j).returned⟩, h.lossOf, h.declared, ?_⟩
  intro run hrun
  have ⟨last, hlast, hlastRun, hyoung⟩ := recent_eq_some hrun
  apply h.recent run
  have : s.now - last.time < topoRedeclareCoalesceWindow := by
    have : s.now + ms - last.time < topoRedeclareCoalesceWindow := hyoung
    omega
  have hlast : s.topoLastDeclare = some last := hlast
  simp [State.recent, hlast, this, hlastRun]

theorem fresh_step (s : State) (a : Action) (s' : State) (h : s.Inv ∧ s.Fresh)
    (hquiet : s.ChangesQuietly a) (hstep : s.step a = some s') : s'.Inv ∧ s'.Fresh := by
  refine ⟨inv_step s a s' h.1 hstep, ?_⟩
  have ⟨hinv, h⟩ := h
  cases a with
  | attachTo t snapshot =>
    cases hstep
    cases snapshot with
    | none => exact h
    | some snapshot => exact h.attach hinv hquiet.1 hquiet.2 _
  | lose mc =>
    cases hstep
    exact h.lose hinv hquiet mc
  | enter mc =>
    cases hstep
    exact h.enter mc
  | call i a => exact fresh_callStep h hinv hstep
  | cancel i =>
    cases hstep
    have hold := h.calls i
    exact h.setCall ⟨hold.inside, hold.owns, hold.declaring, hold.finishing, hold.returned⟩
  | advance ms =>
    cases hstep
    exact h.advance ms

end State

open State

theorem noneStale_of_changesQuietly (as : List Action) (s : State)
    (hquiet : Run.Along step ChangesQuietly .init as)
    (hrun : Run.run step .init as = some s) : s.NoneStale := by
  have h := Run.inv_of_run fresh_step ⟨inv_init, fresh_init⟩ hquiet hrun
  intro i r hr herr
  exact (h.2.calls i).returned r hr herr

-- a broker restart closes both sockets; the second barrier coalesces with the first one
def restartRun : List Action :=
  [.attachTo 7 (some 1), .lose 0, .lose 1, .enter 0, .enter 1, .call 0 .lock, .call 0 .snapshot,
    .call 1 .lock, .call 0 (.declare none), .call 0 (.declare none), .call 0 .finish,
    .call 1 .waitClosed, .call 1 .lock]

theorem noneStale_of_changesQuietly_restartRun
    : ∃ s, Run.run step .init restartRun = some s ∧
        (s.calls 1).phase = .returned (.coalesced 0) ∧ s.NoneStale := by
  have ⟨s, hs, hphase⟩ := Option.map_eq_some_iff.mp (by decide :
    (Run.run step .init restartRun).map (fun s => (s.calls 1).phase) =
      some (.returned (.coalesced 0)))
  exact ⟨s, hs, hphase, noneStale_of_changesQuietly restartRun s (by decide) hs⟩

-- three seconds later the broker is gone again, and with it what was declared
def secondRestartRun : List Action :=
  restartRun ++ [.advance 3000, .lose 0, .enter 0, .call 2 .lock]

theorem secondRestartRun_stale
    : ∃ s, Run.run step .init secondRestartRun = some s ∧
        (s.calls 2).phase = .returned (.coalesced 0) ∧ ¬s.NoneStale := by
  have ⟨s, hs, h⟩ := Option.map_eq_some_iff.mp (by decide :
    (Run.run step .init secondRestartRun).map
      (fun s => (s.calls 2, s.declared, s.lossesBefore 0)) =
    some (⟨false, .returned (.coalesced 0), [], 3, [(7, 1)]⟩, [(0, 7, 1)], 2))
  simp only [Prod.mk.injEq] at h
  have ⟨hcall, hdeclared, hbefore⟩ := h
  refine ⟨s, hs, by rw [hcall], fun hnone => ?_⟩
  have ⟨run, hrun, hloss⟩ := hnone 2 (.coalesced 0) (by rw [hcall]) rfl (7, 1) (by simp [hcall])
  have hzero : run = 0 := by simpa [hdeclared] using hrun
  rw [hzero, hbefore, hcall] at hloss
  simp at hloss

end Topology.Redeclare
