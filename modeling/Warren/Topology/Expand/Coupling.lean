import Warren.Topology.Expand.Valid
import Warren.Topology.Expand.Walk

/-!
The at-least-once strategy of a quorum queue goes with the overflow policy reject-publish.
-/

namespace Expand

open LastWins (last)
open List Option

theorem getD_sprint (v : Value) : (overflowString v).getD v.sprint = v.sprint := by
  cases v
  all_goals rfl

variable {v : Value}

theorem sprint_of_overflowString {s : Str} (h : overflowString v = some s) : v.sprint = s := by
  rw [← getD_sprint, h]
  rfl

namespace Topology

open Queue (AtLeastOnce)

variable {t : Topology} {q : Queue} {i : Nat}

theorem foldl_quorumAtLeastOnce (name : Str) (dls : List DeadLetter) (dlx overflow : Option Value)
    : dls.foldl
        (fun (acc : Bool × Option Str) dl =>
          if dl.source ≠ name then
            acc
          else
            (true, if dl.overflow ≠ [] then some dl.overflow else acc.2))
        (dlx.isSome, overflow.map Value.sprint)
      = ((last (fun dl => if dl.source = name then dl.written xDeadLetterExchange else none)
            dls dlx).isSome,
          (last (fun dl => if dl.source = name then dl.written xOverflow else none)
            dls overflow).map Value.sprint) := by
  induction dls generalizing dlx overflow with
  | nil => rfl
  | cons dl dls ih =>
    rw [foldl_cons, LastWins.last_cons, LastWins.last_cons, ← ih]
    congr 1
    by_cases hsource : dl.source = name
    . rw [if_neg (by simpa using hsource), if_pos hsource, if_pos hsource, dl.written_exchange,
        dl.written_overflow]
      by_cases hoverflow : dl.overflow = []
      . simp [hoverflow]
      . simp [hoverflow, Value.sprint]
    . simp [hsource]

theorem sourceArgs_strategy (t : Topology) (q : Queue)
    : t.sourceArgs q xDeadLetterStrategy = q.args xDeadLetterStrategy := by
  apply LastWins.last_of_forall_none
  intro dl _
  rw [dl.written_strategy, ite_self]

theorem quorumAtLeastOnce_of_atLeastOnce (h : AtLeastOnce q.type (t.sourceArgs q))
    : t.quorumAtLeastOnce q = (true, (t.sourceArgs q xOverflow).map Value.sprint) := by
  have ⟨htype, hdlx, hstrategy⟩ := h
  rw [sourceArgs_strategy] at hstrategy
  unfold sourceArgs at hdlx
  unfold quorumAtLeastOnce sourceArgs
  rw [if_neg (by simpa using htype)]
  simp only [getD_sprint, foldl_quorumAtLeastOnce, hdlx]
  cases hstrategy with
  | _ hnone => simp [hnone]

theorem atLeastOnce_of_quorumAtLeastOnce (h : (t.quorumAtLeastOnce q).1 = true)
    : AtLeastOnce q.type (t.sourceArgs q) := by
  unfold AtLeastOnce
  rw [sourceArgs_strategy]
  unfold sourceArgs
  unfold quorumAtLeastOnce at h
  split at h
  next => contradiction
  next htype =>
    simp only [getD_sprint, foldl_quorumAtLeastOnce] at h
    split at h
    next => contradiction
    next hdlx =>
      refine ⟨by simpa using htype, by simpa [isSome_iff_ne_none] using hdlx, ?_⟩
      cases hstrategy : q.args xDeadLetterStrategy with
      | none => exact .inl rfl
      | some v =>
        rw [hstrategy] at h
        right
        simpa using h

theorem sourceArgs_overflow (h : t.sourceArgs q xOverflow = some v)
    : (q.args xOverflow = some v
        ∧ ∀ dl ∈ t.deadLetters, dl.source = q.name → dl.overflow = []) ∨ ∃ s, v = .string s := by
  cases LastWins.last_eq_some h with
  | inl hinit => exact .inl (by simpa [DeadLetter.written_overflow] using hinit)
  | inr hwritten =>
    have ⟨_, dl, _, _, hdl, _⟩ := hwritten
    rw [ite_none_right_eq_some, dl.written_overflow, ite_none_right_eq_some] at hdl
    right
    refine ⟨dl.overflow, ?_⟩
    rw [some.injEq] at hdl
    exact hdl.2.2.symm

theorem sourceArgs_overflow_of_own (h : ∀ dl ∈ t.deadLetters, dl.source = q.name → dl.overflow = [])
    : t.sourceArgs q xOverflow = q.args xOverflow := by
  apply LastWins.last_of_forall_none
  simpa [DeadLetter.written_overflow] using h

theorem sourceArgs_overflow_eq_none
    : t.sourceArgs q xOverflow = none
        ↔ q.args xOverflow = none
          ∧ ∀ dl ∈ t.deadLetters, dl.source = q.name → dl.overflow = [] := by
  unfold sourceArgs
  rw [LastWins.last_eq_none]
  simp [DeadLetter.written_overflow]

def expanded (t : Topology) (q : Queue) : Queue := { q with args := t.sourceArgs q }.injectArgs

theorem expanded_args (t : Topology) (q : Queue)
    : (t.expanded q).args
        = Queue.coupleArgs q.type { q with args := t.sourceArgs q }.typedArgs :=
  rfl

theorem expanded_of_not_mem (t : Topology) (q : Queue) {k : Str} (hk : k ∉ Queue.managedKeys)
    (hstrategy : k ≠ xDeadLetterStrategy) (hoverflow : k ≠ xOverflow)
    : (t.expanded q).args k = t.sourceArgs q k := by
  rw [expanded_args, Queue.coupleArgs_of_ne _ _ hstrategy hoverflow,
    Queue.typedArgs_of_not_mem _ hk]

theorem expanded_exchange (t : Topology) (q : Queue)
    : (t.expanded q).args xDeadLetterExchange = t.sourceArgs q xDeadLetterExchange := by
  apply expanded_of_not_mem
  all_goals decide

theorem typedArgs_atLeastOnce (t : Topology) (q : Queue)
    : AtLeastOnce q.type { q with args := t.sourceArgs q }.typedArgs
        ↔ AtLeastOnce q.type (t.sourceArgs q) := by
  unfold AtLeastOnce
  rw [Queue.typedArgs_of_not_mem _ (by decide), Queue.typedArgs_of_not_mem _ (by decide)]

theorem expanded_overflow (t : Topology) (q : Queue)
    : (t.expanded q).args xOverflow
        = (t.sourceArgs q xOverflow).or
            (if AtLeastOnce q.type (t.sourceArgs q) then some (.string OverflowPolicy.rejectPublish)
              else none) := by
  rw [expanded_args, Queue.coupleArgs_overflow, Queue.typedArgs_of_not_mem _ (by decide)]
  simp only [typedArgs_atLeastOnce]

theorem expanded_strategy (h : q.type = .quorum ∧ (t.sourceArgs q xDeadLetterExchange).isSome)
    : (t.expanded q).args xDeadLetterStrategy
        = (t.sourceArgs q xDeadLetterStrategy).or (some (.string dlxStrategyAtLeastOnce)) := by
  rw [expanded_args, Queue.coupleArgs_strategy _ _ ?_, Queue.typedArgs_of_not_mem _ (by decide)]
  rw [Queue.typedArgs_of_not_mem _ (by decide)]
  apply h

structure DeadLettersAtLeastOnce (q : Queue) : Prop where
  type : q.type = .quorum
  exchange : (q.args xDeadLetterExchange).isSome
  strategy : q.args xDeadLetterStrategy = some (.string dlxStrategyAtLeastOnce)

theorem deadLettersAtLeastOnce_expanded
    : DeadLettersAtLeastOnce (t.expanded q) ↔ AtLeastOnce q.type (t.sourceArgs q) := by
  constructor
  . intro ⟨htype, hdlx, hstrategy⟩
    have hquorum : q.type = .quorum := htype
    rw [expanded_exchange] at hdlx
    rw [expanded_strategy ⟨hquorum, hdlx⟩, or_eq_some_iff] at hstrategy
    refine ⟨hquorum, hdlx, ?_⟩
    cases hstrategy with
    | inl hsome => exact .inr hsome
    | inr hnone => exact .inl hnone.1
  . intro ⟨htype, hdlx, hstrategy⟩
    refine ⟨htype, by rw [expanded_exchange]; exact hdlx, ?_⟩
    rw [expanded_strategy ⟨htype, hdlx⟩]
    cases hstrategy with
    | _ hnone => simp [hnone]

theorem overflow_of_coupled (hcoupling : t.validateCoupling q = none)
    (hALO : AtLeastOnce q.type (t.sourceArgs q)) (hv : t.sourceArgs q xOverflow = some v)
    : v.sprint = OverflowPolicy.rejectPublish := by
  unfold validateCoupling at hcoupling
  rw [quorumAtLeastOnce_of_atLeastOnce hALO, hv] at hcoupling
  simpa using hcoupling

/--
What `validate` compares in its printed form only: the at-least-once queue gets its overflow policy
from its own arguments, as a value that is not a policy.
-/
def Uncoerced (t : Topology) (q : Queue) : Prop :=
  (t.quorumAtLeastOnce q).1 = true
    ∧ (∀ dl ∈ t.deadLetters, dl.source = q.name → dl.overflow = [])
    ∧ ∃ raw, q.args xOverflow = some raw ∧ overflowString raw = none

theorem expanded_coupled (hcoupling : t.validateCoupling q = none) (h : ¬t.Uncoerced q)
    (hALO : AtLeastOnce q.type (t.sourceArgs q))
    : ((t.expanded q).args xOverflow).bind overflowString = some OverflowPolicy.rejectPublish := by
  rw [expanded_overflow, if_pos hALO]
  cases hv : t.sourceArgs q xOverflow with
  | none => rfl
  | some v =>
    have hsprint := overflow_of_coupled hcoupling hALO hv
    rw [some_or, bind_some]
    cases sourceArgs_overflow hv with
    | inl hraw =>
      cases hs : overflowString v with
      | none =>
        have hquorum : (t.quorumAtLeastOnce q).1 = true := by
          rw [quorumAtLeastOnce_of_atLeastOnce hALO]
        exact absurd ⟨hquorum, hraw.2, v, hraw.1, hs⟩ h
      | some s => rw [← hsprint, sprint_of_overflowString hs]
    | inr hstring =>
      have ⟨s, hs⟩ := hstring
      subst hs
      rw [← hsprint]
      rfl

theorem coupled_iff (hcoupling : t.validateCoupling q = none)
    : (DeadLettersAtLeastOnce (t.expanded q) →
        ((t.expanded q).args xOverflow).bind overflowString = some OverflowPolicy.rejectPublish)
      ↔ ¬t.Uncoerced q := by
  constructor
  . rintro h ⟨hquorum, hdls, raw, hraw, hnone⟩
    have hALO := atLeastOnce_of_quorumAtLeastOnce hquorum
    have hcoupled := h (deadLettersAtLeastOnce_expanded.mpr hALO)
    rw [expanded_overflow, sourceArgs_overflow_of_own hdls, hraw, some_or, bind_some, hnone]
      at hcoupled
    contradiction
  . intro h hALO
    exact expanded_coupled hcoupling h (deadLettersAtLeastOnce_expanded.mp hALO)

theorem mem_warn (hunique : ∀ q' ∈ t.queues, q'.name = q.name → q' = q) (hq : q ∈ t.queues)
    : q.name ∈ t.warnQuorumAtLeastOnceOverflow (some ())
        ↔ AtLeastOnce q.type (t.sourceArgs q) ∧ t.sourceArgs q xOverflow = none := by
  unfold warnQuorumAtLeastOnceOverflow
  rw [mem_filterMap]
  constructor
  . intro ⟨q', hq', hwarn⟩
    split at hwarn
    next hpair =>
      rw [some.injEq] at hwarn
      rw [hunique q' hq' hwarn] at hpair
      have hALO := atLeastOnce_of_quorumAtLeastOnce (t := t) (q := q) (by rw [hpair])
      rw [quorumAtLeastOnce_of_atLeastOnce hALO, Prod.mk.injEq, map_eq_none_iff] at hpair
      exact ⟨hALO, hpair.2⟩
    next => contradiction
  . intro ⟨hALO, hnone⟩
    refine ⟨q, hq, ?_⟩
    rw [quorumAtLeastOnce_of_atLeastOnce hALO, hnone]
    rfl

theorem warned_iff
    : AtLeastOnce q.type (t.sourceArgs q) ∧ t.sourceArgs q xOverflow = none
        ↔ ((t.expanded q).args xOverflow).isSome ∧ t.sourceArgs q xOverflow = none := by
  rw [expanded_overflow]
  constructor
  . intro ⟨hALO, hnone⟩
    rw [if_pos hALO, hnone]
    exact ⟨rfl, rfl⟩
  . intro ⟨hsome, hnone⟩
    refine ⟨?_, hnone⟩
    by_contra hALO
    rw [if_neg hALO, hnone] at hsome
    contradiction

theorem rejected_of_coupling {name overflow : Str}
    (h : t.validateCoupling q = some (couplingErr name overflow))
    : q.name = name ∧ AtLeastOnce q.type (t.sourceArgs q)
        ∧ ∃ v, t.sourceArgs q xOverflow = some v ∧ v.sprint ≠ OverflowPolicy.rejectPublish := by
  unfold validateCoupling at h
  split at h
  next o hpair =>
    have hALO := atLeastOnce_of_quorumAtLeastOnce (t := t) (q := q) (by rw [hpair])
    rw [quorumAtLeastOnce_of_atLeastOnce hALO, Prod.mk.injEq, map_eq_some_iff] at hpair
    have ⟨_, v, hv, hsprint⟩ := hpair
    split at h
    next => contradiction
    next hne =>
      rw [← hsprint] at hne
      simp only [couplingErr, some.injEq, InvalidOptions.mk.injEq, cons.injEq] at h
      exact ⟨h.2.1, hALO, v, hv, hne⟩
  next => contradiction

structure Mismatched (q : Queue) : Prop where
  atLeastOnce : DeadLettersAtLeastOnce q
  overflow : (q.args xOverflow).isSome
  other : (q.args xOverflow).bind overflowString ≠ some OverflowPolicy.rejectPublish

theorem expanded_rejected (hALO : AtLeastOnce q.type (t.sourceArgs q))
    (hv : t.sourceArgs q xOverflow = some v) (hne : v.sprint ≠ OverflowPolicy.rejectPublish)
    : Mismatched (t.expanded q) := by
  refine ⟨deadLettersAtLeastOnce_expanded.mpr hALO, ?_, ?_⟩
  . rw [expanded_overflow, hv]
    rfl
  . rw [expanded_overflow, hv, some_or]
    intro hs
    apply hne
    apply sprint_of_overflowString hs

-- without an entry the expansion is that of a topology that has none
theorem mismatched_injectArgs (q : Queue)
    : Mismatched q.injectArgs
        ↔ AtLeastOnce q.type q.args ∧ ∃ v, q.args xOverflow = some v
          ∧ overflowString v ≠ some OverflowPolicy.rejectPublish := by
  have hALO : DeadLettersAtLeastOnce q.injectArgs ↔ AtLeastOnce q.type q.args :=
    deadLettersAtLeastOnce_expanded (t := {})
  have hoverflow : q.injectArgs.args xOverflow = (q.args xOverflow).or _ := expanded_overflow {} q
  constructor
  . rintro ⟨h, _, hne⟩
    refine ⟨hALO.mp h, ?_⟩
    rw [hoverflow] at hne
    cases hv : q.args xOverflow with
    | none =>
      rw [hv, none_or, if_pos (by exact hALO.mp h)] at hne
      exact absurd rfl hne
    | some v =>
      rw [hv] at hne
      exact ⟨v, rfl, hne⟩
  . rintro ⟨h, v, hv, hne⟩
    refine ⟨hALO.mpr h, ?_, ?_⟩
    . rw [hoverflow, hv]
      rfl
    . rw [hoverflow, hv]
      exact hne

/--
An expanded queue has the overflow policy reject-publish with the at-least-once strategy, unless the
check has looked at a printed form only, and the warning is given just for a policy that the
expansion has added. A queue that is rejected has the mismatch after the expansion if it is the last
one of its name, or else if it has it without the entries.
-/
theorem coupling_agrees (t : Topology) {i : Nat} {q : Queue} (hq : t.queues[i]? = some q)
    : (t.validate = none → ∃ q', t.expand.queues[i]? = some q' ∧ q'.name = q.name
          ∧ ((DeadLettersAtLeastOnce q' →
              (q'.args xOverflow).bind overflowString = some OverflowPolicy.rejectPublish)
            ↔ ¬t.Uncoerced q)
          ∧ (q.name ∈ t.warnQuorumAtLeastOnceOverflow (some ())
            ↔ (q'.args xOverflow).isSome ∧ q.args xOverflow = none
              ∧ ∀ dl ∈ t.deadLetters, dl.source = q.name → dl.overflow = []))
        ∧ (∀ name overflow, t.validate = some (couplingErr name overflow) →
          ∃ q' ∈ t.queues, q'.name = name
            ∧ t.validateCoupling q' = some (couplingErr name overflow))
        ∧ ∀ overflow, t.validateCoupling q = some (couplingErr q.name overflow) →
          ∃ q', t.expand.queues[i]? = some q' ∧ q'.name = q.name
            ∧ (Mismatched q' ↔ queueIdx t.queues q.name = some i
              ∨ AtLeastOnce q.type q.args ∧ ∃ v, q.args xOverflow = some v
                ∧ overflowString v ≠ some OverflowPolicy.rejectPublish) := by
  have hmem := mem_of_getElem? hq
  refine ⟨?_, ?_, ?_⟩
  . intro hvalid
    have hunique := unique_of_validate hvalid hq
    refine ⟨t.expanded q, expand_queue hq hunique, rfl,
      coupled_iff (coupled_of_validate hvalid hmem), ?_⟩
    rw [← sourceArgs_overflow_eq_none, ← warned_iff]
    apply mem_warn _ hmem
    intro q' hq' hname
    have ⟨j, hj⟩ := mem_iff_getElem?.mp hq'
    rw [hunique j q' hj hname, hq, some.injEq] at hj
    exact hj.symm
  . intro name overflow herr
    have ⟨q', hq', hcoupling⟩ := coupling_of_validate herr
    exact ⟨q', hq', (rejected_of_coupling hcoupling).1, hcoupling⟩
  . intro overflow hcoupling
    have ⟨_, hALO, v, hv, hne⟩ := rejected_of_coupling hcoupling
    by_cases hidx : queueIdx t.queues q.name = some i
    . exact ⟨t.expanded q, expand_queue_of_idx hq hidx, rfl,
        iff_of_true (expanded_rejected hALO hv hne) (.inl hidx)⟩
    . refine ⟨q.injectArgs, expand_queue_of_ne hq hidx, rfl, ?_⟩
      rw [or_iff_right hidx]
      exact mismatched_injectArgs q

def quorumQueue (args : Args) : Queue where
  name := ascii "orders"
  durable := true
  type := .quorum
  args

def deadLettered (overflow : OverflowPolicy) : Topology where
  queues := [quorumQueue .nil]
  deadLetters := [{ source := ascii "orders", overflow }]

theorem coupling_agrees_deadLettered
    : (∃ q' ∈ (deadLettered []).expand.queues[0]?,
          (q'.args xOverflow).bind overflowString = some OverflowPolicy.rejectPublish)
        ∧ ∃ q' ∈ (deadLettered .dropHead).expand.queues[0]?, Mismatched q' := by
  constructor
  . have ⟨q', hq', _, hcoupled, _⟩ :=
      (coupling_agrees (deadLettered []) (i := 0) rfl).1 (by decide)
    have ⟨htype, hdlx, hstrategy⟩ := (by decide : ∀ q' ∈ (deadLettered []).expand.queues[0]?,
      q'.type = .quorum ∧ (q'.args xDeadLetterExchange).isSome
        ∧ q'.args xDeadLetterStrategy = some (.string dlxStrategyAtLeastOnce)) q' hq'
    refine ⟨q', hq', hcoupled.mpr ?_ ⟨htype, hdlx, hstrategy⟩⟩
    rintro ⟨_, _, raw, hraw, _⟩
    contradiction
  . have ⟨q', hq', _, hmismatched⟩ :=
      (coupling_agrees (deadLettered .dropHead) (i := 0) rfl).2.2 OverflowPolicy.dropHead rfl
    exact ⟨q', hq', hmismatched.mpr (.inl rfl)⟩

-- a type of the caller with the underlying type string
def printedTopology : Topology where
  queues := [quorumQueue ((Args.nil.set xDeadLetterExchange (.string (ascii "dlx"))).set xOverflow
    (.other 0 OverflowPolicy.rejectPublish))]

def duplicated : Topology where
  queues := [quorumQueue .nil, { name := ascii "orders" }]
  deadLetters := [{ source := ascii "orders", overflow := .dropHead }]

theorem coupling_disagrees
    : (printedTopology.validate = none
          ∧ ∃ q' ∈ printedTopology.expand.queues[0]?, q'.type = .quorum
            ∧ (q'.args xDeadLetterExchange).isSome
            ∧ q'.args xDeadLetterStrategy = some (.string dlxStrategyAtLeastOnce)
            ∧ (q'.args xOverflow).bind overflowString = none)
        ∧ duplicated.validate = some (couplingErr (ascii "orders") OverflowPolicy.dropHead)
        ∧ ∀ q' ∈ duplicated.expand.queues, q'.args xDeadLetterStrategy = none := by
  refine ⟨?_, rfl, ?_⟩
  . decide
  . decide

end Topology
end Expand
