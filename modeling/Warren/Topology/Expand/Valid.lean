import Mathlib.Data.List.Basic
import Warren.Topology.Expand.Validate

namespace Expand

open List Option

variable {e : InvalidOptions} {checks : List (Option InvalidOptions)} {format : String}

theorem first_eq_none : first checks = none ↔ ∀ c ∈ checks, c = none := by
  unfold first
  rw [findSome?_eq_none_iff]
  rfl

theorem check_eq_none {violated : Prop} [Decidable violated] {args : List Str}
    : check violated format args = none ↔ ¬violated := by
  simp [check]

def Avoids (format : String) (c : Option InvalidOptions) : Prop := ∀ e ∈ c, e.format ≠ format

theorem avoids_none (format : String) : Avoids format none := by
  intro e he
  contradiction

theorem avoids_some {format' : String} {args : List Str} (h : format' ≠ format)
    : Avoids format (some ⟨format', args⟩) := by
  intro e he
  cases he
  apply h

theorem avoids_check {violated : Prop} [Decidable violated] {format' : String} {args : List Str}
    (h : format' ≠ format) : Avoids format (check violated format' args) := by
  unfold check
  split
  . apply avoids_some h
  . apply avoids_none

theorem avoids_first (h : ∀ c ∈ checks, Avoids format c) : Avoids format (first checks) := by
  intro e he
  have ⟨c, hc, hce⟩ := exists_of_findSome?_eq_some he
  apply h c hc e hce

theorem avoids_ite {p : Prop} [Decidable p] {c c' : Option InvalidOptions} (h : Avoids format c)
    (h' : Avoids format c') : Avoids format (if p then c else c') := by
  split
  . apply h
  . apply h'

theorem avoids_findSome? {α : Type} {f : α → Option InvalidOptions} (h : ∀ a, Avoids format (f a))
    (as : List α) : Avoids format (as.findSome? f) := by
  intro e he
  have ⟨a, _, ha⟩ := exists_of_findSome?_eq_some he
  apply h a e ha

namespace Queue

theorem avoids_validateQuorum (q : Queue) : Avoids Topology.couplingFormat q.validateQuorum := by
  apply avoids_first
  simp only [forall_mem_cons]
  exact ⟨avoids_check (by decide), avoids_check (by decide), avoids_check (by decide), nofun⟩

theorem avoids_validateStream (q : Queue) : Avoids Topology.couplingFormat q.validateStream := by
  apply avoids_first
  simp only [forall_mem_cons]
  exact ⟨avoids_check (by decide), avoids_check (by decide), avoids_check (by decide),
    avoids_check (by decide), nofun⟩

theorem avoids_validate (seen : List Str) (q : Queue)
    : Avoids Topology.couplingFormat (q.validate seen) := by
  apply avoids_first
  simp only [forall_mem_cons]
  refine ⟨avoids_check (by decide), avoids_check (by decide), ?_, avoids_check (by decide),
    avoids_check (by decide), avoids_check (by decide), avoids_check (by decide),
    avoids_ite q.avoids_validateQuorum (avoids_none _),
    avoids_ite q.avoids_validateStream (avoids_none _), nofun⟩
  apply avoids_first
  rw [List.forall_mem_map]
  intro m _
  apply avoids_check (by decide)

end Queue

namespace Exchange

theorem avoids_validateDelayedType (ex : Exchange)
    : Avoids Topology.couplingFormat ex.validateDelayedType := by
  unfold validateDelayedType
  split
  . apply avoids_some (by decide)
  . apply avoids_first
    simp only [forall_mem_cons]
    exact ⟨avoids_check (by decide), avoids_check (by decide), avoids_check (by decide), nofun⟩
  . apply avoids_some (by decide)

theorem avoids_validate (seen : List Str) (ex : Exchange)
    : Avoids Topology.couplingFormat (ex.validate seen) := by
  apply avoids_first
  simp only [forall_mem_cons]
  refine ⟨avoids_check (by decide), avoids_check (by decide), avoids_check (by decide),
    avoids_check (by decide), ?_, avoids_ite ex.avoids_validateDelayedType (avoids_none _), nofun⟩
  apply avoids_first
  rw [List.forall_mem_map]
  intro aeKey _
  apply avoids_check (by decide)

end Exchange

theorem ExchangeBinding.avoids_validate (eb : ExchangeBinding)
    : Avoids Topology.couplingFormat eb.validate := by
  apply avoids_first
  simp only [forall_mem_cons]
  exact ⟨avoids_check (by decide), avoids_check (by decide), nofun⟩

namespace Topology

variable {t : Topology} {seen : List Str} {qs : List Queue}

theorem avoids_validateExchanges (seen : List Str) (es : List Exchange)
    : Avoids couplingFormat (validateExchanges seen es) := by
  induction es generalizing seen with
  | nil => apply avoids_none
  | cons ex es ih =>
    intro e he
    cases or_eq_some_iff.mp he with
    | inl h => apply ex.avoids_validate seen e h
    | inr h => apply ih _ e h.2

theorem avoids_validateBinding (t : Topology) (b : Binding)
    : Avoids couplingFormat (t.validateBinding b) := by
  apply avoids_first
  simp only [forall_mem_cons]
  exact ⟨avoids_check (by decide), avoids_check (by decide), avoids_check (by decide), nofun⟩

theorem avoids_validateDeadLetter (t : Topology) (dl : DeadLetter)
    : Avoids couplingFormat (t.validateDeadLetter dl) := by
  apply avoids_first
  simp only [forall_mem_cons]
  exact ⟨avoids_check (by decide), avoids_check (by decide), avoids_check (by decide),
    avoids_check (by decide), nofun⟩

theorem coupling_of_validateQueues {name overflow : Str}
    (h : t.validateQueues seen qs = some (couplingErr name overflow))
    : ∃ q ∈ qs, t.validateCoupling q = some (couplingErr name overflow) := by
  induction qs generalizing seen with
  | nil => contradiction
  | cons q qs ih =>
    cases or_eq_some_iff.mp h with
    | inl hq =>
      cases or_eq_some_iff.mp hq with
      | inl hother =>
        have hne := q.avoids_validate seen _ hother
        contradiction
      | inr hcoupling => exact ⟨q, mem_cons_self, hcoupling.2⟩
    | inr hqs =>
      have ⟨q', hq', hcoupling⟩ := ih hqs.2
      exact ⟨q', mem_cons_of_mem q hq', hcoupling⟩

theorem coupling_of_validate {name overflow : Str}
    (h : t.validate = some (couplingErr name overflow))
    : ∃ q ∈ t.queues, t.validateCoupling q = some (couplingErr name overflow) := by
  have ⟨c, hc, hce⟩ := exists_of_findSome?_eq_some h
  simp only [mem_cons, not_mem_nil, or_false] at hc
  rcases hc with hc | hc | hc | hc | hc
  . subst hc
    have hne := avoids_validateExchanges [] t.exchanges _ hce
    contradiction
  . subst hc
    apply coupling_of_validateQueues hce
  . subst hc
    have hne := avoids_findSome? t.avoids_validateBinding t.bindings _ hce
    contradiction
  . subst hc
    have hne := avoids_findSome? ExchangeBinding.avoids_validate t.exchangeBindings _ hce
    contradiction
  . subst hc
    have hne := avoids_findSome? t.avoids_validateDeadLetter t.deadLetters _ hce
    contradiction

theorem nodup_cons_names {α : Type} {name : α → Str} {x : α} {xs : List α} (hx : name x ∉ seen)
    (hnodup : (xs.map name).Nodup) (hseen : ∀ y ∈ xs, name y ∉ name x :: seen)
    : ((x :: xs).map name).Nodup ∧ ∀ y ∈ x :: xs, name y ∉ seen := by
  rw [map_cons, nodup_cons, forall_mem_cons]
  refine ⟨⟨?_, hnodup⟩, hx, ?_⟩
  . intro hmem
    have ⟨y, hy, hname⟩ := mem_map.mp hmem
    apply hseen y hy
    rw [hname]
    apply mem_cons_self
  . intro y hy hmem
    apply hseen y hy (mem_cons_of_mem _ hmem)

theorem validateQueues_eq_none (h : t.validateQueues seen qs = none)
    : (∀ q ∈ qs, t.validateCoupling q = none) ∧ (qs.map (·.name)).Nodup
        ∧ ∀ q ∈ qs, q.name ∉ seen := by
  induction qs generalizing seen with
  | nil => simp
  | cons q qs ih =>
    unfold validateQueues at h
    rw [or_eq_none_iff, or_eq_none_iff] at h
    have ⟨⟨hq, hcoupling⟩, hqs⟩ := h
    have ⟨hcouplings, hnodup, hseen⟩ := ih hqs
    have hname : q.name ∉ seen := by
      rw [Queue.validate, first_eq_none] at hq
      apply check_eq_none.mp (hq (check (q.name ∈ seen) "duplicate Queue name %q" [q.name]) _)
      simp
    exact ⟨forall_mem_cons.mpr ⟨hcoupling, hcouplings⟩, nodup_cons_names hname hnodup hseen⟩

theorem validateExchanges_eq_none {es : List Exchange} (h : validateExchanges seen es = none)
    : (es.map (·.name)).Nodup ∧ ∀ e ∈ es, e.name ∉ seen := by
  induction es generalizing seen with
  | nil => simp
  | cons e es ih =>
    unfold validateExchanges at h
    rw [or_eq_none_iff] at h
    have ⟨he, hes⟩ := h
    have ⟨hnodup, hseen⟩ := ih hes
    have hname : e.name ∉ seen := by
      rw [Exchange.validate, first_eq_none] at he
      apply check_eq_none.mp
        (he (check (e.name ∈ seen) "duplicate Exchange name %q" [e.name]) _)
      simp
    exact nodup_cons_names hname hnodup hseen

theorem nodup_exchNames_of_validate (h : t.validate = none) : t.exchNames.Nodup := by
  have hexchanges : validateExchanges [] t.exchanges = none := by
    apply first_eq_none.mp h
    simp
  apply (validateExchanges_eq_none hexchanges).1

theorem validateQueues_of_validate (h : t.validate = none)
    : t.validateQueues [] t.queues = none := by
  apply first_eq_none.mp h
  simp

theorem nodup_of_validate (h : t.validate = none) : t.queueNames.Nodup :=
  (validateQueues_eq_none (validateQueues_of_validate h)).2.1

theorem coupled_of_validate (h : t.validate = none) {q : Queue} (hq : q ∈ t.queues)
    : t.validateCoupling q = none :=
  (validateQueues_eq_none (validateQueues_of_validate h)).1 q hq

theorem unique_of_validate (h : t.validate = none) {i : Nat} {q : Queue}
    (hq : t.queues[i]? = some q) : ∀ j q', t.queues[j]? = some q' → q'.name = q.name → j = i := by
  intro j q' hq' hname
  have hnodup := nodup_of_validate h
  have hi : t.queueNames[i]? = some q.name := by simp [queueNames, hq]
  have hj : t.queueNames[j]? = some q.name := by simp [queueNames, hq', hname]
  have ⟨hlt, _⟩ := List.getElem?_eq_some_iff.mp hj
  apply (List.getElem?_inj hlt hnodup).mp
  rw [hi, hj]

end Topology
end Expand
