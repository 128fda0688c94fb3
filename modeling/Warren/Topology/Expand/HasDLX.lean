import Warren.Topology.Expand.Conservative

/-!
`topologyHasDLX` (`rpc_replier_builder.go`) and what `expand` declares for the queue of an entry.
-/

namespace Expand

open List Option

def topologyHasDLX (t : Topology) (queue : Str) : Bool :=
  t.deadLetters.any (fun dl => dl.source = queue)
    || t.queues.any (fun q => q.name = queue && (q.args xDeadLetterExchange).isSome)

def knownHasDLX (topology : Option Topology) (queue : Str) : Bool :=
  match topology with
  | none => false
  | some t => topologyHasDLX t queue

def warnsMissingDLX (topology : Option Topology) (queue : Str) (maxRedeliveries : Int)
    (allowMissingDLX : Bool) : Bool :=
  0 < maxRedeliveries && topology.isSome && !knownHasDLX topology queue && !allowMissingDLX

namespace Topology

variable {t : Topology} {q : Queue} {name : Str}

def DeclaresDLX (t : Topology) (name : Str) : Prop :=
  ∃ q ∈ t.expand.queues, q.name = name ∧ (q.args xDeadLetterExchange).isSome

theorem topologyHasDLX_iff
    : topologyHasDLX t name = true
        ↔ (∃ dl ∈ t.deadLetters, dl.source = name)
          ∨ ∃ q ∈ t.queues, q.name = name ∧ (q.args xDeadLetterExchange).isSome := by
  simp [topologyHasDLX]

theorem isSome_sourceArgs
    : (t.sourceArgs q xDeadLetterExchange).isSome
        ↔ (∃ dl ∈ t.deadLetters, dl.source = q.name)
          ∨ (q.args xDeadLetterExchange).isSome := by
  rw [← not_iff_not, not_or, Bool.not_eq_true, isSome_eq_false_iff, isNone_iff_eq_none,
    Bool.not_eq_true, isSome_eq_false_iff, isNone_iff_eq_none]
  unfold sourceArgs
  rw [LastWins.last_eq_none, and_comm]
  apply and_congr_left
  intro _
  constructor
  . rintro h ⟨dl, hdl, hsource⟩
    have hnone := h dl hdl
    rw [if_pos hsource, dl.written_exchange] at hnone
    contradiction
  . intro h dl hdl
    rw [if_neg]
    intro hsource
    exact h ⟨dl, hdl, hsource⟩

theorem dlq_exchange (dl : DeadLetter) : dl.dlq.args xDeadLetterExchange = none := by
  unfold DeadLetter.dlq DeadLetter.autoDLQArgs
  split
  . rfl
  . simp (disch := decide) only [Args.set_of_ne]
    rfl

theorem declaresDLX_iff (hvalid : t.validate = none)
    : t.DeclaresDLX name
        ↔ ∃ q ∈ t.queues, q.name = name ∧ ((∃ dl ∈ t.deadLetters, dl.source = q.name)
          ∨ (q.args xDeadLetterExchange).isSome) := by
  constructor
  . rintro ⟨q', hq', hname, hdlx⟩
    have ⟨i, hi⟩ := mem_iff_getElem?.mp hq'
    cases Nat.lt_or_ge i t.queues.length with
    | inl hlt =>
      have hq := getElem?_eq_getElem hlt
      have hexpand := expand_queue hq (unique_of_validate hvalid hq)
      rw [hi, some.injEq] at hexpand
      have heq : q' = t.expanded t.queues[i] := hexpand
      subst heq
      rw [expanded_exchange, isSome_sourceArgs] at hdlx
      exact ⟨t.queues[i], getElem_mem hlt, hname, hdlx⟩
    | inr hge =>
      have ⟨dl, _, hdlq⟩ := addedQueue_expand hge hi
      subst hdlq
      rw [dlq_exchange] at hdlx
      contradiction
  . rintro ⟨q, hq, hname, hdlx⟩
    have ⟨i, hi⟩ := mem_iff_getElem?.mp hq
    have hexpand := expand_queue hi (unique_of_validate hvalid hi)
    refine ⟨t.expanded q, mem_of_getElem? hexpand, hname, ?_⟩
    rw [expanded_exchange, isSome_sourceArgs]
    apply hdlx

theorem mem_queueNames_of_declaresDLX (hvalid : t.validate = none) (h : t.DeclaresDLX name)
    : name ∈ t.queueNames := by
  have ⟨q, hq, hname, _⟩ := (declaresDLX_iff hvalid).mp h
  rw [← hname]
  apply mem_map_of_mem hq

theorem agree_iff (hvalid : t.validate = none)
    : (topologyHasDLX t name = true ↔ t.DeclaresDLX name)
        ↔ ((∃ dl ∈ t.deadLetters, dl.source = name) → name ∈ t.queueNames) := by
  constructor
  . intro hagree hentry
    apply mem_queueNames_of_declaresDLX hvalid
    rw [← hagree, topologyHasDLX_iff]
    exact .inl hentry
  intro hdeclared
  rw [topologyHasDLX_iff, declaresDLX_iff hvalid]
  constructor
  . intro h
    cases h with
    | inl hentry =>
      have ⟨q, hq, hname⟩ := mem_map.mp (hdeclared hentry)
      refine ⟨q, hq, hname, .inl ?_⟩
      rw [hname]
      apply hentry
    | inr hmanual =>
      have ⟨q, hq, hname, hdlx⟩ := hmanual
      exact ⟨q, hq, hname, .inr hdlx⟩
  . rintro ⟨q, hq, hname, hdlx⟩
    cases hdlx with
    | inl hentry =>
      rw [hname] at hentry
      exact .inl hentry
    | inr hmanual => exact .inr ⟨q, hq, hname, hmanual⟩

/--
`topologyHasDLX` agrees with what is declared for a queue, and the builder warns about one that would
drop what it rejects, exactly when an entry for the queue is not there without the queue.
-/
theorem topologyHasDLX_iff_declaresDLX (t : Topology) (hvalid : t.validate = none) (name : Str)
    : ((topologyHasDLX t name = true ↔ t.DeclaresDLX name)
          ↔ ((∃ dl ∈ t.deadLetters, dl.source = name) → name ∈ t.queueNames))
        ∧ (¬t.DeclaresDLX name → ∀ maxRedeliveries, 0 < maxRedeliveries →
          (warnsMissingDLX (some t) name maxRedeliveries false = true
            ↔ ((∃ dl ∈ t.deadLetters, dl.source = name) → name ∈ t.queueNames))) := by
  refine ⟨agree_iff hvalid, ?_⟩
  intro hnot maxRedeliveries hpos
  rw [← agree_iff hvalid]
  simp [warnsMissingDLX, knownHasDLX, hnot, hpos]

def entryAndNone : Topology where
  queues := [{ name := ascii "orders" }, { name := ascii "audit" }]
  deadLetters := [{ source := ascii "orders" }]

theorem topologyHasDLX_entryAndNone
    : entryAndNone.DeclaresDLX (ascii "orders") ∧ ¬entryAndNone.DeclaresDLX (ascii "audit") := by
  have horders := (topologyHasDLX_iff_declaresDLX entryAndNone (by decide) (ascii "orders")).1.mpr
    (fun _ => by decide)
  have haudit := (topologyHasDLX_iff_declaresDLX entryAndNone (by decide) (ascii "audit")).1.mpr
    (fun _ => by decide)
  rw [← horders, ← haudit]
  decide

def undeclaredSource : Topology where
  deadLetters := [{ source := ascii "orders" }]

theorem topologyHasDLX_undeclaredSource
    : undeclaredSource.validate = none ∧ topologyHasDLX undeclaredSource (ascii "orders") = true
        ∧ ¬undeclaredSource.DeclaresDLX (ascii "orders")
        ∧ warnsMissingDLX (some undeclaredSource) (ascii "orders") 3 false = false := by
  refine ⟨by decide, by decide, ?_, by decide⟩
  rintro ⟨q, hq, _⟩
  contradiction

/--
An entry for a queue of the expansion takes effect exactly when the queue is one of the caller's.
-/
theorem dead_letter_takes_effect (t : Topology) (hvalid : t.validate = none) {dl : DeadLetter}
    (hdl : dl ∈ t.deadLetters) {q' : Queue} (hq' : q' ∈ t.expand.queues)
    (hname : dl.source = q'.name)
    : (∃ dlx, q'.args xDeadLetterExchange = some (.string dlx) ∧ dlx ∈ t.expand.exchNames
        ∧ dl.source ++ ascii ".dlq" ∈ t.expand.queueNames
        ∧ ∃ b ∈ t.expand.bindings, b.exchange = dlx ∧ b.queue = dl.source ++ ascii ".dlq")
      ↔ dl.source ∈ t.queueNames := by
  constructor
  . rintro ⟨dlx, hdlx, _⟩
    exact mem_queueNames_of_declaresDLX hvalid ⟨q', hq', hname.symm, by rw [hdlx]; rfl⟩
  intro hdeclared
  have ⟨q, hq, hqname⟩ := mem_map.mp hdeclared
  have ⟨i, hi⟩ := mem_iff_getElem?.mp hq
  have hexpand := expand_queue hi (unique_of_validate hvalid hi)
  have hq'q : q' = t.expanded q := by
    have hnodup := nodup_expand (nodup_of_validate hvalid)
    apply inj_on_of_nodup_map hnodup hq' (mem_of_getElem? hexpand)
    rw [← hname, ← hqname]
    rfl
  have ⟨last, hserved, hdlq, hdlx, _⟩ := exists_served hq ⟨dl, hdl, hqname.symm⟩
  rw [hqname] at hdlq
  refine ⟨last.dlxName, ?_, hserved.exchange, ?_, ?_⟩
  . rw [hq'q, hdlx]
  . rw [← hdlq]
    apply hserved.queue
  . have ⟨b, hb, hexchange, hqueue, _⟩ := hserved.binding
    exact ⟨b, hb, hexchange, hqueue.trans hdlq⟩

def chained (dls : List DeadLetter) : Topology where
  queues := [{ name := ascii "orders" }]
  deadLetters := dls

def ordersEntry : DeadLetter where
  source := ascii "orders"

def chainedEntry : DeadLetter where
  source := ascii "orders.dlq"

theorem dead_letter_takes_effect_chained
    : ∃ q' ∈ (chained [ordersEntry, chainedEntry]).expand.queues, ∃ dlx,
        q'.args xDeadLetterExchange = some (.string dlx)
          ∧ dlx ∈ (chained [ordersEntry, chainedEntry]).expand.exchNames := by
  have ⟨q', hq', hname⟩ := (by decide : ∃ q' ∈ (chained [ordersEntry, chainedEntry]).expand.queues,
    ordersEntry.source = q'.name)
  have ⟨dlx, hdlx, hexchange, _⟩ := (dead_letter_takes_effect (chained [ordersEntry, chainedEntry])
    (by decide) mem_cons_self hq' hname).mpr (by decide)
  exact ⟨q', hq', dlx, hdlx, hexchange⟩

abbrev Skipped (t : Topology) (dl : DeadLetter) : Prop :=
  (∃ q' ∈ t.expand.queues, q'.name = dl.source ∧ q'.args xDeadLetterExchange = none)
    ∧ dl.dlqName ∉ t.expand.queueNames

theorem dead_letter_skipped
    : (chained [ordersEntry, chainedEntry]).validate = none
        ∧ Skipped (chained [ordersEntry, chainedEntry]) chainedEntry
        ∧ (chained [chainedEntry, ordersEntry]).validate = none
        ∧ Skipped (chained [chainedEntry, ordersEntry]) chainedEntry := by
  decide

end Topology
end Expand
