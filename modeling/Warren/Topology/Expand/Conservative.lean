import Warren.Base.AppendNew
import Warren.Topology.Expand.DeadLetters

/-!
What `expand` leaves of the topology of the caller, and what it adds.
-/

namespace Expand

open AppendNew (Grows)
open List

namespace DeadLetter

def dlx (dl : DeadLetter) : Exchange := { name := dl.dlxName, kind := .topic, durable := true }

def dlq (dl : DeadLetter) : Queue := { name := dl.dlqName, durable := true, args := dl.autoDLQArgs }

def dlqBinding (dl : DeadLetter) : Binding :=
  { exchange := dl.dlxName, queue := dl.dlqName, routingKey := dl.bindRoutingKey }

end DeadLetter

def Binding.key (b : Binding) : Str × Str × Str := (b.exchange, b.queue, b.routingKey)

namespace Topology

variable {t out : Topology} {E : DeadLetter → Prop} {idx : Str → Option Nat} {dl : DeadLetter}

/--
The topology while its entries are expanded: the queues of the caller keep their names and places,
and everything behind is of an entry that satisfies `E`.
-/
structure Extends (E : DeadLetter → Prop) (t out : Topology) : Prop where
  exchanges : Grows (fun e : Exchange => e.name) (fun e => ∃ dl, E dl ∧ e = dl.dlx)
    t.exchanges out.exchanges
  queues : ∃ own : List Queue, own.map (·.name) = t.queueNames
    ∧ Grows (fun q : Queue => q.name) (fun q => ∃ dl, E dl ∧ q = dl.dlq) own out.queues
  bindings : Grows Binding.key (fun b => ∃ dl, E dl ∧ b = dl.dlqBinding) t.bindings out.bindings
  exchangeBindings : out.exchangeBindings = t.exchangeBindings

theorem extends_refl (t : Topology) : Extends E t t :=
  ⟨.refl _, ⟨t.queues, rfl, .refl _⟩, .refl _, rfl⟩

theorem map_name_modify (qs : List Queue) (i : Nat) (dl : DeadLetter)
    : (qs.modify i (·.setArgs dl)).map (·.name) = qs.map (·.name) := by
  apply ext_getElem?
  intro j
  rw [getElem?_map, getElem?_map, getElem?_modify]
  cases qs[j]? with
  | none => rfl
  | some q =>
    by_cases hj : i = j
    . simp [hj, Queue.setArgs]
    . simp [hj]

theorem Extends.modify {i : Nat} (h : Extends E t out) (hi : i < t.queues.length) (dl : DeadLetter)
    : Extends E t { out with queues := out.queues.modify i (·.setArgs dl) } := by
  have ⟨own, hown, added, hqueues, hadded, hnodup⟩ := h.queues
  have hlength : own.length = t.queues.length := by
    simpa [queueNames] using congrArg length hown
  refine ⟨h.exchanges, ⟨own.modify i (·.setArgs dl), ?_, added, ?_, ?_, hnodup⟩, h.bindings,
    h.exchangeBindings⟩
  . rw [map_name_modify, hown]
  . apply ext_getElem?
    intro j
    rw [hqueues, getElem?_modify]
    cases Nat.lt_or_ge j own.length with
    | inl hj =>
      rw [getElem?_append_left hj, getElem?_append_left (by simpa using hj),
        getElem?_modify]
    | inr hj =>
      rw [getElem?_append_right hj, getElem?_append_right (by simpa using hj),
        length_modify]
      have hne : i ≠ j := by omega
      simp [hne]
  . simpa only [map_name_modify] using hadded

theorem Extends.addExchange (h : Extends E t out) (hdl : E dl)
    : Extends E t (out.addExchange dl.dlxName) := by
  unfold Topology.addExchange
  split
  next => apply h
  next hnew =>
    refine ⟨?_, h.queues, h.bindings, h.exchangeBindings⟩
    apply h.exchanges.trans
    apply AppendNew.grows_append ⟨dl, hdl, rfl⟩ hnew

theorem Extends.addQueue (h : Extends E t out) (hdl : E dl)
    : Extends E t (out.addQueue dl.dlqName dl.autoDLQArgs) := by
  unfold Topology.addQueue
  split
  next => apply h
  next hnew =>
    have ⟨own, hown, hgrows⟩ := h.queues
    refine ⟨h.exchanges, ⟨own, hown, ?_⟩, h.bindings, h.exchangeBindings⟩
    apply hgrows.trans
    apply AppendNew.grows_append ⟨dl, hdl, rfl⟩ hnew

theorem Extends.addBinding (h : Extends E t out) (hdl : E dl)
    : Extends E t (out.addBinding dl.dlxName dl.dlqName dl.bindRoutingKey) := by
  unfold Topology.addBinding
  split
  next => apply h
  next hnew =>
    refine ⟨h.exchanges, h.queues, ?_, h.exchangeBindings⟩
    apply h.bindings.trans
    apply AppendNew.grows_append ⟨dl, hdl, rfl⟩ hnew

theorem Extends.expandDeadLetter (h : Extends E t out)
    (hidx : ∀ i, idx dl.source = some i → i < t.queues.length ∧ E dl)
    : Extends E t (out.expandDeadLetter idx dl) := by
  unfold Topology.expandDeadLetter
  split
  next => apply h
  next i hi =>
    have ⟨hlt, hdl⟩ := hidx i hi
    exact (((h.modify hlt dl).addExchange hdl).addQueue hdl).addBinding hdl

theorem Extends.foldl {dls : List DeadLetter} (h : Extends E t out)
    (hidx : ∀ dl ∈ dls, ∀ i, idx dl.source = some i → i < t.queues.length ∧ E dl)
    : Extends E t (dls.foldl (Topology.expandDeadLetter idx) out) := by
  induction dls generalizing out with
  | nil => apply h
  | cons dl dls ih =>
    rw [forall_mem_cons] at hidx
    apply ih (h.expandDeadLetter hidx.1) hidx.2

def Declared (t : Topology) (dl : DeadLetter) : Prop :=
  dl ∈ t.deadLetters ∧ dl.source ∈ t.queueNames

theorem extends_expandDeadLetters (t : Topology)
    : Extends t.Declared { t with exchanges := t.exchanges.map Exchange.injectArgs }
        t.expandDeadLetters := by
  apply (extends_refl _).foldl
  intro dl hdl i hi
  have ⟨q, hq, hname⟩ := queueIdx_eq_some hi
  refine ⟨(List.getElem?_eq_some_iff.mp hq).1, hdl, ?_⟩
  rw [← hname]
  apply mem_map_of_mem (mem_of_getElem? hq)

def expandedKeys : List Str :=
  [alternateExchangeArg, xDeadLetterExchange, xDeadLetterRoutingKey, xDeadLetterStrategy,
    xMessageTTL, xMaxLength, xMaxLengthBytes, xOverflow, xDeliveryLimit, xSingleActiveConsumer,
    xQueueType, xMaxPriority]

variable {k : Str}

theorem ne_of_not_mem {key : Str} (hk : k ∉ expandedKeys) (hkey : key ∈ expandedKeys) : k ≠ key :=
  (ne_of_mem_of_not_mem hkey hk).symm

theorem injectArgs_of_not_mem (e : Exchange) (hk : k ∉ expandedKeys)
    : e.injectArgs.args k = e.args k := by
  apply Args.setIf_of_ne
  apply ne_of_not_mem hk
  decide

theorem written_of_not_mem (dl : DeadLetter) (hk : k ∉ expandedKeys) : dl.written k = none := by
  have hne : ∀ key ∈ expandedKeys, k ≠ key := fun key => ne_of_not_mem hk
  simp (disch := apply hne; decide) only [DeadLetter.written, DeadLetter.setArgs, Args.setIf_of_ne,
    Args.set_of_ne]
  rfl

theorem expanded_of_not_mem_expandedKeys (t : Topology) (q : Queue) (hk : k ∉ expandedKeys)
    : (t.expanded q).args k = q.args k := by
  have hmanaged : k ∉ Queue.managedKeys := fun h =>
    hk ((by decide : Queue.managedKeys ⊆ expandedKeys) h)
  have hne : ∀ key ∈ expandedKeys, k ≠ key := fun key => ne_of_not_mem hk
  rw [expanded_of_not_mem t q hmanaged (hne _ (by decide)) (hne _ (by decide))]
  apply LastWins.last_of_forall_none
  intro dl _
  rw [written_of_not_mem dl hk, ite_self]

theorem injectArgs_dlq (dl : DeadLetter) : dl.dlq.injectArgs = dl.dlq := by
  rfl

structure Conserves (t out : Topology) : Prop where
  exchNames : out.exchNames.Nodup
  queueNames : out.queueNames.Nodup
  exchanges : ∀ (i : Nat) (e : Exchange), t.exchanges[i]? = some e →
    ∃ args : Args, out.exchanges[i]? = some { e with args } ∧ ∀ k ∉ expandedKeys, args k = e.args k
  queues : ∀ (i : Nat) (q : Queue), t.queues[i]? = some q →
    ∃ args : Args, out.queues[i]? = some { q with args } ∧ ∀ k ∉ expandedKeys, args k = q.args k
  bindings : ∀ (i : Nat) (b : Binding), t.bindings[i]? = some b → out.bindings[i]? = some b
  exchangeBindings : out.exchangeBindings = t.exchangeBindings
  addedExchanges : ∀ (i : Nat) (e : Exchange), t.exchanges.length ≤ i → out.exchanges[i]? = some e →
    ∃ dl, t.Declared dl ∧ e = dl.dlx
  addedQueues : ∀ (i : Nat) (q : Queue), t.queues.length ≤ i → out.queues[i]? = some q →
    ∃ dl, t.Declared dl ∧ q = dl.dlq
  addedBindings : ∀ (i : Nat) (b : Binding), t.bindings.length ≤ i → out.bindings[i]? = some b →
    ∃ dl, t.Declared dl ∧ b = dl.dlqBinding
  addedKeys : ∀ (i j : Nat) (b b' : Binding), t.bindings.length ≤ i → out.bindings[i]? = some b →
    out.bindings[j]? = some b' → b.key = b'.key → i = j

theorem addedQueue_expand {i : Nat} {q : Queue} (hi : t.queues.length ≤ i)
    (hq : t.expand.queues[i]? = some q) : ∃ dl, t.Declared dl ∧ q = dl.dlq := by
  obtain ⟨own, hown, hgrows⟩ := t.extends_expandDeadLetters.queues
  have hlength : own.length = t.queues.length := by
    simpa [Topology.queueNames] using congrArg length hown
  unfold expand at hq
  rw [getElem?_map, Option.map_eq_some_iff] at hq
  obtain ⟨q', hq', hinject⟩ := hq
  obtain ⟨dl, hdl, hdlq⟩ := hgrows.of_length_le (by omega) hq'
  refine ⟨dl, hdl, ?_⟩
  rw [← hinject, hdlq, injectArgs_dlq]

theorem conserves_expand (hvalid : t.validate = none) : Conserves t t.expand := by
  have h := t.extends_expandDeadLetters
  have hexchNames : ((t.exchanges.map Exchange.injectArgs).map (·.name)).Nodup := by
    rw [map_map]
    apply nodup_exchNames_of_validate hvalid
  refine ⟨h.exchanges.nodup hexchNames, nodup_expand (nodup_of_validate hvalid), ?_, ?_, ?_,
    h.exchangeBindings, ?_, ?_, ?_, ?_⟩
  . intro i e he
    have hinject : (t.exchanges.map Exchange.injectArgs)[i]? = some e.injectArgs := by
      rw [getElem?_map, he]
      rfl
    refine ⟨e.injectArgs.args, h.exchanges.getElem? hinject, ?_⟩
    intro k hk
    apply injectArgs_of_not_mem e hk
  . intro i q hq
    refine ⟨(t.expanded q).args, expand_queue hq (unique_of_validate hvalid hq), ?_⟩
    intro k hk
    apply expanded_of_not_mem_expandedKeys t q hk
  . intro i b hb
    apply h.bindings.getElem? hb
  . intro i e hi he
    apply h.exchanges.of_length_le (by simpa using hi) he
  . intro i q hi hq
    apply addedQueue_expand hi hq
  . intro i b hi hb
    apply h.bindings.of_length_le hi hb
  . intro i j b b' hi hb hb' hkey
    apply h.bindings.unique hi hb hb' hkey

end Topology
end Expand
