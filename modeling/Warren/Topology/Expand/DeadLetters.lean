import Mathlib.Data.List.Nodup
import Warren.Base.Topic
import Warren.Topology.Expand.Coupling

/-!
Where the dead letters of a queue go.
-/

namespace Expand

open List Option
namespace Topology

variable {t out out' out'' : Topology} {idx : Str → Option Nat} {dl : DeadLetter}

structure Grown (out out' : Topology) : Prop where
  exchanges : out.exchanges <+: out'.exchanges
  topic : ∀ e ∈ out'.exchanges, e ∈ out.exchanges ∨ e.kind = .topic
  queueNames : out.queueNames <+: out'.queueNames
  nodup : out.queueNames.Nodup → out'.queueNames.Nodup
  bindings : out.bindings <+: out'.bindings

theorem Grown.refl (out : Topology) : Grown out out :=
  ⟨prefix_refl _, fun _ => .inl, prefix_refl _, id, prefix_refl _⟩

theorem Grown.trans (h : Grown out out') (h' : Grown out' out'') : Grown out out'' where
  exchanges := h.exchanges.trans h'.exchanges
  topic := by
    intro e he
    cases h'.topic e he with
    | inl hold => apply h.topic e hold
    | inr htopic => exact .inr htopic
  queueNames := h.queueNames.trans h'.queueNames
  nodup := h'.nodup ∘ h.nodup
  bindings := h.bindings.trans h'.bindings

theorem grown_modify (out : Topology) (i : Nat) (dl : DeadLetter)
    : Grown out { out with queues := out.queues.modify i (·.setArgs dl) } := by
  have hnames : { out with queues := out.queues.modify i (·.setArgs dl) }.queueNames
      = out.queueNames := by
    apply ext_getElem?
    intro j
    unfold queueNames
    rw [getElem?_map, getElem?_map, getElem?_modify]
    cases out.queues[j]? with
    | none => rfl
    | some q =>
      by_cases hj : i = j
      . simp [hj, Queue.setArgs]
      . simp [hj]
  refine ⟨prefix_refl _, fun _ => .inl, ?_, ?_, prefix_refl _⟩
  . rw [hnames]
  . rw [hnames]
    exact id

theorem grown_addExchange (out : Topology) (name : Str) : Grown out (out.addExchange name) := by
  unfold addExchange
  split
  . apply Grown.refl
  . refine ⟨prefix_append _ _, ?_, prefix_refl _, id, prefix_refl _⟩
    intro e he
    cases mem_append.mp he with
    | inl hold => exact .inl hold
    | inr hnew =>
      right
      rw [mem_singleton.mp hnew]

theorem grown_addQueue (out : Topology) (name : Str) (args : Args)
    : Grown out (out.addQueue name args) := by
  grind [Grown, Grown.refl, addQueue, queueNames]

theorem grown_addBinding (out : Topology) (exchange queue routingKey : Str)
    : Grown out (out.addBinding exchange queue routingKey) := by
  unfold addBinding
  split
  . apply Grown.refl
  . exact ⟨prefix_refl _, fun _ => .inl, prefix_refl _, id, prefix_append _ _⟩

theorem grown_expandDeadLetter (idx : Str → Option Nat) (out : Topology) (dl : DeadLetter)
    : Grown out (out.expandDeadLetter idx dl) := by
  unfold expandDeadLetter
  split
  next => apply Grown.refl
  next i _ =>
    apply (grown_modify out i dl).trans
    apply (grown_addExchange _ _).trans
    apply (grown_addQueue _ _ _).trans
    apply grown_addBinding

theorem grown_foldl (idx : Str → Option Nat) (out : Topology) (dls : List DeadLetter)
    : Grown out (dls.foldl (expandDeadLetter idx) out) := by
  induction dls generalizing out with
  | nil => apply Grown.refl
  | cons dl dls ih => apply (grown_expandDeadLetter idx out dl).trans (ih _)

structure Served (dl : DeadLetter) (out : Topology) : Prop where
  exchange : dl.dlxName ∈ out.exchNames
  queue : dl.dlqName ∈ out.queueNames
  binding : ∃ b ∈ out.bindings, b.exchange = dl.dlxName ∧ b.queue = dl.dlqName
    ∧ b.routingKey = dl.bindRoutingKey

theorem Served.grown (h : Served dl out) (hgrown : Grown out out') : Served dl out' where
  exchange := (hgrown.exchanges.map _).subset h.exchange
  queue := hgrown.queueNames.subset h.queue
  binding := by
    have ⟨b, hb, hkey⟩ := h.binding
    exact ⟨b, hgrown.bindings.subset hb, hkey⟩

theorem mem_addExchange (out : Topology) (name : Str)
    : name ∈ (out.addExchange name).exchNames := by
  unfold addExchange
  split
  next h => apply h
  next => simp [exchNames]

theorem mem_addQueue (out : Topology) (name : Str) (args : Args)
    : name ∈ (out.addQueue name args).queueNames := by
  unfold addQueue
  split
  next h => apply h
  next => simp [queueNames]

theorem mem_addBinding (out : Topology) (exchange queue routingKey : Str)
    : ∃ b ∈ (out.addBinding exchange queue routingKey).bindings,
        b.exchange = exchange ∧ b.queue = queue ∧ b.routingKey = routingKey := by
  unfold addBinding
  split
  next h =>
    have ⟨b, hb, hkey⟩ := mem_map.mp h
    rw [Prod.mk.injEq, Prod.mk.injEq] at hkey
    exact ⟨b, hb, hkey⟩
  next =>
    refine ⟨{ exchange, queue, routingKey }, ?_, rfl, rfl, rfl⟩
    apply mem_append_right
    apply mem_singleton_self

theorem served_expandDeadLetter (h : (idx dl.source).isSome)
    : Served dl (out.expandDeadLetter idx dl) := by
  have ⟨i, hi⟩ := isSome_iff_exists.mp h
  unfold expandDeadLetter
  rw [hi]
  have hexchange := mem_addExchange
    { out with queues := out.queues.modify i (·.setArgs dl) } dl.dlxName
  have hqueue := mem_addQueue
    ({ out with queues := out.queues.modify i (·.setArgs dl) }.addExchange dl.dlxName)
    dl.dlqName dl.autoDLQArgs
  have hgrown := (grown_addQueue
    ({ out with queues := out.queues.modify i (·.setArgs dl) }.addExchange dl.dlxName)
    dl.dlqName dl.autoDLQArgs).trans
      (grown_addBinding _ dl.dlxName dl.dlqName dl.bindRoutingKey)
  refine ⟨(hgrown.exchanges.map _).subset hexchange, ?_, mem_addBinding _ _ _ _⟩
  apply (grown_addBinding _ _ _ _).queueNames.subset hqueue

theorem served_foldl {dls : List DeadLetter} (hdl : dl ∈ dls) (h : (idx dl.source).isSome)
    : Served dl (dls.foldl (expandDeadLetter idx) out) := by
  induction dls generalizing out with
  | nil => contradiction
  | cons dl' dls ih =>
    cases List.mem_cons.mp hdl with
    | inl hhead =>
      subst hhead
      apply (served_expandDeadLetter h).grown (grown_foldl _ _ _)
    | inr htail => apply ih htail

theorem queueNames_expand (t : Topology)
    : t.expand.queueNames = t.expandDeadLetters.queueNames := by
  unfold expand queueNames
  rw [List.map_map]
  rfl

theorem grown_expandDeadLetters (t : Topology)
    : Grown { t with exchanges := t.exchanges.map Exchange.injectArgs } t.expandDeadLetters := by
  apply grown_foldl

theorem served_of_mem (hdl : dl ∈ t.deadLetters) (hsource : dl.source ∈ t.queueNames)
    : Served dl t.expand := by
  have hidx : (queueIdx t.queues dl.source).isSome := by
    rw [isSome_iff_ne_none]
    intro hnone
    rw [queueIdx_eq_none] at hnone
    contradiction
  have h : Served dl t.expandDeadLetters := served_foldl hdl hidx
  refine ⟨h.exchange, ?_, h.binding⟩
  rw [queueNames_expand]
  apply h.queue

theorem nodup_expand (h : t.queueNames.Nodup) : t.expand.queueNames.Nodup := by
  rw [queueNames_expand]
  apply t.grown_expandDeadLetters.nodup h

theorem topic_of_created {e : Exchange} (he : e ∈ t.expand.exchanges) (hnew : e.name ∉ t.exchNames)
    : e.kind = .topic := by
  cases t.grown_expandDeadLetters.topic e he with
  | inr htopic => apply htopic
  | inl hold =>
    have ⟨e₀, he₀, hinject⟩ := mem_map.mp hold
    have hname : e₀.name = e.name := by
      rw [← hinject]
      rfl
    rw [← hname] at hnew
    have hmem := mem_map_of_mem (f := fun e : Exchange => e.name) he₀
    contradiction

theorem exists_lastEntry {q : Queue} (h : ∃ dl ∈ t.deadLetters, dl.source = q.name)
    : ∃ dl ∈ t.deadLetters, dl.source = q.name
        ∧ t.sourceArgs q xDeadLetterExchange = some (.string dl.dlxName)
        ∧ (dl.routingKey ≠ [] →
          t.sourceArgs q xDeadLetterRoutingKey = some (.string dl.routingKey)) := by
  have ⟨dl₀, hdl₀, hsource₀⟩ := h
  cases hdlx : t.sourceArgs q xDeadLetterExchange with
  | none =>
    have hnone := (LastWins.last_eq_none.mp hdlx).2 dl₀ hdl₀
    rw [if_pos hsource₀, dl₀.written_exchange] at hnone
    contradiction
  | some v =>
    cases LastWins.last_eq_some hdlx with
    | inl hinit =>
      have hnone := hinit.2 dl₀ hdl₀
      rw [if_pos hsource₀, dl₀.written_exchange] at hnone
      contradiction
    | inr hwritten =>
      have ⟨before, dl, after, hdls, hdl, hafter⟩ := hwritten
      rw [ite_none_right_eq_some, dl.written_exchange, some.injEq] at hdl
      have ⟨hsource, hv⟩ := hdl
      refine ⟨dl, ?_, hsource, by rw [hv], ?_⟩
      . rw [hdls]
        apply mem_append_right
        apply mem_cons_self
      . intro hkey
        have hothers : ∀ b ∈ after, (if b.source = q.name then b.written xDeadLetterRoutingKey
            else none) = none := by
          intro b hb
          have hnone := hafter b hb
          rw [b.written_exchange] at hnone
          simp only [ite_eq_right_iff, reduceCtorEq, imp_false] at hnone
          rw [if_neg hnone]
        unfold sourceArgs
        rw [hdls, LastWins.last_append_cons hothers, if_pos hsource, dl.written_routingKey,
          if_pos hkey]
        rfl

end Topology

def topicMatches (pattern key : Str) : Bool := Topic.matchKey 46 42 35 pattern key

def deadLetterKey (args : Args) (original : Str) : Str :=
  match args xDeadLetterRoutingKey with
  | some (.string key) => key
  | _ => original

theorem topicMatches_bindRoutingKey {dl : DeadLetter} {args : Args}
    (h : dl.routingKey ≠ [] → args xDeadLetterRoutingKey = some (.string dl.routingKey))
    (original : Str) : topicMatches dl.bindRoutingKey (deadLetterKey args original) = true := by
  unfold DeadLetter.bindRoutingKey
  split
  next => apply Topic.matchKey_hash 46 42 35 (by decide)
  next hkey =>
    unfold deadLetterKey
    rw [h hkey]
    apply Topic.matchKey_self

namespace Topology

variable {t : Topology} {i : Nat} {q : Queue}

theorem expanded_routingKey (t : Topology) (q : Queue)
    : (t.expanded q).args xDeadLetterRoutingKey = t.sourceArgs q xDeadLetterRoutingKey := by
  apply expanded_of_not_mem
  all_goals decide

theorem exists_served (hq : q ∈ t.queues) (hsource : ∃ dl ∈ t.deadLetters, dl.source = q.name)
    : ∃ dl, Served dl t.expand ∧ dl.dlqName = q.name ++ ascii ".dlq"
        ∧ (t.expanded q).args xDeadLetterExchange = some (.string dl.dlxName)
        ∧ (dl.routingKey ≠ [] →
          (t.expanded q).args xDeadLetterRoutingKey = some (.string dl.routingKey)) := by
  have ⟨dl, hdl, hname, hdlx, hkey⟩ := exists_lastEntry hsource
  refine ⟨dl, ?_, ?_, ?_, ?_⟩
  . apply served_of_mem hdl
    rw [hname]
    apply mem_map_of_mem hq
  . unfold DeadLetter.dlqName
    rw [hname]
  . rw [expanded_exchange, hdlx]
  . rw [expanded_routingKey]
    apply hkey

/--
A dead letter of a queue of the caller that is the source of an entry reaches the queue of its dead
letters, whatever its routing key was, when the exchange that it is published to is one that the
expansion has created.
-/
theorem dead_letters_reach (t : Topology) (hvalid : t.validate = none)
    (hq : t.queues[i]? = some q) (hsource : ∃ dl ∈ t.deadLetters, dl.source = q.name)
    : ∃ q' dlx, t.expand.queues[i]? = some q' ∧ q'.name = q.name
        ∧ q'.args xDeadLetterExchange = some (.string dlx)
        ∧ (dlx ∉ t.exchNames →
          (∃ e ∈ t.expand.exchanges, e.name = dlx ∧ e.kind = .topic)
            ∧ (∃ dlq ∈ t.expand.queues, dlq.name = q.name ++ ascii ".dlq")
            ∧ ∀ key, ∃ b ∈ t.expand.bindings, b.exchange = dlx
              ∧ b.queue = q.name ++ ascii ".dlq"
              ∧ topicMatches b.routingKey (deadLetterKey q'.args key) = true) := by
  have ⟨dl, hserved, hdlq, hdlx, hkey⟩ := exists_served (mem_of_getElem? hq) hsource
  have hexpand := expand_queue hq (unique_of_validate hvalid hq)
  refine ⟨t.expanded q, dl.dlxName, hexpand, rfl, hdlx, ?_⟩
  intro hnew
  refine ⟨?_, ?_, ?_⟩
  . have ⟨e, he, hename⟩ := mem_map.mp hserved.exchange
    rw [← hename] at hnew
    exact ⟨e, he, hename, topic_of_created he hnew⟩
  . have ⟨dlq, hmem, hdlqName⟩ := mem_map.mp hserved.queue
    exact ⟨dlq, hmem, hdlqName.trans hdlq⟩
  . intro key
    have ⟨b, hb, hexchange, hqueue, hroutingKey⟩ := hserved.binding
    refine ⟨b, hb, hexchange, hqueue.trans hdlq, ?_⟩
    rw [hroutingKey]
    apply topicMatches_bindRoutingKey hkey

-- the second of two entries of one source, with a pattern for its routing key
def twoEntries : Topology where
  queues := [{ name := ascii "orders" }]
  deadLetters := [{ source := ascii "orders", exchange := ascii "failed" },
    { source := ascii "orders", routingKey := ascii "orders.*.#" }]

theorem dead_letters_reach_twoEntries
    : ∃ q' ∈ twoEntries.expand.queues[0]?, ∀ key, ∃ b ∈ twoEntries.expand.bindings,
        b.exchange = ascii "orders.dlx" ∧ b.queue = ascii "orders.dlq"
          ∧ topicMatches b.routingKey (deadLetterKey q'.args key) = true := by
  have ⟨q', dlx, hq', _, hdlx, hreach⟩ :=
    dead_letters_reach twoEntries (i := 0) (by decide) rfl ⟨_, mem_cons_self, rfl⟩
  have hname := (by decide : ∀ q' ∈ twoEntries.expand.queues[0]?,
    q'.args xDeadLetterExchange = some (.string (ascii "orders.dlx"))) q' hq'
  rw [hdlx, some.injEq, Value.string.injEq] at hname
  subst hname
  exact ⟨q', hq', (hreach (by decide)).2.2⟩

end Topology
end Expand
