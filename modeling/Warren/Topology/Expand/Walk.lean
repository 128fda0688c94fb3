import Warren.Base.LastWins
import Warren.Topology.Expand.Impl

namespace Expand

open LastWins (last)
open List Option

namespace Args

variable {args : Args} {c : Prop} [Decidable c] {k key : Str}

theorem set_self (args : Args) (key : Str) (v : Value) : args.set key v key = some v := by
  simp [set]

theorem set_of_ne (args : Args) (v : Value) (h : k ≠ key) : args.set key v k = args k := by
  simp [set, h]

theorem setIf_self (args : Args) (c : Prop) [Decidable c] (key : Str) (v : Value)
    : args.setIf c key v key = if c then some v else args key := by
  unfold setIf
  split
  . apply set_self
  . rfl

theorem setIf_of_ne (args : Args) (c : Prop) [Decidable c] (v : Value) (h : k ≠ key)
    : args.setIf c key v k = args k := by
  unfold setIf
  split
  . apply set_of_ne args v h
  . rfl

theorem or_setIf {upper lower : Args} (h : ∀ k, args k = (upper k).or (lower k)) (c : Prop)
    [Decidable c] (key : Str) (v : Value) (k : Str)
    : args.setIf c key v k = (upper.setIf c key v k).or (lower k) := by
  by_cases hk : k = key
  . subst hk
    rw [setIf_self, setIf_self]
    split
    . rfl
    . apply h
  . rw [setIf_of_ne _ _ _ hk, setIf_of_ne _ _ _ hk]
    apply h

end Args

namespace DeadLetter

def written (dl : DeadLetter) : Args := dl.setArgs .nil

theorem setArgs_apply (dl : DeadLetter) (args : Args) (k : Str)
    : dl.setArgs args k = (dl.written k).or (args k) := by
  apply Args.or_setIf
  apply Args.or_setIf
  apply Args.or_setIf
  apply Args.or_setIf
  apply Args.or_setIf
  intro k
  by_cases hk : k = xDeadLetterExchange
  . subst hk
    rw [Args.set_self, Args.set_self]
    rfl
  . rw [Args.set_of_ne _ _ hk, Args.set_of_ne _ _ hk]
    rfl

theorem written_exchange (dl : DeadLetter)
    : dl.written xDeadLetterExchange = some (.string dl.dlxName) := by
  simp (disch := decide) only [written, setArgs, Args.setIf_of_ne, Args.set_self]

theorem written_routingKey (dl : DeadLetter)
    : dl.written xDeadLetterRoutingKey
        = if dl.routingKey ≠ [] then some (.string dl.routingKey) else none := by
  simp (disch := decide) only [written, setArgs, Args.setIf_self, Args.setIf_of_ne, Args.set_of_ne]
  rfl

theorem written_overflow (dl : DeadLetter)
    : dl.written xOverflow = if dl.overflow ≠ [] then some (.string dl.overflow) else none := by
  simp (disch := decide) only [written, setArgs, Args.setIf_self, Args.setIf_of_ne, Args.set_of_ne]
  rfl

theorem written_strategy (dl : DeadLetter) : dl.written xDeadLetterStrategy = none := by
  simp (disch := decide) only [written, setArgs, Args.setIf_of_ne, Args.set_of_ne]
  rfl

end DeadLetter

section QueueIdx

variable {queues : List Queue} {name : Str} {i : Nat}

theorem queueIdx_eq (queues : List Queue) (name : Str)
    : queueIdx queues name
        = last (fun qi : Queue × Nat => if qi.1.name = name then some qi.2 else none)
            queues.zipIdx none := by
  apply LastWins.foldl_update (fun qi : Queue × Nat => qi.1.name) (fun qi => qi.2)

theorem queueIdx_eq_some (h : queueIdx queues name = some i)
    : ∃ q, queues[i]? = some q ∧ q.name = name := by
  rw [queueIdx_eq] at h
  cases LastWins.last_eq_some h with
  | inl hinit => cases hinit.1
  | inr hwritten =>
    have ⟨before, qi, after, hqueues, hqi, _⟩ := hwritten
    rw [ite_none_right_eq_some, some.injEq] at hqi
    have ⟨hname, hi⟩ := hqi
    have hmem : qi ∈ queues.zipIdx := by
      rw [hqueues]
      apply mem_append_right
      apply mem_cons_self
    rw [mem_zipIdx_iff_getElem?, hi] at hmem
    exact ⟨qi.1, hmem, hname⟩

theorem queueIdx_eq_none : queueIdx queues name = none ↔ name ∉ queues.map (·.name) := by
  rw [queueIdx_eq, LastWins.last_eq_none]
  simp only [true_and, ite_eq_right_iff, reduceCtorEq, imp_false, List.mem_map, not_exists,
    not_and]
  constructor
  . intro h q hq hname
    have ⟨i, hi⟩ := mem_iff_getElem?.mp hq
    apply h (q, i) (mem_zipIdx_iff_getElem?.mpr hi) hname
  . intro h qi hqi
    apply h qi.1 (mem_of_getElem? (mem_zipIdx_iff_getElem?.mp hqi))

theorem queueIdx_of_unique {q : Queue} (hq : queues[i]? = some q)
    (hunique : ∀ j q', queues[j]? = some q' → q'.name = q.name → j = i)
    : queueIdx queues q.name = some i := by
  cases h : queueIdx queues q.name with
  | none =>
    have hmem := mem_map_of_mem (f := (·.name)) (mem_of_getElem? hq)
    rw [queueIdx_eq_none] at h
    contradiction
  | some j =>
    have ⟨q', hq', hname⟩ := queueIdx_eq_some h
    rw [hunique j q' hq' hname]

end QueueIdx

namespace Topology

variable {t out : Topology} {idx : Str → Option Nat} {i : Nat} {q : Queue}

@[simp]
theorem queues_addExchange (t : Topology) (name : Str)
    : (t.addExchange name).queues = t.queues := by
  unfold addExchange
  split
  all_goals rfl

@[simp]
theorem queues_addBinding (t : Topology) (exchange queue routingKey : Str)
    : (t.addBinding exchange queue routingKey).queues = t.queues := by
  unfold addBinding
  split
  all_goals rfl

theorem queues_addQueue (t : Topology) (name : Str) (args : Args)
    : ∃ qs, (t.addQueue name args).queues = t.queues ++ qs := by
  unfold addQueue
  split
  . exact ⟨[], by simp⟩
  . exact ⟨_, rfl⟩

theorem expandDeadLetter_queue (h : out.queues[i]? = some q) (dl : DeadLetter)
    : (out.expandDeadLetter idx dl).queues[i]?
        = some (if idx dl.source = some i then q.setArgs dl else q) := by
  unfold expandDeadLetter
  split
  next hidx => simp [hidx, h]
  next j hidx =>
    rw [queues_addBinding]
    have ⟨qs, hqs⟩ := queues_addQueue
      ({ out with queues := out.queues.modify j (·.setArgs dl) }.addExchange dl.dlxName)
      dl.dlqName dl.autoDLQArgs
    have hlt : i < (out.queues.modify j (·.setArgs dl)).length := by
      rw [length_modify]
      apply (List.getElem?_eq_some_iff.mp h).1
    rw [hqs, queues_addExchange, getElem?_append_left hlt, getElem?_modify, h, hidx]
    by_cases hj : j = i
    all_goals simp [hj]

def walkedArgs (idx : Str → Option Nat) (i : Nat) (dls : List DeadLetter) (args : Args) : Args :=
  fun k => last (fun dl => if idx dl.source = some i then dl.written k else none) dls (args k)

theorem walk_queue (h : out.queues[i]? = some q) (dls : List DeadLetter)
    : (dls.foldl (expandDeadLetter idx) out).queues[i]?
        = some { q with args := walkedArgs idx i dls q.args } := by
  induction dls generalizing out q with
  | nil => apply h
  | cons dl dls ih =>
    rw [foldl_cons, ih (expandDeadLetter_queue h dl)]
    unfold walkedArgs
    split
    next hidx =>
      simp only [hidx, if_true, LastWins.last_cons]
      unfold Queue.setArgs
      simp only [DeadLetter.setArgs_apply]
    next hidx => simp only [hidx, if_false, LastWins.last_cons, none_or]

end Topology

namespace Queue

def managedKeys : List Str := [xDeliveryLimit, xSingleActiveConsumer, xQueueType, xMaxPriority]

theorem typedArgs_of_not_mem (q : Queue) {k : Str} (hk : k ∉ managedKeys)
    : q.typedArgs k = q.args k := by
  unfold managedKeys at hk
  simp only [mem_cons, not_mem_nil, or_false, not_or] at hk
  unfold typedArgs
  rw [Args.setIf_of_ne _ _ _ hk.2.2.2, Args.setIf_of_ne _ _ _ hk.2.2.1,
    Args.setIf_of_ne _ _ _ hk.2.1, Args.setIf_of_ne _ _ _ hk.1]

abbrev AtLeastOnce (type : QueueType) (args : Args) : Prop :=
  type = .quorum ∧ (args xDeadLetterExchange).isSome
    ∧ (args xDeadLetterStrategy = none
      ∨ args xDeadLetterStrategy = some (.string dlxStrategyAtLeastOnce))

theorem coupleArgs_of_ne (type : QueueType) (args : Args) {k : Str} (hk : k ≠ xDeadLetterStrategy)
    (hk' : k ≠ xOverflow) : coupleArgs type args k = args k := by
  unfold coupleArgs
  split
  . rw [Args.setIf_of_ne _ _ _ hk', Args.setIf_of_ne _ _ _ hk]
  . rfl

theorem coupleArgs_strategy (type : QueueType) (args : Args)
    (h : type = .quorum ∧ (args xDeadLetterExchange).isSome)
    : coupleArgs type args xDeadLetterStrategy
        = (args xDeadLetterStrategy).or (some (.string dlxStrategyAtLeastOnce)) := by
  unfold coupleArgs
  rw [if_pos h, Args.setIf_of_ne _ _ _ (by decide), Args.setIf_self]
  cases args xDeadLetterStrategy with
  | none => rfl
  | some v => rfl

theorem coupleArgs_overflow (type : QueueType) (args : Args)
    : coupleArgs type args xOverflow
        = (args xOverflow).or
            (if AtLeastOnce type args then some (.string OverflowPolicy.rejectPublish)
              else none) := by
  unfold coupleArgs
  by_cases h : type = .quorum ∧ (args xDeadLetterExchange).isSome
  . rw [if_pos h, Args.setIf_self, Args.setIf_of_ne _ _ _ (by decide)]
    have hiff : AtLeastOnce type args ↔ args xDeadLetterStrategy = none
        ∨ args xDeadLetterStrategy = some (.string dlxStrategyAtLeastOnce) := by
      simp [AtLeastOnce, h.1, h.2]
    cases hoverflow : args xOverflow with
    | none => simp [hiff]
    | some v => simp
  . rw [if_neg h, if_neg (fun hALO => h ⟨hALO.1, hALO.2.1⟩), or_none]

end Queue

namespace Topology

variable {t : Topology} {i : Nat} {q : Queue}

def sourceArgs (t : Topology) (q : Queue) : Args := fun k =>
  last (fun dl => if dl.source = q.name then dl.written k else none) t.deadLetters (q.args k)

theorem expand_walked (hq : t.queues[i]? = some q)
    : t.expand.queues[i]? = some { q with
        args := walkedArgs (queueIdx t.queues) i t.deadLetters q.args }.injectArgs := by
  unfold expand expandDeadLetters
  rw [getElem?_map, walk_queue (by exact hq)]
  rfl

theorem name_of_queueIdx (hq : t.queues[i]? = some q) {name : Str}
    (h : queueIdx t.queues name = some i) : name = q.name := by
  have ⟨q', hq', hname⟩ := queueIdx_eq_some h
  rw [hq, some.injEq] at hq'
  rw [← hname, hq']

theorem expand_queue_of_idx (hq : t.queues[i]? = some q) (hidx : queueIdx t.queues q.name = some i)
    : t.expand.queues[i]? = some { q with args := t.sourceArgs q }.injectArgs := by
  have hargs : walkedArgs (queueIdx t.queues) i t.deadLetters q.args = t.sourceArgs q := by
    unfold walkedArgs sourceArgs
    funext k
    apply LastWins.last_congr
    intro dl _
    have hiff : queueIdx t.queues dl.source = some i ↔ dl.source = q.name :=
      ⟨name_of_queueIdx hq, fun hname => hname ▸ hidx⟩
    simp only [hiff]
  rw [expand_walked hq, hargs]

theorem expand_queue (hq : t.queues[i]? = some q)
    (hunique : ∀ j q', t.queues[j]? = some q' → q'.name = q.name → j = i)
    : t.expand.queues[i]? = some { q with args := t.sourceArgs q }.injectArgs :=
  expand_queue_of_idx hq (queueIdx_of_unique hq hunique)

-- the entries of its name are written to another queue
theorem expand_queue_of_ne (hq : t.queues[i]? = some q) (hidx : queueIdx t.queues q.name ≠ some i)
    : t.expand.queues[i]? = some q.injectArgs := by
  have hargs : walkedArgs (queueIdx t.queues) i t.deadLetters q.args = q.args := by
    funext k
    apply LastWins.last_of_forall_none
    intro dl _
    rw [if_neg]
    intro h
    exact hidx (name_of_queueIdx hq h ▸ h)
  rw [expand_walked hq, hargs]

end Topology
end Expand
