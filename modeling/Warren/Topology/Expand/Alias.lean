import Warren.Topology.Expand.Conservative
import Warren.Topology.Expand.Tables

/-!
`expand` with its tables in memory is `Topology.expand`, and no table of the caller is written to.
-/

namespace Expand

open TableHeap (Cell Keeps Shallow)
open Function List Option

namespace Args

theorem setAll_append (args : Args) (kvs kvs' : List (Str × Value))
    : args.setAll (kvs ++ kvs') = (args.setAll kvs).setAll kvs' := by
  unfold setAll
  rw [foldl_append]

theorem setAll_singleton (args : Args) (k : Str) (v : Value)
    : args.setAll [(k, v)] = args.set k v :=
  rfl

theorem setAll_ite (args : Args) (c : Prop) [Decidable c] (k : Str) (v : Value)
    : args.setAll (if c then [(k, v)] else []) = args.setIf c k v := by
  unfold setIf
  split
  all_goals rfl

end Args

theorem setAll_writes (dl : DeadLetter) (args : Args)
    : args.setAll dl.writes = dl.setArgs args := by
  unfold DeadLetter.writes DeadLetter.setArgs
  simp only [Args.setAll_append, Args.setAll_ite, Args.setAll_singleton]

theorem setAll_autoDLQWrites (dl : DeadLetter)
    : Args.nil.setAll dl.autoDLQWrites = dl.autoDLQArgs := by
  unfold DeadLetter.autoDLQWrites DeadLetter.autoDLQArgs
  split
  all_goals rfl

theorem setAll_exchange (e : Exchange) : e.args.setAll e.writes = e.injectArgs.args := by
  unfold Exchange.writes
  apply Args.setAll_ite

theorem setAll_typedWrites (q : Queue) : q.args.setAll q.typedWrites = q.typedArgs := by
  unfold Queue.typedWrites Queue.typedArgs
  simp only [Args.setAll_append, Args.setAll_ite]

section

variable {lookup : Str → Option (Cell Value)} {args : Args}

variable {c : Option (Cell Value)} {v : Option Value}

theorem isSome_of_rel (h : Option.Rel CellHolds c v) : c.isSome = v.isSome := by
  cases h
  all_goals rfl

theorem eq_none_of_rel (h : Option.Rel CellHolds c v) : c = none ↔ v = none := by
  cases h
  all_goals simp

theorem eq_string_of_rel (h : Option.Rel CellHolds c v) (str : Str)
    : c = some (.val (.string str)) ↔ v = some (.string str) := by
  cases h with
  | none => simp
  | some h =>
    next c v =>
      cases c with
      | val v' =>
        have heq : v' = v := h
        simp [heq]
      | map m =>
        have ⟨printed, heq⟩ := h
        simp [heq]

theorem setAll_coupleWrites (type : QueueType) (h : ∀ k, Option.Rel CellHolds (lookup k) (args k))
    : args.setAll (Queue.coupleWrites type lookup) = Queue.coupleArgs type args := by
  unfold Queue.coupleWrites Queue.coupleArgs
  simp only [isSome_of_rel (h _), eq_none_of_rel (h _), eq_string_of_rel (h _)]
  split
  . rw [Args.setAll_append, Args.setAll_ite, Args.setAll_ite,
      Args.setIf_of_ne _ _ _ (by decide)]
  . rfl

end

namespace Topology

variable {t : Topology} {i : Nat}

def bare (t : Topology) : Topology where
  exchanges := t.exchanges.map (fun e => { e with args := .nil })
  queues := t.queues.map (fun q => { q with args := .nil })
  bindings := t.bindings.map (fun b => { b with args := .nil })
  deadLetters := t.deadLetters
  exchangeBindings := t.exchangeBindings.map (fun eb => { eb with args := .nil })

def argsAt (t : Topology) : Pos → Args
  | .exchange i => (t.exchanges[i]?).elim .nil (·.args)
  | .queue i => (t.queues[i]?).elim .nil (·.args)
  | .binding i => (t.bindings[i]?).elim .nil (·.args)
  | .exchangeBinding i => (t.exchangeBindings[i]?).elim .nil (·.args)

@[simp]
theorem exchNames_bare (t : Topology) : t.bare.exchNames = t.exchNames := by
  simp [bare, exchNames, comp_def]

@[simp]
theorem queueNames_bare (t : Topology) : t.bare.queueNames = t.queueNames := by
  simp [bare, queueNames, comp_def]

@[simp]
theorem bindingKeys_bare (t : Topology) : t.bare.bindingKeys = t.bindingKeys := by
  simp [bare, bindingKeys, comp_def]

theorem elim_append_of_nil {α : Type} (f : α → Args) (xs : List α) {x : α} (hx : f x = .nil)
    (i : Nat) : ((xs ++ [x])[i]?).elim .nil f = (xs[i]?).elim .nil f := by
  rw [getElem?_append]
  split
  . rfl
  . next hge =>
    rw [getElem?_eq_none (Nat.le_of_not_lt hge)]
    cases i - xs.length with
    | zero => exact hx
    | succ => rfl

theorem bare_addExchange (t : Topology) (name : Str)
    : (t.addExchange name).bare = t.bare.addExchange name := by
  unfold addExchange
  rw [exchNames_bare]
  split
  . rfl
  . simp [bare]

theorem argsAt_addExchange (t : Topology) (name : Str)
    : (t.addExchange name).argsAt = t.argsAt := by
  unfold addExchange
  split
  . rfl
  . funext p
    cases p with
    | exchange i => apply elim_append_of_nil _ _ rfl
    | _ i => rfl

theorem bare_addBinding (t : Topology) (exchange queue routingKey : Str)
    : (t.addBinding exchange queue routingKey).bare
        = t.bare.addBinding exchange queue routingKey := by
  unfold addBinding
  rw [bindingKeys_bare]
  split
  . rfl
  . simp [bare]

theorem argsAt_addBinding (t : Topology) (exchange queue routingKey : Str)
    : (t.addBinding exchange queue routingKey).argsAt = t.argsAt := by
  unfold addBinding
  split
  . rfl
  . funext p
    cases p with
    | binding i => apply elim_append_of_nil _ _ rfl
    | _ i => rfl

theorem bare_addQueue (t : Topology) (name : Str) (args : Args)
    : (t.addQueue name args).bare = t.bare.addQueue name .nil := by
  unfold addQueue
  rw [queueNames_bare]
  split
  . rfl
  . simp [bare]

theorem argsAt_addQueue {name : Str} (hnew : name ∉ t.queueNames) (args : Args)
    : (t.addQueue name args).argsAt
        = update t.argsAt (.queue t.queues.length) args := by
  unfold addQueue
  rw [if_neg hnew]
  funext p
  cases p with
  | queue i =>
    by_cases hi : i = t.queues.length
    . subst hi
      simp [argsAt]
    . rw [update_of_ne (by simpa using hi)]
      unfold argsAt
      dsimp only
      rw [getElem?_append]
      split
      . rfl
      . rw [getElem?_eq_none (by simp; omega), getElem?_eq_none (by omega)]
  | _ i => rfl

theorem bare_modify (t : Topology) (i : Nat) (dl : DeadLetter)
    : { t with queues := t.queues.modify i (·.setArgs dl) }.bare = t.bare := by
  unfold bare
  congr 1
  apply ext_getElem?
  intro j
  rw [getElem?_map, getElem?_map, getElem?_modify]
  cases t.queues[j]? with
  | none => rfl
  | some q =>
    by_cases hj : i = j
    . simp [hj, Queue.setArgs]
    . simp [hj]

theorem argsAt_modify (hi : i < t.queues.length) (dl : DeadLetter)
    : { t with queues := t.queues.modify i (·.setArgs dl) }.argsAt
        = update t.argsAt (.queue i) (dl.setArgs (t.argsAt (.queue i))) := by
  funext p
  cases p with
  | queue j =>
    unfold argsAt
    dsimp only
    rw [getElem?_modify]
    by_cases hj : i = j
    . subst hj
      simp [getElem?_eq_getElem hi, Queue.setArgs]
    . rw [update_of_ne (by simpa using fun h => hj h.symm)]
      simp [hj]
  | _ j => rfl

end Topology

namespace Memory

variable {h₀ : Heap} {args₀ : Pos → Option Nat} {t : Topology} {s : Memory}
  {idx : Str → Option Nat} {n : Nat}

-- the memory has the topology `t`, and shares no table of an element with the caller
structure Refines (h₀ : Heap) (args₀ : Pos → Option Nat) (t : Topology) (s : Memory) : Prop where
  out : s.out = t.bare
  sim : Sim h₀ args₀ [] t.argsAt s

theorem Refines.addExchange (h : Refines h₀ args₀ t s) (name : Str)
    : Refines h₀ args₀ (t.addExchange name) { s with out := s.out.addExchange name } where
  out := by rw [h.out, Topology.bare_addExchange]
  sim := by
    rw [Topology.argsAt_addExchange]
    exact ⟨h.sim.keeps, h.sim.holds, h.sim.shared, h.sim.own, h.sim.inj⟩

theorem Refines.addBinding (h : Refines h₀ args₀ t s) (exchange queue routingKey : Str)
    : Refines h₀ args₀ (t.addBinding exchange queue routingKey)
        { s with out := s.out.addBinding exchange queue routingKey } where
  out := by rw [h.out, Topology.bare_addBinding]
  sim := by
    rw [Topology.argsAt_addBinding]
    exact ⟨h.sim.keeps, h.sim.holds, h.sim.shared, h.sim.own, h.sim.inj⟩

theorem Refines.setArgs {i : Nat} (h : Refines h₀ args₀ t s) (hi : i < t.queues.length)
    (dl : DeadLetter)
    : Refines h₀ args₀ { t with queues := t.queues.modify i (·.setArgs dl) }
        (s.write (.queue i) dl.writes) := by
  have hsim := h.sim.write (p := .queue i) not_mem_nil dl.writes
  refine ⟨?_, ?_⟩
  . rw [out_write, h.out, Topology.bare_modify]
  . rw [Topology.argsAt_modify hi, ← setAll_writes]
    apply hsim

theorem Refines.addQueue (h : Refines h₀ args₀ t s) (dl : DeadLetter)
    : Refines h₀ args₀ (t.addQueue dl.dlqName dl.autoDLQArgs)
        (s.addQueue dl.dlqName dl.autoDLQWrites) := by
  unfold Memory.addQueue
  rw [h.out, Topology.queueNames_bare]
  split
  next hold =>
    unfold Topology.addQueue
    rw [if_pos hold]
    apply h
  next hnew =>
    have hlength : t.bare.queues.length = t.queues.length := by simp [Topology.bare]
    have hbare : Sim h₀ args₀ [] t.argsAt { s with out := t.bare.addQueue dl.dlqName .nil } :=
      ⟨h.sim.keeps, h.sim.holds, h.sim.shared, h.sim.own, h.sim.inj⟩
    have hsim := hbare.write (p := .queue t.queues.length) not_mem_nil dl.autoDLQWrites
    rw [hlength]
    refine ⟨?_, ?_⟩
    . rw [out_write, Topology.bare_addQueue]
    . have hnil : t.argsAt (.queue t.queues.length) = .nil := by simp [Topology.argsAt]
      rw [hnil, setAll_autoDLQWrites] at hsim
      rw [Topology.argsAt_addQueue hnew]
      apply hsim

theorem Refines.expandDeadLetter {dl : DeadLetter} (h : Refines h₀ args₀ t s)
    (hidx : ∀ i, idx dl.source = some i → i < t.queues.length)
    : Refines h₀ args₀ (t.expandDeadLetter idx dl) (s.expandDeadLetter idx dl) := by
  unfold Topology.expandDeadLetter Memory.expandDeadLetter
  cases hi : idx dl.source with
  | none => apply h
  | some i => exact ((((h.setArgs (hidx i hi) dl).addExchange _).addQueue dl).addBinding _ _ _)

theorem length_queues_expandDeadLetter (idx : Str → Option Nat) (t : Topology) (dl : DeadLetter)
    : t.queues.length ≤ (t.expandDeadLetter idx dl).queues.length := by
  have hle := (Topology.grown_expandDeadLetter idx t dl).queueNames.length_le
  simpa [Topology.queueNames] using hle

theorem Refines.expandDeadLetters {dls : List DeadLetter} (h : Refines h₀ args₀ t s)
    (hidx : ∀ name i, idx name = some i → i < t.queues.length)
    : Refines h₀ args₀ (dls.foldl (Topology.expandDeadLetter idx) t)
        (dls.foldl (Memory.expandDeadLetter idx) s) := by
  induction dls generalizing t s with
  | nil => apply h
  | cons dl dls ih =>
    apply ih (h.expandDeadLetter (hidx dl.source))
    intro name i hi
    apply Nat.lt_of_lt_of_le (hidx name i hi) (length_queues_expandDeadLetter idx t dl)

def injected (t : Topology) : Pos → Args → Args
  | .queue i, args => (t.queues[i]?).elim args (fun q => { q with args }.injectArgs.args)
  | _, args => args

theorem lookup_rel (hsim : Sim h₀ args₀ [] A s) (p : Pos) (k : Str)
    : Option.Rel CellHolds (s.lookup p k) (A p k) := by
  have ⟨tbl, htbl, hlookup⟩ := hsim.holds p
  unfold Memory.lookup
  rw [htbl]
  apply hlookup

theorem Sim.injectArgs {A : Pos → Args} {i : Nat} (hsim : Sim h₀ args₀ [] A s)
    (hout : s.out = t.bare)
    : Sim h₀ args₀ [] (update A (.queue i) (injected t (.queue i) (A (.queue i))))
        (s.injectArgs i)
        ∧ (s.injectArgs i).out = s.out := by
  have hbare : s.out.queues[i]? = (t.queues[i]?).map (fun q => { q with args := .nil }) := by
    rw [hout]
    simp [Topology.bare]
  unfold Memory.injectArgs injected
  dsimp only
  rw [hbare]
  cases t.queues[i]? with
  | none =>
    refine ⟨?_, rfl⟩
    rw [elim_none, update_eq_self]
    apply hsim
  | some q =>
    have hsim₁ := hsim.write (p := .queue i) not_mem_nil q.typedWrites
    have hsim₂ := hsim₁.write (p := .queue i) not_mem_nil
      (Queue.coupleWrites q.type ((s.write (.queue i) q.typedWrites).lookup (.queue i)))
    have hargs := setAll_coupleWrites q.type (lookup_rel hsim₁ (.queue i))
    rw [update_idem, hargs, update_self] at hsim₂
    refine ⟨?_, ?_⟩
    . have htyped := setAll_typedWrites { q with args := A (.queue i) }
      have heq : { q with args := A (.queue i) }.injectArgs.args
          = Queue.coupleArgs q.type ((A (.queue i)).setAll q.typedWrites) := by
        unfold Queue.injectArgs
        rw [← htyped]
        rfl
      rw [elim_some, heq]
      apply hsim₂
    . dsimp only [map_some]
      rw [out_write, out_write]

theorem Sim.injectAll {A : Pos → Args} (is : List Nat) (hsim : Sim h₀ args₀ [] A s)
    (hout : s.out = t.bare)
    : Sim h₀ args₀ [] (updateAll (injected t) (is.map .queue) A) (is.foldl Memory.injectArgs s)
        ∧ (is.foldl Memory.injectArgs s).out = s.out := by
  induction is generalizing A s with
  | nil => exact ⟨hsim, rfl⟩
  | cons i is ih =>
    have ⟨hsim₁, hout₁⟩ := hsim.injectArgs (i := i) hout
    have ⟨hsim', hout'⟩ := ih hsim₁ (hout₁.trans hout)
    exact ⟨hsim', hout'.trans hout₁⟩

theorem mem_positions_exchange (t : Topology) (i : Nat)
    : .exchange i ∈ positions t ↔ i < t.exchanges.length := by
  simp [positions]

theorem nodup_positions (t : Topology) : (positions t).Nodup := by
  have hmap : ∀ (f : Nat → Pos), (∀ i j, f i = f j → i = j) → ∀ l,
      ((range l).map f).Nodup := by
    intro f hf l
    apply nodup_range.map
    intro i j
    apply hf i j
  unfold positions
  rw [nodup_append', nodup_append', nodup_append']
  simp only [disjoint_left, mem_append, List.mem_map]
  refine ⟨⟨⟨hmap _ ?_ _, hmap _ ?_ _, ?_⟩, hmap _ ?_ _, ?_⟩, hmap _ ?_ _, ?_⟩
  all_goals grind

structure Represents (h : Heap) (args : Pos → Option Nat) (n : Nat) (t : Topology) : Prop where
  holds : ∀ p, Holds h (args p) (t.argsAt p)
  outside : ∀ p, p ∉ positions t → args p = none
  shallow : ∀ p r, args p = some r → Shallow h n (.map (some r))

theorem Represents.sim {h : Heap} {args : Pos → Option Nat} (hcaller : Represents h args n t)
    : Sim h args (positions t) t.argsAt ⟨h, t.bare, args⟩ := by
  refine ⟨.refl h, hcaller.holds, fun _ _ => rfl, ?_, ?_⟩
  . intro p r hp hr
    have hnone := hcaller.outside p hp
    have hargs : args p = some r := hr
    rw [hargs] at hnone
    contradiction
  . intro p p' r hr hp _
    have hholds := hcaller.holds p
    have hargs : args p = some r := hp
    rw [hargs] at hholds
    exact absurd hholds.lt_length (by omega)

theorem argsAt_copied (t : Topology)
    : updateAll (fun p args => args.setAll (writesAt t.bare p)) (positions t) t.argsAt
        = { t with exchanges := t.exchanges.map Exchange.injectArgs }.argsAt := by
  funext p
  by_cases hp : p ∈ positions t
  . rw [updateAll_of_mem (nodup_positions t) hp]
    cases p with
    | exchange i =>
      have hlt := (mem_positions_exchange t i).mp hp
      have he : t.bare.exchanges[i]? = some { t.exchanges[i] with args := .nil } := by
        simp [Topology.bare, hlt]
      unfold writesAt Topology.argsAt
      simp only [he, getElem?_map, getElem?_eq_getElem hlt]
      apply setAll_exchange
    | _ i => rfl
  . rw [updateAll_of_not_mem hp]
    cases p with
    | exchange i =>
      rw [mem_positions_exchange, Nat.not_lt] at hp
      simp [Topology.argsAt, hp]
    | _ i => rfl

theorem argsAt_injected (t : Topology)
    : updateAll (injected t) ((range t.queues.length).map .queue) t.argsAt
        = { t with queues := t.queues.map Queue.injectArgs }.argsAt := by
  have hnodup : ((range t.queues.length).map Pos.queue).Nodup := by
    apply nodup_range.map
    grind [Function.Injective]
  funext p
  by_cases hp : p ∈ (range t.queues.length).map Pos.queue
  . rw [updateAll_of_mem hnodup hp]
    have ⟨i, hi, hpi⟩ := mem_map.mp hp
    subst hpi
    rw [mem_range] at hi
    simp [Topology.argsAt, injected, hi]
  . rw [updateAll_of_not_mem hp]
    cases p with
    | queue i =>
      have hle : t.queues.length ≤ i := by simpa using hp
      simp [Topology.argsAt, hle]
    | _ i => rfl

theorem positions_bare (t : Topology) : positions t.bare = positions t := by
  simp [positions, Topology.bare]

theorem queueIdx_bare (t : Topology) : queueIdx t.bare.queues = queueIdx t.queues := by
  funext name
  rw [queueIdx_eq, queueIdx_eq]
  unfold Topology.bare
  rw [zipIdx_map]
  unfold LastWins.last
  rw [foldl_map]
  rfl

theorem Represents.expand {h : Heap} {args : Pos → Option Nat} (hcaller : Represents h args n t)
    : ∃ s, Memory.expand n ⟨h, t.bare, args⟩ = some s ∧ s.out = t.expand.bare
        ∧ Sim h args [] t.expand.argsAt s := by
  obtain ⟨s₁, hcopy, hsim₁, hout₁⟩ := hcaller.sim.copyElems (nodup_positions t) hcaller.shallow
  have hrefines₁ : Refines h args { t with exchanges := t.exchanges.map Exchange.injectArgs } s₁ := by
    refine ⟨?_, ?_⟩
    . rw [hout₁]
      simp [Topology.bare, Exchange.injectArgs]
    . rw [← argsAt_copied]
      apply hsim₁
  have hrefines₂ : Refines h args t.expandDeadLetters
      (t.deadLetters.foldl (Memory.expandDeadLetter (queueIdx t.queues)) s₁) := by
    apply hrefines₁.expandDeadLetters
    intro name i hi
    obtain ⟨q, hq, _⟩ := queueIdx_eq_some hi
    apply (List.getElem?_eq_some_iff.mp hq).1
  have hlength : t.expandDeadLetters.bare.queues.length = t.expandDeadLetters.queues.length := by
    simp [Topology.bare]
  obtain ⟨hsim₃, hout₃⟩ := hrefines₂.sim.injectAll (range t.expandDeadLetters.queues.length)
    hrefines₂.out
  rw [argsAt_injected] at hsim₃
  refine ⟨_, ?_, ?_, hsim₃⟩
  . unfold Memory.expand
    rw [positions_bare, hcopy]
    simp only [map_some, hout₁, queueIdx_bare]
    rw [← hlength, ← hrefines₂.out]
    rfl
  . rw [hout₃, hrefines₂.out]
    simp [Topology.bare, Topology.expand, Queue.injectArgs]

end Memory

/--
The expansion has what the caller has declared and what its declared entries add, and done in memory
it leaves every table of the caller as it was.
-/
theorem Topology.expand_conserves (t : Topology) (hvalid : t.validate = none)
    : t.Conserves t.expand
        ∧ ∀ (h : Heap) (args : Pos → Option Nat) (n : Nat), Memory.Represents h args n t →
          ∃ s, Memory.expand n ⟨h, t.bare, args⟩ = some s ∧ s.out = t.expand.bare
            ∧ (∀ p, Holds s.heap (s.args p) (t.expand.argsAt p))
            ∧ Keeps h s.heap ∧ ∀ p, Holds s.heap (args p) (t.argsAt p) := by
  refine ⟨conserves_expand hvalid, ?_⟩
  intro h args n hcaller
  have ⟨s, hs, hout, hsim⟩ := hcaller.expand
  refine ⟨s, hs, hout, hsim.holds, hsim.keeps, ?_⟩
  intro p
  apply (hcaller.holds p).keeps hsim.keeps

namespace Topology

def oneTable : Topology where
  queues := [{ name := ascii "orders", args := Args.nil.set (ascii "x-expires") (.int64 60000) }]
  deadLetters := [{ source := ascii "orders" }]

def oneTableHeap : Heap := [AList.singleton (ascii "x-expires") (.val (.int64 60000))]

def oneTableArgs : Pos → Option Nat := fun p => if p = .queue 0 then some 0 else none

theorem represents_oneTable : Memory.Represents oneTableHeap oneTableArgs 1 oneTable := by
  refine ⟨?_, ?_, ?_⟩
  . intro p
    unfold oneTableArgs
    split
    next hp =>
      subst hp
      refine ⟨_, rfl, ?_⟩
      intro k
      by_cases hk : k = ascii "x-expires"
      . subst hk
        exact .some rfl
      . rw [← AList.insert_empty, AList.lookup_insert_ne hk]
        change Option.Rel CellHolds none (Args.nil.set _ _ k)
        rw [Args.set_of_ne _ _ hk]
        exact .none
    next hp =>
      have hnil : oneTable.argsAt p = .nil := by
        cases p with
        | queue i =>
          cases i with
          | zero => contradiction
          | succ i => rfl
        | _ i => rfl
      rw [hnil]
      apply holds_nil
  . intro p hp
    apply if_neg
    intro hqueue
    subst hqueue
    apply hp
    decide
  . intro p r hr
    have ⟨_, hzero⟩ := ite_none_right_eq_some.mp hr
    cases hzero
    refine ⟨_, rfl, ?_⟩
    intro k c hc
    by_cases hk : k = ascii "x-expires"
    . subst hk
      cases hc
      trivial
    . rw [← AList.insert_empty, AList.lookup_insert_ne hk] at hc
      contradiction

theorem expand_conserves_oneTable
    : oneTable.expand.queueNames.Nodup
        ∧ ∃ s, Memory.expand 1 ⟨oneTableHeap, oneTable.bare, oneTableArgs⟩ = some s
          ∧ s.heap[0]? = oneTableHeap[0]? := by
  have ⟨hconserves, hmemory⟩ := expand_conserves oneTable (by decide)
  have ⟨s, hs, _, _, hkeeps, _⟩ := hmemory _ _ _ represents_oneTable
  exact ⟨hconserves.queueNames, s, hs, hkeeps 0 _ rfl⟩

end Topology
end Expand
