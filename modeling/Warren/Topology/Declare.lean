import Mathlib.Data.Set.Insert
import Warren.Base.Converge
import Warren.Errors.Paths
import Warren.Topology.Expand.Conservative

/-!
`Topology.Declare`, `declareOnChannel` and `runTopologyRedeclare` (`topology.go`) against any broker
that keeps what is declared. The warnings of `Declare` are left out.
-/

namespace Expand

open Converge Errors

/--
The calls of a `topologyChannel`. Of a queue its typed fields are not sent, `expand` has put them
into the arguments.
-/
inductive Method where
  | exchangeDeclare (e : Exchange)
  | queueDeclare (q : Queue)
  | queueBind (b : Binding)
  | exchangeBind (eb : ExchangeBinding)

inductive Entity where
  | exchange (name : Str)
  | queue (name : Str)
  deriving DecidableEq

namespace Method

def noWait : Method → Bool
  | exchangeDeclare e => e.noWait
  | queueDeclare q => q.noWait
  | queueBind b => b.noWait
  | exchangeBind eb => eb.noWait

def entity : Method → Option Entity
  | exchangeDeclare e => some (.exchange e.name)
  | queueDeclare q => some (.queue q.name)
  | _ => none

def ends : Method → List Entity
  | queueBind b => [.queue b.queue, .exchange b.exchange]
  | exchangeBind eb => [.exchange eb.destination, .exchange eb.source]
  | _ => []

end Method

namespace Topology

def declares (t : Topology) : List Method :=
  t.exchanges.map .exchangeDeclare ++ t.queues.map .queueDeclare

def binds (t : Topology) : List Method :=
  t.bindings.map .queueBind ++ t.exchangeBindings.map .exchangeBind

-- the four loops of `declareOnChannel`
def methods (t : Topology) : List Method := t.declares ++ t.binds

section Channel

variable {σ : Type} (call : σ → Method → σ × Option LibErr)

def declareOnChannel (t : Topology) (s : σ) : σ × Option Err :=
  ((send call t.methods s).1, Errors.declareOnChannel (send call t.methods s).2)

-- each snapshot with the `ctx.Err` and the channel that its turn of the loop gets
def runTopologyRedeclare : List (Option CtxErr × OpenChannel × Topology) → σ → σ × Option Err
  | [], s => (s, none)
  | (ctxErr, channel, t) :: rest, s =>
    match (ctxErr.map CtxErr.err).or (openChannel channel) with
    | some err => (s, some err)
    | none =>
      match t.declareOnChannel call s with
      | (s', some err) => (s', some err)
      | (s', none) => runTopologyRedeclare rest s'

def declare (t : Topology) (channel : OpenChannel) (s : σ) : σ × Option (InvalidOptions ⊕ Err) :=
  match t.validate with
  | some err => (s, some (.inl err))
  | none =>
    match openChannel channel with
    | some err => (s, some (.inr err))
    | none => (t.expand.declareOnChannel call s).map id (·.map .inr)

end Channel
end Topology

/--
What the caller relies on. The broker grants a method that is `free`, which is one that it allows and
that has no other under its name, if both ends of a binding are there.
-/
structure Accepting {σ : Type} (call : σ → Method → σ × Option LibErr) (has free : σ → Method → Prop)
    (there : σ → Entity → Prop) : Prop extends Lawful call has (fun m => m.noWait = false) where
  accepts : ∀ s m, free s m → (∀ n ∈ m.ends, there s n) →
    (call s m).2 = none ∧ has (call s m).1 m
  free_call : ∀ s m m', free s m → has (call s m').1 m' →
    (m'.entity = m.entity → m.entity ≠ none → m' = m) → free (call s m').1 m
  there_call : ∀ s m n, there s n → has (call s m).1 m → there (call s m).1 n
  there_of_has : ∀ s m n, has s m → m.entity = some n → there s n

namespace Topology

variable {σ : Type} {call : σ → Method → σ × Option LibErr} {has free : σ → Method → Prop}
variable {there : σ → Entity → Prop} {t : Topology} {s : σ} {m : Method}

theorem granted_iff : Granted (send call t.methods s) ↔ (t.declareOnChannel call s).2 = none := by
  simp [declareOnChannel, Errors.declareOnChannel, Granted]

theorem declareOnChannel_of_granted (h : Granted (send call t.methods s))
    : t.declareOnChannel call s = ((send call t.methods s).1, none) :=
  Prod.ext rfl (granted_iff.mp h)

theorem declareOnChannel_again {told : Method → Prop} (h : Lawful call has told)
    (hs : ∀ m ∈ t.methods, has s m) : t.declareOnChannel call s = (s, none) := by
  obtain ⟨hstore, hgranted⟩ := h.send_again hs
  rw [declareOnChannel_of_granted hgranted, hstore]

theorem declare_eq (hvalid : t.validate = none)
    : t.declare call .opened s = (t.expand.declareOnChannel call s).map id (·.map .inr) := by
  simp [declare, hvalid, openChannel]

def entities (t : Topology) : List Entity := t.declares.filterMap Method.entity

theorem exchange_mem_entities {name : Str} (h : name ∈ t.exchNames)
    : .exchange name ∈ t.entities := by
  simp_all [entities, declares, Method.entity, exchNames]

theorem queue_mem_entities {name : Str} (h : name ∈ t.queueNames) : .queue name ∈ t.entities := by
  simp_all [entities, declares, Method.entity, queueNames]

theorem mem_declares_iff (hm : m ∈ t.methods) : m ∈ t.declares ↔ m.entity ≠ none := by
  simp only [methods, declares, binds, List.mem_append, List.mem_map] at hm ⊢
  grind [Method.entity]

theorem declares_unique (hvalid : t.validate = none) {m' : Method} {n : Entity}
    (hm : m ∈ t.expand.declares) (hm' : m' ∈ t.expand.declares) (hn : m.entity = some n)
    (hn' : m'.entity = some n) : m = m' := by
  have hconserves := conserves_expand hvalid
  have hexch := List.inj_on_of_nodup_map hconserves.exchNames
  have hqueue := List.inj_on_of_nodup_map hconserves.queueNames
  simp only [declares, List.mem_append, List.mem_map] at hm hm'
  grind [Method.entity]

-- what `expand` binds has been declared for the same entry
theorem ends_expand {P : Entity → Prop}
    (h : ∀ m ∈ t.binds, ∀ n ∈ m.ends, n ∈ t.expand.entities ∨ P n)
    : ∀ m ∈ t.expand.binds, ∀ n ∈ m.ends, n ∈ t.expand.entities ∨ P n := by
  obtain ⟨added, hbindings, hadded, _⟩ := t.extends_expandDeadLetters.bindings
  intro m hm
  simp only [binds, List.mem_append, List.mem_map] at hm
  rcases hm with ⟨b, hb, rfl⟩ | ⟨eb, heb, rfl⟩
  . change b ∈ t.expandDeadLetters.bindings at hb
    rw [hbindings] at hb
    cases List.mem_append.mp hb with
    | inl hb => exact h _ (List.mem_append_left _ (List.mem_map_of_mem hb))
    | inr hb =>
      obtain ⟨⟨dl, ⟨hdl, hsource⟩, rfl⟩, _⟩ := hadded b hb
      have hserved := served_of_mem hdl hsource
      intro n hn
      left
      simp only [Method.ends, List.mem_cons, List.not_mem_nil, or_false] at hn
      rcases hn with rfl | rfl
      . exact queue_mem_entities hserved.queue
      . exact exchange_mem_entities hserved.exchange
  . change eb ∈ t.expandDeadLetters.exchangeBindings at heb
    rw [t.extends_expandDeadLetters.exchangeBindings] at heb
    exact h _ (List.mem_append_right _ (List.mem_map_of_mem heb))

theorem mem_of_bind {pre post : List Method} (hms : t.methods = pre ++ m :: post)
    (hm : m ∉ t.declares) {m' : Method} (hm' : m' ∈ t.declares) : m' ∈ pre := by
  rcases List.append_eq_append_iff.mp hms with ⟨rest, hpre, _⟩ | ⟨rest, hdeclares, hrest⟩
  . rw [hpre]
    exact List.mem_append_left _ hm'
  . cases rest with
    | nil => simpa [hdeclares] using hm'
    | cons m₁ rest =>
      cases (List.cons.inj hrest).1
      exact absurd (by simp [hdeclares]) hm

-- the store `s'` is `s` after the methods of `pre`
structure Reached (has free : σ → Method → Prop) (there : σ → Entity → Prop) (t : Topology) (s : σ)
    (pre : List Method) (s' : σ) : Prop where
  has : ∀ m ∈ pre, has s' m
  free : ∀ m ∈ t.methods, free s' m
  there : ∀ n, there s n → there s' n

theorem ends_eq_nil {n : Entity} (h : m.entity = some n) : m.ends = [] := by
  cases m <;> first | rfl | contradiction

theorem Reached.ends {s' : σ} {pre post : List Method} (h : Accepting call has free there)
    (hreached : Reached has free there t s pre s')
    (hends : ∀ m ∈ t.binds, ∀ n ∈ m.ends, n ∈ t.entities ∨ there s n)
    (hms : t.methods = pre ++ m :: post) : ∀ n ∈ m.ends, there s' n := by
  have hm : m ∈ t.methods := by simp [hms]
  intro n hn
  have hbind : m ∉ t.declares := by
    intro hdeclares
    obtain ⟨n', hn'⟩ := Option.ne_none_iff_exists'.mp ((mem_declares_iff hm).mp hdeclares)
    simp [ends_eq_nil hn'] at hn
  cases hends m ((List.mem_append.mp hm).resolve_left hbind) n hn with
  | inr hs => exact hreached.there n hs
  | inl hentity =>
    obtain ⟨m', hm', hn'⟩ := List.mem_filterMap.mp hentity
    exact h.there_of_has s' m' n (hreached.has m' (mem_of_bind hms hbind hm')) hn'

theorem Reached.next {s' : σ} {pre : List Method} (h : Accepting call has free there)
    (hreached : Reached has free there t s pre s') (hhas : has (call s' m).1 m) (hm : m ∈ t.methods)
    (hunique : ∀ m ∈ t.declares, ∀ m' ∈ t.declares, ∀ n,
      m.entity = some n → m'.entity = some n → m = m')
    : Reached has free there t s (pre ++ [m]) (call s' m).1 := by
  refine ⟨?_, ?_, fun n hn => h.there_call s' m n (hreached.there n hn) hhas⟩
  . intro m' hm'
    cases List.mem_append.mp hm' with
    | inl hm' => exact h.kept s' m' m (hreached.has m' hm') hhas
    | inr hm' =>
      rw [List.mem_singleton.mp hm']
      exact hhas
  . intro m' hm'
    refine h.free_call s' m' m (hreached.free m' hm') hhas ?_
    intro heq hne
    obtain ⟨n, hn⟩ := Option.ne_none_iff_exists'.mp hne
    exact hunique m ((mem_declares_iff hm).mpr (heq ▸ hne)) m' ((mem_declares_iff hm').mpr hne) n
      (heq ▸ hn) hn

/--
The broker refuses nothing of a valid topology that is free with it, unless a binding of the caller
is to something that nobody has declared. Declared again, the topology changes nothing.
-/
theorem declare_accepted (h : Accepting call has free there) (hvalid : t.validate = none)
    (hfree : ∀ m ∈ t.expand.methods, free s m)
    (hends : ∀ m ∈ t.binds, ∀ n ∈ m.ends, n ∈ t.expand.entities ∨ there s n)
    : ∃ s', t.declare call .opened s = (s', none)
        ∧ (∀ m ∈ t.expand.methods, has s' m)
        ∧ t.declare call .opened s' = (s', none) := by
  have hstart : Reached has free there t.expand s [] s := ⟨by simp, hfree, fun _ h => h⟩
  have hstep : ∀ pre m post s', Reached has free there t.expand s pre s' →
      t.expand.methods = pre ++ m :: post →
      (call s' m).2 = none ∧ Reached has free there t.expand s (pre ++ [m]) (call s' m).1 := by
    intro pre m post s' hreached hms
    have hm : m ∈ t.expand.methods := by simp [hms]
    obtain ⟨hreply, hhas⟩ :=
      h.accepts s' m (hreached.free m hm) (hreached.ends h (ends_expand hends) hms)
    refine ⟨hreply, hreached.next h hhas hm ?_⟩
    intro m hm m' hm' n
    exact declares_unique hvalid hm hm'
  obtain ⟨hgranted, hreached⟩ := granted_of_inv hstep hstart rfl
  have hhas : ∀ m ∈ t.expand.methods, has (send call t.expand.methods s).1 m := hreached.has
  refine ⟨(send call t.expand.methods s).1, ?_, hhas, ?_⟩
  . rw [declare_eq hvalid, declareOnChannel_of_granted hgranted]
    rfl
  . rw [declare_eq hvalid, declareOnChannel_again h.toLawful hhas]
    rfl

section Redeclare

-- the turns as `Errors.runTopologyRedeclare` has them, with the replies of this broker
def redeclares (call : σ → Method → σ × Option LibErr)
    : List (Option CtxErr × OpenChannel × Topology) → σ → List Redeclare
  | [], _ => []
  | (ctxErr, channel, t) :: rest, s =>
    ⟨ctxErr, channel, (send call t.methods s).2⟩ :: redeclares call rest (send call t.methods s).1

theorem runTopologyRedeclare_eq (turns : List (Option CtxErr × OpenChannel × Topology)) (s : σ)
    : (runTopologyRedeclare call turns s).2
        = Errors.runTopologyRedeclare (redeclares call turns s) := by
  induction turns generalizing s with
  | nil => rfl
  | cons turn turns ih =>
    obtain ⟨ctxErr, channel, t⟩ := turn
    have hrun : (Redeclare.mk ctxErr channel (send call t.methods s).2).run
        = ((ctxErr.map CtxErr.err).or (openChannel channel)).or (t.declareOnChannel call s).2 := rfl
    rw [Errors.runTopologyRedeclare, redeclares, List.findSome?_cons, hrun, runTopologyRedeclare]
    cases (ctxErr.map CtxErr.err).or (openChannel channel) with
    | some err => rfl
    | none =>
      rw [Option.none_or, declareOnChannel]
      cases Errors.declareOnChannel (send call t.methods s).2 with
      | some err => rfl
      | none => exact ih (send call t.methods s).1

variable {turn : Option CtxErr × OpenChannel × Topology}
variable {turns : List (Option CtxErr × OpenChannel × Topology)}

theorem runTopologyRedeclare_cons_of_nil
    (h : (runTopologyRedeclare call (turn :: turns) s).2 = none)
    : (turn.1.map CtxErr.err).or (openChannel turn.2.1) = none
      ∧ (turn.2.2.declareOnChannel call s).2 = none
      ∧ runTopologyRedeclare call (turn :: turns) s =
          runTopologyRedeclare call turns (turn.2.2.declareOnChannel call s).1 := by
  obtain ⟨ctxErr, channel, t⟩ := turn
  simp only [runTopologyRedeclare] at h ⊢
  split at h
  . contradiction
  next hcheck =>
    rw [hcheck]
    split at h
    . contradiction
    next heq => exact ⟨rfl, by rw [heq], by rw [heq]⟩

section Lawful

variable (h : Lawful call has (fun m => m.noWait = false))
variable (hwait : ∀ turn ∈ turns, ∀ m ∈ turn.2.2.methods, m.noWait = false)
include h hwait

theorem restored_of_nil (hnil : (runTopologyRedeclare call turns s).2 = none)
    : (∀ turn ∈ turns, (turn.1.map CtxErr.err).or (openChannel turn.2.1) = none
        ∧ ∀ m ∈ turn.2.2.methods, has (runTopologyRedeclare call turns s).1 m)
      ∧ ∀ m, has s m → has (runTopologyRedeclare call turns s).1 m := by
  induction turns generalizing s with
  | nil => exact ⟨by simp, fun m hm => hm⟩
  | cons turn turns ih =>
    obtain ⟨hcheck, hdeclare, heq⟩ := runTopologyRedeclare_cons_of_nil hnil
    obtain ⟨hturn, hturns⟩ := List.forall_mem_cons.mp hwait
    rw [heq] at hnil ⊢
    obtain ⟨hrest, hkept⟩ := ih hturns hnil
    obtain ⟨hhas, hold⟩ := h.has_of_granted hturn (granted_iff.mpr hdeclare)
    exact ⟨List.forall_mem_cons.mpr ⟨⟨hcheck, fun m hm => hkept m (hhas m hm)⟩, hrest⟩,
      fun m hm => hkept m (hold m hm)⟩

theorem runTopologyRedeclare_restores (hnil : (runTopologyRedeclare call turns s).2 = none)
    : let s' := (runTopologyRedeclare call turns s).1
      (∀ turn ∈ turns, ∀ m ∈ turn.2.2.methods, has s' m)
        ∧ runTopologyRedeclare call turns s' = (s', none) := by
  have hturns := (restored_of_nil h hwait hnil).1
  refine ⟨fun turn hturn => (hturns turn hturn).2, ?_⟩
  generalize (runTopologyRedeclare call turns s).1 = s' at hturns
  clear hnil hwait
  induction turns with
  | nil => rfl
  | cons turn turns ih =>
    obtain ⟨⟨hcheck, hhas⟩, hturns⟩ := List.forall_mem_cons.mp hturns
    simp only [runTopologyRedeclare, hcheck, declareOnChannel_again h hhas]
    exact ih hturns

end Lawful
end Redeclare
end Topology

/-!
A broker that allows everything. A channel on which it refuses a method is closed.
-/

structure Broker where
  closed : Bool
  methods : Set Method

namespace Broker

variable {s : Broker} {m m' : Method}

structure Free (s : Broker) (m : Method) : Prop where
  opened : s.closed = false
  sole : ∀ m' ∈ s.methods, m'.entity = m.entity → m.entity ≠ none → m' = m

def There (s : Broker) (n : Entity) : Prop := ∃ m ∈ s.methods, m.entity = some n

def Accepts (s : Broker) (m : Method) : Prop := s.Free m ∧ ∀ n ∈ m.ends, s.There n

theorem foreign_conflict : ∀ v ∈ (.typed (.amqp 406) : Err).values, v.isSentinel = false := by
  simp [ErrorTree.values]

-- nobody waits for the answer to a call with `noWait`
open Classical in
noncomputable def call (s : Broker) (m : Method) : Broker × Option LibErr :=
  if s.Accepts m then
    ({ s with methods := insert m s.methods }, none)
  else
    ({ s with closed := true }, if m.noWait then none else some ⟨_, foreign_conflict⟩)

def Has (s : Broker) (m : Method) : Prop := s.Accepts m ∧ m ∈ s.methods

theorem accepts_insert (h : s.Accepts m) (hsole : m'.entity = m.entity → m.entity ≠ none → m' = m)
    : Accepts { s with methods := insert m' s.methods } m := by
  obtain ⟨hfree, hends⟩ := h
  refine ⟨⟨hfree.opened, Set.forall_mem_insert.mpr ⟨hsole, hfree.sole⟩⟩, fun n hn => ?_⟩
  obtain ⟨m₁, hm₁, hentity⟩ := hends n hn
  exact ⟨m₁, Set.mem_insert_of_mem m' hm₁, hentity⟩

theorem call_of_accepts (h : s.Accepts m)
    : s.call m = ({ s with methods := insert m s.methods }, none) :=
  if_pos h

theorem accepts_of_has_call (h : (s.call m).1.Has m) : s.Accepts m := by
  by_contra hnot
  rw [call, if_neg hnot] at h
  exact absurd h.1.1.opened (by simp)

theorem accepting : Accepting call Has Free There where
  granted s m hwait h := by
    have haccepts : s.Accepts m := by
      by_contra hnot
      simp [call, hnot, hwait] at h
    rw [call_of_accepts haccepts]
    exact ⟨accepts_insert haccepts (fun _ _ => rfl), Set.mem_insert m _⟩
  kept s m m' hm hm' := by
    have haccepts := accepts_of_has_call hm'
    rw [call_of_accepts haccepts]
    refine ⟨accepts_insert hm.1 ?_, Set.mem_insert_of_mem m' hm.2⟩
    intro heq hne
    exact (haccepts.1.sole m hm.2 heq.symm (heq ▸ hne)).symm
  again s m h := by
    rw [call_of_accepts h.1, Set.insert_eq_of_mem h.2]
  accepts s m hfree hends := by
    have haccepts : s.Accepts m := ⟨hfree, hends⟩
    rw [call_of_accepts haccepts]
    exact ⟨rfl, accepts_insert haccepts (fun _ _ => rfl), Set.mem_insert m _⟩
  free_call s m m' hfree hm' hsole := by
    rw [call_of_accepts (accepts_of_has_call hm')]
    exact ⟨hfree.opened, Set.forall_mem_insert.mpr ⟨hsole, hfree.sole⟩⟩
  there_call s m n hthere hm := by
    obtain ⟨m₁, hm₁, hentity⟩ := hthere
    rw [call_of_accepts (accepts_of_has_call hm)]
    exact ⟨m₁, Set.mem_insert_of_mem m hm₁, hentity⟩
  there_of_has s m n h hentity := ⟨m, h.2, hentity⟩

theorem free_empty (m : Method) : Free ⟨false, ∅⟩ m :=
  ⟨rfl, by simp⟩

end Broker

open Broker (accepting free_empty)

theorem Topology.declare_accepted_twoEntries
    : twoEntries.validate = none
      ∧ ∃ s', twoEntries.declare Broker.call .opened ⟨false, ∅⟩ = (s', none)
          ∧ twoEntries.declare Broker.call .opened s' = (s', none) := by
  have hvalid : twoEntries.validate = none := by decide
  obtain ⟨s', hfirst, _, hagain⟩ :=
    declare_accepted accepting hvalid (fun m _ => free_empty m) (by rintro _ ⟨⟩)
  exact ⟨hvalid, s', hfirst, hagain⟩

def oneQueue : Topology where
  queues := [{ name := ascii "orders" }]

theorem Topology.runTopologyRedeclare_restores_oneQueue
    : let turns := [(none, .opened, oneQueue)]
      (runTopologyRedeclare Broker.call turns ⟨false, ∅⟩).2 = none
        ∧ ∀ turn ∈ turns, ∀ m ∈ turn.2.2.methods,
          (runTopologyRedeclare Broker.call turns ⟨false, ∅⟩).1.Has m := by
  intro turns
  have hnil : (runTopologyRedeclare Broker.call turns ⟨false, ∅⟩).2 = none := by
    have hcall (q : Queue)
        : Broker.call ⟨false, ∅⟩ (.queueDeclare q) = (⟨false, insert (.queueDeclare q) ∅⟩, none) :=
      Broker.call_of_accepts ⟨free_empty _, by rintro _ ⟨⟩⟩
    simp [turns, runTopologyRedeclare, openChannel, declareOnChannel, methods, declares, binds,
      oneQueue, send, hcall, Errors.declareOnChannel]
  have hwait : ∀ turn ∈ turns, ∀ m ∈ turn.2.2.methods, m.noWait = false := by
    simp [turns, oneQueue, methods, declares, binds, Method.noWait]
  exact ⟨hnil, (runTopologyRedeclare_restores accepting.toLawful hwait hnil).1⟩

end Expand
