import Warren.Topology.Expand.Conservative

/-!
The times and lengths of an entry as arguments of a queue.
-/

namespace Expand

open List

theorem milliseconds_of_le {d : Int} (h : 1000000 ≤ d)
    : 1 ≤ milliseconds d ∧ milliseconds d * 1000000 ≤ d := by
  unfold milliseconds
  rw [Int.tdiv_eq_ediv_of_nonneg (by omega)]
  omega

namespace DeadLetter

variable {dl : DeadLetter}

theorem written_messageTTL (dl : DeadLetter)
    : dl.written xMessageTTL
        = if 0 < dl.ttl then some (.int64 (milliseconds dl.ttl)) else none := by
  simp (disch := decide) only [written, setArgs, Args.setIf_self, Args.setIf_of_ne, Args.set_of_ne]
  rfl

theorem written_maxLength (dl : DeadLetter)
    : dl.written xMaxLength = if 0 < dl.maxLength then some (.int64 dl.maxLength) else none := by
  simp (disch := decide) only [written, setArgs, Args.setIf_self, Args.setIf_of_ne, Args.set_of_ne]
  rfl

theorem written_maxLengthBytes (dl : DeadLetter)
    : dl.written xMaxLengthBytes
        = if 0 < dl.maxLengthBytes then some (.int64 dl.maxLengthBytes) else none := by
  simp (disch := decide) only [written, setArgs, Args.setIf_self, Args.setIf_of_ne, Args.set_of_ne]
  rfl

theorem dlq_messageTTL (h : dl.dlqUnbounded = false)
    : dl.dlq.args xMessageTTL
        = some (.int64 (milliseconds
            (if dl.dlqMessageTTL = 0 then defaultDLQMessageTTL else dl.dlqMessageTTL))) := by
  unfold dlq autoDLQArgs
  dsimp only
  rw [h, if_neg (by decide), Args.set_of_ne _ _ (by decide), Args.set_self]

theorem dlq_maxLength (h : dl.dlqUnbounded = false)
    : dl.dlq.args xMaxLength
        = some (.int64
            (if dl.dlqMaxLength = 0 then defaultDLQMaxLength else dl.dlqMaxLength)) := by
  unfold dlq autoDLQArgs
  dsimp only
  rw [h, if_neg (by decide), Args.set_of_ne _ _ (by decide), Args.set_of_ne _ _ (by decide),
    Args.set_self]

structure SourceBounds (dl : DeadLetter) : Prop where
  messageTTL : 0 < dl.ttl → ∃ ms, dl.written xMessageTTL = some (.int64 ms) ∧ 1 ≤ ms
    ∧ ms * 1000000 ≤ dl.ttl
  maxLength : 0 < dl.maxLength → dl.written xMaxLength = some (.int64 dl.maxLength)
  maxLengthBytes : 0 < dl.maxLengthBytes →
    dl.written xMaxLengthBytes = some (.int64 dl.maxLengthBytes)

structure DLQBounds (dl : DeadLetter) : Prop where
  messageTTL : ∃ ms, dl.dlq.args xMessageTTL = some (.int64 ms) ∧ 1 ≤ ms
    ∧ (0 < dl.dlqMessageTTL → ms * 1000000 ≤ dl.dlqMessageTTL)
  maxLength : ∃ length, dl.dlq.args xMaxLength = some (.int64 length) ∧ 0 ≤ length
    ∧ (0 < dl.dlqMaxLength → length = dl.dlqMaxLength)

theorem sourceBounds_iff : dl.SourceBounds ↔ (0 < dl.ttl → 1000000 ≤ dl.ttl) := by
  constructor
  . intro h hpos
    have ⟨ms, hms, hone, hle⟩ := h.messageTTL hpos
    omega
  intro h
  refine ⟨fun hpos => ?_, fun hpos => ?_, fun hpos => ?_⟩
  . refine ⟨milliseconds dl.ttl, ?_, milliseconds_of_le (h hpos)⟩
    rw [written_messageTTL, if_pos hpos]
  . rw [written_maxLength, if_pos hpos]
  . rw [written_maxLengthBytes, if_pos hpos]

theorem dlqBounds_iff (hbounded : dl.dlqUnbounded = false)
    : dl.DLQBounds
        ↔ (dl.dlqMessageTTL = 0 ∨ 1000000 ≤ dl.dlqMessageTTL) ∧ 0 ≤ dl.dlqMaxLength := by
  have httl := dlq_messageTTL hbounded
  have hlength := dlq_maxLength hbounded
  constructor
  . rintro ⟨⟨ms, hms, hone, _⟩, length, hlen, hle, _⟩
    rw [httl, Option.some.injEq, Value.int64.injEq] at hms
    rw [hlength, Option.some.injEq, Value.int64.injEq] at hlen
    constructor
    . by_contra hsmall
      rw [if_neg (by omega), milliseconds] at hms
      have hzero : Int.tdiv dl.dlqMessageTTL 1000000 ≤ 0 :=
        Int.tdiv_le_tdiv (b := 999999) (by decide) (by omega)
      omega
    . split at hlen <;> omega
  . rintro ⟨hmessageTTL, hmaxLength⟩
    refine ⟨⟨_, httl, ?_⟩, _, hlength, ?_⟩
    . cases hmessageTTL with
      | inl hzero =>
        rw [if_pos hzero]
        refine ⟨by decide, ?_⟩
        omega
      | inr hle =>
        rw [if_neg (by omega)]
        have ⟨hone, hms⟩ := milliseconds_of_le hle
        exact ⟨hone, fun _ => hms⟩
    . split
      next hzero =>
        refine ⟨by decide, ?_⟩
        omega
      next => exact ⟨hmaxLength, fun _ => rfl⟩

end DeadLetter

namespace Topology

variable {t : Topology} {i : Nat} {q : Queue}

theorem expanded_messageTTL (t : Topology) (q : Queue)
    : (t.expanded q).args xMessageTTL = t.sourceArgs q xMessageTTL := by
  apply expanded_of_not_mem
  all_goals decide

theorem exists_messageTTL (h : ∃ dl ∈ t.deadLetters, dl.source = q.name ∧ 0 < dl.ttl)
    : ∃ dl ∈ t.deadLetters, dl.source = q.name ∧ 0 < dl.ttl
        ∧ t.sourceArgs q xMessageTTL = dl.written xMessageTTL := by
  have ⟨dl₀, hdl₀, hsource₀, hpos₀⟩ := h
  have hwrites : (if dl₀.source = q.name then dl₀.written xMessageTTL else none) ≠ none := by
    rw [if_pos hsource₀, dl₀.written_messageTTL, if_pos hpos₀]
    nofun
  cases hargs : t.sourceArgs q xMessageTTL with
  | none => exact absurd ((LastWins.last_eq_none.mp hargs).2 dl₀ hdl₀) hwrites
  | some v =>
    cases LastWins.last_eq_some hargs with
    | inl hinit => exact absurd (hinit.2 dl₀ hdl₀) hwrites
    | inr hwritten =>
      have ⟨before, dl, after, hdls, hdl, _⟩ := hwritten
      rw [Option.ite_none_right_eq_some] at hdl
      have ⟨hsource, hv⟩ := hdl
      refine ⟨dl, ?_, hsource, ?_, hv.symm⟩
      . rw [hdls]
        apply mem_append_right
        apply mem_cons_self
      . rw [dl.written_messageTTL, Option.ite_none_right_eq_some] at hv
        apply hv.1

-- the entry whose arguments the queue of the dead letters gets: the first one of its source
structure Creates (t : Topology) (dl : DeadLetter) : Prop where
  declared : t.Declared dl
  new : dl.dlqName ∉ t.queueNames
  first : t.deadLetters.find? (·.source = dl.source) = some dl

variable {dl : DeadLetter} {out : Topology}

theorem addedQueue_expandDeadLetter {idx : Str → Option Nat} (hidx : (idx dl.source).isSome)
    (hnew : dl.dlqName ∉ out.queueNames)
    : (out.expandDeadLetter idx dl).queues[out.queues.length]? = some dl.dlq := by
  obtain ⟨j, hj⟩ := Option.isSome_iff_exists.mp hidx
  simp only [expandDeadLetter, hj, queues_addBinding]
  have hnames (dlx : Str) : dl.dlqName
      ∉ ({ out with queues := out.queues.modify j (·.setArgs dl) }.addExchange dlx).queueNames := by
    rw [queueNames, queues_addExchange, map_name_modify]
    exact hnew
  rw [addQueue, if_neg (hnames _), queues_addExchange, getElem?_append_right (by simp),
    length_modify, Nat.sub_self]
  rfl

theorem Creates.mem_expand (h : t.Creates dl) : dl.dlq ∈ t.expand.queues := by
  obtain ⟨_, before, after, hdls, hbefore⟩ := find?_eq_some_iff_append.mp h.first
  have hlt {name i} (hi : queueIdx t.queues name = some i) : i < t.queues.length := by
    obtain ⟨q, hq, _⟩ := queueIdx_eq_some hi
    exact (List.getElem?_eq_some_iff.mp hq).1
  have hidx : (queueIdx t.queues dl.source).isSome := by
    rw [Option.isSome_iff_ne_none, Ne, queueIdx_eq_none]
    exact not_not.mpr h.declared.2
  -- the entries before it are of other sources, so its queue is not there yet
  have hext : Extends (· ∈ before) _ _ := (extends_refl
      { t with exchanges := t.exchanges.map Exchange.injectArgs }).foldl
    (fun d hd i (hi : queueIdx t.queues d.source = some i) => ⟨hlt hi, hd⟩)
  generalize hout : before.foldl (expandDeadLetter (queueIdx t.queues)) _ = out at hext
  obtain ⟨own, hown, added, hqueues, hadded, _⟩ := hext.queues
  have hnew : dl.dlqName ∉ out.queueNames := by
    rw [queueNames, hqueues, map_append, hown, mem_append]
    rintro (hold | hmem)
    . exact h.new hold
    . obtain ⟨q, hq, hname⟩ := mem_map.mp hmem
      obtain ⟨⟨d, hd, rfl⟩, _⟩ := hadded q hq
      have hsource : d.source = dl.source := append_cancel_right hname
      simpa [hsource] using hbefore d hd
  have hargs : walkedArgs (queueIdx t.queues) out.queues.length after dl.dlq.args
      = dl.dlq.args := by
    have hlength : own.length = t.queues.length := by
      simpa [queueNames] using congrArg length hown
    funext k
    apply LastWins.last_of_forall_none
    intro d _
    rw [if_neg]
    intro hi
    have := hlt hi
    rw [hqueues, length_append] at this
    omega
  have hwalk := @walk_queue _ (queueIdx t.queues) _ _ (addedQueue_expandDeadLetter hidx hnew) after
  rw [hargs, ← hout, ← foldl_cons, ← foldl_append, ← hdls] at hwalk
  exact mem_map.mpr ⟨_, mem_of_getElem? hwalk, injectArgs_dlq dl⟩

theorem exists_creates (hvalid : t.validate = none) (hq : q ∈ t.expand.queues)
    (hnew : q.name ∉ t.queueNames) : ∃ dl, t.Creates dl ∧ q = dl.dlq := by
  obtain ⟨i, hi⟩ := mem_iff_getElem?.mp hq
  have hge : t.queues.length ≤ i := by
    by_contra hlt
    have hown := getElem?_eq_getElem (Nat.not_le.mp hlt)
    obtain ⟨args, hargs, _⟩ := (conserves_expand hvalid).queues i _ hown
    cases hi.symm.trans hargs
    exact hnew (mem_map_of_mem (f := (·.name)) (getElem_mem (Nat.not_le.mp hlt)))
  obtain ⟨dl, hdl, rfl⟩ := addedQueue_expand hge hi
  obtain ⟨first, hfirst⟩ := Option.isSome_iff_exists.mp
    (find?_isSome.mpr ⟨dl, hdl.1, by simp⟩ : (t.deadLetters.find? (·.source = dl.source)).isSome)
  have hsource : first.source = dl.source := by simpa using find?_some hfirst
  have hname : first.dlqName = dl.dlqName := by rw [DeadLetter.dlqName, hsource]; rfl
  have hcreates : t.Creates first :=
    ⟨⟨mem_of_find?_eq_some hfirst, hsource ▸ hdl.2⟩, hname ▸ hnew, hsource ▸ hfirst⟩
  refine ⟨first, hcreates, ?_⟩
  exact inj_on_of_nodup_map (nodup_expand (nodup_of_validate hvalid)) hq hcreates.mem_expand
    hname.symm

/--
The bounds of the entries survive exactly when those that are used can: the time of each entry that
is expanded, and the bounds of the dead-letter queue for an entry that creates it.
-/
theorem bounds_survive (t : Topology) (hvalid : t.validate = none)
    : (((∀ dl, t.Declared dl → dl.SourceBounds)
          ∧ ∀ dl, t.Creates dl → dl.dlqUnbounded = false → dl.DLQBounds)
        ↔ (∀ dl, t.Declared dl → 0 < dl.ttl → 1000000 ≤ dl.ttl)
          ∧ ∀ dl, t.Creates dl → dl.dlqUnbounded = false →
            (dl.dlqMessageTTL = 0 ∨ 1000000 ≤ dl.dlqMessageTTL) ∧ 0 ≤ dl.dlqMaxLength)
      ∧ (∀ (i : Nat) (q : Queue), t.queues[i]? = some q →
        (∃ dl ∈ t.deadLetters, dl.source = q.name ∧ 0 < dl.ttl) →
        ∃ q' dl, t.expand.queues[i]? = some q' ∧ t.Declared dl ∧ dl.source = q.name ∧ 0 < dl.ttl
          ∧ q'.args xMessageTTL = dl.written xMessageTTL)
      ∧ ∀ q, (q ∈ t.expand.queues ∧ q.name ∉ t.queueNames) ↔ ∃ dl, t.Creates dl ∧ q = dl.dlq := by
  refine ⟨?_, ?_, ?_⟩
  . simp +contextual only [DeadLetter.sourceBounds_iff, DeadLetter.dlqBounds_iff]
  . intro i q hq hentry
    have ⟨dl, hdl, hsource, hpos, hargs⟩ := exists_messageTTL hentry
    refine ⟨t.expanded q, dl, expand_queue hq (unique_of_validate hvalid hq), ⟨hdl, ?_⟩, hsource,
      hpos, ?_⟩
    . rw [hsource]
      apply mem_map_of_mem (mem_of_getElem? hq)
    . rw [expanded_messageTTL, hargs]
  . intro q
    constructor
    . intro ⟨hq, hnew⟩
      exact exists_creates hvalid hq hnew
    . rintro ⟨dl, hcreates, rfl⟩
      exact ⟨hcreates.mem_expand, hcreates.new⟩

def shortTTL (ttl : Int) : Topology where
  queues := [{ name := ascii "orders" }]
  deadLetters := [{ source := ascii "orders", ttl, dlqMessageTTL := ttl }]

theorem bounds_survive_shortTTL
    : ∃ dl, (shortTTL 1500000).Creates dl ∧ 0 < dl.ttl ∧ dl.SourceBounds ∧ dl.DLQBounds := by
  have hbounds := (bounds_survive (shortTTL 1500000) (by decide)).1.mpr
  have hwhole : ∀ dl ∈ (shortTTL 1500000).deadLetters, 1000000 ≤ dl.ttl
      ∧ 1000000 ≤ dl.dlqMessageTTL ∧ 0 ≤ dl.dlqMaxLength := by decide
  obtain ⟨hsource, hdlq⟩ := hbounds ⟨fun dl hdl _ => (hwhole dl hdl.1).1, fun dl hdl _ =>
    ⟨.inr (hwhole dl hdl.declared.1).2.1, (hwhole dl hdl.declared.1).2.2⟩⟩
  have hcreates : (shortTTL 1500000).Creates _ :=
    ⟨⟨mem_singleton_self _, mem_singleton_self _⟩, by decide, rfl⟩
  exact ⟨_, hcreates, by decide, hsource _ hcreates.declared, hdlq _ hcreates rfl⟩

def negativeBounds : Topology where
  queues := [{ name := ascii "orders" }]
  deadLetters := [{ source := ascii "orders", dlqMaxLength := -1, dlqMessageTTL := -1000000000 }]

theorem bounds_lost
    : (shortTTL 500000).validate = none
        ∧ ((shortTTL 500000).expand.queues.map (·.args xMessageTTL))
          = [some (.int64 0), some (.int64 0)]
        ∧ negativeBounds.validate = none
        ∧ ((negativeBounds.expand.queues[1]?).map (·.args xMaxLength)) = some (some (.int64 (-1)))
        ∧ ((negativeBounds.expand.queues[1]?).map (·.args xMessageTTL))
          = some (some (.int64 (-1000))) := by
  decide

end Topology
end Expand
