import Warren.Consumer.Dispatch.Requeues

/-!
Which messages the entries of counter B stand for.
-/

namespace Dispatch

open CounterB
open List

inductive Settled (c : Consumer) (cs : RedeliveryCounter) (d : Delivery)
    : Handling → RedeliveryCounter → Option Verdict → Prop where
  | undecodable {h : Handling} (hdecodes : d.decodes = false)
    : Settled c cs d h cs (some (.nack false))
  | xDeath {h : Handling} (hdeath : c.maxRedeliveries ≤ d.deathCount)
    : Settled c cs d h cs (some (.nack false))
  | timeout : Settled c cs d .deadline cs (some (.nack (c.timeoutVerdict = .nackRequeue)))
  | silent {h : Handling} : Settled c cs d h cs none
  | requeued {err : Err} (hdecodes : d.decodes = true) (hdeath : d.deathCount < c.maxRedeliveries)
      (hrequeue : .requeue ∈ err.chain)
    : Settled c cs d (.returned (some err) false)
        (cs.store (c.counterBKey d true) (cs.load (c.counterBKey d true) + 1))
        (d.nack true)
  | dropped {h : Handling} (v : Option Verdict)
    : Settled c cs d h (cs.delete (c.counterBKey d true)) v

section

variable {c : Consumer} {n : Nat} {cs cs' : RedeliveryCounter} {d : Delivery} {v : Option Verdict}

theorem settled_of_returned (hc : c.Bounds n) (hdecodes : d.decodes = true)
    (hdeath : d.deathCount < c.maxRedeliveries) {handlerErr : Option Err}
    {channelClosed : Bool} (hopen : ¬ (channelClosed = true ∧ handlerErr ≠ none))
    (h : c.settleVerdict d cs (c.counterBKey d true) handlerErr true = (cs', v))
    : Settled c cs d (.returned handlerErr channelClosed) cs' v := by
  have hkey := counterBKey_ne_nil hc d
  unfold Consumer.settleVerdict at h
  rw [if_neg (by simp [hc.manualAck]), if_pos rfl] at h
  by_cases hrequeues : ∃ err ∈ handlerErr, .requeue ∈ err.chain
  . have ⟨err, hmem, hrequeue⟩ := hrequeues
    rw [Option.mem_def] at hmem
    subst hmem
    have hclosed : channelClosed = false := by simpa using hopen
    subst hclosed
    rw [applyCounterB_of_requeue cs hkey hrequeue] at h
    by_cases hexceeded : c.maxRedeliveries < cs.load (c.counterBKey d true) + 1
    . rw [if_pos hexceeded] at h
      cases h
      apply Settled.dropped
    . rw [if_neg hexceeded] at h
      have hnack : d.ackIf (some err) = d.nack true := by
        unfold Delivery.ackIf
        dsimp
        rw [decide_eq_true hrequeue]
      dsimp at h
      rw [hnack] at h
      cases h
      apply Settled.requeued hdecodes hdeath hrequeue
  . have hdelete : c.applyCounterB cs (c.counterBKey d true) handlerErr
        = (cs.delete (c.counterBKey d true), handlerErr) := by
      unfold Consumer.applyCounterB
      rw [if_neg hkey, if_neg hrequeues]
    rw [hdelete] at h
    cases h
    apply Settled.dropped

theorem settled_of_handle (hc : c.Bounds n) (hresolved : d.resolved = false)
    (hdecodes : d.decodes = true) (hdeath : d.deathCount < c.maxRedeliveries) {h : Handling}
    (hhandle : c.handle cs d true h = some (cs', v)) : Settled c cs d h cs' v := by
  unfold Consumer.handle at hhandle
  grind [Settled, settled_of_returned, Consumer.timeout, Delivery.nackOnTimeout]

theorem settled_of_dispatch (hc : c.Bounds n) (hresolved : d.resolved = false) {h : Handling}
    (hdispatch : c.dispatch cs d true h = some (cs', v)) : Settled c cs d h cs' v := by
  unfold Consumer.dispatch at hdispatch
  split at hdispatch
  next hdecodes =>
    split at hdispatch
    next hdeath =>
      cases hdispatch
      apply Settled.xDeath hdeath.2.2
    next hdeath =>
      have hpos : 0 < c.maxRedeliveries := by
        rw [hc.maxRedeliveries]
        exact Int.natCast_pos.mpr hc.pos
      have hlt : d.deathCount < c.maxRedeliveries := by
        simpa [hc.manualAck, hpos] using hdeath
      apply settled_of_handle hc hresolved hdecodes hlt hdispatch
  next hdecodes =>
    rw [if_neg (by simp [hc.manualAck])] at hdispatch
    cases hdispatch
    apply Settled.undecodable
    simpa using hdecodes

end

structure Event where
  msg : Nat
  delivery : Delivery
  handling : Handling

structure History where
  counter : RedeliveryCounter
  log : List (Nat × Delivery × Option Verdict)

def latest (log : List (Nat × Delivery × Option Verdict)) (msg : Nat) : Option Verdict :=
  (log.filterMap (fun e => if e.1 = msg then e.2.2 else none)).getLast?

variable {msg : Nat}

theorem latest_append_of_ne (log : List (Nat × Delivery × Option Verdict)) {m : Nat} (d : Delivery)
    (v : Option Verdict) (hne : m ≠ msg) : latest (log ++ [(m, d, v)]) msg = latest log msg := by
  simp [latest, hne]

theorem latest_append_self (log : List (Nat × Delivery × Option Verdict)) (msg : Nat) (d : Delivery)
    (v : Option Verdict) : latest (log ++ [(msg, d, v)]) msg = v.or (latest log msg) := by
  cases v with
  | none => simp [latest]
  | some v => simp [latest]

theorem exists_mem_of_latest {log : List (Nat × Delivery × Option Verdict)} {v : Verdict}
    (h : latest log msg = some v) : ∃ d, (msg, d, some v) ∈ log := by
  have hmem := mem_of_getLast? h
  rw [mem_filterMap] at hmem
  have ⟨⟨m, d, v'⟩, hin, heq⟩ := hmem
  dsimp at heq
  split at heq
  next hm =>
    subst hm heq
    exact ⟨d, hin⟩
  next => contradiction

namespace History

def init : History := ⟨.new, []⟩

def step (c : Consumer) (messageID : Nat → Bytes) (s : History) (e : Event) : Option History :=
  if e.delivery.messageId = messageID e.msg ∧ e.delivery.resolved = false
      ∧ ∀ x ∈ s.log, x.2.1.deliveryTag ≠ e.delivery.deliveryTag then
    match c.dispatch s.counter e.delivery true e.handling with
    | none => none
    | some (counter, v) => some ⟨counter, s.log ++ [(e.msg, e.delivery, v)]⟩
  else
    none

/--
A requeue by the handler has a key that outlasts the tag, and goes out. A nack that does not go
through the counter finds no entry.
-/
structure Tidy (c : Consumer) (s : History) (e : Event) : Prop where
  requeued : ∀ err, e.delivery.decodes = true → e.delivery.deathCount < c.maxRedeliveries →
    e.handling = .returned (some err) false → .requeue ∈ err.chain →
    counterBKeyForMsgID e.delivery.messageId ≠ [] ∧ e.delivery.done = false
  bypassed : e.delivery.decodes = false ∨ c.maxRedeliveries ≤ e.delivery.deathCount
      ∨ (e.handling = .deadline ∧ c.timeoutVerdict = .nackNoRequeue) →
    s.counter.m.lookup (c.counterBKey e.delivery true) = none

structure Inv (messageID : Nat → Bytes) (s : History) : Prop where
  identified : ∀ x ∈ s.log, x.2.1.messageId = messageID x.1
  accounted : ∀ key, s.counter.m.lookup key ≠ none →
    ∃ msg, counterBKeyForMsgID (messageID msg) = key ∧ key ≠ [] ∧
      latest s.log msg = some (.nack true)

section

variable {c : Consumer} {n : Nat} {messageID : Nat → Bytes} {s s' : History} {e : Event}

theorem inv_init (messageID : Nat → Bytes) : Inv messageID init := by
  constructor
  . simp [init]
  . intro key hkey
    contradiction

theorem counterBKey_of_identified (hc : c.Bounds n) {d : Delivery} {key : Bytes}
    (hid : d.messageId = messageID msg) (hkey : counterBKeyForMsgID (messageID msg) = key)
    (hne : key ≠ []) : c.counterBKey d true = key := by
  rw [← hid] at hkey
  rw [← hkey] at hne
  rw [counterBKey_of_stable hc hne, hkey]

theorem Inv.append (h : Inv messageID s) {d : Delivery} {v : Option Verdict}
    {counter : RedeliveryCounter} (hid : d.messageId = messageID msg)
    (hkeys : ∀ key, counter.m.lookup key ≠ none →
      (counterBKeyForMsgID (messageID msg) = key ∧ key ≠ [] ∧ v = some (.nack true))
        ∨ (s.counter.m.lookup key ≠ none
          ∧ (counterBKeyForMsgID (messageID msg) = key → key ≠ [] →
            v = none ∨ v = some (.nack true))))
    : Inv messageID ⟨counter, s.log ++ [(msg, d, v)]⟩ := by
  grind [Inv, latest_append_self, latest_append_of_ne]

theorem inv_of_settled (hc : c.Bounds n) (h : Inv messageID s) (htidy : Tidy c s e)
    (hid : e.delivery.messageId = messageID e.msg) (hresolved : e.delivery.resolved = false)
    {counter : RedeliveryCounter} {v : Option Verdict} {handling : Handling}
    (hhandling : e.handling = handling)
    (hsettled : Settled c s.counter e.delivery handling counter v)
    : Inv messageID ⟨counter, s.log ++ [(e.msg, e.delivery, v)]⟩ := by
  apply h.append hid
  intro key hkey
  cases hsettled with
  | undecodable hdecodes =>
    right
    refine ⟨hkey, ?_⟩
    intro heq hne
    rw [← counterBKey_of_identified hc hid heq hne] at hkey
    exact absurd (htidy.bypassed (.inl hdecodes)) hkey
  | xDeath hdeath =>
    right
    refine ⟨hkey, ?_⟩
    intro heq hne
    rw [← counterBKey_of_identified hc hid heq hne] at hkey
    exact absurd (htidy.bypassed (.inr (.inl hdeath))) hkey
  | timeout =>
    right
    refine ⟨hkey, ?_⟩
    intro heq hne
    cases hverdict : c.timeoutVerdict with
    | nackRequeue =>
      right
      rfl
    | nackNoRequeue =>
      rw [← counterBKey_of_identified hc hid heq hne] at hkey
      exact absurd (htidy.bypassed (.inr (.inr ⟨hhandling, hverdict⟩))) hkey
  | silent =>
    right
    refine ⟨hkey, ?_⟩
    intro _ _
    left
    rfl
  | @requeued err hdecodes hdeath hrequeue =>
    have ⟨hstable, hdone⟩ := htidy.requeued err hdecodes hdeath hhandling hrequeue
    have hstored := counterBKey_of_stable hc hstable
    by_cases heq : key = c.counterBKey e.delivery true
    . left
      rw [heq, hstored, ← hid]
      refine ⟨rfl, hstable, ?_⟩
      simp [Delivery.nack, Delivery.settle, hdone, hresolved]
    . right
      constructor
      . simpa [RedeliveryCounter.store, heq] using hkey
      . intro hmsg hne
        exact absurd (counterBKey_of_identified hc hid hmsg hne).symm heq
  | dropped v =>
    have heq : key ≠ c.counterBKey e.delivery true := by
      intro heq
      rw [heq] at hkey
      simp [RedeliveryCounter.delete] at hkey
    right
    constructor
    . simpa [RedeliveryCounter.delete, heq] using hkey
    . intro hmsg hne
      exact absurd (counterBKey_of_identified hc hid hmsg hne).symm heq

theorem inv_of_step (hc : c.Bounds n) (h : Inv messageID s) (htidy : Tidy c s e)
    (hstep : step c messageID s e = some s') : Inv messageID s' := by
  unfold step at hstep
  split at hstep
  next hguard =>
    split at hstep
    next => contradiction
    next counter v hdispatch =>
      cases hstep
      have hsettled := settled_of_dispatch hc hguard.2.1 hdispatch
      apply inv_of_settled hc h htidy hguard.1 hguard.2.1 rfl hsettled
  next => contradiction

theorem Inv.empty_of_settled (h : Inv messageID s)
    (hsettled : ∀ msg, latest s.log msg ≠ some (.nack true)) : s.counter.m.keys = [] := by
  apply eq_nil_iff_forall_not_mem.mpr
  intro key hkey
  have hlookup : s.counter.m.lookup key ≠ none := by
    rw [Ne, AList.lookup_eq_none]
    intro hnot
    exact hnot (AList.mem_keys.mpr hkey)
  have ⟨msg, _, _, hlatest⟩ := h.accounted key hlookup
  apply hsettled msg hlatest

theorem accounted_of_tidy (hc : c.Bounds n) (messageID : Nat → Bytes) {es : List Event}
    (htidy : Run.Along (step c messageID) (fun s e => Tidy c s e) init es)
    (hrun : Run.run (step c messageID) init es = some s)
    : (∀ key, s.counter.m.lookup key ≠ none →
          ∃ msg, (∃ d v, (msg, d, v) ∈ s.log ∧ c.counterBKey d true = key)
            ∧ latest s.log msg = some (.nack true))
        ∧ ((∀ msg, latest s.log msg ≠ some (.nack true)) → s.counter.m.keys = []) := by
  have hinv : Inv messageID s := by
    apply Run.inv_of_run (I := Inv messageID) _ (inv_init messageID) htidy hrun
    intro s e s' hinv htidy hstep
    apply inv_of_step hc hinv htidy hstep
  constructor
  . intro key hkey
    have ⟨msg, heq, hne, hlatest⟩ := hinv.accounted key hkey
    have ⟨d, hmem⟩ := exists_mem_of_latest hlatest
    have hid := hinv.identified (msg, d, some (.nack true)) hmem
    exact ⟨msg, ⟨d, _, hmem, counterBKey_of_identified hc hid heq hne⟩, hlatest⟩
  . apply hinv.empty_of_settled

end

def auditConsumer : Consumer := ⟨[99], 3, false, false, true, .nackNoRequeue⟩

def auditID (msg : Nat) : Bytes := if msg = 0 then [97] else []

def auditEvent (msg : Nat) (deliveryTag : UInt64) (handling : Handling) : Event :=
  ⟨msg, ⟨auditID msg, deliveryTag, true, 0, false, false⟩, handling⟩

theorem bounds_auditConsumer : auditConsumer.Bounds 3 := ⟨by decide, rfl, rfl, rfl⟩

theorem tidy_auditEvent {s : History} {deliveryTag : UInt64} {handling : Handling}
    (h : handling ≠ .deadline) : Tidy auditConsumer s (auditEvent 0 deliveryTag handling) := by
  constructor
  . intro err _ _ _ _
    have hkey : counterBKeyForMsgID [97] ≠ [] := by decide
    exact ⟨hkey, rfl⟩
  . intro hcause
    rcases hcause with hdecodes | hdeath | hdeadline
    . contradiction
    . contradiction
    . exact absurd hdeadline.1 h

def requeuedAndAcked (msg : Nat) : List Event :=
  [auditEvent msg 1 (.returned (some ⟨[.requeue]⟩) false), auditEvent msg 2 (.returned none false)]

theorem along_requeuedAndAcked
    : Run.Along (step auditConsumer auditID) (fun s e => Tidy auditConsumer s e) init
        (requeuedAndAcked 0) := by
  apply Run.along_of_forall_mem
  intro e he s
  have he : e = auditEvent 0 1 (.returned (some ⟨[.requeue]⟩) false)
      ∨ e = auditEvent 0 2 (.returned none false) := by
    simpa [requeuedAndAcked] using he
  cases he with
  | _ he =>
    rw [he]
    apply tidy_auditEvent (by simp)

theorem accounted_of_tidy_requeuedAndAcked
    : ∃ s ∈ Run.run (step auditConsumer auditID) init (requeuedAndAcked 0),
        latest s.log 0 = some .ack ∧ s.counter.m.keys = [] := by
  have ⟨s, hrun, hlatest, hlog⟩ := (by decide :
    ∃ s ∈ Run.run (step auditConsumer auditID) init (requeuedAndAcked 0),
      latest s.log 0 = some .ack ∧ s.log.map Prod.fst = [0, 0])
  have haccounted := accounted_of_tidy bounds_auditConsumer auditID along_requeuedAndAcked hrun
  refine ⟨s, hrun, hlatest, haccounted.2 ?_⟩
  intro msg hrequeued
  have ⟨d, hmem⟩ := exists_mem_of_latest hrequeued
  have hmsg : msg ∈ s.log.map Prod.fst := mem_map_of_mem hmem
  simp [hlog] at hmsg
  subst hmsg
  rw [hlatest] at hrequeued
  contradiction

/--
The entry of a message without a MessageID has the tag of the requeued delivery, and the entry of a
message that times out is left where it is.
-/
theorem leaks
    : (∃ s ∈ Run.run (step auditConsumer auditID) init (requeuedAndAcked 1),
          latest s.log 1 = some .ack ∧ s.counter.m.keys = [bytes "dlv:c:1"])
        ∧ (∃ s ∈ Run.run (step auditConsumer auditID) init
            [auditEvent 0 1 (.returned (some ⟨[.requeue]⟩) false), auditEvent 0 2 .deadline],
          latest s.log 0 = some (.nack false) ∧ s.counter.m.keys = [bytes "mid:a"]) := by
  decide

end History
end Dispatch
