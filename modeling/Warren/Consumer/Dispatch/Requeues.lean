import Warren.Base.Budget
import Warren.Consumer.Dispatch.Impl

/-!
How often a message is requeued under `MaxRedeliveries`.
-/

namespace Dispatch

open CounterB
open List Option

-- the handling ends with ErrRequeue, or with HandlerTimeout under TimeoutNackRequeue
def Handling.Requeues (c : Consumer) : Handling → Prop
  | .returned (some err) false => .requeue ∈ err.chain
  | .deadline => c.timeoutVerdict = .nackRequeue
  | _ => False

instance (c : Consumer) (h : Handling) : Decidable (h.Requeues c) := by
  unfold Handling.Requeues
  split <;> infer_instance

namespace Action

def Requeues (c : Consumer) (a : Action) : Prop :=
  a.delivery.decodes = true ∧ a.delivery.deathCount < c.maxRedeliveries ∧
  a.delivery.done = false ∧ a.delivery.resolved = false ∧ a.handling.Requeues c

instance (c : Consumer) (a : Action) : Decidable (a.Requeues c) :=
  inferInstanceAs (Decidable (_ ∧ _))

def Counted (a : Action) : Prop :=
  a.handling ≠ .deadline ∧ counterBKeyForMsgID a.delivery.messageId ≠ []

instance (a : Action) : Decidable a.Counted :=
  inferInstanceAs (Decidable (_ ∧ _))

end Action

structure Consumer.Bounds (c : Consumer) (n : Nat) : Prop where
  pos : 0 < n
  maxRedeliveries : c.maxRedeliveries = n
  counterB : c.counterBDisabled = false
  manualAck : c.brokerAutoAck = false

section

variable {c : Consumer} {n : Nat} {s s' : Channel} {a : Action} {id : Bytes}

variable {d : Delivery} {key : Bytes} {k : Nat} {as : List Action}

theorem counterBKey_of_stable (hc : c.Bounds n) (h : counterBKeyForMsgID d.messageId ≠ [])
    : c.counterBKey d true = counterBKeyForMsgID d.messageId := by
  have hid : d.messageId ≠ [] := by
    intro hid
    rw [hid] at h
    exact h (by decide)
  have hpos : 0 < c.maxRedeliveries := by
    rw [hc.maxRedeliveries]
    exact Int.natCast_pos.mpr hc.pos
  simp [Consumer.counterBKey, hc.counterB, hc.manualAck, hpos, hid, h]

theorem counterBKey_of_unstable (hc : c.Bounds n) (h : counterBKeyForMsgID d.messageId = [])
    : c.counterBKey d true = counterBKeyForDeliveryTag c.tag d.deliveryTag := by
  have hpos : 0 < c.maxRedeliveries := by
    rw [hc.maxRedeliveries]
    exact Int.natCast_pos.mpr hc.pos
  simp [Consumer.counterBKey, hc.counterB, hc.manualAck, hpos, h]

theorem counterBKey_ne_nil (hc : c.Bounds n) (d : Delivery) : c.counterBKey d true ≠ [] := by
  by_cases h : counterBKeyForMsgID d.messageId = []
  . rw [counterBKey_of_unstable hc h]
    have hdlv : bytes "dlv:" ≠ [] := by decide
    simp [counterBKeyForDeliveryTag, hdlv]
  . rw [counterBKey_of_stable hc h]
    exact h

theorem step_of_deadline (hc : c.Bounds n) (ha : a.Requeues c) (hdeadline : a.handling = .deadline)
    (hstep : Channel.step c s a = some s')
    : s' = ⟨s.counter, s.frames ++ [(a.delivery, .nack true)]⟩ := by
  have ⟨hdecodes, hdeath, _, hresolved, hverdict⟩ := ha
  rw [hdeadline, Handling.Requeues] at hverdict
  have hdispatch : c.dispatch s.counter a.delivery true a.handling =
      if c.handlerTimeout then some (s.counter, some (.nack true)) else none := by
    simp [Consumer.dispatch, hdecodes, Int.not_le.mpr hdeath, hdeadline, Consumer.handle,
      Consumer.timeout, hc.manualAck, Delivery.nackOnTimeout, hresolved, hverdict]
  unfold Channel.step at hstep
  rw [hdispatch] at hstep
  split at hstep
  . contradiction
  . next hsome =>
    split at hsome
    . rw [some.injEq, Prod.mk.injEq] at hsome
      rw [some.injEq, ← hsome.1, ← hsome.2] at hstep
      exact hstep.symm
    . contradiction

theorem ackIf_of_open (hdone : d.done = false) (hresolved : d.resolved = false) (err : Err)
    : d.ackIf (some err) = some (.nack (.requeue ∈ err.chain)) := by
  simp [Delivery.ackIf, Delivery.nack, Delivery.settle, hdone, hresolved]

theorem applyCounterB_of_requeue (cs : RedeliveryCounter) (hkey : key ≠ []) {err : Err}
    (herr : .requeue ∈ err.chain)
    : c.applyCounterB cs key (some err) =
        if c.maxRedeliveries < cs.load key + 1 then
          (cs.delete key, some ⟨[.maxRedeliveries]⟩)
        else
          (cs.store key (cs.load key + 1), some err) := by
  simp [Consumer.applyCounterB, hkey, herr]

theorem step_of_returned (hc : c.Bounds n) (ha : a.Requeues c) (hreturned : a.handling ≠ .deadline)
    (hstep : Channel.step c s a = some s')
    : s' = if (n : Int) < s.counter.load (c.counterBKey a.delivery true) + 1 then
        ⟨s.counter.delete (c.counterBKey a.delivery true),
          s.frames ++ [(a.delivery, .nack false)]⟩
      else
        ⟨s.counter.store (c.counterBKey a.delivery true)
            (s.counter.load (c.counterBKey a.delivery true) + 1),
          s.frames ++ [(a.delivery, .nack true)]⟩ := by
  have ⟨hdecodes, hdeath, hdone, hresolved, hverdict⟩ := ha
  have hkey := counterBKey_ne_nil hc a.delivery
  unfold Handling.Requeues at hverdict
  split at hverdict
  . next err hhandling =>
    have hdispatch : c.dispatch s.counter a.delivery true a.handling =
        some (c.settleVerdict a.delivery s.counter (c.counterBKey a.delivery true) (some err)
          true) := by
      simp [Consumer.dispatch, hdecodes, Int.not_le.mpr hdeath, hhandling, Consumer.handle]
    unfold Channel.step at hstep
    rw [hdispatch, Consumer.settleVerdict, applyCounterB_of_requeue _ hkey hverdict,
      hc.maxRedeliveries, hc.manualAck] at hstep
    have hnack : a.delivery.ackIf (some err) = some (.nack true) := by
      rw [ackIf_of_open hdone hresolved, decide_eq_true hverdict]
    split
    . next hexceeded =>
      rw [if_pos hexceeded] at hstep
      have hdrop : a.delivery.ackIf (some ⟨[.maxRedeliveries]⟩) = some (.nack false) :=
        ackIf_of_open hdone hresolved _
      simp only [Bool.false_eq_true, if_false, if_true, hdrop, some.injEq] at hstep
      exact hstep.symm
    . next hexceeded =>
      rw [if_neg hexceeded] at hstep
      simp only [Bool.false_eq_true, if_false, if_true, hnack, some.injEq] at hstep
      exact hstep.symm
  all_goals contradiction

theorem load_applyCounterB_of_ne (cs : RedeliveryCounter) {key' : Bytes} (h : key' ≠ key)
    (handlerErr : Option Err) : (c.applyCounterB cs key handlerErr).1.load key' = cs.load key' := by
  unfold Consumer.applyCounterB
  split
  . rfl
  . split
    . dsimp only
      split
      . exact cs.load_delete_ne h
      . exact cs.load_store_ne h _
    . exact cs.load_delete_ne h

theorem counter_handle {cs cs' : RedeliveryCounter} {h : Handling} {v : Option Verdict}
    (hhandle : c.handle cs d true h = some (cs', v))
    : cs' = cs ∨ ∃ handlerErr, cs' = (c.applyCounterB cs (c.counterBKey d true) handlerErr).1 := by
  cases h with
  | returned handlerErr channelClosed =>
    simp only [Consumer.handle] at hhandle
    split at hhandle
    . rw [some.injEq, Prod.mk.injEq] at hhandle
      exact .inl hhandle.1.symm
    . rw [some.injEq] at hhandle
      have hcounter := congrArg Prod.fst hhandle
      dsimp only at hcounter
      rw [← hcounter]
      unfold Consumer.settleVerdict
      split
      . exact .inl rfl
      . exact .inr ⟨handlerErr, rfl⟩
  | _ =>
    simp only [Consumer.handle, ite_none_right_eq_some, some.injEq, Prod.mk.injEq] at hhandle
    exact .inl hhandle.2.1.symm

theorem counter_step (hstep : Channel.step c s a = some s')
    : s'.counter = s.counter ∨ ∃ handlerErr,
        s'.counter = (c.applyCounterB s.counter (c.counterBKey a.delivery true) handlerErr).1 := by
  unfold Channel.step at hstep
  split at hstep
  . contradiction
  . next hdispatch =>
    cases hstep
    grind [counter_handle, Consumer.dispatch]

theorem load_step_of_ne (hkey : key ≠ c.counterBKey a.delivery true)
    (hstep : Channel.step c s a = some s') : s'.counter.load key = s.counter.load key := by
  obtain heq | ⟨handlerErr, heq⟩ := counter_step hstep
  . rw [heq]
  . rw [heq]
    exact load_applyCounterB_of_ne s.counter hkey handlerErr

theorem within_applyCounterB {cs : RedeliveryCounter} {limit : Int}
    (hlimit : c.maxRedeliveries ≤ limit) (h : cs.Within limit) (key : Bytes) (handlerErr : Option Err)
    : (c.applyCounterB cs key handlerErr).1.Within limit := by
  unfold Consumer.applyCounterB
  dsimp only
  split
  . exact h
  . split
    . split
      . exact h.delete key
      . have hload := h key
        exact h.store key (by omega)
    . exact h.delete key

theorem within_of_run (hrun : Run.run (Channel.step c) .init as = some s)
    : s.counter.Within (max 0 c.maxRedeliveries) := by
  refine Run.inv_of_steps (I := fun s : Channel => s.counter.Within (max 0 c.maxRedeliveries)) ?_
    (RedeliveryCounter.within_new (by omega)) hrun
  intro s a s' h hstep
  obtain heq | ⟨handlerErr, heq⟩ := counter_step hstep
  . rwa [heq]
  . rw [heq]
    exact within_applyCounterB (by omega) h _ handlerErr

theorem verdicts_step_of_ne (hid : a.delivery.messageId ≠ id)
    (hstep : Channel.step c s a = some s') : s'.verdicts id = s.verdicts id := by
  unfold Channel.step at hstep
  split at hstep
  . contradiction
  . next v _ =>
    cases hstep
    cases v with
    | none => simp [Channel.verdicts]
    | some v => simp [Channel.verdicts, hid]

def handled (id : Bytes) (as : List Action) : List Action :=
  as.filter (fun a => a.delivery.messageId = id)

def charged (id : Bytes) (as : List Action) : List Bool :=
  (handled id as).map (fun a => decide a.Counted)

-- the keys of the deliveries to come have the count of the message, or none if they are not stable
def Tracks (c : Consumer) (id : Bytes) (k : Nat) (as : List Action) (s : Channel) : Prop :=
  ∀ a ∈ as, a.delivery.messageId = id →
    s.counter.load (c.counterBKey a.delivery true) =
      if counterBKeyForMsgID id = [] then 0 else (k : Int)

theorem Tracks.other (h : Tracks c id k (a :: as) s)
    (hkeys : ∀ b ∈ as, b.delivery.messageId = id →
      c.counterBKey b.delivery true ≠ c.counterBKey a.delivery true)
    (hstep : Channel.step c s a = some s') : Tracks c id k as s' := by
  intro b hb hbid
  rw [load_step_of_ne (hkeys b hb hbid) hstep]
  exact h b (mem_cons_of_mem _ hb) hbid

theorem verdicts_append (s : Channel) (hid : d.messageId = id) (cs : RedeliveryCounter)
    (v : Verdict) : Channel.verdicts ⟨cs, s.frames ++ [(d, v)]⟩ id = s.verdicts id ++ [v] := by
  simp [Channel.verdicts, hid]

theorem Tracks.uncounted (h : Tracks c id k (a :: as) s) (hc : c.Bounds n)
    (hid : a.delivery.messageId = id) (ha : a.Requeues c) (hcounted : ¬a.Counted)
    (htags : ∀ b ∈ as, b.delivery.deliveryTag ≠ a.delivery.deliveryTag)
    (hstep : Channel.step c s a = some s')
    : Tracks c id k as s' ∧ s'.verdicts id = s.verdicts id ++ [.nack true] := by
  by_cases hdeadline : a.handling = .deadline
  . rw [step_of_deadline hc ha hdeadline hstep]
    refine ⟨?_, verdicts_append s hid _ _⟩
    intro b hb hbid
    exact h b (mem_cons_of_mem _ hb) hbid
  . have hunstable : counterBKeyForMsgID id = [] := by
      rw [← hid]
      by_contra hstable
      exact hcounted ⟨hdeadline, hstable⟩
    have hcount : s.counter.load (c.counterBKey a.delivery true) = 0 := by
      rw [h a mem_cons_self hid, if_pos hunstable]
    have hpos := hc.pos
    constructor
    . apply h.other _ hstep
      intro b hb hbid heq
      rw [counterBKey_of_unstable hc (by rw [hbid, hunstable]),
        counterBKey_of_unstable hc (by rw [hid, hunstable])] at heq
      exact htags b hb (counterBKeyForDeliveryTag_injective heq)
    . rw [step_of_returned hc ha hdeadline hstep, hcount, if_neg (by omega)]
      exact verdicts_append s hid _ _

theorem Tracks.counted (h : Tracks c id k (a :: as) s) (hc : c.Bounds n)
    (hid : a.delivery.messageId = id) (ha : a.Requeues c) (hcounted : a.Counted)
    (hstep : Channel.step c s a = some s')
    : if k < n then
        Tracks c id (k + 1) as s' ∧ s'.verdicts id = s.verdicts id ++ [.nack true]
      else
        Tracks c id 0 as s' ∧ s'.verdicts id = s.verdicts id ++ [.nack false] := by
  have hstable : counterBKeyForMsgID id ≠ [] := hid ▸ hcounted.2
  have hkeys : ∀ b ∈ as, b.delivery.messageId = id →
      c.counterBKey b.delivery true = c.counterBKey a.delivery true := by
    intro b _ hbid
    rw [counterBKey_of_stable hc (by rwa [hbid]), counterBKey_of_stable hc (by rwa [hid]), hid, hbid]
  have hcount : s.counter.load (c.counterBKey a.delivery true) = k := by
    rw [h a mem_cons_self hid, if_neg hstable]
  have hs' := step_of_returned hc ha hcounted.1 hstep
  rw [hcount] at hs'
  split
  . rw [if_neg (by omega)] at hs'
    rw [hs']
    refine ⟨?_, verdicts_append s hid _ _⟩
    intro b hb hbid
    rw [hkeys b hb hbid, RedeliveryCounter.load_store, if_neg hstable, Int.natCast_add]
    rfl
  . rw [if_pos (by omega)] at hs'
    rw [hs']
    refine ⟨?_, verdicts_append s hid _ _⟩
    intro b hb hbid
    rw [hkeys b hb hbid, RedeliveryCounter.load_delete, if_neg hstable]
    rfl

theorem handled_cons_of_eq (as : List Action) (hid : a.delivery.messageId = id)
    : handled id (a :: as) = a :: handled id as := by
  simp [handled, hid]

theorem handled_cons_of_ne (as : List Action) (hid : a.delivery.messageId ≠ id)
    : handled id (a :: as) = handled id as := by
  simp [handled, hid]

theorem verdicts_of_run (hc : c.Bounds n) (htracks : Tracks c id k as s)
    (hrequeues : ∀ a ∈ handled id as, a.Requeues c)
    (htags : (as.map (·.delivery.deliveryTag)).Nodup)
    (hkeys : ∀ a ∈ as, a.delivery.messageId ≠ id → ∀ b ∈ handled id as,
      c.counterBKey b.delivery true ≠ c.counterBKey a.delivery true)
    (hrun : Run.run (Channel.step c) s as = some s')
    : s'.verdicts id = s.verdicts id ++ (Budget.allow n k (charged id as)).map Verdict.nack := by
  induction as generalizing s k with
  | nil =>
    rw [Run.run_nil, some.injEq] at hrun
    simp [charged, handled, Budget.allow, hrun]
  | cons a as ih =>
    obtain ⟨t, hstep, hrest⟩ := Run.exists_step_of_run_cons hrun
    rw [map_cons, nodup_cons, List.mem_map] at htags
    have htags' : ∀ b ∈ as, b.delivery.deliveryTag ≠ a.delivery.deliveryTag :=
      fun b hb heq => htags.1 ⟨b, hb, heq⟩
    have hsub : ∀ b ∈ handled id as, b ∈ handled id (a :: as) :=
      fun b hb => List.Sublist.subset (List.Sublist.filter _ (sublist_cons_self a as)) hb
    have hrequeues' : ∀ b ∈ handled id as, b.Requeues c :=
      fun b hb => hrequeues b (hsub b hb)
    have hkeys' : ∀ x ∈ as, x.delivery.messageId ≠ id → ∀ b ∈ handled id as,
        c.counterBKey b.delivery true ≠ c.counterBKey x.delivery true :=
      fun x hx hxid b hb => hkeys x (mem_cons_of_mem _ hx) hxid b (hsub b hb)
    by_cases hid : a.delivery.messageId = id
    . have ha := hrequeues a (by rw [handled_cons_of_eq as hid]; exact mem_cons_self)
      rw [charged, handled_cons_of_eq as hid, map_cons, ← charged]
      by_cases hcounted : a.Counted
      . have hnext := htracks.counted hc hid ha hcounted hstep
        rw [decide_eq_true hcounted, Budget.allow]
        split at hnext
        . next hlt =>
          rw [if_pos hlt, ih hnext.1 hrequeues' htags.2 hkeys' hrest, hnext.2]
          simp
        . next hge =>
          rw [if_neg hge, ih hnext.1 hrequeues' htags.2 hkeys' hrest, hnext.2]
          simp
      . have hnext := htracks.uncounted hc hid ha hcounted htags' hstep
        rw [decide_eq_false hcounted, Budget.allow, ih hnext.1 hrequeues' htags.2 hkeys' hrest,
          hnext.2]
        simp
    . have hother : Tracks c id k as t := by
        apply htracks.other _ hstep
        intro b hb hbid
        have hmem : b ∈ handled id as := mem_filter.mpr ⟨hb, by simpa using hbid⟩
        exact hkeys a mem_cons_self hid b (hsub b hmem)
      rw [charged, handled_cons_of_ne as hid, ← charged,
        ih hother hrequeues' htags.2 hkeys' hrest, verdicts_step_of_ne hid hstep]

end

def RequeuesBounded (n : Nat) (vs : List Verdict) : Prop :=
  ¬replicate (n + 1) (.nack true) <:+: vs ∧
  ∀ pre v post, vs = pre ++ replicate n (.nack true) ++ v :: post → v = .nack false

theorem requeuesBounded_map_iff (n : Nat) (bs : List Bool)
    : RequeuesBounded n (bs.map .nack) ↔ ¬replicate (n + 1) true <:+: bs := by
  have hrow : replicate (n + 1) (.nack true) <:+: bs.map Verdict.nack ↔
      replicate (n + 1) true <:+: bs := by
    constructor
    . intro h
      have hmap := h.map (fun v => decide (v = .nack true))
      simpa [Function.comp_def] using hmap
    . intro h
      have hmap := h.map Verdict.nack
      rwa [map_replicate] at hmap
  unfold RequeuesBounded
  rw [hrow]
  constructor
  . intro h
    exact h.1
  . intro h
    refine ⟨h, ?_⟩
    intro pre v post heq
    have hmem : v ∈ bs.map Verdict.nack := by
      rw [heq]
      simp
    have ⟨requeue, _, hv⟩ := mem_map.mp hmem
    cases requeue with
    | false => exact hv.symm
    | true =>
      exfalso
      apply h
      rw [← hrow, heq, ← hv, replicate_succ']
      exact ⟨pre, post, by simp⟩

/-!
A handler that exceeds its timeout each time: under MaxRedeliveries(2) the message is requeued for
the third time, and so on.
-/

def boundedConsumer : Consumer where
  tag := bytes "ctag"
  maxRedeliveries := 2
  counterBDisabled := false
  brokerAutoAck := false
  handlerTimeout := true
  timeoutVerdict := .nackRequeue

def delivered (id : String) (deliveryTag : UInt64) (handling : Handling) : Action where
  delivery := ⟨bytes id, deliveryTag, true, 0, false, false⟩
  handling := handling

def timeoutRun : List Action :=
  [delivered "order-7" 1 .deadline, delivered "order-7" 2 .deadline,
    delivered "order-7" 3 .deadline]

theorem timeoutRun_not_requeuesBounded
    : boundedConsumer.Bounds 2 ∧ (∀ a ∈ timeoutRun, a.Requeues boundedConsumer) ∧
      ∃ s, Run.run (Channel.step boundedConsumer) .init timeoutRun = some s ∧
        s.verdicts (bytes "order-7") = [.nack true, .nack true, .nack true] ∧
        ¬RequeuesBounded 2 (s.verdicts (bytes "order-7")) := by
  have hfinal : (Run.run (Channel.step boundedConsumer) .init timeoutRun).map
      (fun s => s.verdicts (bytes "order-7")) =
      some [.nack true, .nack true, .nack true] := by decide
  have ⟨s, hrun, hs⟩ := map_eq_some_iff.mp hfinal
  refine ⟨⟨by decide, rfl, rfl, rfl⟩, by decide, s, hrun, hs, ?_⟩
  rw [hs]
  intro h
  exact h.1 infix_rfl

theorem requeuesBounded_iff_counted {c : Consumer} {n : Nat} {id : Bytes} {as : List Action}
    {s : Channel} (hc : c.Bounds n) (hrequeues : ∀ a ∈ handled id as, a.Requeues c)
    (htags : (as.map (·.delivery.deliveryTag)).Nodup)
    (hkeys : ∀ a ∈ as, a.delivery.messageId ≠ id → ∀ b ∈ handled id as,
      c.counterBKey b.delivery true ≠ c.counterBKey a.delivery true)
    (hrun : Run.run (Channel.step c) .init as = some s)
    : RequeuesBounded n (s.verdicts id) ↔
        ∀ i < (handled id as).length / (n + 1) * (n + 1), ∀ a ∈ (handled id as)[i]?, a.Counted := by
  have htracks : Tracks c id 0 as .init := by
    intro a _ _
    simp [Channel.init]
  have hverdicts := verdicts_of_run hc htracks hrequeues htags hkeys hrun
  have hinit : Channel.init.verdicts id = [] := rfl
  rw [hinit, nil_append] at hverdicts
  rw [hverdicts, requeuesBounded_map_iff, Budget.not_replicate_infix_allow_iff, charged,
    length_map]
  apply forall_congr'
  intro i
  apply imp_congr_right
  intro hi
  have hlt : i < (handled id as).length :=
    Nat.lt_of_lt_of_le hi (Nat.div_mul_le_self _ _)
  simp [hlt]

def requeueRun : List Action :=
  [delivered "order-7" 1 (.returned (some ⟨[.requeue]⟩) false),
    delivered "order-7" 2 (.returned (some ⟨[.requeue]⟩) false),
    delivered "order-8" 3 (.returned none false),
    delivered "order-7" 4 (.returned (some ⟨[.requeue]⟩) false),
    delivered "order-7" 5 .deadline]

theorem requeuesBounded_iff_counted_requeueRun
    : ∃ s, Run.run (Channel.step boundedConsumer) .init requeueRun = some s ∧
        s.verdicts (bytes "order-7") = [.nack true, .nack true, .nack false, .nack true] ∧
        RequeuesBounded 2 (s.verdicts (bytes "order-7")) := by
  have hfinal : (Run.run (Channel.step boundedConsumer) .init requeueRun).map
      (fun s => s.verdicts (bytes "order-7")) =
      some [.nack true, .nack true, .nack false, .nack true] := by decide
  have ⟨s, hrun, hs⟩ := map_eq_some_iff.mp hfinal
  refine ⟨s, hrun, hs, ?_⟩
  rw [requeuesBounded_iff_counted ⟨by decide, rfl, rfl, rfl⟩ (by decide) (by decide) (by decide) hrun]
  decide

end Dispatch
