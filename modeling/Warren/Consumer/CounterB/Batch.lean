import Warren.Consumer.Dispatch.Requeues

/-!
Counter B of a `BatchConsumer` (`batch_consumer.go`). `counterState` is never nil while a batch is
handled.
-/

namespace CounterB

open Dispatch (Delivery Err Consumer)
open List

def batchCounterBKey (consumerTag msgID : Bytes) (deliveryTag : UInt64) : Bytes :=
  if msgID ≠ [] ∧ counterBKeyForMsgID msgID ≠ [] then
    counterBKeyForMsgID msgID
  else
    counterBKeyForDeliveryTag consumerTag deliveryTag

structure BatchConsumer where
  tag : Bytes
  maxRedeliveries : Int
  counterBDisabled : Bool

namespace BatchConsumer

def key (c : BatchConsumer) (d : Delivery) : Bytes :=
  batchCounterBKey c.tag d.messageId d.deliveryTag

-- errors.Is(handlerErr, ErrRequeue)
abbrev Requeues (handlerErr : Option Err) : Prop := ∃ err ∈ handlerErr, .requeue ∈ err.chain

-- "%w (in-process counter exceeded)"
def exceededErr : Err := ⟨[.maxRedeliveries]⟩

def deleteAll (cs : RedeliveryCounter) (keys : List Bytes) : RedeliveryCounter :=
  keys.foldl RedeliveryCounter.delete cs

def storeAll (cs : RedeliveryCounter) (pairs : List (Bytes × Int)) : RedeliveryCounter :=
  pairs.foldl (fun cs p => cs.store p.1 (p.2 + 1)) cs

def fastPath (c : BatchConsumer) (cs : RedeliveryCounter) (d : Delivery) (handlerErr : Option Err)
    : RedeliveryCounter × Option Err :=
  let count := cs.load (c.key d)
  if c.maxRedeliveries < count + 1 then
    (cs.delete (c.key d), some exceededErr)
  else
    (cs.store (c.key d) (count + 1), handlerErr)

/--
The first pass of the general path, `none` once a delivery exceeds the limit.
-/
def collect (c : BatchConsumer) (cs : RedeliveryCounter) (pairs : List (Bytes × Int))
    : List Bytes → Option (List (Bytes × Int))
  | [] => some pairs
  | key :: keys =>
    let count := cs.load key
    if c.maxRedeliveries < count + 1 then
      none
    else
      c.collect cs (pairs ++ [(key, count)]) keys

def generalPath (c : BatchConsumer) (cs : RedeliveryCounter) (deliveries : List Delivery)
    (handlerErr : Option Err) : RedeliveryCounter × Option Err :=
  match c.collect cs [] (deliveries.map c.key) with
  | none => (deleteAll cs (deliveries.map c.key), some exceededErr)
  | some pairs => (storeAll cs pairs, handlerErr)

def applyBatchCounterB (c : BatchConsumer) (cs : RedeliveryCounter) (deliveries : List Delivery)
    (handlerErr : Option Err) : RedeliveryCounter × Option Err :=
  if c.maxRedeliveries ≤ 0 ∨ c.counterBDisabled then
    (cs, handlerErr)
  else if Requeues handlerErr then
    match deliveries with
    | [d] => c.fastPath cs d handlerErr
    | deliveries => c.generalPath cs deliveries handlerErr
  else
    (deleteAll cs (deliveries.map c.key), handlerErr)

variable {c : BatchConsumer} {cs : RedeliveryCounter} {keys : List Bytes}

theorem lookup_deleteAll (cs : RedeliveryCounter) (keys : List Bytes) (key : Bytes)
    : (deleteAll cs keys).m.lookup key = if key ∈ keys then none else cs.m.lookup key := by
  unfold deleteAll
  induction keys generalizing cs with
  | nil => simp
  | cons k keys ih =>
    rw [foldl_cons, ih]
    by_cases hkey : key = k
    . subst hkey
      simp [RedeliveryCounter.delete]
    . simp [RedeliveryCounter.delete, hkey]

theorem lookup_storeAll {pairs : List (Bytes × Int)} (count : Bytes → Int)
    (hcount : ∀ p ∈ pairs, p.2 = count p.1) (cs : RedeliveryCounter) (key : Bytes)
    : (storeAll cs pairs).m.lookup key
        =
      if key ∈ pairs.map Prod.fst then some (count key + 1) else cs.m.lookup key := by
  unfold storeAll
  induction pairs generalizing cs with
  | nil => simp
  | cons p pairs ih =>
    have hp := hcount p mem_cons_self
    have hpairs : ∀ q ∈ pairs, q.2 = count q.1 := fun q hq => hcount q (mem_cons_of_mem p hq)
    rw [foldl_cons, ih hpairs]
    by_cases hkey : key = p.1
    . subst hkey
      simp [RedeliveryCounter.store, hp]
    . simp only [map_cons, mem_cons, hkey, false_or]
      simp [RedeliveryCounter.store, hkey]

theorem collect_eq (c : BatchConsumer) (cs : RedeliveryCounter) (pairs : List (Bytes × Int))
    (keys : List Bytes)
    : c.collect cs pairs keys
        =
      if ∃ key ∈ keys, c.maxRedeliveries ≤ cs.load key then
        none
      else
        some (pairs ++ keys.map (fun key => (key, cs.load key))) := by
  induction keys generalizing pairs with
  | nil => simp [collect]
  | cons key keys ih =>
    unfold collect
    dsimp
    rw [ih]
    by_cases hexceeded : c.maxRedeliveries ≤ cs.load key
    . have hlt : c.maxRedeliveries < cs.load key + 1 := by omega
      simp [hexceeded, hlt]
    . have hlt : ¬ c.maxRedeliveries < cs.load key + 1 := by omega
      simp [hexceeded, hlt]

theorem generalPath_of_exceeded {deliveries : List Delivery} (handlerErr : Option Err)
    (h : ∃ d ∈ deliveries, c.maxRedeliveries ≤ cs.load (c.key d))
    : c.generalPath cs deliveries handlerErr
        =
      (deleteAll cs (deliveries.map c.key), some exceededErr) := by
  have hkeys : ∃ key ∈ deliveries.map c.key, c.maxRedeliveries ≤ cs.load key := by
    simpa using h
  unfold generalPath
  rw [collect_eq, if_pos hkeys]

theorem generalPath_of_not_exceeded {deliveries : List Delivery} (handlerErr : Option Err)
    (h : ¬ ∃ d ∈ deliveries, c.maxRedeliveries ≤ cs.load (c.key d))
    : c.generalPath cs deliveries handlerErr
        =
      (storeAll cs ((deliveries.map c.key).map (fun key => (key, cs.load key))), handlerErr) := by
  have hkeys : ¬ ∃ key ∈ deliveries.map c.key, c.maxRedeliveries ≤ cs.load key := by
    simpa using h
  unfold generalPath
  rw [collect_eq, if_neg hkeys]
  rfl

theorem generalPath_singleton (c : BatchConsumer) (cs : RedeliveryCounter) (d : Delivery)
    (handlerErr : Option Err) : c.generalPath cs [d] handlerErr = c.fastPath cs d handlerErr := by
  unfold fastPath
  dsimp
  by_cases h : c.maxRedeliveries ≤ cs.load (c.key d)
  . rw [generalPath_of_exceeded handlerErr (by simpa using h), if_pos (by omega)]
    rfl
  . rw [generalPath_of_not_exceeded handlerErr (by simpa using h), if_neg (by omega)]
    rfl

structure Bounds (c : BatchConsumer) (n : Nat) : Prop where
  pos : 0 < n
  maxRedeliveries : c.maxRedeliveries = n
  counterB : c.counterBDisabled = false

variable {n : Nat} {limit : Int}

theorem applyBatchCounterB_of_requeues (hc : c.Bounds n) {handlerErr : Option Err}
    (h : Requeues handlerErr) (deliveries : List Delivery)
    : c.applyBatchCounterB cs deliveries handlerErr = c.generalPath cs deliveries handlerErr := by
  have hpos := hc.pos
  have hmax := hc.maxRedeliveries
  unfold applyBatchCounterB
  rw [if_neg (by simp [hc.counterB]; omega), if_pos h]
  split
  . rw [generalPath_singleton]
  . rfl

theorem key_eq_counterBKey {c' : Consumer} (hc' : c'.Bounds n) (htag : c.tag = c'.tag)
    (d : Delivery) : c.key d = c'.counterBKey d true := by
  unfold key batchCounterBKey
  by_cases hid : counterBKeyForMsgID d.messageId = []
  . rw [Dispatch.counterBKey_of_unstable hc' hid]
    simp [hid, htag]
  . rw [Dispatch.counterBKey_of_stable hc' hid]
    have hne : d.messageId ≠ [] := by
      intro hnil
      apply hid
      rw [hnil]
      decide
    simp [hid, hne]

theorem applyBatchCounterB_singleton {c' : Consumer} (hc : c.Bounds n) (hc' : c'.Bounds n)
    (htag : c.tag = c'.tag) (cs : RedeliveryCounter) (d : Delivery) (handlerErr : Option Err)
    : c.applyBatchCounterB cs [d] handlerErr
        =
      c'.applyCounterB cs (c'.counterBKey d true) handlerErr := by
  have hne := Dispatch.counterBKey_ne_nil hc' d
  have hkey := key_eq_counterBKey hc' htag d
  unfold Consumer.applyCounterB
  rw [if_neg hne]
  by_cases hrequeues : Requeues handlerErr
  . rw [applyBatchCounterB_of_requeues hc hrequeues, generalPath_singleton, if_pos hrequeues]
    unfold fastPath
    rw [hkey, hc.maxRedeliveries, hc'.maxRedeliveries]
    rfl
  . unfold applyBatchCounterB
    have hpos := hc.pos
    have hmax := hc.maxRedeliveries
    rw [if_neg (by simp [hc.counterB]; omega), if_neg hrequeues, if_neg hrequeues, ← hkey]
    rfl

-- `r` has rewritten the verdict and dropped the counts of the batch, or counted each key once
def AllOrNothing (c : BatchConsumer) (n : Nat) (cs : RedeliveryCounter) (deliveries : List Delivery)
    (handlerErr : Option Err) (r : RedeliveryCounter × Option Err) : Prop :=
  (r.2 = some exceededErr
      ∧ (∀ d ∈ deliveries, r.1.m.lookup (c.key d) = none)
      ∧ (∃ d ∈ deliveries, n ≤ cs.load (c.key d)))
    ∨ (r.2 = handlerErr
      ∧ (∀ d ∈ deliveries, r.1.m.lookup (c.key d) = some (cs.load (c.key d) + 1))
      ∧ (∀ d ∈ deliveries, cs.load (c.key d) < n))

theorem allOrNothing_generalPath (hc : c.Bounds n) (deliveries : List Delivery)
    (handlerErr : Option Err)
    : AllOrNothing c n cs deliveries handlerErr (c.generalPath cs deliveries handlerErr) := by
  have hmax := hc.maxRedeliveries
  by_cases h : ∃ d ∈ deliveries, c.maxRedeliveries ≤ cs.load (c.key d)
  . left
    rw [generalPath_of_exceeded handlerErr h]
    refine ⟨rfl, ?_, ?_⟩
    . intro d hd
      rw [lookup_deleteAll, if_pos (mem_map_of_mem hd)]
    . rw [hmax] at h
      apply h
  . right
    rw [generalPath_of_not_exceeded handlerErr h]
    refine ⟨rfl, ?_, ?_⟩
    . intro d hd
      rw [lookup_storeAll cs.load (by simp), if_pos]
      simp
      exact ⟨d, hd, rfl⟩
    . intro d hd
      apply Int.not_le.mp
      intro hle
      apply h
      exact ⟨d, hd, by omega⟩

theorem lookup_generalPath_of_ne {key : Bytes} (deliveries : List Delivery)
    (handlerErr : Option Err) (hkey : ∀ d ∈ deliveries, c.key d ≠ key)
    : (c.generalPath cs deliveries handlerErr).1.m.lookup key = cs.m.lookup key := by
  have hnot : key ∉ deliveries.map c.key := by simpa using hkey
  by_cases h : ∃ d ∈ deliveries, c.maxRedeliveries ≤ cs.load (c.key d)
  . rw [generalPath_of_exceeded handlerErr h, lookup_deleteAll, if_neg hnot]
  . rw [generalPath_of_not_exceeded handlerErr h, lookup_storeAll cs.load (by simp),
      if_neg]
    simpa using hkey

theorem within_deleteAll (h : cs.Within limit) (keys : List Bytes)
    : (deleteAll cs keys).Within limit := by
  unfold deleteAll
  induction keys generalizing cs with
  | nil => exact h
  | cons key keys ih => exact ih (h.delete key)

theorem within_storeAll (h : cs.Within limit) {pairs : List (Bytes × Int)}
    (hpairs : ∀ p ∈ pairs, 0 ≤ p.2 ∧ p.2 < limit) : (storeAll cs pairs).Within limit := by
  unfold storeAll
  induction pairs generalizing cs with
  | nil => exact h
  | cons p pairs ih =>
    have hp := hpairs p mem_cons_self
    exact ih (h.store p.1 (by omega)) (fun q hq => hpairs q (mem_cons_of_mem p hq))

theorem within_generalPath (hlimit : c.maxRedeliveries ≤ limit)
    (h : cs.Within limit) (deliveries : List Delivery) (handlerErr : Option Err)
    : (c.generalPath cs deliveries handlerErr).1.Within limit := by
  by_cases hexceeded : ∃ d ∈ deliveries, c.maxRedeliveries ≤ cs.load (c.key d)
  . rw [generalPath_of_exceeded handlerErr hexceeded]
    exact within_deleteAll h _
  . rw [generalPath_of_not_exceeded handlerErr hexceeded]
    apply within_storeAll h
    simp only [map_map, forall_mem_map]
    intro d hd
    refine ⟨(h _).1, Int.lt_of_lt_of_le (Int.not_le.mp ?_) hlimit⟩
    exact fun hle => hexceeded ⟨d, hd, hle⟩

theorem within_applyBatchCounterB (hlimit : c.maxRedeliveries ≤ limit)
    (h : cs.Within limit) (deliveries : List Delivery) (handlerErr : Option Err)
    : (c.applyBatchCounterB cs deliveries handlerErr).1.Within limit := by
  have hgeneral := within_generalPath hlimit h deliveries handlerErr
  unfold applyBatchCounterB
  split
  . exact h
  . split
    . split
      . rwa [← generalPath_singleton]
      . exact hgeneral
    . exact within_deleteAll h _

theorem counterB_agrees {n : Nat} {c' : Consumer} (hc : c.Bounds n) (hc' : c'.Bounds n)
    (htag : c.tag = c'.tag) (cs : RedeliveryCounter) (handlerErr : Option Err)
    : (∀ d, c.applyBatchCounterB cs [d] handlerErr
          = c'.applyCounterB cs (c'.counterBKey d true) handlerErr)
        ∧ (Requeues handlerErr → ∀ d,
            c.generalPath cs [d] handlerErr = c.applyBatchCounterB cs [d] handlerErr)
        ∧ (Requeues handlerErr → ∀ deliveries,
            AllOrNothing c n cs deliveries handlerErr
                (c.applyBatchCounterB cs deliveries handlerErr)
              ∧ ∀ key, (∀ d ∈ deliveries, c.key d ≠ key) →
                (c.applyBatchCounterB cs deliveries handlerErr).1.m.lookup key
                  = cs.m.lookup key) := by
  refine ⟨?_, ?_, ?_⟩
  . intro d
    apply applyBatchCounterB_singleton hc hc' htag
  . intro hrequeues d
    rw [applyBatchCounterB_of_requeues hc hrequeues]
  . intro hrequeues deliveries
    rw [applyBatchCounterB_of_requeues hc hrequeues]
    constructor
    . apply allOrNothing_generalPath hc
    . intro key hkey
      apply lookup_generalPath_of_ne deliveries handlerErr hkey

def stockBatch : BatchConsumer := ⟨[115], 3, false⟩

def stockConsumer : Consumer := ⟨[115], 3, false, false, false, .nackNoRequeue⟩

def stockDelivery (deliveryTag : UInt64) : Delivery :=
  ⟨[111, 49], deliveryTag, true, 0, false, false⟩

theorem counterB_agrees_stock
    : Requeues (some ⟨[.requeue]⟩)
        ∧ AllOrNothing stockBatch 3 .new [stockDelivery 1, stockDelivery 2] (some ⟨[.requeue]⟩)
            (stockBatch.applyBatchCounterB .new [stockDelivery 1, stockDelivery 2]
              (some ⟨[.requeue]⟩)) := by
  have hrequeues : Requeues (some ⟨[.requeue]⟩) := by decide
  have hbatch : stockBatch.Bounds 3 := ⟨by decide, rfl, rfl⟩
  have hconsumer : stockConsumer.Bounds 3 := ⟨by decide, rfl, rfl, rfl⟩
  have hagrees := counterB_agrees hbatch hconsumer rfl .new (some ⟨[.requeue]⟩)
  exact ⟨hrequeues, (hagrees.2.2 hrequeues [stockDelivery 1, stockDelivery 2]).1⟩

end BatchConsumer
end CounterB
