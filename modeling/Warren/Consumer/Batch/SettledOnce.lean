import Warren.Base.Run
import Warren.Consumer.Batch.Order

/-!
How often a delivery of a batch is settled.
-/

namespace BatchConsumer

open List
namespace Core

def Exclusive (c : Core) : Event → Prop
  | .claim b =>
    ∀ batch ∈ c.batches[b]?, ∀ h ∈ highest batch.deliveries, ∀ call ∈ c.sends, h < call.tag
  | .compareAndSwap call =>
    c.resolved call.tag = false →
      ∀ batch ∈ c.batches, batch.decided = true → ∀ h ∈ highest batch.deliveries, h < call.tag
  | _ => True

instance (c : Core) (e : Event) : Decidable (c.Exclusive e) := by
  unfold Exclusive
  split <;> infer_instance

def Reached (c : Core) (tag : Nat) : Prop :=
  ∃ (b : Nat) (batch : Batch) (h : Nat), c.batches[b]? = some batch ∧ batch.decided = true ∧
    highest batch.deliveries = some h ∧ tag ≤ h

structure Once (c : Core) : Prop where
  nodup : c.settled.Nodup
  notLate : ∀ f ∈ c.frames, f.late = false
  calls : ∀ call ∈ c.calls, call.late = true → call.tag ∈ c.settled
  sendsNodup : (c.sends.map (·.tag)).Nodup
  sends : ∀ call ∈ c.sends,
    c.resolved call.tag = true ∧ call.tag ∉ c.settled ∧ call.late = false
  settled : ∀ x ∈ c.settled, x ∈ c.delivered ++ c.pending → c.resolved x = true ∨ c.Reached x
  apart : ∀ batch ∈ c.batches, batch.decided = true → ∀ h, highest batch.deliveries = some h →
    ∀ call ∈ c.sends, h < call.tag

theorem Once.init : init.Once := by
  constructor
  all_goals simp [Core.init, Core.settled]

variable {c : Core} {batch : Batch} {call : DeliveryCall}

theorem Reached.setBatch {b tag : Nat} {batch' : Batch} (h : c.Reached tag)
    (hb : c.batches[b]? = some batch) (heq : batch'.deliveries = batch.deliveries)
    (hdecided : batch.decided = true → batch'.decided = true)
    : (c.setBatch b batch').Reached tag := by
  have ⟨i, old, n, hi, hold, hn, hle⟩ := h
  by_cases hib : b = i
  . rw [hib, hi, Option.some.injEq] at hb
    refine ⟨i, batch', n, ?_, hdecided (hb ▸ hold), ?_, hle⟩
    . have hlt : i < c.batches.length := (List.getElem?_eq_some_iff.mp hi).1
      simp [Core.setBatch, hib, hlt]
    . rw [heq, ← hb]
      exact hn
  . refine ⟨i, old, n, ?_, hold, hn, hle⟩
    simp only [Core.setBatch]
    rw [getElem?_set_ne hib]
    exact hi

theorem Once.setBatch (h : c.Once) {b : Nat} {batch' : Batch} (hb : c.batches[b]? = some batch)
    (heq : batch'.deliveries = batch.deliveries)
    (hdecided : batch.decided = true → batch'.decided = true)
    (hapart : batch'.decided = true → ∀ n, highest batch'.deliveries = some n →
      ∀ call ∈ c.sends, n < call.tag) : (c.setBatch b batch').Once := by
  have hdelivered : (c.setBatch b batch').delivered = c.delivered := by
    unfold delivered
    rw [setBatch_tags hb heq]
  refine ⟨h.nodup, h.notLate, h.calls, h.sendsNodup, h.sends, ?_, ?_⟩
  . rw [hdelivered]
    intro x hx hmem
    exact (h.settled x hx hmem).imp id (fun hr => hr.setBatch hb heq hdecided)
  . intro old hold hdec
    cases mem_or_eq_of_mem_set hold with
    | inl hold => exact h.apart old hold hdec
    | inr hold =>
      rw [hold] at hdec ⊢
      exact hapart hdec

theorem Once.emit (h : c.Once) {f : Frame} (hnodup : f.settles.Nodup)
    (hnew : ∀ x ∈ f.settles, x ∉ c.settled) (hlate : f.late = false)
    (hsends : ∀ call ∈ c.sends, call.tag ∉ f.settles)
    (hsettled : ∀ x ∈ f.settles, x ∈ c.delivered ++ c.pending → c.resolved x = true ∨ c.Reached x)
    : (c.emit f).Once := by
  rcases emit_eq c f with ⟨_, heq⟩ | ⟨_, heq⟩
  . rw [heq]
    exact h
  . have happend := settled_append c f
    rw [heq]
    constructor
    . rw [happend, nodup_append]
      refine ⟨h.nodup, hnodup, ?_⟩
      intro x hx y hy hxy
      exact hnew y hy (hxy ▸ hx)
    . intro g hg
      rw [mem_append, mem_singleton] at hg
      cases hg with
      | inl hg => exact h.notLate g hg
      | inr hg => rw [hg, hlate]
    . intro call hcall hl
      rw [happend, mem_append]
      exact .inl (h.calls call hcall hl)
    . exact h.sendsNodup
    . intro call hcall
      have ⟨hres, hset, hl⟩ := h.sends call hcall
      refine ⟨hres, ?_, hl⟩
      rw [happend, mem_append, not_or]
      exact ⟨hset, hsends call hcall⟩
    . intro x hx hmem
      rw [happend, mem_append] at hx
      cases hx with
      | inl hx => exact h.settled x hx hmem
      | inr hx => exact hsettled x hx hmem
    . exact h.apart

theorem Once.refuse (h : c.Once) (hordered : c.Ordered) (requeue : Bool)
    : (c.refuse requeue).Once := by
  have htake : Once { c with taken := c.taken + 1 } :=
    ⟨h.nodup, h.notLate, h.calls, h.sendsNodup, h.sends, h.settled, h.apart⟩
  apply htake.emit
  . simp
  . intro x hx hset
    rw [mem_singleton] at hx
    have hlt := hordered.settled_lt x hset
    omega
  . rfl
  . intro call hcall hx
    rw [mem_singleton] at hx
    have hlt := hordered.lt_taken call.tag
      (mem_append_left _ (hordered.calls call (.inr hcall)))
    omega
  . intro x hx hmem
    rw [mem_singleton] at hx
    have hlt := hordered.lt_taken x hmem
    omega

theorem Once.sendAll (h : c.Once) {b : Nat} (hb : c.batches[b]? = some batch)
    (hdecided : batch.decided = true) (v : Verdict) : (c.sendAll b v).Once := by
  unfold Core.sendAll
  rw [hb]
  dsimp only
  split
  . exact h
  . next n hn =>
    apply h.emit
    . exact List.Pairwise.sublist filter_sublist nodup_range'
    . intro x hx
      exact (mem_settles hx).2.2
    . rfl
    . intro call hcall hx
      have hle := (mem_settles hx).2.1
      have hlt := h.apart batch (mem_of_getElem? hb) hdecided n hn call hcall
      omega
    . intro x hx _
      exact .inr ⟨b, batch, n, hb, hdecided, hn, (mem_settles hx).2.1⟩

theorem Once.not_settled (h : c.Once) (hordered : c.Ordered) (hcall : call ∈ c.calls)
    (hres : c.resolved call.tag = false)
    (hreach : ∀ batch ∈ c.batches, batch.decided = true → ∀ n,
      highest batch.deliveries = some n → n < call.tag) : call.tag ∉ c.settled := by
  intro hset
  have hmem := mem_append_left c.pending (hordered.calls call (.inl hcall))
  cases h.settled call.tag hset hmem with
  | inl hres' =>
    rw [hres] at hres'
    contradiction
  | inr hr =>
    have ⟨b, batch, n, hb, hdecided, hn, hle⟩ := hr
    have hlt := hreach batch (mem_of_getElem? hb) hdecided n hn
    omega

theorem Once.compareAndSwap (h : c.Once) (hordered : c.Ordered) (hcall : call ∈ c.calls)
    (hexclusive : c.Exclusive (.compareAndSwap call)) : (c.compareAndSwap call).Once := by
  have hcalls : ∀ call' ∈ c.calls.erase call, call'.late = true → call'.tag ∈ c.settled :=
    fun call' hcall' => h.calls call' (mem_of_mem_erase hcall')
  unfold Core.compareAndSwap
  split
  . exact ⟨h.nodup, h.notLate, hcalls, h.sendsNodup, h.sends, h.settled, h.apart⟩
  . next hres =>
    rw [Bool.not_eq_true] at hres
    have hreach := hexclusive hres
    have hopen := h.not_settled hordered hcall hres hreach
    have hmono : ∀ x, c.resolved x = true → Function.update c.resolved call.tag true x = true := by
      intro x hx
      rw [Function.update_apply]
      split
      . rfl
      . exact hx
    refine ⟨h.nodup, h.notLate, hcalls, ?_, ?_, ?_, ?_⟩
    . rw [map_cons, nodup_cons]
      refine ⟨?_, h.sendsNodup⟩
      intro hmem
      have ⟨call', hcall', heq⟩ := mem_map.mp hmem
      have hres' := (h.sends call' hcall').1
      rw [heq, hres] at hres'
      contradiction
    . intro call' hcall'
      rw [mem_cons] at hcall'
      cases hcall' with
      | inl heq =>
        rw [heq]
        refine ⟨Function.update_self _ _ _, hopen, ?_⟩
        rw [Bool.eq_false_iff]
        intro hlate
        exact hopen (h.calls call hcall hlate)
      | inr hcall' =>
        have ⟨hres', hset', hlate'⟩ := h.sends call' hcall'
        exact ⟨hmono _ hres', hset', hlate'⟩
    . intro x hx hmem
      exact (h.settled x hx hmem).imp (hmono x) id
    . intro batch hbatch hdecided n hn call' hcall'
      rw [mem_cons] at hcall'
      cases hcall' with
      | inl heq =>
        rw [heq]
        exact hreach batch hbatch hdecided n hn
      | inr hcall' => exact h.apart batch hbatch hdecided n hn call' hcall'

theorem Once.send (h : c.Once) (hcall : call ∈ c.sends) : (c.send call).Once := by
  have ⟨hres, hset, hlate⟩ := h.sends call hcall
  have hperm := perm_cons_erase hcall
  have hnodup := (hperm.map (·.tag)).nodup_iff.mp h.sendsNodup
  rw [map_cons, nodup_cons] at hnodup
  have hsub : ∀ call' ∈ c.sends.erase call, call' ∈ c.sends :=
    fun call' hcall' => mem_of_mem_erase hcall'
  have herase : Once { c with sends := c.sends.erase call } := by
    refine ⟨h.nodup, h.notLate, h.calls, hnodup.2, ?_, h.settled, ?_⟩
    . intro call' hcall'
      exact h.sends call' (hsub call' hcall')
    . intro batch hb hdecided n hn call' hcall'
      exact h.apart batch hb hdecided n hn call' (hsub call' hcall')
  apply herase.emit
  . simp
  . intro x hx
    rw [mem_singleton] at hx
    rw [hx]
    exact hset
  . exact hlate
  . intro call' hcall' hx
    rw [mem_singleton] at hx
    apply hnodup.1
    rw [mem_map]
    exact ⟨call', hcall', hx⟩
  . intro x hx _
    rw [mem_singleton] at hx
    rw [hx]
    exact .inl hres

theorem Once.flush (h : c.Once) : c.flush.Once := by
  refine ⟨h.nodup, h.notLate, h.calls, h.sendsNodup, h.sends, ?_, ?_⟩
  . intro x hx hmem
    rw [flush_delivered] at hmem
    have hpending : c.flush.pending = [] := rfl
    rw [hpending, append_nil] at hmem
    refine (h.settled x hx hmem).imp id ?_
    intro ⟨b, batch, n, hb, hrest⟩
    refine ⟨b, batch, n, ?_, hrest⟩
    have hlt : b < c.batches.length := (List.getElem?_eq_some_iff.mp hb).1
    simp only [Core.flush]
    rw [getElem?_append_left hlt]
    exact hb
  . intro batch hb hdecided
    simp only [Core.flush, mem_append, mem_singleton] at hb
    cases hb with
    | inl hb => exact h.apart batch hb hdecided
    | inr hb =>
      rw [hb] at hdecided
      contradiction

theorem Once.move {c' : Core} {e : Event} (h : c.Once) (hordered : c.Ordered)
    (hexclusive : c.Exclusive e) (hmove : c.Move e c') : c'.Once := by
  cases hmove with
  | receive =>
    refine ⟨h.nodup, h.notLate, h.calls, h.sendsNodup, h.sends, ?_, h.apart⟩
    intro x hx hmem
    simp only [Core.receive] at hmem
    rw [← append_assoc, mem_append, mem_singleton] at hmem
    cases hmem with
    | inl hmem => exact h.settled x hx hmem
    | inr heq =>
      have hlt := hordered.settled_lt x hx
      omega
  | refuse requeue => exact h.refuse hordered requeue
  | flush => exact h.flush
  | leave =>
    refine ⟨h.nodup, h.notLate, h.calls, h.sendsNodup, h.sends, ?_, h.apart⟩
    intro x hx hmem
    apply h.settled x hx
    simp only [Core.leave, append_nil] at hmem
    exact mem_append_left _ hmem
  | claim b batch hb => exact h.setBatch hb rfl (fun _ => rfl) (fun _ n hn => hexclusive batch hb n hn)
  | sendAll b batch v hb hdecided => exact h.sendAll hb hdecided v
  | issue b tag batch v hb htag =>
    refine ⟨h.nodup, h.notLate, ?_, h.sendsNodup, h.sends, h.settled, h.apart⟩
    intro call hcall hlate
    simp only [Core.issue, mem_cons] at hcall
    cases hcall with
    | inl heq =>
      rw [heq] at hlate ⊢
      have hall := all_eq_true.mp hlate tag htag
      exact of_decide_eq_true hall
    | inr hcall => exact h.calls call hcall hlate
  | compareAndSwap call hcall => exact h.compareAndSwap hordered hcall hexclusive
  | send call hcall => exact h.send hcall
  | ackNotify b batch hb =>
    exact h.setBatch hb rfl id (fun hdecided => h.apart batch (mem_of_getElem? hb) hdecided)
  | closeChannel =>
    exact ⟨h.nodup, h.notLate, h.calls, h.sendsNodup, h.sends, h.settled, h.apart⟩

end Core

namespace State

def Exclusive (s : State) (a : Action) : Prop :=
  ∀ e ∈ s.event a, s.toCore.Exclusive e

instance (s : State) (a : Action) : Decidable (s.Exclusive a) := by
  unfold Exclusive
  infer_instance

end State

open State

/-!
`Delivery.Ack` after `Batch.Ack` sends a second frame, as `ackAll` has not set `resolved`. So does
the timeout verdict for a call that has not yet sent its frame.
-/

def handlingTwo : List Action :=
  [.deliver, .deliver, .loop (.receive .valid), .loop .checkSize, .loop (.receive .valid),
    .loop .checkSize]

def ackAfterBatchAckRun : List Action :=
  handlingTwo ++
  [.user (.batchVerdict 0 .ack), .user (.batchSend 0 .ack), .user (.deliveryVerdict 0 1 .ack),
    .user (.compareAndSwap ⟨0, 1, .ack, true⟩), .user (.deliverySend ⟨0, 1, .ack, true⟩)]

def ackAtTimeoutRun : List Action :=
  handlingTwo ++
  [.user (.deliveryVerdict 0 1 .ack), .user (.compareAndSwap ⟨0, 1, .ack, false⟩),
    .flush .deadline, .flush .readAcked, .flush (.timeoutVerdict false), .flush .send,
    .user (.deliverySend ⟨0, 1, .ack, false⟩)]

theorem ack_settlesTwice
    : (∃ s, Run.run step (.init 2 true true) ackAfterBatchAckRun = some s ∧
        s.frames = [⟨some 0, 2, .ack, false, [1, 2]⟩, ⟨none, 1, .ack, true, [1]⟩]) ∧
      ∃ s, Run.run step (.init 2 true true) ackAtTimeoutRun = some s ∧
        s.frames = [⟨some 0, 2, .nack true, false, [1, 2]⟩, ⟨none, 1, .ack, false, [1]⟩] := by
  have hafter : (Run.run step (.init 2 true true) ackAfterBatchAckRun).map
      (fun s => s.frames) =
      some [⟨some 0, 2, .ack, false, [1, 2]⟩, ⟨none, 1, .ack, true, [1]⟩] := by decide
  have hat : (Run.run step (.init 2 true true) ackAtTimeoutRun).map (fun s => s.frames) =
      some [⟨some 0, 2, .nack true, false, [1, 2]⟩, ⟨none, 1, .ack, false, [1]⟩] := by decide
  exact ⟨Option.map_eq_some_iff.mp hafter, Option.map_eq_some_iff.mp hat⟩

theorem settledOnce_of_exclusive {size : Nat} {handlerTimeout timeoutRequeue : Bool}
    {as : List Action} {s : State}
    (hexclusive : Run.Along step Exclusive (.init size handlerTimeout timeoutRequeue) as)
    (hrun : Run.run step (.init size handlerTimeout timeoutRequeue) as = some s)
    : s.settled.Nodup ∧ ∀ f ∈ s.frames, f.late = false := by
  have hinv : s.Ordered ∧ s.Once := by
    apply core_inv_of_run (I := fun c => c.Ordered ∧ c.Once) _ _ hexclusive hrun
    . intro c e c' ⟨hordered, honce⟩ hexclusive hmove
      exact ⟨hordered.move hmove, honce.move hordered hexclusive hmove⟩
    . exact ⟨Core.Ordered.init, Core.Once.init⟩
  exact ⟨hinv.2.nodup, hinv.2.notLate⟩

def ackThenBatchAckRun : List Action :=
  handlingTwo ++
  [.user (.deliveryVerdict 0 1 .ack), .user (.compareAndSwap ⟨0, 1, .ack, false⟩),
    .user (.deliverySend ⟨0, 1, .ack, false⟩),
    .user (.batchVerdict 0 .ack), .user (.batchSend 0 .ack), .user (.ackNotify 0)]

theorem settledOnce_of_exclusive_ackThenBatchAckRun
    : ∃ s, Run.run step (.init 2 true true) ackThenBatchAckRun = some s ∧
        s.settled = [1, 2] ∧ s.settled.Nodup ∧ ∀ f ∈ s.frames, f.late = false := by
  have hfinal : (Run.run step (.init 2 true true) ackThenBatchAckRun).map
      (fun s => s.settled) = some [1, 2] := by decide
  have ⟨s, hrun, hs⟩ := Option.map_eq_some_iff.mp hfinal
  exact ⟨s, hrun, hs, settledOnce_of_exclusive (by decide) hrun⟩

end BatchConsumer
