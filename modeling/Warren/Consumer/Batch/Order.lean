import Mathlib.Data.List.Pairwise
import Warren.Consumer.Batch.Events

namespace BatchConsumer

open List

theorem foldl_highest_mem (deliveries : List Nat) (h : Nat)
    : deliveries.foldl (fun h d => if h < d then d else h) h ∈ h :: deliveries := by
  induction deliveries generalizing h with
  | nil => simp
  | cons d deliveries ih =>
    rw [foldl_cons]
    have hstep := ih (if h < d then d else h)
    generalize deliveries.foldl _ _ = r at hstep
    split at hstep
    . exact mem_cons_of_mem h hstep
    . rw [mem_cons] at hstep
      cases hstep with
      | _ hr => simp [hr]

theorem highest_mem {deliveries : List Nat} {h : Nat} (hh : highest deliveries = some h)
    : h ∈ deliveries := by
  cases deliveries with
  | nil => contradiction
  | cons x deliveries =>
    simp only [highest, Option.some.injEq] at hh
    rw [← hh]
    apply foldl_highest_mem

namespace Core

def tags (c : Core) : List (List Nat) := c.batches.map (·.deliveries)

def delivered (c : Core) : List Nat := c.tags.flatten

variable {c : Core} {b : Nat} {batch : Batch}

theorem tags_of_batch (h : c.batches[b]? = some batch) : c.tags[b]? = some batch.deliveries := by
  simp [tags, h]

theorem mem_delivered {tag : Nat} (h : c.batches[b]? = some batch) (htag : tag ∈ batch.deliveries)
    : tag ∈ c.delivered := by
  rw [delivered, mem_flatten]
  exact ⟨batch.deliveries, mem_of_getElem? (tags_of_batch h), htag⟩

@[simp]
theorem flush_tags (c : Core) : c.flush.tags = c.tags ++ [c.pending] := by
  simp [flush, tags]

@[simp]
theorem flush_delivered (c : Core) : c.flush.delivered = c.delivered ++ c.pending := by
  simp [delivered]

theorem setBatch_tags {batch' : Batch} (h : c.batches[b]? = some batch)
    (heq : batch'.deliveries = batch.deliveries) : (c.setBatch b batch').tags = c.tags := by
  apply List.ext_getElem?
  intro i
  have ⟨hlt, hget⟩ := List.getElem?_eq_some_iff.mp h
  simp only [setBatch, tags, List.getElem?_map, List.getElem?_set]
  split
  . next hi => simp [← hi, hlt, heq, hget]
  . rfl

theorem emit_eq (c : Core) (f : Frame)
    : (c.channelClosed = true ∧ c.emit f = c) ∨
      (c.channelClosed = false ∧ c.emit f = { c with frames := c.frames ++ [f] }) := by
  unfold emit
  split
  . next h => exact .inl ⟨h, rfl⟩
  . next h => exact .inr ⟨by simpa using h, rfl⟩

theorem settled_append (c : Core) (f : Frame)
    : settled { c with frames := c.frames ++ [f] } = c.settled ++ f.settles := by
  simp [settled]

theorem sendAll_eq (hb : c.batches[b]? = some batch) (v : Verdict)
    : c.sendAll b v = c ∨
      ∃ h, highest batch.deliveries = some h ∧ c.channelClosed = false ∧
        c.sendAll b v = { c with
          frames := c.frames ++
            [⟨some b, h, v, false, (range' 1 h).filter (fun tag => tag ∉ c.settled)⟩] } := by
  grind [emit_eq, sendAll]

theorem mem_settles {h x : Nat} (hx : x ∈ (range' 1 h).filter (fun tag => tag ∉ c.settled))
    : 1 ≤ x ∧ x ≤ h ∧ x ∉ c.settled := by
  rw [mem_filter, mem_range'_1] at hx
  refine ⟨hx.1.1, by omega, by simpa using hx.2⟩

structure Ordered (c : Core) : Prop where
  sorted : (c.delivered ++ c.pending).Pairwise (· < ·)
  lt_taken : ∀ x ∈ c.delivered ++ c.pending, x < c.taken
  settled_lt : ∀ x ∈ c.settled, x < c.taken
  calls : ∀ call, call ∈ c.calls ∨ call ∈ c.sends → call.tag ∈ c.delivered

theorem Ordered.init : init.Ordered := by
  constructor
  all_goals simp [Core.init, delivered, tags, settled]

theorem Ordered.emit (h : c.Ordered) {f : Frame} (hf : ∀ x ∈ f.settles, x < c.taken)
    : (c.emit f).Ordered := by
  rcases emit_eq c f with ⟨_, heq⟩ | ⟨_, heq⟩
  . rw [heq]
    exact h
  . rw [heq]
    refine ⟨h.sorted, h.lt_taken, ?_, h.calls⟩
    intro x hx
    rw [settled_append, mem_append] at hx
    cases hx with
    | inl hx => exact h.settled_lt x hx
    | inr hx => exact hf x hx

theorem Ordered.take (h : c.Ordered) : Ordered { c with taken := c.taken + 1 } := by
  refine ⟨h.sorted, ?_, ?_, h.calls⟩
  . intro x hx
    exact Nat.lt_succ_of_lt (h.lt_taken x hx)
  . intro x hx
    exact Nat.lt_succ_of_lt (h.settled_lt x hx)

theorem Ordered.setBatch (h : c.Ordered) {batch' : Batch} (hb : c.batches[b]? = some batch)
    (heq : batch'.deliveries = batch.deliveries) : (c.setBatch b batch').Ordered := by
  have hdelivered : (c.setBatch b batch').delivered = c.delivered := by
    unfold delivered
    rw [setBatch_tags hb heq]
  constructor
  . rw [hdelivered]
    exact h.sorted
  . rw [hdelivered]
    exact h.lt_taken
  . exact h.settled_lt
  . rw [hdelivered]
    exact h.calls

theorem Ordered.highest_lt (h : c.Ordered) {n : Nat} (hb : c.batches[b]? = some batch)
    (hn : highest batch.deliveries = some n) : n < c.taken := by
  apply h.lt_taken
  rw [mem_append]
  exact .inl (mem_delivered hb (highest_mem hn))

theorem Ordered.receive (h : c.Ordered) : c.receive.Ordered := by
  have hmem : ∀ x ∈ c.delivered ++ (c.pending ++ [c.taken]),
      x ∈ c.delivered ++ c.pending ∨ x = c.taken := by
    intro x hx
    rwa [← append_assoc, mem_append, mem_singleton] at hx
  constructor
  . simp only [Core.receive]
    rw [← append_assoc, pairwise_append]
    refine ⟨h.sorted, pairwise_singleton _ _, ?_⟩
    intro x hx y hy
    rw [mem_singleton] at hy
    rw [hy]
    exact h.lt_taken x hx
  . intro x hx
    cases hmem x hx with
    | inl hx => exact Nat.lt_succ_of_lt (h.lt_taken x hx)
    | inr hx =>
      rw [hx]
      exact Nat.lt_succ_self _
  . exact h.take.settled_lt
  . exact h.calls

theorem Ordered.flush (h : c.Ordered) : c.flush.Ordered := by
  constructor
  . rw [flush_delivered]
    simpa [Core.flush] using h.sorted
  . rw [flush_delivered]
    simpa [Core.flush] using h.lt_taken
  . exact h.settled_lt
  . intro call hcall
    rw [flush_delivered, mem_append]
    exact .inl (h.calls call hcall)

theorem Ordered.leave (h : c.Ordered) : c.leave.Ordered := by
  refine ⟨?_, ?_, h.settled_lt, h.calls⟩
  . simp only [Core.leave, append_nil]
    exact (pairwise_append.mp h.sorted).1
  . intro x hx
    simp only [Core.leave, append_nil] at hx
    exact h.lt_taken x (mem_append_left _ hx)

theorem Ordered.sendAll (h : c.Ordered) (hb : c.batches[b]? = some batch) (v : Verdict)
    : (c.sendAll b v).Ordered := by
  rcases sendAll_eq hb v with heq | ⟨n, hn, _, heq⟩
  . rw [heq]
    exact h
  . rw [heq]
    refine ⟨h.sorted, h.lt_taken, ?_, h.calls⟩
    intro x hx
    rw [settled_append, mem_append] at hx
    cases hx with
    | inl hx => exact h.settled_lt x hx
    | inr hx => exact Nat.lt_of_le_of_lt (mem_settles hx).2.1 (h.highest_lt hb hn)

theorem Ordered.setCalls {c' : Core} (h : c.Ordered) (htags : c'.tags = c.tags)
    (hpending : c'.pending = c.pending) (htaken : c'.taken = c.taken)
    (hframes : c'.frames = c.frames)
    (hcalls : ∀ call, call ∈ c'.calls ∨ call ∈ c'.sends →
      (call ∈ c.calls ∨ call ∈ c.sends) ∨ call.tag ∈ c.delivered) : c'.Ordered := by
  grind [Ordered, delivered, settled]

theorem Ordered.issue (h : c.Ordered) {tag : Nat} (v : Verdict) (hb : c.batches[b]? = some batch)
    (htag : tag ∈ batch.deliveries) : (c.issue b batch tag v).Ordered := by
  refine h.setCalls rfl rfl rfl rfl ?_
  intro call hcall
  simp only [Core.issue, mem_cons] at hcall
  rcases hcall with (hcall | hcall) | hcall
  . rw [hcall]
    exact .inr (mem_delivered hb htag)
  . exact .inl (.inl hcall)
  . exact .inl (.inr hcall)

theorem Ordered.compareAndSwap (h : c.Ordered) {call : DeliveryCall} (hcall : call ∈ c.calls)
    : (c.compareAndSwap call).Ordered := by
  unfold Core.compareAndSwap
  split
  . refine h.setCalls rfl rfl rfl rfl ?_
    intro call' hcall'
    exact .inl (hcall'.imp mem_of_mem_erase id)
  . refine h.setCalls rfl rfl rfl rfl ?_
    intro call' hcall'
    simp only [mem_cons] at hcall'
    rcases hcall' with hcall' | hcall' | hcall'
    . exact .inl (.inl (mem_of_mem_erase hcall'))
    . exact .inl (.inl (hcall' ▸ hcall))
    . exact .inl (.inr hcall')

theorem Ordered.send (h : c.Ordered) {call : DeliveryCall} (hcall : call ∈ c.sends)
    : (c.send call).Ordered := by
  have hsends : Ordered { c with sends := c.sends.erase call } := by
    refine h.setCalls rfl rfl rfl rfl ?_
    intro call' hcall'
    exact .inl (hcall'.imp id mem_of_mem_erase)
  apply hsends.emit
  intro x hx
  rw [mem_singleton] at hx
  rw [hx]
  exact h.lt_taken call.tag (mem_append_left _ (h.calls call (.inr hcall)))

theorem Ordered.move {c' : Core} {e : Event} (h : c.Ordered) (hmove : c.Move e c')
    : c'.Ordered := by
  cases hmove with
  | receive => exact h.receive
  | refuse requeue =>
    apply h.take.emit
    simp
  | flush => exact h.flush
  | leave => exact h.leave
  | claim b batch hb | ackNotify b batch hb => exact h.setBatch hb rfl
  | sendAll b batch v hb => exact h.sendAll hb v
  | issue b tag batch v hb htag => exact h.issue v hb htag
  | compareAndSwap call hcall => exact h.compareAndSwap hcall
  | send call hcall => exact h.send hcall
  | closeChannel => exact ⟨h.sorted, h.lt_taken, h.settled_lt, h.calls⟩

theorem Ordered.lt_of_tags (h : c.Ordered) {i j x y : Nat} {ds ds' : List Nat} (hij : i < j)
    (hi : c.tags[i]? = some ds) (hj : c.tags[j]? = some ds') (hx : x ∈ ds) (hy : y ∈ ds')
    : x < y := by
  have hpairwise := (List.pairwise_flatten.mp (List.pairwise_append.mp h.sorted).1).2
  have ⟨hi', heqi⟩ := List.getElem?_eq_some_iff.mp hi
  have ⟨hj', heqj⟩ := List.getElem?_eq_some_iff.mp hj
  have hlt := pairwise_iff_getElem.mp hpairwise i j hi' hj' hij
  rw [heqi, heqj] at hlt
  exact hlt x hx y hy

end Core
end BatchConsumer
