import Warren.Base.Run
import Warren.Consumer.Batch.Order

/-!
A frame with multiple=true reaches back over all that the earlier batches left open.
-/

namespace BatchConsumer

open List
namespace Core

def Tidy (c : Core) : Event → Prop
  | .flush => c.channelClosed = false → ∀ tag ∈ c.delivered, tag ∈ c.settled
  | _ => True

instance (c : Core) (e : Event) : Decidable (c.Tidy e) := by
  unfold Tidy
  split <;> infer_instance

structure Settling (c : Core) : Prop where
  -- below a delivery of a batch there is nothing but settled deliveries and deliveries of batches
  covered : ∀ x y, 1 ≤ x → x ≤ y → y ∈ c.delivered →
    c.channelClosed = true ∨ x ∈ c.settled ∨ x ∈ c.delivered
  waiting : c.left = false → ∀ x, 1 ≤ x → x < c.taken →
    c.channelClosed = true ∨ x ∈ c.settled ∨ x ∈ c.delivered ++ c.pending
  earlier : ∀ (i j : Nat) ds ds', i < j → c.tags[i]? = some ds → c.tags[j]? = some ds' →
    ∀ x ∈ ds, c.channelClosed = true ∨ x ∈ c.settled
  own : ∀ f ∈ c.frames, ∀ b, f.batch = some b →
    ∃ ds, c.tags[b]? = some ds ∧ ∀ x ∈ f.settles, x ∈ ds

theorem Settling.init : init.Settling := by
  constructor
  all_goals simp [Core.init, delivered, tags]
  intro x hx hx'
  omega

variable {c : Core}

theorem Settling.frame {c' : Core} (h : c.Settling) (htags : c'.tags = c.tags)
    (hpending : c'.pending = c.pending) (htaken : c'.taken = c.taken) (hleft : c'.left = c.left)
    (hclosed : c.channelClosed = true → c'.channelClosed = true)
    (hsettled : ∀ x ∈ c.settled, x ∈ c'.settled)
    (hown : ∀ f ∈ c'.frames, ∀ b, f.batch = some b →
      ∃ ds, c.tags[b]? = some ds ∧ ∀ x ∈ f.settles, x ∈ ds) : c'.Settling := by
  have hdelivered : c'.delivered = c.delivered := by
    unfold delivered
    rw [htags]
  constructor
  . rw [hdelivered]
    intro x y hx hxy hy
    exact (h.covered x y hx hxy hy).imp hclosed (Or.imp_left (hsettled x))
  . rw [hdelivered, hpending, htaken, hleft]
    intro hl x hx hlt
    exact (h.waiting hl x hx hlt).imp hclosed (Or.imp_left (hsettled x))
  . rw [htags]
    intro i j ds ds' hij hi hj x hx
    exact (h.earlier i j ds ds' hij hi hj x hx).imp hclosed (hsettled x)
  . rw [htags]
    exact hown

theorem Settling.emit (h : c.Settling) {f : Frame} (hf : f.batch = none) : (c.emit f).Settling := by
  rcases emit_eq c f with ⟨_, heq⟩ | ⟨_, heq⟩
  . rw [heq]
    exact h
  . rw [heq]
    refine h.frame rfl rfl rfl rfl id ?_ ?_
    . intro x hx
      rw [settled_append, mem_append]
      exact .inl hx
    . intro g hg b hb
      rw [mem_append, mem_singleton] at hg
      cases hg with
      | inl hg => exact h.own g hg b hb
      | inr hg =>
        rw [hg, hf] at hb
        contradiction

theorem Settling.refuse (h : c.Settling) (requeue : Bool) : (c.refuse requeue).Settling := by
  unfold Core.refuse sendOne
  rcases emit_eq { c with taken := c.taken + 1 }
    ⟨none, c.taken, .nack requeue, false, [c.taken]⟩ with ⟨hclosed, heq⟩ | ⟨_, heq⟩
  . rw [heq]
    exact ⟨h.covered, fun _ _ _ _ => .inl hclosed, h.earlier, h.own⟩
  . rw [heq]
    have hsettled : ∀ x ∈ c.settled, x ∈ settled { c with
        taken := c.taken + 1
        frames := c.frames ++ [⟨none, c.taken, .nack requeue, false, [c.taken]⟩] } := by
      intro x hx
      simp only [settled, flatMap_append, mem_append]
      exact .inl hx
    constructor
    . intro x y hx hxy hy
      exact (h.covered x y hx hxy hy).imp id (Or.imp_left (hsettled x))
    . intro hl x hx hlt
      cases Nat.lt_succ_iff_lt_or_eq.mp hlt with
      | inl hlt => exact (h.waiting hl x hx hlt).imp id (Or.imp_left (hsettled x))
      | inr heq =>
        right
        left
        simp [settled, heq]
    . intro i j ds ds' hij hi hj x hx
      exact (h.earlier i j ds ds' hij hi hj x hx).imp id (hsettled x)
    . intro f hf b hb
      simp only [mem_append, mem_singleton] at hf
      cases hf with
      | inl hf => exact h.own f hf b hb
      | inr hf =>
        rw [hf] at hb
        contradiction

theorem Settling.sendAll (h : c.Settling) (hordered : c.Ordered) {b : Nat}
    {batch : Batch} (hb : c.batches[b]? = some batch) (v : Verdict) : (c.sendAll b v).Settling := by
  rcases sendAll_eq hb v with heq | ⟨n, hn, hopen, heq⟩
  . rw [heq]
    exact h
  . have htags := tags_of_batch hb
    rw [heq]
    refine h.frame rfl rfl rfl rfl id ?_ ?_
    . intro x hx
      rw [settled_append, mem_append]
      exact .inl hx
    . intro f hf b' hb'
      rw [mem_append, mem_singleton] at hf
      cases hf with
      | inl hf => exact h.own f hf b' hb'
      | inr hf =>
        rw [hf, Option.some.injEq] at hb'
        refine ⟨batch.deliveries, hb' ▸ htags, ?_⟩
        intro x hx
        rw [hf] at hx
        have ⟨hpos, hle, hunsettled⟩ := mem_settles hx
        rcases h.covered x n hpos hle (mem_delivered hb (highest_mem hn)) with hc | hc | hc
        . rw [hopen] at hc
          contradiction
        . contradiction
        . -- `x` is of this batch: the earlier ones are settled, the later ones have larger tags
          have ⟨ds, hmem, hxds⟩ := mem_flatten.mp hc
          have ⟨i, hi⟩ := mem_iff_getElem?.mp hmem
          rcases Nat.lt_trichotomy i b with hlt | heq | hgt
          . cases h.earlier i b ds _ hlt hi htags x hxds with
            | inl hc =>
              rw [hopen] at hc
              contradiction
            | inr hc => contradiction
          . rw [heq, htags] at hi
            cases hi
            exact hxds
          . have hlt := hordered.lt_of_tags hgt htags hi (highest_mem hn) hxds
            omega

theorem Settling.flush (h : c.Settling) (hleft : c.left = false) (hordered : c.Ordered)
    (htidy : c.Tidy .flush) : c.flush.Settling := by
  have hclosed : c.flush.channelClosed = c.channelClosed := rfl
  constructor
  . intro x y hx hxy hy
    rw [flush_delivered] at hy ⊢
    have hlt := hordered.lt_taken y hy
    exact h.waiting hleft x hx (by omega)
  . intro _ x hx hlt
    have hpending : c.flush.pending = [] := rfl
    rw [flush_delivered, hpending, append_nil]
    exact h.waiting hleft x hx hlt
  . intro i j ds ds' hij hi hj x hx
    rw [flush_tags] at hi hj
    have hjlt := (List.getElem?_eq_some_iff.mp hj).1
    rw [length_append, length_singleton] at hjlt
    have hilt : i < c.tags.length := by omega
    rw [getElem?_append_left hilt] at hi
    cases hopen : c.channelClosed with
    | true => exact .inl (hclosed.trans hopen)
    | false =>
      right
      apply htidy hopen
      rw [delivered, mem_flatten]
      exact ⟨ds, mem_of_getElem? hi, hx⟩
  . intro f hf b hb
    obtain ⟨ds, hds, hx⟩ := h.own f hf b hb
    have hlt := (List.getElem?_eq_some_iff.mp hds).1
    refine ⟨ds, ?_, hx⟩
    rw [flush_tags, getElem?_append_left hlt]
    exact hds

theorem Settling.move {c' : Core} {e : Event} (h : c.Settling) (hordered : c.Ordered)
    (htidy : c.Tidy e) (hmove : c.Move e c') : c'.Settling := by
  cases hmove with
  | receive hleft =>
    refine ⟨h.covered, ?_, h.earlier, h.own⟩
    intro hl x hx hlt
    simp only [Core.receive] at hlt ⊢
    cases Nat.lt_succ_iff_lt_or_eq.mp hlt with
    | inl hlt =>
      refine (h.waiting hl x hx hlt).imp id (Or.imp_right ?_)
      rw [← append_assoc]
      exact mem_append_left _
    | inr heq => simp [heq]
  | refuse requeue => exact h.refuse requeue
  | flush hleft => exact h.flush hleft hordered htidy
  | leave =>
    refine ⟨h.covered, ?_, h.earlier, h.own⟩
    simp [Core.leave]
  | claim b batch hb | ackNotify b batch hb =>
    exact h.frame (setBatch_tags hb rfl) rfl rfl rfl id (fun _ => id) h.own
  | sendAll b batch v hb => exact h.sendAll hordered hb v
  | issue => exact ⟨h.covered, h.waiting, h.earlier, h.own⟩
  | compareAndSwap call =>
    unfold Core.compareAndSwap
    split
    all_goals exact ⟨h.covered, h.waiting, h.earlier, h.own⟩
  | send call =>
    have hsends : Settling { c with sends := c.sends.erase call } :=
      ⟨h.covered, h.waiting, h.earlier, h.own⟩
    exact hsends.emit rfl
  | closeChannel => exact h.frame rfl rfl rfl rfl (fun _ => rfl) (fun _ => id) h.own

end Core

namespace State

def Tidy (s : State) (a : Action) : Prop :=
  ∀ e ∈ s.event a, s.toCore.Tidy e

instance (s : State) (a : Action) : Decidable (s.Tidy a) := by
  unfold Tidy
  infer_instance

end State

open State

/-!
The handler acks the first delivery of a batch of two and leaves the other one. The batch is then
taken to have its verdict, and the verdict on the next batch settles what was left.
-/

def collectTwo : List Action :=
  [.deliver, .deliver, .deliver, .loop (.receive .valid), .loop .checkSize,
    .loop (.receive .valid), .loop .checkSize]

def ackDelivery (tag : Nat) : List Action :=
  [.user (.deliveryVerdict 0 tag .ack), .user (.compareAndSwap ⟨0, tag, .ack, false⟩),
    .user (.deliverySend ⟨0, tag, .ack, false⟩), .user (.ackNotify 0)]

def flushLast : List Action :=
  [.flush .handlerDone, .flush (.applyBatchVerdict false), .loop (.receive .valid),
    .loop .checkSize, .loop .flushTimer, .user (.handlerReturn none), .flush .handlerDone,
    .flush (.applyBatchVerdict false), .flush .send]

def partialAckRun : List Action :=
  collectTwo ++ ackDelivery 1 ++ [.user (.handlerReturn none)] ++ flushLast

theorem partialAckRun_settlesEarlier
    : ∃ s, Run.run step (.init 2 false false) partialAckRun = some s ∧
        s.batches.map (·.deliveries) = [[1, 2], [3]] ∧
        s.frames = [⟨none, 1, .ack, false, [1]⟩, ⟨some 1, 3, .ack, false, [2, 3]⟩] := by
  have hfinal : (Run.run step (.init 2 false false) partialAckRun).map
      (fun s => (s.batches.map (·.deliveries), s.frames)) =
      some ([[1, 2], [3]], [⟨none, 1, .ack, false, [1]⟩, ⟨some 1, 3, .ack, false, [2, 3]⟩]) := by
    decide
  have ⟨s, hrun, hs⟩ := Option.map_eq_some_iff.mp hfinal
  rw [Prod.mk.injEq] at hs
  exact ⟨s, hrun, hs⟩

theorem settlesOwnBatch_of_tidy {size : Nat} {handlerTimeout timeoutRequeue : Bool}
    {as : List Action} {s : State}
    (htidy : Run.Along step Tidy (.init size handlerTimeout timeoutRequeue) as)
    (hrun : Run.run step (.init size handlerTimeout timeoutRequeue) as = some s)
    {f : Frame} (hf : f ∈ s.frames) {b : Nat} (hb : f.batch = some b)
    : (∃ batch, s.batches[b]? = some batch ∧ ∀ tag ∈ f.settles, tag ∈ batch.deliveries) ∧
      ∀ i batch, i < b → s.batches[i]? = some batch → ∀ tag ∈ batch.deliveries, tag ∉ f.settles := by
  have hinv : s.Ordered ∧ s.Settling := by
    apply core_inv_of_run (I := fun c => c.Ordered ∧ c.Settling) _ _ htidy hrun
    . rintro c e c' ⟨hordered, hsettling⟩ htidy hmove
      exact ⟨hordered.move hmove, hsettling.move hordered htidy hmove⟩
    . exact ⟨Core.Ordered.init, Core.Settling.init⟩
  obtain ⟨ds, hds, hx⟩ := hinv.2.own f hf b hb
  constructor
  . simp only [Core.tags, getElem?_map, Option.map_eq_some_iff] at hds
    obtain ⟨batch, hbatch, heq⟩ := hds
    exact ⟨batch, hbatch, heq ▸ hx⟩
  . intro i batch hib hbatch tag htag hsettles
    have hlt := hinv.1.lt_of_tags hib (Core.tags_of_batch hbatch) hds htag (hx tag hsettles)
    omega

def fullAckRun : List Action :=
  collectTwo ++ ackDelivery 1 ++ ackDelivery 2 ++ [.user (.handlerReturn none)] ++ flushLast

theorem settlesOwnBatch_of_tidy_fullAckRun
    : ∃ s, Run.run step (.init 2 false false) fullAckRun = some s ∧
        (⟨some 1, 3, .ack, false, [3]⟩ : Frame) ∈ s.frames ∧
        (∃ batch, s.batches[1]? = some batch ∧ ∀ tag ∈ [3], tag ∈ batch.deliveries) ∧
        ∀ i batch, i < 1 → s.batches[i]? = some batch → ∀ tag ∈ batch.deliveries, tag ∉ [3] := by
  have hfinal : (Run.run step (.init 2 false false) fullAckRun).map
      (fun s => s.frames.getLast?) = some (some ⟨some 1, 3, .ack, false, [3]⟩) := by decide
  have ⟨s, hrun, hs⟩ := Option.map_eq_some_iff.mp hfinal
  have hf := mem_of_getLast? hs
  exact ⟨s, hrun, hf, settlesOwnBatch_of_tidy (by decide) hrun hf rfl⟩

end BatchConsumer
