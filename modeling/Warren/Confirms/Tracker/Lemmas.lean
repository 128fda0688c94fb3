import Mathlib.Data.List.Sort
import Warren.Confirms.Tracker.Impl

namespace Confirms

open Function List

namespace Waiter

@[simp]
theorem trySend_returned (w : Waiter) (err : Option Err)
    : (w.trySend err).returned = w.returned := by
  unfold trySend
  split <;> rfl

@[simp]
theorem trySend_returnCode (w : Waiter) (err : Option Err)
    : (w.trySend err).returnCode = w.returnCode := by
  unfold trySend
  split <;> rfl

@[simp]
theorem trySend_closed (w : Waiter) (err : Option Err)
    : (w.trySend err).done.closed = w.done.closed := by
  unfold trySend
  split
  . next h =>
    rw [Chan.trySend_eq_some_iff] at h
    exact h.2.2.2
  . rfl

theorem trySend_buf (w : Waiter) (err : Option Err) (hopen : w.done.closed = false)
    : (w.trySend err).done.buf = if w.done.buf = [] then [err] else w.done.buf := by
  unfold trySend
  split
  . next h =>
    rw [Chan.trySend_eq_some_iff] at h
    have hempty : w.done.buf = [] := by
      apply eq_nil_of_length_eq_zero
      omega
    simp [h.2.2.1, hempty]
  . next h =>
    rw [Chan.trySend_eq_none_iff] at h
    have hfull : w.done.buf ≠ [] := by
      intro hnil
      simp [hopen, hnil] at h
    simp [hfull]

@[simp]
theorem resolve_returned (w : Waiter) (baseErr : Option Err)
    : (w.resolve baseErr).returned = w.returned := by
  unfold resolve
  split <;> simp

@[simp]
theorem resolve_returnCode (w : Waiter) (baseErr : Option Err)
    : (w.resolve baseErr).returnCode = w.returnCode := by
  unfold resolve
  split <;> simp

@[simp]
theorem resolve_closed (w : Waiter) (baseErr : Option Err)
    : (w.resolve baseErr).done.closed = w.done.closed := by
  unfold resolve
  split <;> simp

theorem trySend_of_full (w : Waiter) (err : Option Err) (hfull : w.done.buf ≠ [])
    : w.trySend err = w := by
  unfold trySend
  split
  . next h =>
    rw [Chan.trySend_eq_some_iff] at h
    have := length_pos_of_ne_nil hfull
    omega
  . rfl

theorem trySend_buf_ne_nil (w : Waiter) (err : Option Err) (hopen : w.done.closed = false)
    : (w.trySend err).done.buf ≠ [] := by
  rw [trySend_buf _ _ hopen]
  split
  . simp
  . assumption

theorem trySend_trySend (w : Waiter) (err err' : Option Err) (hopen : w.done.closed = false)
    : (w.trySend err).trySend err' = w.trySend err := by
  apply trySend_of_full
  apply trySend_buf_ne_nil
  assumption

theorem resolve_resolve (w : Waiter) (baseErr : Option Err) (hopen : w.done.closed = false)
    : (w.resolve baseErr).resolve baseErr = w.resolve baseErr := by
  unfold resolve
  simp only [apply_ite returned, apply_ite returnCode, trySend_returned, trySend_returnCode, ite_self]
  split <;> (apply trySend_trySend; assumption)

end Waiter

namespace Tracker

def window (t : Tracker) : List Nat :=
  t.order.drop t.head

structure WF (t : Tracker) : Prop where
  sorted : t.order.Pairwise (· ≤ ·)
  head_le : t.head ≤ t.order.length
  open_done : ∀ p, (t.waiters p).done.closed = false

@[simp]
theorem setWaiter_pending (t : Tracker) (p : Nat) (w : Waiter)
    : (t.setWaiter p w).pending = t.pending := rfl

@[simp]
theorem setWaiter_waiters (t : Tracker) (p : Nat) (w : Waiter)
    : (t.setWaiter p w).waiters = update t.waiters p w := rfl

@[simp]
theorem setWaiter_window (t : Tracker) (p : Nat) (w : Waiter)
    : (t.setWaiter p w).window = t.window := rfl

@[simp]
theorem setWaiter_closed (t : Tracker) (p : Nat) (w : Waiter)
    : (t.setWaiter p w).closed = t.closed := rfl

@[simp]
theorem setWaiter_next (t : Tracker) (p : Nat) (w : Waiter) : (t.setWaiter p w).next = t.next := rfl

variable {t : Tracker} {tag : Nat} {order : List Nat}

theorem WF.setWaiter (ht : t.WF) (p : Nat) (w : Waiter) (hw : w.done.closed = false)
    : (t.setWaiter p w).WF := by
  refine ⟨ht.sorted, ht.head_le, ?_⟩
  intro q
  rw [setWaiter_waiters, update_apply]
  split
  . exact hw
  . apply ht.open_done

theorem compactOrder_window (t : Tracker) : t.compactOrder.window = t.window := by
  unfold compactOrder
  split
  . rfl
  . split
    . next h => simp [window, drop_eq_nil_of_le h]
    . split
      . simp [window]
      . rfl

theorem compactOrder_eq (t : Tracker)
    : t.compactOrder.pending = t.pending ∧ t.compactOrder.waiters = t.waiters ∧
      t.compactOrder.closed = t.closed ∧ t.compactOrder.next = t.next := by
  unfold compactOrder
  split
  . simp
  . split
    . simp
    . split <;> simp

theorem WF.compactOrder (ht : t.WF) : t.compactOrder.WF := by
  unfold Tracker.compactOrder
  split
  . exact ht
  . split
    . exact ⟨by simp, by simp, ht.open_done⟩
    . split
      . exact ⟨ht.sorted.sublist (drop_sublist _ _), by simp, ht.open_done⟩
      . exact ht

namespace advanceLowWater

theorem go_le (pending : AList (fun _ : Nat => Nat)) (i : Nat) (rest : List Nat)
    : go pending i rest ≤ i + rest.length := by
  induction rest generalizing i with
  | nil => simp [go]
  | cons tag rest ih =>
    unfold go
    split
    . omega
    . specialize ih (i + 1)
      simp only [length_cons]
      omega

theorem mem_drop_go (pending : AList (fun _ : Nat => Nat)) (order : List Nat) (i : Nat)
    (rest : List Nat) (hrest : order.drop i = rest) (tag : Nat)
    (hpending : (pending.lookup tag).isSome) (hmem : tag ∈ rest)
    : tag ∈ order.drop (go pending i rest) := by
  induction rest generalizing i with
  | nil => simp at hmem
  | cons head rest ih =>
    unfold go
    split
    . rw [hrest]
      assumption
    . next hhead =>
      apply ih
      . rw [← drop_drop, hrest]
        simp
      . cases hmem with
        | head => contradiction
        | tail _ h => exact h

end advanceLowWater

theorem advanceLowWater_eq (t : Tracker)
    : t.advanceLowWater.pending = t.pending ∧ t.advanceLowWater.waiters = t.waiters ∧
      t.advanceLowWater.closed = t.closed ∧ t.advanceLowWater.next = t.next := by
  apply compactOrder_eq

theorem WF.advanceLowWater (ht : t.WF) : t.advanceLowWater.WF := by
  apply WF.compactOrder
  refine ⟨ht.sorted, ?_, ht.open_done⟩
  have := advanceLowWater.go_le t.pending t.head (t.order.drop t.head)
  have := ht.head_le
  rw [length_drop] at *
  dsimp
  omega

theorem mem_advanceLowWater_window (hpending : (t.pending.lookup tag).isSome)
    (hmem : tag ∈ t.window) : tag ∈ t.advanceLowWater.window := by
  unfold advanceLowWater
  rw [compactOrder_window]
  apply advanceLowWater.mem_drop_go
  . rfl
  . assumption
  . exact hmem

variable {x : Nat}

theorem lt_of_mem_take_binarySearch (h : x ∈ order.take (binarySearch order tag)) : x < tag := by
  rw [mem_take_iff_getElem] at h
  have ⟨i, hi, hx⟩ := h
  have hlt : i < order.findIdx (fun x => tag ≤ x) := by
    unfold binarySearch at hi
    omega
  have := not_of_lt_findIdx hlt
  rw [← hx]
  simpa using this

theorem le_of_mem_drop_binarySearch (hsorted : order.Pairwise (· ≤ ·))
    (h : x ∈ order.drop (binarySearch order tag)) : tag ≤ x := by
  rw [mem_drop_iff_getElem] at h
  have ⟨i, hi, hx⟩ := h
  have hlt : binarySearch order tag < order.length := by omega
  have hfind : tag ≤ order[binarySearch order tag] := by
    unfold binarySearch at hlt ⊢
    have := findIdx_getElem (w := hlt)
    simpa using this
  have hle : order[binarySearch order tag] ≤ order[binarySearch order tag + i] := by
    cases i with
    | zero => simp
    | succ i =>
      rw [pairwise_iff_getElem] at hsorted
      apply hsorted
      omega
  omega

theorem orderInsert_eq (t : Tracker) (tag : Nat)
    : (t.orderInsert tag).pending = t.pending ∧ (t.orderInsert tag).waiters = t.waiters ∧
      (t.orderInsert tag).closed = t.closed ∧ (t.orderInsert tag).next = t.next := by
  unfold orderInsert
  split
  . simp
  . split <;> simp

theorem pairwise_append_of_getLast? (hsorted : order.Pairwise (· ≤ ·))
    (hlast : ∀ last, order.getLast? = some last → last < tag)
    : (order ++ [tag]).Pairwise (· ≤ ·) := by
  rw [pairwise_append]
  refine ⟨hsorted, by simp, ?_⟩
  intro x hx y hy
  rw [mem_singleton] at hy
  have hne : order ≠ [] := ne_nil_of_mem hx
  have hle : x ≤ order.getLast hne := hsorted.rel_getLast hx
  specialize hlast _ (getLast?_eq_some_getLast hne)
  omega

theorem WF.orderInsert (ht : t.WF) (tag : Nat) : (t.orderInsert tag).WF := by
  have hhead := ht.head_le
  unfold Tracker.orderInsert
  split
  . next h =>
    refine ⟨?_, by simp; omega, ht.open_done⟩
    apply pairwise_append_of_getLast? ht.sorted
    simp [h]
  . next last h =>
    split
    . refine ⟨?_, by simp; omega, ht.open_done⟩
      apply pairwise_append_of_getLast? ht.sorted
      intro l hl
      rw [h, Option.some.injEq] at hl
      omega
    . refine ⟨?_, ?_, ht.open_done⟩
      . rw [pairwise_append, pairwise_cons]
        refine ⟨ht.sorted.sublist (take_sublist _ _), ⟨?_, ?_⟩, ?_⟩
        . intro x hx
          exact le_of_mem_drop_binarySearch ht.sorted hx
        . exact ht.sorted.sublist (drop_sublist _ _)
        . intro x hx y hy
          have hlt := lt_of_mem_take_binarySearch hx
          cases hy with
          | head => omega
          | tail _ hy =>
            have := le_of_mem_drop_binarySearch ht.sorted hy
            omega
      . dsimp only
        rw [length_append, length_cons, length_take, length_drop]
        split <;> omega

theorem mem_orderInsert_window (ht : t.WF) (h : x = tag ∨ x ∈ t.window)
    : x ∈ (t.orderInsert tag).window := by
  have hhead := ht.head_le
  unfold orderInsert
  split
  . dsimp only [window] at h ⊢
    rw [drop_append_of_le_length hhead]
    simpa [or_comm] using h
  . split
    . dsimp only [window] at h ⊢
      rw [drop_append_of_le_length hhead]
      simpa [or_comm] using h
    . dsimp only [window] at h ⊢
      generalize binarySearch t.order tag = idx
      split
      . next hlt =>
        have hlen : (t.order.take idx).length = idx := by
          rw [length_take]
          omega
        rw [drop_left' hlen, mem_cons]
        cases h with
        | inl h => exact .inl h
        | inr h =>
          right
          apply drop_subset_drop_left t.order (Nat.le_of_lt hlt)
          exact h
      . next hle =>
        have hlen : t.head ≤ (t.order.take idx).length := by
          rw [length_take]
          omega
        rw [drop_append_of_le_length hlen]
        cases h with
        | inl h => simp [h]
        | inr h =>
          rw [← take_append_drop idx t.order, drop_append_of_le_length hlen] at h
          simp only [mem_append, mem_cons] at h ⊢
          tauto

def modify (t : Tracker) (tag : Nat) (f : Waiter → Waiter) : Tracker :=
  match t.pending.lookup tag with
  | none => t
  | some p => t.setWaiter p (f (t.waiters p))

theorem resolveOne_eq_modify (t : Tracker) (tag : Nat) (baseErr : Option Err)
    : t.resolveOne tag baseErr = t.modify tag (·.resolve baseErr) := rfl

theorem markReturned_eq_modify (t : Tracker) (tag : Nat) (replyCode : UInt16)
    : t.markReturned tag replyCode =
        t.modify tag (fun w => { w with returned := true, returnCode := replyCode }) := rfl

theorem modify_eq (t : Tracker) (tag : Nat) (f : Waiter → Waiter)
    : (t.modify tag f).pending = t.pending ∧ (t.modify tag f).order = t.order ∧
      (t.modify tag f).head = t.head ∧ (t.modify tag f).closed = t.closed ∧
      (t.modify tag f).next = t.next := by
  unfold modify
  split <;> simp [setWaiter]

theorem modify_window (t : Tracker) (tag : Nat) (f : Waiter → Waiter)
    : (t.modify tag f).window = t.window := by
  unfold window
  rw [(modify_eq t tag f).2.1, (modify_eq t tag f).2.2.1]

theorem modify_waiters (t : Tracker) (tag : Nat) (f : Waiter → Waiter) (q : Nat)
    : (t.modify tag f).waiters q =
        if t.pending.lookup tag = some q then f (t.waiters q) else t.waiters q := by
  unfold modify
  split
  . next h => simp [h]
  . next p h =>
    rw [setWaiter_waiters, update_apply, h]
    by_cases hq : q = p
    . simp [hq]
    . simp [hq, Ne.symm hq]

theorem WF.modify (ht : t.WF) (tag : Nat) {f : Waiter → Waiter}
    (hf : ∀ w, (f w).done.closed = w.done.closed) : (t.modify tag f).WF := by
  have heq := modify_eq t tag f
  refine ⟨?_, ?_, ?_⟩
  . rw [heq.2.1]
    exact ht.sorted
  . rw [heq.2.1, heq.2.2.1]
    exact ht.head_le
  . intro p
    rw [modify_waiters]
    split
    . rw [hf]
      apply ht.open_done
    . apply ht.open_done

namespace resolveUpTo

theorem go_eq (deliveryTag : Nat) (baseErr : Option Err) (t : Tracker) (i : Nat) (rest : List Nat)
    : (go deliveryTag baseErr t i rest).1.pending = t.pending ∧
      (go deliveryTag baseErr t i rest).1.order = t.order ∧
      (go deliveryTag baseErr t i rest).1.closed = t.closed ∧
      (go deliveryTag baseErr t i rest).1.next = t.next ∧
      (go deliveryTag baseErr t i rest).2 = i + (rest.takeWhile (· ≤ deliveryTag)).length := by
  induction rest generalizing t i with
  | nil => simp [go]
  | cons tag rest ih =>
    unfold go
    split
    . next hle =>
      have heq := modify_eq t tag (·.resolve baseErr)
      specialize ih (t.resolveOne tag baseErr) (i + 1)
      rw [takeWhile_cons_of_pos (by simpa using hle)]
      simp only [resolveOne_eq_modify, heq] at ih ⊢
      simp only [ih, length_cons, true_and]
      omega
    . next hlt =>
      rw [takeWhile_cons_of_neg (by simpa using hlt)]
      simp

theorem go_waiters (deliveryTag : Nat) (baseErr : Option Err) (t : Tracker) (i : Nat)
    (rest : List Nat) (hopen : ∀ p, (t.waiters p).done.closed = false) (q : Nat)
    : (go deliveryTag baseErr t i rest).1.waiters q =
        if ∃ tag ∈ rest.takeWhile (· ≤ deliveryTag), t.pending.lookup tag = some q then
          (t.waiters q).resolve baseErr
        else
          t.waiters q := by
  induction rest generalizing t i with
  | nil => simp [go]
  | cons tag rest ih =>
    unfold go
    split
    . next hle =>
      rw [ih, resolveOne_eq_modify]
      . rw [takeWhile_cons_of_pos (by simpa using hle)]
        simp only [modify_eq, modify_waiters, mem_cons, exists_eq_or_imp]
        by_cases hq : t.pending.lookup tag = some q
        . simp only [hq, ↓reduceIte, true_or]
          split
          . rw [Waiter.resolve_resolve]
            apply hopen
          . rfl
        . simp only [hq, ↓reduceIte, false_or]
      . intro p
        rw [resolveOne_eq_modify, modify_waiters]
        split
        . rw [Waiter.resolve_closed]
          apply hopen
        . apply hopen
    . next hlt =>
      rw [takeWhile_cons_of_neg (by simpa using hlt)]
      simp

end resolveUpTo

theorem mem_takeWhile_le_iff {rest : List Nat} (hsorted : rest.Pairwise (· ≤ ·)) {deliveryTag : Nat}
    : x ∈ rest.takeWhile (· ≤ deliveryTag) ↔ x ∈ rest ∧ x ≤ deliveryTag := by
  induction rest with
  | nil => simp
  | cons tag rest ih =>
    rw [pairwise_cons] at hsorted
    by_cases hle : tag ≤ deliveryTag
    . rw [takeWhile_cons_of_pos (by simpa using hle), mem_cons, ih hsorted.2,
        mem_cons]
      by_cases hx : x = tag
      . simp [hx, hle]
      . simp [hx]
    . rw [takeWhile_cons_of_neg (by simpa using hle)]
      simp only [not_mem_nil, mem_cons, false_iff, not_and, Nat.not_le]
      intro hx
      cases hx with
      | inl hx => omega
      | inr hx =>
        have := hsorted.1 x hx
        omega

theorem resolveUpTo_eq (t : Tracker) (deliveryTag : Nat) (baseErr : Option Err)
    : (t.resolveUpTo deliveryTag baseErr).pending = t.pending ∧
      (t.resolveUpTo deliveryTag baseErr).closed = t.closed ∧
      (t.resolveUpTo deliveryTag baseErr).next = t.next := by
  unfold resolveUpTo
  have hgo := resolveUpTo.go_eq deliveryTag baseErr t t.head (t.order.drop t.head)
  have hadv := advanceLowWater_eq
    { (resolveUpTo.go deliveryTag baseErr t t.head (t.order.drop t.head)).1 with
      head := (resolveUpTo.go deliveryTag baseErr t t.head (t.order.drop t.head)).2 }
  rw [hadv.1, hadv.2.2.1, hadv.2.2.2]
  exact ⟨hgo.1, hgo.2.2.1, hgo.2.2.2.1⟩

theorem resolveUpTo_waiters (ht : t.WF) (deliveryTag : Nat) (baseErr : Option Err) (q : Nat)
    : (t.resolveUpTo deliveryTag baseErr).waiters q =
        if ∃ tag ∈ t.window, tag ≤ deliveryTag ∧ t.pending.lookup tag = some q then
          (t.waiters q).resolve baseErr
        else
          t.waiters q := by
  unfold resolveUpTo
  rw [(advanceLowWater_eq _).2.1]
  rw [resolveUpTo.go_waiters _ _ _ _ _ ht.open_done]
  have hsorted : (t.order.drop t.head).Pairwise (· ≤ ·) :=
    ht.sorted.sublist (drop_sublist _ _)
  apply if_congr _ rfl rfl
  simp only [mem_takeWhile_le_iff hsorted, and_assoc, window]

theorem WF.resolveUpTo (ht : t.WF) (deliveryTag : Nat) (baseErr : Option Err)
    : (t.resolveUpTo deliveryTag baseErr).WF := by
  have hgo := resolveUpTo.go_eq deliveryTag baseErr t t.head (t.order.drop t.head)
  apply WF.advanceLowWater
  refine ⟨?_, ?_, ?_⟩
  . dsimp only
    rw [hgo.2.1]
    exact ht.sorted
  . dsimp only
    rw [hgo.2.1, hgo.2.2.2.2]
    have hle := (takeWhile_sublist (fun x => decide (x ≤ deliveryTag))
      (l := t.order.drop t.head)).length_le
    have := ht.head_le
    rw [length_drop] at hle
    omega
  . intro p
    rw [resolveUpTo.go_waiters _ _ _ _ _ ht.open_done]
    split
    . rw [Waiter.resolve_closed]
      apply ht.open_done
    . apply ht.open_done

theorem drop_length_takeWhile (l : List Nat) (p : Nat → Bool)
    : l.drop (l.takeWhile p).length = l.dropWhile p := by
  conv =>
    lhs
    arg 2
    rw [← takeWhile_append_dropWhile (p := p) (l := l)]
  rw [drop_left]

theorem mem_resolveUpTo_window (ht : t.WF) {deliveryTag : Nat} {baseErr : Option Err}
    (hpending : (t.pending.lookup tag).isSome) (hmem : tag ∈ t.window) (hlt : deliveryTag < tag)
    : tag ∈ (t.resolveUpTo deliveryTag baseErr).window := by
  have hgo := resolveUpTo.go_eq deliveryTag baseErr t t.head (t.order.drop t.head)
  apply mem_advanceLowWater_window
  . dsimp only
    rw [hgo.1]
    assumption
  . dsimp only [window] at hmem ⊢
    rw [hgo.2.1, hgo.2.2.2.2, ← drop_drop]
    rw [drop_length_takeWhile]
    rw [← takeWhile_append_dropWhile (p := (· ≤ deliveryTag)) (l := t.order.drop t.head),
      mem_append] at hmem
    cases hmem with
    | inl hmem =>
      rw [mem_takeWhile_le_iff (ht.sorted.sublist (drop_sublist _ _))] at hmem
      omega
    | inr hmem => exact hmem

theorem register_eq (hclosed : t.closed = false) (tag : Nat)
    : (t.register tag).1.pending = t.pending.insert tag t.next ∧
      (t.register tag).1.waiters = update t.waiters t.next default ∧
      (t.register tag).1.closed = false ∧
      (t.register tag).1.next = t.next + 1 := by
  simp only [register, hclosed, Bool.false_eq_true, ↓reduceIte]
  rw [(advanceLowWater_eq _).1, (advanceLowWater_eq _).2.1, (advanceLowWater_eq _).2.2.1,
    (advanceLowWater_eq _).2.2.2]
  rw [(orderInsert_eq _ _).1, (orderInsert_eq _ _).2.1, (orderInsert_eq _ _).2.2.1,
    (orderInsert_eq _ _).2.2.2]
  exact ⟨rfl, rfl, rfl, rfl⟩

theorem register_of_closed (hclosed : t.closed = true) (tag : Nat)
    : t.register tag = (t, some .closed) := by
  simp [register, hclosed]

theorem WF.alloc (ht : t.WF) (pending : AList (fun _ : Nat => Nat)) (closed : Bool) (next : Nat)
    : WF ⟨pending, t.order, t.head, closed, update t.waiters t.next default, next⟩ := by
  refine ⟨ht.sorted, ht.head_le, ?_⟩
  intro p
  dsimp only
  rw [update_apply]
  split
  . rfl
  . apply ht.open_done

theorem WF.register (ht : t.WF) (tag : Nat) : (t.register tag).1.WF := by
  unfold Tracker.register
  split
  . exact ht
  . apply WF.advanceLowWater
    apply WF.orderInsert
    apply ht.alloc

theorem mem_register_window (ht : t.WF) (hclosed : t.closed = false)
    (hx : x = tag ∨ ((t.pending.lookup x).isSome ∧ x ∈ t.window))
    : x ∈ (t.register tag).1.window := by
  simp only [register, hclosed, Bool.false_eq_true, ↓reduceIte]
  apply mem_advanceLowWater_window
  . rw [(orderInsert_eq _ _).1]
    by_cases htag : x = tag
    . rw [htag, AList.lookup_insert]
      rfl
    . rw [AList.lookup_insert_ne htag]
      tauto
  . apply mem_orderInsert_window
    . apply ht.alloc
    . exact Or.imp_right And.right hx

namespace closeAll

theorem foldl_eq (t : Tracker) (es : List (Sigma (fun _ : Nat => Nat)))
    : (es.foldl closeOne t).order = t.order ∧ (es.foldl closeOne t).head = t.head ∧
      (es.foldl closeOne t).closed = t.closed ∧ (es.foldl closeOne t).next = t.next := by
  induction es generalizing t with
  | nil => simp
  | cons e es ih =>
    rw [foldl_cons]
    have hone : (closeOne t e).order = t.order ∧ (closeOne t e).head = t.head ∧
        (closeOne t e).closed = t.closed ∧ (closeOne t e).next = t.next := by
      unfold closeOne
      split <;> simp
    rw [(ih _).1, (ih _).2.1, (ih _).2.2.1, (ih _).2.2.2]
    exact hone

theorem closeOne_waiters (t : Tracker) (e : Sigma (fun _ : Nat => Nat)) (q : Nat)
    : (closeOne t e).waiters q =
        if q = e.2 then (t.waiters q).trySend (some .closed) else t.waiters q := by
  unfold closeOne Waiter.trySend
  split
  . next done hdone =>
    dsimp only
    rw [update_apply]
    split
    . next hq => rw [hq, hdone]
    . rfl
  . next hdone =>
    split
    . next hq => rw [hq, hdone]
    . rfl

variable {t : Tracker}

theorem closeOne_pending (hopen : ∀ p, (t.waiters p).done.closed = false)
    (e : Sigma (fun _ : Nat => Nat))
    : (closeOne t e).pending =
        if (t.waiters e.2).done.buf = [] then t.pending.erase e.1 else t.pending := by
  unfold closeOne
  split
  . next done hdone =>
    rw [Chan.trySend_eq_some_iff] at hdone
    have hempty : (t.waiters e.2).done.buf = [] := by
      apply eq_nil_of_length_eq_zero
      omega
    simp [hempty]
  . next hdone =>
    rw [Chan.trySend_eq_none_iff] at hdone
    have hfull : (t.waiters e.2).done.buf ≠ [] := by
      intro hnil
      simp [hopen, hnil] at hdone
    simp [hfull]

theorem closeOne_open (hopen : ∀ p, (t.waiters p).done.closed = false)
    (e : Sigma (fun _ : Nat => Nat)) (p : Nat)
    : ((closeOne t e).waiters p).done.closed = false := by
  rw [closeOne_waiters]
  split
  . rw [Waiter.trySend_closed]
    apply hopen
  . apply hopen

theorem foldl_waiters (hopen : ∀ p, (t.waiters p).done.closed = false)
    (es : List (Sigma (fun _ : Nat => Nat))) (q : Nat)
    : (es.foldl closeOne t).waiters q =
        if ∃ e ∈ es, e.2 = q then (t.waiters q).trySend (some .closed) else t.waiters q := by
  induction es generalizing t with
  | nil => simp
  | cons e es ih =>
    rw [foldl_cons, ih (closeOne_open hopen e)]
    simp only [closeOne_waiters, mem_cons, exists_eq_or_imp, @eq_comm _ e.2 q]
    by_cases hq : q = e.2
    . simp only [hq, ↓reduceIte, true_or]
      split
      . rw [Waiter.trySend_trySend]
        apply hopen
      . rfl
    . simp only [hq, ↓reduceIte, false_or]

theorem foldl_pending (hopen : ∀ p, (t.waiters p).done.closed = false)
    {es : List (Sigma (fun _ : Nat => Nat))} (hnodup : (es.map Sigma.snd).Nodup) (tag : Nat)
    : (es.foldl closeOne t).pending.lookup tag =
        if ∃ e ∈ es, e.1 = tag ∧ (t.waiters e.2).done.buf = [] then
          none
        else
          t.pending.lookup tag := by
  induction es generalizing t with
  | nil => simp
  | cons e es ih =>
    rw [map_cons, nodup_cons] at hnodup
    rw [foldl_cons, ih (closeOne_open hopen e) hnodup.2]
    have hwaiters : ∀ e' ∈ es, (closeOne t e).waiters e'.2 = t.waiters e'.2 := by
      intro e' he'
      rw [closeOne_waiters, if_neg]
      intro heq
      apply hnodup.1
      rw [← heq]
      exact mem_map_of_mem he'
    have hrest : (∃ e' ∈ es, e'.1 = tag ∧ ((closeOne t e).waiters e'.2).done.buf = []) ↔
        ∃ e' ∈ es, e'.1 = tag ∧ (t.waiters e'.2).done.buf = [] := by
      apply exists_congr
      intro e'
      apply and_congr_right
      intro he'
      rw [hwaiters e' he']
    simp only [hrest, mem_cons, exists_eq_or_imp]
    rw [closeOne_pending hopen]
    by_cases hempty : (t.waiters e.2).done.buf = []
    . by_cases htag : e.1 = tag
      . simp [hempty, htag]
      . rw [if_pos hempty, AList.lookup_erase_ne (Ne.symm htag)]
        apply if_congr _ rfl rfl
        simp [htag]
    . rw [if_neg hempty]
      apply if_congr _ rfl rfl
      simp [hempty]

end closeAll

theorem closeAll_eq (t : Tracker)
    : t.closeAll.window = t.window ∧ t.closeAll.closed = true ∧ t.closeAll.next = t.next := by
  unfold closeAll window
  have h := closeAll.foldl_eq { t with closed := true } t.pending.entries
  rw [h.1, h.2.1, h.2.2.1, h.2.2.2]
  simp

theorem closeAll_waiters (ht : t.WF) (q : Nat)
    : t.closeAll.waiters q =
        if ∃ e ∈ t.pending.entries, e.2 = q then
          (t.waiters q).trySend (some .closed)
        else
          t.waiters q := by
  unfold closeAll
  rw [closeAll.foldl_waiters]
  apply ht.open_done

theorem mem_entries_iff {pending : AList (fun _ : Nat => Nat)} {e : Sigma (fun _ : Nat => Nat)}
    : e ∈ pending.entries ↔ pending.lookup e.1 = some e.2 := by
  rw [← Option.mem_def, AList.mem_lookup_iff]

theorem closeAll_pending (ht : t.WF)
    (hinj : ∀ tag tag' p, t.pending.lookup tag = some p → t.pending.lookup tag' = some p → tag = tag')
    (tag : Nat)
    : t.closeAll.pending.lookup tag =
        if ∃ p, t.pending.lookup tag = some p ∧ (t.waiters p).done.buf = [] then
          none
        else
          t.pending.lookup tag := by
  unfold closeAll
  rw [closeAll.foldl_pending]
  . apply if_congr _ rfl rfl
    simp only [mem_entries_iff, Sigma.exists]
    constructor
    . intro ⟨tag', p, hp, htag, hempty⟩
      exact ⟨p, htag ▸ hp, hempty⟩
    . intro ⟨p, hp, hempty⟩
      exact ⟨tag, p, hp, rfl, hempty⟩
  . apply ht.open_done
  . unfold List.Nodup
    rw [pairwise_map]
    apply t.pending.nodupKeys.pairwise_ne.imp_of_mem
    intro e e' he he' hne heq
    rw [mem_entries_iff] at he he'
    apply hne
    apply hinj _ _ _ he
    rw [he', heq]

theorem WF.closeAll (ht : t.WF) : t.closeAll.WF := by
  have h := closeAll.foldl_eq { t with closed := true } t.pending.entries
  refine ⟨?_, ?_, ?_⟩
  . unfold Tracker.closeAll
    rw [h.1]
    exact ht.sorted
  . unfold Tracker.closeAll
    rw [h.1, h.2.1]
    exact ht.head_le
  . intro p
    rw [closeAll_waiters ht]
    split
    . rw [Waiter.trySend_closed]
      apply ht.open_done
    . apply ht.open_done

theorem erase_of_lookup_eq_none {pending : AList (fun _ : Nat => Nat)}
    (h : pending.lookup tag = none) : pending.erase tag = pending := by
  apply AList.ext
  apply kerase_of_notMem_keys
  rw [AList.lookup_eq_none] at h
  exact h

theorem cancel_eq_modify (t : Tracker) (tag : Nat)
    : t.cancel tag =
        { t.modify tag (·.trySend (some .closed)) with pending := t.pending.erase tag } := by
  unfold cancel modify
  cases h : t.pending.lookup tag with
  | none => rw [erase_of_lookup_eq_none h]
  | some p => rfl

theorem cancel_eq (t : Tracker) (tag : Nat)
    : (t.cancel tag).pending = t.pending.erase tag ∧ (t.cancel tag).closed = t.closed ∧
      (t.cancel tag).next = t.next ∧ (t.cancel tag).window = t.window := by
  rw [cancel_eq_modify]
  have h := modify_eq t tag (·.trySend (some .closed))
  exact ⟨rfl, h.2.2.2.1, h.2.2.2.2, modify_window t tag _⟩

theorem cancel_waiters (t : Tracker) (tag q : Nat)
    : (t.cancel tag).waiters q =
        if t.pending.lookup tag = some q then
          (t.waiters q).trySend (some .closed)
        else
          t.waiters q := by
  rw [cancel_eq_modify]
  exact modify_waiters t tag _ q

theorem WF.cancel (ht : t.WF) (tag : Nat) : (t.cancel tag).WF := by
  rw [cancel_eq_modify]
  have h := ht.modify tag (f := (·.trySend (some .closed)))
    (fun w => Waiter.trySend_closed w (some .closed))
  exact ⟨h.sorted, h.head_le, h.open_done⟩

end Tracker
end Confirms
