import Warren.Consumer.BatchLoop.Numbered

/-!
The batches of a `BatchConsumer` partition what it receives between two discards.
-/

namespace BatchLoop

open Dispatch (Verdict)
open List

namespace State

variable {c : Consumer} {s s' : State}

inductive Collects (c : Consumer) (s s' : State) : Prop where
  | idle (hk : s'.toCollected = s.toCollected)
    (hsize : s.loop = .appended → s'.loop = .appended ∨ s.pending.length < c.size)
    (hclosed : s'.loop = .closed → s.loop = .closed)
  | fires (htimer : s.flushTimer = some false)
    (hk : s'.toCollected = { s.toCollected with flushTimer := some true })
    (hloop : s'.loop = s.loop)
  | stops (hpending : s.pending = []) (hk : s'.toCollected = s.toCollected.stopFlushTimer)
    (hloop : s'.loop = .selecting)
  | flushes (hpending : s.pending ≠ []) (hk : s'.toCollected = s.toCollected.flush)
    (hloop : ∃ f, s'.loop = .flushing f)
  | accepts (d : Delivery) (hsub : d.sub = s.cur) (haccepts : c.accepts d = true)
    (hk : s'.toCollected = s.toCollected.receive c d) (hselecting : s.loop = .selecting)
    (hloop : s'.loop = .appended)
  | refuses (d : Delivery) (haccepts : c.accepts d = false)
    (hk : s'.toCollected = s.toCollected.receive c d) (hselecting : s.loop = .selecting)
    (hloop : s'.loop = .selecting)
  | discards (hk : s'.toCollected = s.toCollected.discard) (hloop : s'.loop ≠ .appended)
  | switches (sub : Nat) (hk : s'.toCollected = s.toCollected.discard.switchTo sub)
    (hloop : s'.loop = .selecting)
  | reopens (sub : Nat) (hclosed : s.loop = .closed)
    (hk : s'.toCollected = s.toCollected.switchTo sub) (hloop : s'.loop = .selecting)

theorem collects_of_same (hk : s'.toCollected = s.toCollected) (hloop : s.loop ≠ .appended)
    (hclosed : s'.loop ≠ .closed) : Collects c s s' := by
  apply Collects.idle hk
  . intro h
    contradiction
  . intro h
    contradiction

theorem collects_of_loop (hk : s'.toCollected = s.toCollected) (hloop : s'.loop = s.loop)
    : Collects c s s' := by
  apply Collects.idle hk
  . intro h
    left
    rwa [hloop]
  . intro h
    rwa [hloop] at h

theorem afterFlush_ne (last : Bool) : afterFlush last ≠ .closed := by
  cases last with
  | false => simp [afterFlush]
  | true => simp [afterFlush]

theorem collects_flush {last : Bool} (hloop : s.loop = .appended → s.pending ≠ [])
    : Collects c s (s.flush last) := by
  unfold flush
  split
  next hpending =>
    apply Collects.idle
    . rfl
    . intro h
      exact absurd hpending (hloop h)
    . intro h
      exact absurd h (afterFlush_ne last)
  next hpending => exact .flushes hpending rfl ⟨_, rfl⟩

theorem collects_loopMove {a : LoopAction} (h : LoopMove c s a s') : Collects c s s' := by
  cases h with
  | ctxDone hloop => exact collects_flush (by simp [hloop])
  | resub => exact .switches _ rfl rfl
  | cancelled | streamClosed => exact .discards rfl (by simp [discard])
  | flushTimer =>
    unfold flush
    split
    next hpending => exact .stops hpending rfl rfl
    next hpending => exact .flushes hpending rfl ⟨_, rfl⟩
  | accepts hloop haccepts => exact .accepts _ rfl haccepts rfl hloop rfl
  | refuses hloop hrefuses =>
    exact .refuses _ hrefuses (by simp) hloop (by simp [setBuffer, hloop])
  | flushes _ hfull =>
    apply collects_flush
    intro _ hnil
    have hpos := c.size_pos
    rw [hnil, length_nil] at hfull
    omega
  | goesOn _ hroom => exact .idle rfl (fun _ => .inr hroom) (by simp)
  | returns hloop => exact collects_of_same rfl (by cases hloop <;> simp [*]) (by simp)
  | reopens hloop => exact .reopens _ hloop rfl rfl
  | requeueOne hloop _ hloop' =>
    refine collects_of_same (by simp [setBuffer]) (by simp [hloop]) ?_
    rintro rfl
    simp at hloop'

theorem collects_flushMove {f : Flushing} {a : FlushAction} (hloop : s.loop = .flushing f)
    (h : FlushMove c s f a s') : Collects c s s' := by
  have hne : s.loop ≠ .appended := by simp [hloop]
  have hafter := afterFlush_ne f.last
  cases h with
  | bail | drained => exact collects_of_same rfl hne hafter
  | decides =>
    rw [applyBatchVerdict_eq]
    exact collects_of_same rfl hne (by simp)
  | timeoutVerdict =>
    rcases s.timeoutVerdict_cases c f with ⟨counterState, h | ⟨v, h⟩⟩
    . rw [h]
      exact collects_of_same rfl hne (by simp [goto])
    . rw [h]
      exact collects_of_same rfl hne (by simp [goto])
  | send => exact collects_of_same (by simp) hne hafter
  | sendDrain =>
    exact collects_of_same (s.sendAll_eq f.batch _).1 hne (by simp [goto])
  | _ => exact collects_of_same rfl hne (by simp [goto])

theorem collects_envMove {a : EnvAction} (h : EnvMove c s a s') : Collects c s s' := by
  cases h with
  | @ctxEnds e =>
    rcases s.loop_ctxEnds e with hsame | ⟨f, hloop, hloop'⟩
    . exact collects_of_loop rfl hsame
    . exact collects_of_same rfl (by simp [hloop]) (by simp [hloop'])
  | timerFires htimer => exact .fires htimer rfl rfl
  | handlerTimeout hloop | handlerReturns hloop _ | acked hloop =>
    exact collects_of_same rfl (by simp [hloop]) (by simp)
  | _ => exact collects_of_loop rfl rfl

theorem collects_step {a : Action} (h : s.step c a = some s') : Collects c s s' := by
  cases step_move h with
  | loop hmove => apply collects_loopMove hmove
  | flush hloop hmove => apply collects_flushMove hloop hmove
  | env hmove => apply collects_envMove hmove

structure Partitioned (c : Consumer) (loop : Loop) (k : Collected) : Prop where
  partition : k.flushed.flatten ++ k.pending = k.received.filter c.accepts
  sub : ∀ d ∈ k.pending, d.sub = k.cur
  batches : ∀ b ∈ k.batches, 0 < b.length ∧ b.length ≤ c.size ∧ ∃ sub, ∀ d ∈ b, d.sub = sub
  full : k.pending.length ≤ c.size
  room : loop ≠ .appended → k.pending.length < c.size
  timer : k.flushTimer.isSome = true ↔ c.flushAfter = true ∧ k.pending ≠ []
  closed : loop = .closed → k.pending = []

variable {loop loop' : Loop} {k : Collected}

theorem partitioned_init (c : Consumer) : Partitioned c .selecting .init := by
  have hpos := c.size_pos
  constructor
  all_goals simp [Collected.init, hpos]

theorem Partitioned.discard (h : Partitioned c loop k) : Partitioned c loop' k.discard := by
  have hpos := c.size_pos
  constructor
  . rfl
  . simp [Collected.discard]
  . apply h.batches
  . simp [Collected.discard]
  . simp [Collected.discard, hpos]
  . simp [Collected.discard, Collected.stopFlushTimer]
  . intro _
    rfl

theorem Partitioned.switchTo (h : Partitioned c loop k) (hpending : k.pending = []) (sub : Nat)
    : Partitioned c loop' (k.switchTo sub) := by
  have hpos := c.size_pos
  constructor
  . apply h.partition
  . simp [Collected.switchTo, hpending]
  . apply h.batches
  . apply h.full
  . simp [Collected.switchTo, hpending, hpos]
  . apply h.timer
  . intro _
    apply hpending

theorem Partitioned.stopFlushTimer (h : Partitioned c loop k) (hpending : k.pending = [])
    : Partitioned c loop' k.stopFlushTimer := by
  have hpos := c.size_pos
  constructor
  . apply h.partition
  . apply h.sub
  . apply h.batches
  . apply h.full
  . simp [Collected.stopFlushTimer, hpending, hpos]
  . simp [Collected.stopFlushTimer, hpending]
  . intro _
    apply hpending

theorem Partitioned.flush (h : Partitioned c loop k) (hpending : k.pending ≠ [])
    : Partitioned c loop' k.flush := by
  have hpos := c.size_pos
  constructor
  . have hpartition := h.partition
    simpa [Collected.flush, Collected.stopFlushTimer] using hpartition
  . simp [Collected.flush]
  . intro b hb
    have hb : b ∈ k.batches ∨ b = k.pending := by simpa [Collected.flush] using hb
    cases hb with
    | inl hold => apply h.batches b hold
    | inr hnew =>
      rw [hnew]
      exact ⟨length_pos_iff.mpr hpending, h.full, k.cur, h.sub⟩
  . simp [Collected.flush]
  . simp [Collected.flush, hpos]
  . simp [Collected.flush, Collected.stopFlushTimer]
  . intro _
    rfl

variable {d : Delivery}

theorem receive_of_accepts (k : Collected) (h : c.accepts d = true)
    : k.receive c d
        =
      { k with
        received := k.received ++ [d]
        pending := k.pending ++ [d]
        flushTimer :=
          if c.flushAfter ∧ k.flushTimer = none then some false else k.flushTimer } := by
  unfold Collected.receive Collected.resetFlushTimer
  rw [if_pos h]
  dsimp
  split
  all_goals rfl

theorem receive_of_refuses (k : Collected) (h : c.accepts d = false)
    : k.receive c d = { k with received := k.received ++ [d] } := by
  unfold Collected.receive
  rw [if_neg (by simp [h])]

theorem Partitioned.accepts (h : Partitioned c loop k) (hroom : loop ≠ .appended)
    (hsub : d.sub = k.cur) (haccepts : c.accepts d = true)
    : Partitioned c .appended (k.receive c d) := by
  have hlt := h.room hroom
  rw [receive_of_accepts k haccepts]
  constructor
  . have hpartition := h.partition
    dsimp
    rw [filter_append, ← hpartition, append_assoc]
    simp [haccepts]
  . intro x hx
    cases mem_append.mp hx with
    | inl hold => apply h.sub x hold
    | inr hnew =>
      rw [mem_singleton.mp hnew]
      apply hsub
  . apply h.batches
  . rw [length_append, length_singleton]
    omega
  . intro hne
    contradiction
  . have htimer := h.timer
    dsimp
    split
    next hnone => simp [hnone.1]
    next hnot =>
      cases hafter : c.flushAfter with
      | false =>
        rw [htimer]
        simp [hafter]
      | true =>
        have hsome : k.flushTimer ≠ none := by simpa [hafter] using hnot
        simpa [Option.isSome_iff_ne_none] using hsome
  . intro hclosed
    contradiction

theorem Partitioned.refuses (h : Partitioned c loop k) (haccepts : c.accepts d = false)
    : Partitioned c loop (k.receive c d) := by
  rw [receive_of_refuses k haccepts]
  constructor
  . have hpartition := h.partition
    dsimp
    rw [filter_append, ← hpartition]
    simp [haccepts]
  . apply h.sub
  . apply h.batches
  . apply h.full
  . apply h.room
  . apply h.timer
  . apply h.closed

theorem Partitioned.goto (h : Partitioned c loop k)
    (hsize : loop = .appended → loop' = .appended ∨ k.pending.length < c.size)
    (hclosed : loop' = .closed → loop = .closed) : Partitioned c loop' k := by
  constructor
  . apply h.partition
  . apply h.sub
  . apply h.batches
  . apply h.full
  . intro hne
    by_cases happended : loop = .appended
    . cases hsize happended with
      | inl hsame => contradiction
      | inr hlt => apply hlt
    . apply h.room happended
  . apply h.timer
  . intro h'
    apply h.closed (hclosed h')

theorem Partitioned.fires (h : Partitioned c loop k) (htimer : k.flushTimer = some false)
    : Partitioned c loop { k with flushTimer := some true } := by
  have harmed := h.timer
  rw [htimer] at harmed
  constructor
  . apply h.partition
  . apply h.sub
  . apply h.batches
  . apply h.full
  . apply h.room
  . apply harmed
  . apply h.closed

theorem partitioned_step {a : Action} (h : Partitioned c s.loop s.toCollected)
    (hstep : s.step c a = some s') : Partitioned c s'.loop s'.toCollected := by
  cases collects_step hstep with
  | idle hk hsize hclosed =>
    rw [hk]
    apply h.goto hsize hclosed
  | fires htimer hk hloop =>
    rw [hk, hloop]
    apply h.fires htimer
  | stops hpending hk hloop =>
    rw [hk]
    apply h.stopFlushTimer hpending
  | flushes hpending hk hloop =>
    rw [hk]
    apply h.flush hpending
  | accepts d hsub haccepts hk hselecting hloop =>
    rw [hk, hloop]
    apply h.accepts (by simp [hselecting]) hsub haccepts
  | refuses d haccepts hk hselecting hloop =>
    rw [hk, hloop, ← hselecting]
    apply h.refuses haccepts
  | discards hk hloop =>
    rw [hk]
    apply h.discard
  | switches sub hk hloop =>
    rw [hk]
    have hdiscard : Partitioned c s.loop s.toCollected.discard := h.discard
    apply hdiscard.switchTo rfl
  | reopens sub hclosed hk hloop =>
    rw [hk]
    apply h.switchTo (h.closed hclosed)

theorem partitioned_of_run {as : List Action} (hrun : Run.run (step c) init as = some s)
    : Partitioned c s.loop s.toCollected := by
  apply Run.inv_of_steps (I := fun s => Partitioned c s.loop s.toCollected) _
    (partitioned_init c) hrun
  intro s a s' h hstep
  apply partitioned_step h hstep

/--
Between two discards the batches followed by `pending` are the deliveries that were received and
accepted. A turn of the loop is over when it is not in `appended`. The handler that runs has been
given the last batch.
-/
theorem batches_partition (c : Consumer) {as : List Action}
    (hrun : Run.run (step c) init as = some s)
    : s.flushed.flatten ++ s.pending = s.received.filter c.accepts
        ∧ (∀ b ∈ s.batches, 1 ≤ b.length ∧ b.length ≤ c.size ∧ ∃ sub, ∀ d ∈ b, d.sub = sub)
        ∧ (s.loop ≠ .appended → s.pending.length < c.size)
        ∧ (s.flushTimer.isSome = true ↔ c.flushAfter = true ∧ s.pending ≠ [])
        ∧ ∀ f, s.loop = .flushing f →
          s.batches.getLast? = some f.batch ∧ s.flushed.getLast? = some f.batch := by
  have h := partitioned_of_run hrun
  refine ⟨h.partition, ?_, h.room, h.timer, (numbered_of_run hrun).handed⟩
  intro b hb
  apply h.batches b hb

def pairConsumer : Consumer where
  tag := [98]
  maxRedeliveries := 3
  counterBDisabled := false
  size := 2
  size_pos := by decide
  flushAfter := true
  handlerTimeout := false
  timeoutVerdict := .nackNoRequeue

def pairDelivery (deliveryTag : UInt64) (decodes : Bool) : Dispatch.Delivery :=
  ⟨[111], deliveryTag, decodes, 0, false, false⟩

def pairRun : List Action :=
  [.env (.deliver 0 (pairDelivery 1 true)), .env (.deliver 0 (pairDelivery 2 true)),
    .loop .receive, .loop .checkSize, .loop .receive, .loop .checkSize,
    .env (.handlerReturns none), .flush .handlerDone, .flush .applyBatchVerdict, .flush .send,
    .env (.deliver 0 (pairDelivery 3 false)), .env (.deliver 0 (pairDelivery 4 true)),
    .loop .receive, .loop .receive, .loop .checkSize]

theorem batches_partition_pairRun
    : ∃ s ∈ Run.run (step pairConsumer) init pairRun,
        s.flushed.flatten ++ s.pending = s.received.filter pairConsumer.accepts
          ∧ s.received.length = 4 ∧ s.pending.length = 1 := by
  have ⟨s, hrun, hreceived, hpending⟩ := (by decide :
    ∃ s ∈ Run.run (step pairConsumer) init pairRun,
      s.received.length = 4 ∧ s.pending.length = 1)
  exact ⟨s, hrun, (batches_partition pairConsumer hrun).1, hreceived, hpending⟩

end State
end BatchLoop
