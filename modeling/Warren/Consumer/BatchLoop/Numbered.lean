import Warren.Consumer.BatchLoop.Moves

namespace BatchLoop

open Dispatch (Err Verdict)
open Errors (CtxErr)
open List

def FlushPhase.undecided : FlushPhase → Bool
  | handling => true
  | verdict _ => true
  | timedOut => true
  | timeoutVerdict => true
  | sending _ _ => false
  | draining => false

def FlushPhase.unsent : FlushPhase → Bool
  | sending _ _ => true
  | phase => phase.undecided

namespace State

variable {c : Consumer} {s s' : State} {n : Nat}

def Framed (s : State) (n : Nat) : Prop := ∃ fr ∈ s.frames, fr.batch = some n

structure Numbered (s : State) : Prop where
  frames : ∀ n, s.Framed n → n < s.batches.length
  timeouts : ∀ n ∈ s.timeouts, n < s.batches.length
  handed : ∀ f, s.loop = .flushing f →
    s.batches.getLast? = some f.batch ∧ s.flushed.getLast? = some f.batch
  unsent : ∀ f, s.loop = .flushing f → f.phase.unsent = true → ¬ s.Framed s.batchNo
  undecided : ∀ f, s.loop = .flushing f → f.phase.undecided = true → s.batchNo ∉ s.timeouts

theorem numbered_init : Numbered init := by
  constructor
  . intro n ⟨fr, hfr, _⟩
    contradiction
  . intro n hn
    contradiction
  . intro f hloop
    contradiction
  . intro f hloop
    contradiction
  . intro f hloop
    contradiction

theorem Numbered.pos (h : s.Numbered) {f : Flushing} (hloop : s.loop = .flushing f)
    : 0 < s.batches.length := by
  rw [length_pos_iff, ← getLast?_isSome, (h.handed f hloop).1]
  rfl

theorem Numbered.frame (h : s.Numbered) (hframes : s'.frames = s.frames)
    (htimeouts : s'.timeouts = s.timeouts) (hbatches : s'.batches = s.batches)
    (hflushed : s'.flushed = s.flushed)
    (hloop : ∀ f', s'.loop = .flushing f' → ∃ f, s.loop = .flushing f ∧ f'.batch = f.batch
      ∧ (f'.phase.unsent = true → f.phase.unsent = true)
      ∧ (f'.phase.undecided = true → f.phase.undecided = true))
    : s'.Numbered := by
  have hframed (n : Nat) : s'.Framed n ↔ s.Framed n := by rw [Framed, Framed, hframes]
  constructor
  all_goals grind [Numbered, batchNo]

theorem numbered_of_not_flushing (hframes : ∀ n, s'.Framed n → n < s'.batches.length)
    (htimeouts : ∀ n ∈ s'.timeouts, n < s'.batches.length) (hloop : ∀ f, s'.loop ≠ .flushing f)
    : s'.Numbered := by
  constructor
  . apply hframes
  . apply htimeouts
  . intro f hf
    exact absurd hf (hloop f)
  . intro f hf
    exact absurd hf (hloop f)
  . intro f hf
    exact absurd hf (hloop f)

theorem afterFlush_ne_flushing (last : Bool) (f : Flushing) : afterFlush last ≠ .flushing f := by
  cases last with
  | false => simp [afterFlush]
  | true => simp [afterFlush]

theorem numbered_flush (last : Bool) (hframes : ∀ n, s.Framed n → n < s.batches.length)
    (htimeouts : ∀ n ∈ s.timeouts, n < s.batches.length) : (s.flush last).Numbered := by
  unfold flush
  split
  next => exact numbered_of_not_flushing hframes htimeouts (afterFlush_ne_flushing last)
  next =>
    have hlength : (s.batches ++ [s.pending]).length = s.batches.length + 1 := by simp
    constructor
    . intro n hn
      have hlt := hframes n hn
      dsimp [Collected.flush]
      omega
    . intro n hn
      have hlt := htimeouts n hn
      dsimp [Collected.flush]
      omega
    . intro f hf
      cases hf
      exact ⟨getLast?_concat, getLast?_concat⟩
    . intro f hf _ hframed
      have hlt := hframes _ hframed
      dsimp [batchNo, Collected.flush] at hlt
      omega
    . intro f hf _ htimeout
      have hlt := htimeouts _ htimeout
      dsimp [batchNo, Collected.flush] at hlt
      omega

inductive LoopEffect (s s' : State) : Prop where
  | flush (t : State) (last : Bool) (hframes : t.frames = s.frames)
    (htimeouts : t.timeouts = s.timeouts) (hbatches : t.batches = s.batches)
    (hs' : s' = t.flush last)
  | other (hframed : ∀ n, s'.Framed n → s.Framed n) (htimeouts : s'.timeouts = s.timeouts)
    (hbatches : s'.batches = s.batches) (hloop : ∀ f, s'.loop ≠ .flushing f)

theorem framed_nackOne {d : Delivery} {requeue : Bool} (h : (s.nackOne d requeue).Framed n)
    : s.Framed n := by
  rcases s.nackOne_cases d requeue with heq | ⟨fr, hnone, heq⟩
  . rwa [heq] at h
  . rw [heq] at h
    have ⟨x, hx, hbatch⟩ := h
    cases mem_append.mp hx with
    | inl hold => exact ⟨x, hold, hbatch⟩
    | inr hnew =>
      rw [mem_singleton.mp hnew, hnone] at hbatch
      contradiction

theorem batches_receive (k : Collected) (c : Consumer) (d : Delivery)
    : (k.receive c d).batches = k.batches := by
  unfold Collected.receive Collected.resetFlushTimer
  dsimp
  split
  . split
    all_goals rfl
  . rfl

theorem loopEffect_of_loopMove {a : LoopAction} (h : LoopMove c s a s') : LoopEffect s s' := by
  cases h with
  | ctxDone => exact .flush s true rfl rfl rfl rfl
  | flushTimer =>
    exact .flush { s with toCollected := s.toCollected.stopFlushTimer } false rfl rfl rfl rfl
  | flushes => exact .flush s false rfl rfl rfl rfl
  | accepts =>
    exact .other (fun n hn => hn) rfl (batches_receive s.toCollected c _) (by simp)
  | refuses hloop =>
    exact .other (fun n => framed_nackOne) (by simp [setBuffer]) (by simp [batches_receive])
      (by simp [setBuffer, hloop])
  | requeueOne _ _ hloop =>
    refine .other (fun n => framed_nackOne) (by simp [setBuffer]) (by simp [setBuffer]) ?_
    rintro f rfl
    simp at hloop
  | _ => exact .other (fun n hn => hn) rfl rfl (by simp [discard])

theorem numbered_loopEffect (h : s.Numbered) (heffect : LoopEffect s s') : s'.Numbered := by
  cases heffect with
  | flush t last hframes htimeouts hbatches hs' =>
    rw [hs']
    apply numbered_flush
    . intro n ⟨fr, hfr, hbatch⟩
      rw [hframes] at hfr
      rw [hbatches]
      apply h.frames n ⟨fr, hfr, hbatch⟩
    . rw [htimeouts, hbatches]
      apply h.timeouts
  | other hframed htimeouts hbatches hloop =>
    apply numbered_of_not_flushing _ _ hloop
    . intro n hn
      rw [hbatches]
      apply h.frames n (hframed n hn)
    . rw [htimeouts, hbatches]
      apply h.timeouts

variable {f : Flushing}

theorem Numbered.goto (h : s.Numbered) (hloop : s.loop = .flushing f) {f' : Flushing}
    (hframes : s'.frames = s.frames) (htimeouts : s'.timeouts = s.timeouts)
    (hbatches : s'.batches = s.batches) (hflushed : s'.flushed = s.flushed)
    (hloop' : s'.loop = .flushing f') (hbatch : f'.batch = f.batch)
    (hunsent : f'.phase.unsent = true → f.phase.unsent = true)
    (hundecided : f'.phase.undecided = true → f.phase.undecided = true) : s'.Numbered := by
  apply h.frame hframes htimeouts hbatches hflushed
  intro f'' hf''
  rw [hloop', Loop.flushing.injEq] at hf''
  subst hf''
  exact ⟨f, hloop, hbatch, hunsent, hundecided⟩

theorem Numbered.leave (h : s.Numbered) (last : Bool)
    : { s with loop := afterFlush last }.Numbered :=
  numbered_of_not_flushing h.frames h.timeouts (afterFlush_ne_flushing last)

theorem Numbered.sendAll (h : s.Numbered) (hloop : s.loop = .flushing f) (batch : List Delivery)
    (v : Verdict) {loop : Loop}
    (hdraining : ∀ f', loop = .flushing f' → f'.phase = .draining ∧ f'.batch = f.batch)
    : { s.sendAll batch v with loop }.Numbered := by
  have hpos := h.pos hloop
  have hlt : s.batchNo < s.batches.length := by
    unfold batchNo
    omega
  have hframes : ∀ n, (s.sendAll batch v).Framed n → n < s.batches.length := by
    intro n hn
    rcases s.sendAll_cases batch v with heq | ⟨fr, hbatch, heq⟩
    . rw [heq] at hn
      apply h.frames n hn
    . rw [heq] at hn
      have ⟨x, hx, hxbatch⟩ := hn
      cases mem_append.mp hx with
      | inl hold => apply h.frames n ⟨x, hold, hxbatch⟩
      | inr hnew =>
        rw [mem_singleton.mp hnew, hbatch, Option.some.injEq] at hxbatch
        omega
  constructor
  . intro n hn
    dsimp
    rw [(sendAll_eq _ _ _).1]
    apply hframes n hn
  . dsimp
    rw [(sendAll_eq _ _ _).1, (sendAll_eq _ _ _).2]
    apply h.timeouts
  . intro f' hf'
    dsimp
    rw [(sendAll_eq _ _ _).1, (hdraining f' hf').2]
    apply h.handed f hloop
  . intro f' hf' hunsent
    rw [(hdraining f' hf').1] at hunsent
    contradiction
  . intro f' hf' hundecided
    rw [(hdraining f' hf').1] at hundecided
    contradiction

theorem numbered_timeoutVerdict (h : s.Numbered) (hloop : s.loop = .flushing f)
    (hphase : f.phase = .timeoutVerdict) : (s.timeoutVerdict c f).Numbered := by
  rcases s.timeoutVerdict_cases c f with ⟨counterState, heq | ⟨v, heq⟩⟩
  . rw [heq]
    exact h.goto hloop rfl rfl rfl rfl rfl rfl (by simp [FlushPhase.unsent, FlushPhase.undecided])
      (by simp [FlushPhase.undecided])
  . rw [heq]
    have hpos := h.pos hloop
    constructor
    . apply h.frames
    . intro n hn
      dsimp [State.goto] at hn ⊢
      cases mem_append.mp hn with
      | inl hold => apply h.timeouts n hold
      | inr hnew =>
        rw [mem_singleton.mp hnew]
        unfold batchNo
        omega
    . intro f' hf'
      cases hf'
      apply h.handed f hloop
    . intro f' _ _
      apply h.unsent f hloop
      rw [hphase]
      rfl
    . intro f' hf' hundecided
      dsimp [State.goto] at hf'
      rw [Loop.flushing.injEq] at hf'
      subst hf'
      contradiction

theorem numbered_flushMove {a : FlushAction} (h : s.Numbered) (hloop : s.loop = .flushing f)
    (hmove : FlushMove c s f a s') : s'.Numbered := by
  cases hmove with
  | bail => apply h.leave
  | decides hphase =>
    rw [applyBatchVerdict_eq]
    exact h.goto hloop rfl rfl rfl rfl rfl rfl (fun _ => by rw [hphase]; rfl)
      (fun _ => by rw [hphase]; rfl)
  | timeoutVerdict hphase => apply numbered_timeoutVerdict h hloop hphase
  | send =>
    apply h.sendAll hloop
    intro f' hf'
    exact absurd hf' (afterFlush_ne_flushing f.last f')
  | sendDrain =>
    apply h.sendAll hloop
    intro f' hf'
    cases hf'
    exact ⟨rfl, rfl⟩
  | drained => apply h.leave
  | _ hphase =>
    exact h.goto hloop rfl rfl rfl rfl rfl rfl (fun _ => by rw [hphase]; rfl)
      (fun _ => by rw [hphase]; rfl)

theorem numbered_envMove {a : EnvAction} (h : s.Numbered) (hmove : EnvMove c s a s')
    : s'.Numbered := by
  cases hmove with
  | @ctxEnds e =>
    rcases s.loop_ctxEnds e with hsame | ⟨f, hloop, hloop'⟩
    . exact h.frame rfl rfl rfl rfl (fun f hf => ⟨f, hsame.symm.trans hf, rfl, id, id⟩)
    . exact h.goto hloop rfl rfl rfl rfl hloop' rfl id id
  | handlerTimeout hloop | handlerReturns hloop | acked hloop =>
    exact h.goto hloop rfl rfl rfl rfl rfl rfl id id
  | _ => exact h.frame rfl rfl rfl rfl (fun f hf => ⟨f, hf, rfl, id, id⟩)

theorem numbered_step {a : Action} (h : s.Numbered) (hstep : s.step c a = some s')
    : s'.Numbered := by
  cases step_move hstep with
  | loop hmove => apply numbered_loopEffect h (loopEffect_of_loopMove hmove)
  | flush hloop hmove => apply numbered_flushMove h hloop hmove
  | env hmove => apply numbered_envMove h hmove

theorem numbered_of_run {as : List Action} (hrun : Run.run (step c) init as = some s)
    : s.Numbered := by
  apply Run.inv_of_steps (I := Numbered) _ numbered_init hrun
  intro s a s' h hstep
  apply numbered_step h hstep

end State
end BatchLoop
