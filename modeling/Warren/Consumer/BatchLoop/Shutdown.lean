import Warren.Consumer.BatchLoop.Partition

/-!
The flush with which `Consume` ends.
-/

namespace BatchLoop

open CounterB (RedeliveryCounter)
open Dispatch (Err Verdict)
open Function List

namespace State

variable {c : Consumer} {s s' : State} {b sub : Nat} {batch : List Delivery} {err : Option Err}

theorem highest_mem {h : Delivery} (hhighest : highest batch = some h) : h ∈ batch := by
  cases batch with
  | nil => contradiction
  | cons d batch =>
    cases hhighest
    apply foldlRecOn (motive := fun h => h ∈ d :: batch)
    . apply mem_cons_self
    . intro h hh x hx
      split
      . apply mem_cons_of_mem d hx
      . apply hh

theorem exists_highest (hne : batch ≠ []) : ∃ h, highest batch = some h := by
  cases batch with
  | nil => contradiction
  | cons d batch => exact ⟨_, rfl⟩

def Allowed (sub : Nat) (err : Option Err) (a : Action) : Prop :=
  a ≠ .env (.closeChannel sub) ∧ a ≠ .env .acked
    ∧ ∀ err', a = .env (.handlerReturns err') → err' = err

def verdictFor (c : Consumer) (batch : List Delivery) (err : Option Err) (cs : RedeliveryCounter)
    : Verdict :=
  verdictOf (c.applyBatchCounterB cs (batch.map (·.raw)) err).2

def framesFor (s : State) (b : Nat) : List Frame := s.frames.filter (fun fr => fr.batch = some b)

structure Unsent (batch : List Delivery) (f : Flushing) : Prop where
  batch : f.batch = batch
  last : f.last = true

inductive Stage (c : Consumer) (b : Nat) (batch : List Delivery) (err : Option Err) (s : State)
    : Prop where
  | handling (f : Flushing) (hloop : s.loop = .flushing f) (hf : Unsent batch f)
    (hphase : f.phase = .handling) (hacked : f.acked = false)
    (hdone : ∀ err', f.handlerDone = some err' → err' = err) (hframes : s.framesFor b = [])
  | verdict (f : Flushing) (hloop : s.loop = .flushing f) (hf : Unsent batch f)
    (hphase : f.phase = .verdict err) (hacked : f.acked = false) (hframes : s.framesFor b = [])
  | sending (f : Flushing) (cs : RedeliveryCounter) (hloop : s.loop = .flushing f)
    (hf : Unsent batch f) (hphase : f.phase = .sending (verdictFor c batch err cs) false)
    (hdecision : (b, err, cs) ∈ s.decisions) (hframes : s.framesFor b = [])
  | sent (cs : RedeliveryCounter) (tag : UInt64) (hloop : s.loop = .requeueing ∨ s.loop = .returned)
    (hdecision : (b, err, cs) ∈ s.decisions)
    (hframes : s.framesFor b = [⟨some b, tag, verdictFor c batch err cs⟩])

structure Closing (c : Consumer) (b sub : Nat) (batch : List Delivery) (err : Option Err)
    (s : State) : Prop where
  batchNo : s.batchNo = b
  channel : (s.subs sub).channelClosed = false
  stage : Stage c b batch err s

theorem framesFor_nackOne (s : State) (d : Delivery) (requeue : Bool) (b : Nat)
    : (s.nackOne d requeue).framesFor b = s.framesFor b := by
  unfold framesFor
  rcases s.nackOne_cases d requeue with h | ⟨fr, hnone, h⟩
  . rw [h]
  . rw [h]
    simp [hnone]

theorem Stage.frame (h : Stage c b batch err s) (hloop : s'.loop = s.loop)
    (hframes : s'.frames = s.frames) (hdecisions : s'.decisions = s.decisions)
    : Stage c b batch err s' := by
  grind [Stage, framesFor]

theorem Stage.during (h : Stage c b batch err s) {f f' : Flushing} (hloop : s.loop = .flushing f)
    (hloop' : s'.loop = .flushing f') (hframes : s'.frames = s.frames)
    (hdecisions : s'.decisions = s.decisions) (hbatch : f'.batch = f.batch)
    (hlast : f'.last = f.last) (hphase' : f'.phase = f.phase) (hacked' : f'.acked = f.acked)
    (hdone' : ∀ err', f'.handlerDone = some err' → f.handlerDone = some err' ∨ err' = err)
    : Stage c b batch err s' := by
  have hfor : s'.framesFor b = s.framesFor b := by
    unfold framesFor
    rw [hframes]
  have hkeep : Unsent batch f → Unsent batch f' :=
    fun hf => ⟨hbatch.trans hf.batch, hlast.trans hf.last⟩
  cases h with
  | handling g hg hunsent hphase hacked hdone hnone =>
    rw [hloop, Loop.flushing.injEq] at hg
    subst hg
    refine .handling f' hloop' (hkeep hunsent) (hphase'.trans hphase) (hacked'.trans hacked) ?_
      (hfor.trans hnone)
    intro err' herr'
    cases hdone' err' herr' with
    | inl hold => apply hdone err' hold
    | inr hnew => apply hnew
  | verdict g hg hunsent hphase hacked hnone =>
    rw [hloop, Loop.flushing.injEq] at hg
    subst hg
    exact .verdict f' hloop' (hkeep hunsent) (hphase'.trans hphase) (hacked'.trans hacked)
      (hfor.trans hnone)
  | sending g cs hg hunsent hphase hdecision hnone =>
    rw [hloop, Loop.flushing.injEq] at hg
    subst hg
    rw [← hdecisions] at hdecision
    exact .sending f' cs hloop' (hkeep hunsent) (hphase'.trans hphase) hdecision
      (hfor.trans hnone)
  | sent cs tag hsent =>
    rw [hloop] at hsent
    simp at hsent

theorem closing_envMove {a : EnvAction} (h : Closing c b sub batch err s)
    (hallowed : Allowed sub err (.env a)) (hmove : EnvMove c s a s')
    : Closing c b sub batch err s' := by
  have ⟨hopen, hacked, herr⟩ := hallowed
  have hsubs : ∀ n x, (n = sub → x.channelClosed = false) →
      ((update s.subs n x) sub).channelClosed = false := by
    intro n x hx
    by_cases hn : sub = n
    . subst hn
      rw [update_self]
      apply hx rfl
    . rw [update_of_ne hn]
      apply h.channel
  cases hmove with
  | deliver | closeStream =>
    refine ⟨h.batchNo, hsubs _ _ ?_, h.stage.frame rfl rfl rfl⟩
    intro hn
    rw [hn]
    apply h.channel
  | closeChannel =>
    refine ⟨h.batchNo, hsubs _ _ ?_, h.stage.frame rfl rfl rfl⟩
    intro hn
    rw [hn] at hopen
    contradiction
  | @ctxEnds e =>
    rcases s.loop_ctxEnds e with hsame | ⟨f, hloop, hloop'⟩
    . exact ⟨h.batchNo, h.channel, h.stage.frame hsame rfl rfl⟩
    . exact ⟨h.batchNo, h.channel,
        h.stage.during hloop hloop' rfl rfl rfl rfl rfl rfl (fun _ => .inl)⟩
  | handlerTimeout hloop =>
    exact ⟨h.batchNo, h.channel, h.stage.during hloop rfl rfl rfl rfl rfl rfl rfl (fun _ => .inl)⟩
  | handlerReturns hloop =>
    refine ⟨h.batchNo, h.channel, h.stage.during hloop rfl rfl rfl rfl rfl rfl rfl ?_⟩
    intro err' herr'
    rw [Option.some.injEq] at herr'
    right
    rw [← herr']
    apply herr _ rfl
  | acked => contradiction
  | _ => exact ⟨h.batchNo, h.channel, h.stage.frame rfl rfl rfl⟩

theorem framesFor_sendAll (hne : batch ≠ []) (hsub : ∀ d ∈ batch, d.sub = sub)
    (hopen : (s.subs sub).channelClosed = false) (v : Verdict)
    : ∃ tag, s.sendAll batch v = { s with frames := s.frames ++ [⟨some s.batchNo, tag, v⟩] } := by
  have ⟨h, hhighest⟩ := exists_highest hne
  have hh := hsub h (highest_mem hhighest)
  unfold sendAll
  rw [hhighest]
  refine ⟨h.raw.deliveryTag, ?_⟩
  dsimp only
  unfold emit
  rw [hh, hopen]
  rfl

theorem closing_flushMove {f : Flushing} {a : FlushAction} (htimeout : c.handlerTimeout = false)
    (hne : batch ≠ []) (hsub : ∀ d ∈ batch, d.sub = sub) (h : Closing c b sub batch err s)
    (hloop : s.loop = .flushing f) (hmove : FlushMove c s f a s')
    : Closing c b sub batch err s' := by
  cases h.stage with
  | handling g hg hunsent hphase hacked hdone hnone =>
    rw [hloop, Loop.flushing.injEq] at hg
    subst hg
    cases hmove with
    | handlerDone _ hreturned =>
      have herr := hdone _ hreturned
      subst herr
      refine ⟨h.batchNo, h.channel, ?_⟩
      exact .verdict _ rfl ⟨hunsent.batch, hunsent.last⟩ rfl hacked hnone
    | timedOut _ hselect | canceled _ hselect =>
      rw [htimeout] at hselect
      contradiction
    | _ h' => rw [hphase] at h'; contradiction
  | verdict g hg hunsent hphase hacked hnone =>
    rw [hloop, Loop.flushing.injEq] at hg
    subst hg
    cases hmove with
    | decides h' =>
      rw [hphase, FlushPhase.verdict.injEq] at h'
      subst h'
      rw [applyBatchVerdict_eq]
      refine ⟨h.batchNo, h.channel, ?_⟩
      refine .sending _ s.counterState rfl ⟨hunsent.batch, hunsent.last⟩ ?_ ?_ hnone
      . dsimp
        rw [hunsent.batch]
        rfl
      . rw [← h.batchNo]
        apply mem_append_right
        apply mem_cons_self
    | bail _ hacked' =>
      rw [hacked] at hacked'
      contradiction
    | _ h' => rw [hphase] at h'; contradiction
  | sending g cs hg hunsent hphase hdecision hnone =>
    rw [hloop, Loop.flushing.injEq] at hg
    subst hg
    cases hmove with
    | send h' =>
      rw [hphase, FlushPhase.sending.injEq] at h'
      have ⟨tag, hsend⟩ := framesFor_sendAll hne hsub h.channel (verdictFor c batch err cs)
      rw [← h'.1, hunsent.batch, hsend, hunsent.last]
      refine ⟨h.batchNo, h.channel, ?_⟩
      refine .sent cs tag (.inl rfl) hdecision ?_
      unfold framesFor at hnone ⊢
      simp [hnone, h.batchNo]
    | sendDrain h' => rw [hphase] at h'; cases h'
    | _ h' => rw [hphase] at h'; contradiction
  | sent cs tag hsent =>
    rw [hloop] at hsent
    simp at hsent

theorem running_of_loopMove {a : LoopAction} (h : LoopMove c s a s')
    : s.loop ≠ .returned ∧ ∀ f, s.loop ≠ .flushing f := by
  cases h with
  | returns hloop =>
    cases hloop with
    | _ hloop => simp [hloop]
  | _ hloop => simp [hloop]

theorem channelClosed_update (subs : Nat → Sub) (n m : Nat) (buffer : List Dispatch.Delivery)
    : (update subs n { subs n with buffer } m).channelClosed = (subs m).channelClosed := by
  by_cases hm : m = n
  . subst hm
    rw [update_self]
  . rw [update_of_ne hm]

theorem requeues_of_loopMove {a : LoopAction} (hloop : s.loop = .requeueing) (h : LoopMove c s a s')
    : (s'.loop = .requeueing ∨ s'.loop = .returned) ∧ s'.toCollected = s.toCollected
        ∧ s'.decisions = s.decisions ∧ (∀ b, s'.framesFor b = s.framesFor b)
        ∧ (∀ n, (s'.subs n).channelClosed = (s.subs n).channelClosed)
        ∧ (a = .requeueOne → s'.loop = .requeueing →
          (s'.subs s'.cur).buffer.length + 1 = (s.subs s.cur).buffer.length) := by
  cases h with
  | returns => exact ⟨.inr rfl, rfl, rfl, fun _ => rfl, fun _ => rfl, by simp⟩
  | requeueOne _ hbuffer hloop' =>
    exact ⟨hloop', (nackOne_eq _ _ _).1, (nackOne_eq _ _ _).2.2.2.1,
      fun b => framesFor_nackOne _ _ _ b, by simp [setBuffer, channelClosed_update],
      by simp [setBuffer, hbuffer]⟩
  | _ h' => rw [hloop] at h'; contradiction

theorem allowed_loop (sub : Nat) (err : Option Err) (a : LoopAction)
    : Allowed sub err (.loop a) := by
  simp [Allowed]

theorem reaches_returned {n : Nat} (hlength : (s.subs s.cur).buffer.length = n)
    (hloop : s.loop = .requeueing)
    : ∃ t, Run.Reaches (step c) (Allowed sub err) s t ∧ t.loop = .returned := by
  induction n generalizing s with
  | zero =>
    have hnil := eq_nil_of_length_eq_zero hlength
    refine ⟨{ s with loop := .returned }, ?_, rfl⟩
    apply Run.Reaches.of_step (allowed_loop sub err .requeueEnd)
    simp [step, loopStep, hloop, hnil]
  | succ n ih =>
    cases hbuffer : (s.subs s.cur).buffer with
    | nil =>
      rw [hbuffer] at hlength
      contradiction
    | cons raw buffer =>
      have ⟨t, ht⟩ : ∃ t, s.requeueOne = some t := by
        unfold requeueOne popBuffer
        rw [hbuffer]
        exact ⟨_, rfl⟩
      have ⟨hloop', _, _, _, _, hbuffer'⟩ := requeues_of_loopMove (c := c) hloop
        (requeueOne_move hloop ht)
      have hreach : Run.Reaches (step c) (Allowed sub err) s t := by
        apply Run.Reaches.of_step (allowed_loop sub err .requeueOne)
        simpa [step, loopStep, hloop] using ht
      cases hloop' with
      | inr hreturned => exact ⟨t, hreach, hreturned⟩
      | inl hrequeueing =>
        have hlt := hbuffer' rfl hrequeueing
        have ⟨u, hu, hreturned⟩ := ih (s := t) (by omega) hrequeueing
        exact ⟨u, hreach.trans hu, hreturned⟩

theorem closing_step {a : Action} (htimeout : c.handlerTimeout = false) (hne : batch ≠ [])
    (hsub : ∀ d ∈ batch, d.sub = sub) (h : Closing c b sub batch err s)
    (hallowed : Allowed sub err a) (hstep : s.step c a = some s')
    : Closing c b sub batch err s' := by
  cases step_move hstep with
  | env hmove => apply closing_envMove h hallowed hmove
  | flush hloop hmove => apply closing_flushMove htimeout hne hsub h hloop hmove
  | loop hmove =>
    have ⟨hreturned, hflushing⟩ := running_of_loopMove hmove
    cases h.stage with
    | handling f hloop | verdict f hloop | sending f cs hloop => exact absurd hloop (hflushing f)
    | sent cs tag hloop hdecision hframes =>
      cases hloop with
      | inr h => exact absurd h hreturned
      | inl hrequeueing =>
        have ⟨hloop', hbatches, hdecisions, hfor, hsubs, _⟩ :=
          requeues_of_loopMove hrequeueing hmove
        constructor
        . rw [← h.batchNo]
          unfold batchNo
          rw [hbatches]
        . rw [hsubs]
          apply h.channel
        . rw [← hdecisions] at hdecision
          exact .sent cs tag hloop' hdecision ((hfor b).trans hframes)

theorem framesFor_eq_nil (h : ¬ s.Framed b) : s.framesFor b = [] := by
  unfold framesFor
  rw [filter_eq_nil_iff]
  intro fr hfr hbatch
  apply h
  exact ⟨fr, hfr, by simpa using hbatch⟩

def lastFlush (s : State) : Flushing where
  batch := s.pending
  last := true
  hCtx := s.ctx
  handlerDone := none
  acked := false
  phase := .handling

theorem flush_last (hpending : s.pending ≠ [])
    : s.flush true
        = { s with toCollected := s.toCollected.flush, loop := .flushing s.lastFlush } := by
  unfold flush
  rw [if_neg hpending]
  rfl

theorem closing_flush (hnumbered : s.Numbered) (hpending : s.pending ≠ [])
    (hopen : (s.subs s.cur).channelClosed = false)
    : Closing c s.batches.length s.cur s.pending err (s.flush true) := by
  rw [flush_last hpending]
  constructor
  . simp [batchNo, Collected.flush]
  . apply hopen
  . refine .handling s.lastFlush rfl ⟨rfl, rfl⟩ rfl rfl ?_ ?_
    . intro err' herr'
      contradiction
    . apply framesFor_eq_nil
      intro hframed
      have hlt := hnumbered.frames _ hframed
      omega

theorem reaches_requeueing (c : Consumer) (sub : Nat) (hpending : s.pending ≠ []) (err : Option Err)
    : ∃ t, Run.Reaches (step c) (Allowed sub err) (s.flush true) t ∧ t.loop = .requeueing := by
  rw [flush_last hpending]
  refine ⟨_, ⟨[.env (.handlerReturns err), .flush .handlerDone, .flush .applyBatchVerdict,
    .flush .send], ?_, rfl⟩, rfl⟩
  simp [Allowed]

/--
Without `HandlerTimeout` the flush on the way out can be finished, and when `Consume` returns one
frame was sent for its batch, with the verdict of the handler's error and counter B.
-/
theorem shutdown_settles (c : Consumer) (htimeout : c.handlerTimeout = false) {as : List Action}
    (hrun : Run.run (step c) init as = some s) (hloop : s.loop = .selecting)
    (hpending : s.pending ≠ []) (hopen : (s.subs s.cur).channelClosed = false)
    (hstep : s.step c (.loop .ctxDone) = some s') (err : Option Err)
    : (∃ bs t, (∀ a ∈ bs, Allowed s.cur err a) ∧ Run.run (step c) s' bs = some t
          ∧ t.loop = .returned)
        ∧ ∀ bs t, (∀ a ∈ bs, Allowed s.cur err a) → Run.run (step c) s' bs = some t →
          t.loop = .returned →
          ∃ cs tag, (s.batches.length, err, cs) ∈ t.decisions
            ∧ t.framesFor s.batches.length
              = [⟨some s.batches.length, tag, verdictFor c s.pending err cs⟩] := by
  have hs' : s' = s.flush true := by
    cases step_move hstep with
    | loop hmove => cases hmove with
      | ctxDone => rfl
      | returns h => rw [hloop] at h; simp at h
  subst hs'
  constructor
  . have ⟨u, hu, hrequeueing⟩ := reaches_requeueing c s.cur hpending err
    have ⟨t, ht, hreturned⟩ : ∃ t, Run.Reaches (step c) (Allowed s.cur err) u t
        ∧ t.loop = .returned :=
      reaches_returned rfl hrequeueing
    have ⟨bs, hallowed, hrun⟩ := hu.trans ht
    exact ⟨bs, t, hallowed, hrun, hreturned⟩
  . intro bs t hallowed hrest hreturned
    have hclosing : Closing c s.batches.length s.cur s.pending err t := by
      apply Run.inv_of_run (I := Closing c s.batches.length s.cur s.pending err)
        (P := fun _ a => Allowed s.cur err a) _ _ _ hrest
      . intro s₁ a s₂ h ha hstep
        apply closing_step htimeout hpending (partitioned_of_run hrun).sub h ha hstep
      . apply closing_flush (numbered_of_run hrun) hpending hopen
      . apply Run.along_of_forall_mem
        intro a ha _
        apply hallowed a ha
    cases hclosing.stage with
    | handling f hf | verdict f hf | sending f cs hf =>
      rw [hreturned] at hf
      contradiction
    | sent cs tag _ hdecision hframes => exact ⟨cs, tag, hdecision, hframes⟩

/-!
A delivery waits for its batch to be full when the context is cancelled, and the handler of the last
flush returns nil.
-/

def waitingConsumer (handlerTimeout : Bool) : Consumer where
  tag := [98]
  maxRedeliveries := 3
  counterBDisabled := false
  size := 2
  size_pos := Nat.two_pos
  flushAfter := false
  handlerTimeout
  timeoutVerdict := .nackNoRequeue

def waitingDelivery : Dispatch.Delivery := ⟨[111], 1, true, 0, false, false⟩

def waitingRun : List Action :=
  [.env (.deliver 0 waitingDelivery), .loop .receive, .loop .checkSize, .env (.ctxEnds .canceled)]

def returningRun : List Action :=
  [.env (.handlerReturns none), .flush .handlerDone, .flush .applyBatchVerdict, .flush .send,
    .loop .requeueEnd]

theorem shutdown_settles_waitingRun
    : ∃ s ∈ Run.run (step (waitingConsumer false)) init waitingRun,
        ∃ s' ∈ s.step (waitingConsumer false) (.loop .ctxDone),
          ∃ t ∈ Run.run (step (waitingConsumer false)) s' returningRun,
            ∃ cs tag, t.framesFor 0
              = [⟨some 0, tag, verdictFor (waitingConsumer false) s.pending none cs⟩] := by
  have ⟨s, hs, hloop, hpending, hopen, hbatches, s', hs', t, ht, hreturned⟩ :=
    (by decide : ∃ s ∈ Run.run (step (waitingConsumer false)) init waitingRun,
      s.loop = .selecting ∧ s.pending ≠ [] ∧ (s.subs s.cur).channelClosed = false
        ∧ s.batches = []
        ∧ ∃ s' ∈ s.step (waitingConsumer false) (.loop .ctxDone),
          ∃ t ∈ Run.run (step (waitingConsumer false)) s' returningRun, t.loop = .returned)
  have hsettles := shutdown_settles (waitingConsumer false) rfl hs hloop hpending hopen hs' none
  have ⟨cs, tag, _, hframes⟩ := hsettles.2 returningRun t (by simp [returningRun, Allowed]) ht
    hreturned
  rw [hbatches] at hframes
  exact ⟨s, hs, s', hs', t, ht, cs, tag, hframes⟩

-- the `select` of the last flush takes the arm of `hCtx`, which is done from the start
theorem shutdown_unsettled
    : ∃ t ∈ Run.run (step (waitingConsumer true)) init
        (waitingRun ++ [.loop .ctxDone, .env (.handlerReturns none), .flush .hCtxDone,
          .flush .drain, .loop .requeueEnd]),
        t.loop = .returned ∧ t.batches = [[⟨0, waitingDelivery⟩]] ∧ t.frames = [] := by
  decide

end State
end BatchLoop
