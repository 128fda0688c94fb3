import Warren.Base.Run
import Warren.Consumer.Batch.Impl

namespace BatchConsumer

open List Option

inductive Event where
  | receive
  | refuse (requeue : Bool)
  | flush
  | leave
  | claim (b : Nat)
  | sendAll (b : Nat)
  | issue (b tag : Nat)
  | compareAndSwap (call : DeliveryCall)
  | send (call : DeliveryCall)
  | ackNotify (b : Nat)
  | closeChannel
  deriving DecidableEq, Repr

namespace Core

inductive Move (c : Core) : Event → Core → Prop where
  | receive (hleft : c.left = false) : Move c .receive c.receive
  | refuse (requeue : Bool) : Move c (.refuse requeue) (c.refuse requeue)
  | flush (hleft : c.left = false) : Move c .flush c.flush
  | leave : Move c .leave c.leave
  | claim (b : Nat) (batch : Batch) (hb : c.batches[b]? = some batch) (hacked : batch.acked = false)
    : Move c (.claim b) (c.claim b batch)
  | sendAll (b : Nat) (batch : Batch) (v : Verdict) (hb : c.batches[b]? = some batch)
    (hdecided : batch.decided = true) : Move c (.sendAll b) (c.sendAll b v)
  | issue (b tag : Nat) (batch : Batch) (v : Verdict) (hb : c.batches[b]? = some batch)
    (htag : tag ∈ batch.deliveries) : Move c (.issue b tag) (c.issue b batch tag v)
  | compareAndSwap (call : DeliveryCall) (hcall : call ∈ c.calls)
    : Move c (.compareAndSwap call) (c.compareAndSwap call)
  | send (call : DeliveryCall) (hcall : call ∈ c.sends) : Move c (.send call) (c.send call)
  | ackNotify (b : Nat) (batch : Batch) (hb : c.batches[b]? = some batch)
    : Move c (.ackNotify b) (c.ackNotify b batch)
  | closeChannel : Move c .closeChannel { c with channelClosed := true }

def Decided (c : Core) (b : Nat) : Prop :=
  ∃ batch, c.batches[b]? = some batch ∧ batch.decided = true

theorem emit_batches (c : Core) (f : Frame) : (c.emit f).batches = c.batches := by
  unfold emit
  split <;> rfl

theorem sendAll_batches (c : Core) (b : Nat) (v : Verdict) : (c.sendAll b v).batches = c.batches := by
  unfold sendAll
  split
  . rfl
  . split
    . rfl
    . apply emit_batches

variable {c : Core}

theorem Decided.setBatch {b b' : Nat} {batch batch' : Batch} (h : c.Decided b)
    (hb : c.batches[b']? = some batch) (hbatch : batch.decided = true → batch'.decided = true)
    : (c.setBatch b' batch').Decided b := by
  have ⟨old, hold, hdecided⟩ := h
  by_cases heq : b' = b
  . rw [heq, hold, some.injEq] at hb
    refine ⟨batch', ?_, hbatch (hb ▸ hdecided)⟩
    have hlt : b < c.batches.length := (List.getElem?_eq_some_iff.mp hold).1
    simp [Core.setBatch, heq, hlt]
  . refine ⟨old, ?_, hdecided⟩
    simp only [Core.setBatch]
    rw [getElem?_set_ne heq]
    exact hold

theorem Decided.move {c' : Core} {e : Event} (hmove : c.Move e c') {b : Nat} (h : c.Decided b)
    : c'.Decided b := by
  cases hmove with
  | refuse =>
    unfold Decided Core.refuse sendOne
    rw [emit_batches]
    exact h
  | flush =>
    have ⟨batch, hb, hdecided⟩ := h
    refine ⟨batch, ?_, hdecided⟩
    have hlt : b < c.batches.length := (List.getElem?_eq_some_iff.mp hb).1
    simp only [Core.flush]
    rw [getElem?_append_left hlt]
    exact hb
  | claim b' batch hb => exact h.setBatch hb (fun _ => rfl)
  | sendAll b' batch v =>
    unfold Decided
    rw [sendAll_batches]
    exact h
  | compareAndSwap =>
    unfold Core.compareAndSwap
    split <;> exact h
  | send =>
    unfold Decided Core.send sendOne
    rw [emit_batches]
    exact h
  | ackNotify b' batch hb => exact h.setBatch hb id
  | _ => exact h

theorem emit_left (c : Core) (f : Frame) : (c.emit f).left = c.left := by
  unfold Core.emit
  split <;> rfl

theorem Move.left_eq {c' : Core} {e : Event} (h : c.Move e c') (he : e ≠ .leave)
    : c'.left = c.left := by
  cases h with
  | refuse => apply emit_left
  | leave => contradiction
  | sendAll =>
    unfold Core.sendAll
    split
    . rfl
    . split
      . rfl
      . apply emit_left
  | compareAndSwap =>
    unfold Core.compareAndSwap
    split <;> rfl
  | send => apply emit_left
  | _ => rfl

theorem decided_claim {b : Nat} {batch : Batch} (hb : c.batches[b]? = some batch)
    : (c.claim b batch).Decided b := by
  refine ⟨{ batch with acked := true, decided := true }, ?_, rfl⟩
  have hlt : b < c.batches.length := (List.getElem?_eq_some_iff.mp hb).1
  simp [claim, setBatch, hlt]

end Core

namespace State

def acked (s : State) (b : Nat) : Bool :=
  (s.batches[b]?.map (·.acked)).getD true

def loopEvent (s : State) : LoopAction → Option Event
  | .receive .valid => some .receive
  | .receive .undecodable => some (.refuse false)
  | .receive .deathExceeded => some (.refuse false)
  | .checkSize => if s.size ≤ s.pending.length ∧ s.pending ≠ [] then some .flush else none
  | .flushTimer => if s.pending = [] then none else some .flush
  | .ctxDone => if s.pending = [] then none else some .flush
  | .leave => some .leave
  | .requeueOne => some (.refuse true)
  | .requeueEnd => none

def flushEvent (s : State) (b : Nat) : FlushAction → Option Event
  | .timeoutVerdict _ => if s.acked b then none else some (.claim b)
  | .applyBatchVerdict _ => if s.acked b then none else some (.claim b)
  | .send => some (.sendAll b)
  | _ => none

def userEvent (s : State) : UserAction → Option Event
  | .batchVerdict b _ => if s.acked b then none else some (.claim b)
  | .batchSend b _ => some (.sendAll b)
  | .deliveryVerdict b tag _ => if s.consumerClosed then none else some (.issue b tag)
  | .compareAndSwap call => some (.compareAndSwap call)
  | .deliverySend call => some (.send call)
  | .ackNotify b => some (.ackNotify b)
  | .handlerReturn _ => none

def event (s : State) : Action → Option Event
  | .loop a => s.loopEvent a
  | .flush a =>
    match s.loop with
    | .flushing b _ _ => s.flushEvent b a
    | _ => none
  | .user a => s.userEvent a
  | .closeChannel => some .closeChannel
  | .deliver => none
  | .cancelCtx => none
  | .close => none

structure Wf (s : State) : Prop where
  left : s.loop ≠ .exited → s.left = false
  sending : ∀ b last v drain, s.loop = .flushing b last (.sending v drain) → s.Decided b
  batchSends : ∀ b v, (b, v) ∈ s.batchSends → s.Decided b

def Moved (s : State) (e : Option Event) (s' : State) : Prop :=
  match e with
  | none => s'.toCore = s.toCore
  | some e => s.toCore.Move e s'.toCore

variable {s s' : State} {b : Nat} {batch : Batch} {e : Option Event}

theorem acked_of_batch (h : s.batches[b]? = some batch) : s.acked b = batch.acked := by
  simp [acked, h]

theorem Moved.decided (h : s.Moved e s') (hb : s.Decided b) : s'.Decided b := by
  cases e with
  | none =>
    have hcore : s'.toCore = s.toCore := h
    rw [hcore]
    exact hb
  | some e => exact hb.move h

theorem Moved.left_eq (h : s.Moved e s') (he : e ≠ some .leave) : s'.left = s.left := by
  cases e with
  | none =>
    have hcore : s'.toCore = s.toCore := h
    rw [hcore]
  | some e => exact Core.Move.left_eq h (fun heq => he (by rw [heq]))

theorem Wf.loop (h : s.Wf) (hleft : s.left = false) (hmove : s.Moved e s') (he : e ≠ some .leave)
    (hsending : ∀ b last v drain, s'.loop ≠ .flushing b last (.sending v drain))
    (hbatchSends : s'.batchSends = s.batchSends) : s'.Wf := by
  refine ⟨fun _ => (hmove.left_eq he).trans hleft, ?_, ?_⟩
  . intro b last v drain hloop
    exact absurd hloop (hsending b last v drain)
  . intro b v hmem
    exact hmove.decided (h.batchSends b v (hbatchSends ▸ hmem))

theorem Wf.user (h : s.Wf) (hmove : s.Moved e s') (he : e ≠ some .leave) (hloop : s'.loop = s.loop)
    (hbatchSends : ∀ b v, (b, v) ∈ s'.batchSends → (b, v) ∈ s.batchSends ∨ s'.Decided b)
    : s'.Wf := by
  refine ⟨?_, ?_, ?_⟩
  . rw [hloop, hmove.left_eq he]
    exact h.left
  . rw [hloop]
    intro b last v drain heq
    exact hmove.decided (h.sending b last v drain heq)
  . intro b v hmem
    cases hbatchSends b v hmem with
    | inl hmem => exact hmove.decided (h.batchSends b v hmem)
    | inr hdecided => exact hdecided

theorem flushed_ne (last : Bool) (b : Nat) (last' : Bool) (phase : FlushPhase)
    : flushed last ≠ .flushing b last' phase := by
  unfold flushed
  split <;> simp

theorem goto_moved (h : s.Wf) (hleft : s.left = false) {loop : LoopPhase}
    (hsending : ∀ b last v drain, loop ≠ .flushing b last (.sending v drain))
    : Wf { s with loop } ∧ s.Moved none { s with loop } := by
  have hsame : s.Moved none { s with loop } := rfl
  exact ⟨h.loop hleft hsame (by simp) hsending rfl, hsame⟩

theorem refuse_moved (h : s.Wf) (hleft : s.left = false) (requeue : Bool) {loop : LoopPhase}
    (hsending : ∀ b last v drain, loop ≠ .flushing b last (.sending v drain))
    : Wf { s with toCore := s.toCore.refuse requeue, loop } ∧
      s.Moved (some (.refuse requeue)) { s with toCore := s.toCore.refuse requeue, loop } := by
  have hmove : s.Moved (some (.refuse requeue))
      { s with toCore := s.toCore.refuse requeue, loop } := .refuse requeue
  exact ⟨h.loop hleft hmove (by simp) hsending rfl, hmove⟩

theorem flush_moved (h : s.Wf) (hleft : s.left = false) (last : Bool)
    : (s.flush last).Wf ∧ s.Moved (if s.pending = [] then none else some .flush) (s.flush last) := by
  unfold State.flush
  split
  . apply goto_moved h hleft
    intro b last' v drain
    apply flushed_ne
  . have hmove : s.Moved (some .flush) { s with
        toCore := s.toCore.flush
        handlerDone := none
        loop := .flushing s.batches.length last .handling } := .flush hleft
    exact ⟨h.loop hleft hmove (by simp) (by simp) rfl, hmove⟩

theorem receive_moved (h : s.Wf) (hloop : s.loop = .selecting) {kind : Received}
    (hstep : s.receive kind = some s') : s'.Wf ∧ s.Moved (s.loopEvent (.receive kind)) s' := by
  have hleft := h.left (by simp [hloop])
  have hsending : ∀ b last v drain, s.loop ≠ .flushing b last (.sending v drain) := by
    simp [hloop]
  unfold State.receive at hstep
  split at hstep
  . cases kind with
    | undecodable | deathExceeded =>
      cases hstep
      exact refuse_moved h hleft false hsending
    | valid =>
      cases hstep
      have hmove : s.Moved (some .receive)
          { s with toCore := s.toCore.receive, loop := .received } := .receive hleft
      exact ⟨h.loop hleft hmove (by simp) (by simp) rfl, hmove⟩
  . contradiction

theorem checkSize_moved (h : s.Wf) (hleft : s.left = false)
    : s.checkSize.Wf ∧ s.Moved (s.loopEvent .checkSize) s.checkSize := by
  unfold State.checkSize
  simp only [State.loopEvent]
  split
  . next hsize =>
    have ⟨hwf, hmove⟩ := flush_moved h hleft false
    refine ⟨hwf, ?_⟩
    by_cases hpending : s.pending = []
    . simpa [hpending] using hmove
    . simpa [hpending, hsize] using hmove
  . next hsize =>
    simp only [hsize, false_and, ↓reduceIte]
    apply goto_moved h hleft
    simp

theorem loopStep_moved (h : s.Wf) {a : LoopAction} (hstep : s.loopStep a = some s')
    : s'.Wf ∧ s.Moved (s.loopEvent a) s' := by
  unfold State.loopStep at hstep
  split at hstep
  . next hloop => exact receive_moved h hloop hstep
  . next hloop =>
    cases hstep
    exact checkSize_moved h (h.left (by simp [hloop]))
  . next hloop =>
    cases hstep
    exact flush_moved h (h.left (by simp [hloop])) false
  . next hloop =>
    split at hstep
    . cases hstep
      exact flush_moved h (h.left (by simp [hloop])) true
    . contradiction
  . cases hstep
    have hmove : s.Moved (some .leave) { s with toCore := s.toCore.leave, loop := .exited } := .leave
    refine ⟨⟨by simp, by simp, ?_⟩, hmove⟩
    intro b v hmem
    exact hmove.decided (h.batchSends b v hmem)
  . next hloop =>
    unfold State.requeueOne at hstep
    split at hstep
    . cases hstep
      apply refuse_moved h (h.left (by simp [hloop]))
      intro b last v drain
      split <;> simp
    . contradiction
  . next hloop =>
    cases hstep
    apply goto_moved h (h.left (by simp [hloop]))
    simp
  . contradiction

theorem claim_moved (h : s.Wf) (hleft : s.left = false) (hb : s.batches[b]? = some batch)
    (hacked : batch.acked = false) (last : Bool) (v : Verdict) (drain : Bool)
    : Wf { s with
        toCore := s.toCore.claim b batch
        loop := .flushing b last (.sending v drain) } ∧
      s.Moved (some (.claim b)) { s with
        toCore := s.toCore.claim b batch
        loop := .flushing b last (.sending v drain) } := by
  have hmove : s.toCore.Move (.claim b) (s.toCore.claim b batch) := .claim b batch hb hacked
  refine ⟨⟨fun _ => hleft, ?_, ?_⟩, hmove⟩
  . intro b' last' v' drain' heq
    simp only [LoopPhase.flushing.injEq] at heq
    exact heq.1 ▸ Core.decided_claim hb
  . intro b' v' hmem
    exact (h.batchSends b' v' hmem).move hmove

theorem flushStep_moved (h : s.Wf) {last : Bool} {phase : FlushPhase} {a : FlushAction}
    (hloop : s.loop = .flushing b last phase) (hb : s.batches[b]? = some batch)
    (hstep : s.flushStep b last phase batch a = some s')
    : s'.Wf ∧ s.Moved (s.flushEvent b a) s' := by
  have hleft := h.left (by simp [hloop])
  have hacked := acked_of_batch hb
  unfold State.flushStep at hstep
  split at hstep
  . split at hstep
    . contradiction
    . cases hstep
      exact goto_moved h hleft (by simp)
  . split at hstep
    . cases hstep
      exact goto_moved h hleft (by simp)
    . contradiction
  . split at hstep
    . cases hstep
      exact goto_moved h hleft (by simp)
    . contradiction
  . split at hstep
    all_goals
      cases hstep
      exact goto_moved h hleft (by simp)
  . simp only [State.flushEvent, hacked]
    split at hstep
    . next hset =>
      rw [some.injEq] at hstep
      rw [if_pos hset]
      exact hstep ▸ goto_moved h hleft (by simp)
    . next hset =>
      rw [some.injEq] at hstep
      rw [if_neg hset]
      exact hstep ▸ claim_moved h hleft hb (by simpa using hset) _ _ _
  . simp only [State.flushEvent, hacked]
    split at hstep
    . next hset =>
      rw [some.injEq] at hstep
      rw [if_pos hset]
      exact hstep ▸ goto_moved h hleft (by simp [flushed_ne])
    . next hset =>
      rw [some.injEq] at hstep
      rw [if_neg hset]
      exact hstep ▸ claim_moved h hleft hb (by simpa using hset) _ _ _
  . next v drain =>
    rw [some.injEq] at hstep
    have ⟨old, hold, hdecided⟩ := h.sending b last v drain hloop
    have hmove : s.Moved (some (.sendAll b)) s' := by
      rw [← hstep]
      exact .sendAll b old v hold hdecided
    refine ⟨h.loop hleft hmove (by simp) ?_ (by rw [← hstep]), hmove⟩
    intro b' last' v' drain'
    rw [← hstep]
    split
    . simp
    . apply flushed_ne
  . split at hstep
    . cases hstep
      exact goto_moved h hleft (by simp [flushed_ne])
    . contradiction
  . contradiction

theorem batchVerdict_moved (h : s.Wf) (hb : s.batches[b]? = some batch) (v : Verdict)
    : (s.batchVerdict b v batch).Wf ∧
      s.Moved (s.userEvent (.batchVerdict b v)) (s.batchVerdict b v batch) := by
  simp only [State.userEvent, acked_of_batch hb]
  unfold State.batchVerdict
  split
  . exact ⟨h, rfl⟩
  . next hacked =>
    have hmove : s.Moved (some (.claim b)) { s with
        toCore := s.toCore.claim b batch
        batchSends := (b, v) :: s.batchSends } := .claim b batch hb (by simpa using hacked)
    refine ⟨h.user hmove (by simp) rfl ?_, hmove⟩
    intro b' v' hmem
    simp only [mem_cons, Prod.mk.injEq] at hmem
    cases hmem with
    | inl hmem =>
      right
      rw [hmem.1]
      exact Core.decided_claim hb
    | inr hmem => exact .inl hmem

theorem deliveryVerdict_moved (h : s.Wf) {tag : Nat} {v : Verdict} (hb : s.batches[b]? = some batch)
    (hstep : s.deliveryVerdict b tag v batch = some s')
    : s'.Wf ∧ s.Moved (s.userEvent (.deliveryVerdict b tag v)) s' := by
  unfold State.deliveryVerdict at hstep
  simp only [State.userEvent]
  split at hstep
  . next htag =>
    split at hstep
    . next hclosed =>
      rw [some.injEq] at hstep
      rw [if_pos hclosed]
      exact hstep ▸ ⟨h, rfl⟩
    . next hclosed =>
      rw [some.injEq] at hstep
      rw [if_neg hclosed, ← hstep]
      have hmove : s.Moved (some (.issue b tag))
          { s with toCore := s.toCore.issue b batch tag v } := .issue b tag batch v hb htag
      exact ⟨h.user hmove (by simp) rfl (fun _ _ => .inl), hmove⟩
  . contradiction

theorem userStep_moved (h : s.Wf) {a : UserAction} (hstep : s.userStep a = some s')
    : s'.Wf ∧ s.Moved (s.userEvent a) s' := by
  cases a with
  | batchVerdict b v =>
    have ⟨batch, hb, heq⟩ := map_eq_some_iff.mp hstep
    exact heq ▸ batchVerdict_moved h hb v
  | batchSend b v =>
    simp only [State.userStep] at hstep
    split at hstep
    . next hmem =>
      cases hstep
      have ⟨batch, hb, hdecided⟩ := h.batchSends b v hmem
      have hmove : s.Moved (some (.sendAll b)) { s with
          toCore := s.toCore.sendAll b v
          batchSends := s.batchSends.erase (b, v) } := .sendAll b batch v hb hdecided
      refine ⟨h.user hmove (by simp) rfl ?_, hmove⟩
      intro b' v' hmem'
      exact .inl (mem_of_mem_erase hmem')
    . contradiction
  | deliveryVerdict b tag v =>
    have ⟨batch, hb, heq⟩ := bind_eq_some_iff.mp hstep
    exact deliveryVerdict_moved h hb heq
  | compareAndSwap call =>
    simp only [State.userStep] at hstep
    split at hstep
    . next hcall =>
      cases hstep
      have hmove : s.Moved (some (.compareAndSwap call))
          { s with toCore := s.toCore.compareAndSwap call } := .compareAndSwap call hcall
      exact ⟨h.user hmove (by simp) rfl (fun _ _ => .inl), hmove⟩
    . contradiction
  | deliverySend call =>
    simp only [State.userStep] at hstep
    split at hstep
    . next hcall =>
      rw [some.injEq] at hstep
      have hmove : s.Moved (some (.send call)) s' := by
        rw [← hstep]
        exact .send call hcall
      refine ⟨h.user hmove (by simp) (by rw [← hstep]) ?_, hmove⟩
      rw [← hstep]
      exact fun _ _ => .inl
    . contradiction
  | ackNotify b =>
    simp only [State.userStep] at hstep
    split at hstep
    . contradiction
    . next batch hb =>
      split at hstep
      . rw [some.injEq] at hstep
        have hmove : s.Moved (some (.ackNotify b)) s' := by
          rw [← hstep]
          exact .ackNotify b batch hb
        refine ⟨h.user hmove (by simp) (by rw [← hstep]) ?_, hmove⟩
        rw [← hstep]
        exact fun _ _ => .inl
      . contradiction
  | handlerReturn handlerErr =>
    simp only [State.userStep] at hstep
    split at hstep
    . cases hstep
      exact ⟨⟨h.left, h.sending, h.batchSends⟩, rfl⟩
    . contradiction

theorem step_moved (h : s.Wf) {a : Action} (hstep : s.step a = some s')
    : s'.Wf ∧ s.Moved (s.event a) s' := by
  cases a with
  | loop a => exact loopStep_moved h hstep
  | flush a =>
    simp only [State.step] at hstep
    split at hstep
    . next b last phase hloop =>
      have ⟨batch, hb, hflush⟩ := bind_eq_some_iff.mp hstep
      have hevent : s.event (.flush a) = s.flushEvent b a := by simp only [State.event, hloop]
      rw [hevent]
      exact flushStep_moved h hloop hb hflush
    . contradiction
  | user a => exact userStep_moved h hstep
  | deliver =>
    simp only [State.step] at hstep
    split at hstep
    . contradiction
    . cases hstep
      exact ⟨⟨h.left, h.sending, h.batchSends⟩, rfl⟩
  | closeChannel =>
    simp only [State.step, some.injEq] at hstep
    exact hstep ▸ ⟨⟨h.left, h.sending, h.batchSends⟩, .closeChannel⟩
  | _ =>
    simp only [State.step, some.injEq] at hstep
    exact hstep ▸ ⟨⟨h.left, h.sending, h.batchSends⟩, rfl⟩

theorem Wf.init (size : Nat) (handlerTimeout timeoutRequeue : Bool)
    : (State.init size handlerTimeout timeoutRequeue).Wf := by
  constructor
  all_goals simp [State.init, Core.init]

end State

theorem core_inv_of_run {I : Core → Prop} {P : Core → Event → Prop}
    (hmove : ∀ {c e c'}, I c → P c e → c.Move e c' → I c') (hinit : I .init)
    {size : Nat} {handlerTimeout timeoutRequeue : Bool} {as : List Action} {s : State}
    (halong : Run.Along State.step (fun s a => ∀ e ∈ s.event a, P s.toCore e)
      (.init size handlerTimeout timeoutRequeue) as)
    (hrun : Run.run State.step (.init size handlerTimeout timeoutRequeue) as = some s)
    : I s.toCore := by
  have hinv : s.Wf ∧ I s.toCore := by
    apply Run.inv_of_run (I := fun s => s.Wf ∧ I s.toCore) _ _ halong hrun
    . intro s a s' ⟨hwf, h⟩ hP hstep
      have ⟨hwf', hmoved⟩ := State.step_moved hwf hstep
      refine ⟨hwf', ?_⟩
      cases hevent : s.event a with
      | none =>
        rw [hevent] at hmoved
        have hcore : s'.toCore = s.toCore := hmoved
        rw [hcore]
        exact h
      | some e =>
        rw [hevent] at hmoved
        exact hmove h (hP e hevent) hmoved
    . exact ⟨State.Wf.init _ _ _, hinit⟩
  exact hinv.2

end BatchConsumer
