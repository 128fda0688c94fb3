import Warren.Publisher.Demux.Impl
import Warren.Publisher.Returns.Lemmas

namespace Publisher

open Option
namespace State

structure Leaves (s s' : State) : Prop where
  mandatory : s'.mandatory = s.mandatory
  demux : s'.demux = s.demux
  closed : s'.closed = s.closed
  broker : s'.broker = s.broker ∨
    ∃ a, s.attempt = some a ∧
      s'.broker = Function.update s.broker a.deliveryTag (some ⟨a, none, none⟩)
  results : ∀ r ∈ s.results, r ∈ s'.results

variable {s s' : State}

theorem Leaves.of_eq (hmandatory : s'.mandatory = s.mandatory)
    (hdemux : s'.demux = s.demux) (hclosed : s'.closed = s.closed) (hbroker : s'.broker = s.broker)
    (hresults : ∀ r ∈ s.results, r ∈ s'.results) : Leaves s s' :=
  ⟨hmandatory, hdemux, hclosed, .inl hbroker, hresults⟩

theorem leaves_deleteID (s : State) (messageID : MessageID) (k : Call)
    : Leaves s { s.deleteID messageID with call := some k } := by
  unfold deleteID
  split <;> exact Leaves.of_eq rfl rfl rfl rfl (fun _ => id)

theorem leaves_register (s : State) (k : Call) (a : Attempt) : Leaves s (s.register k a) := by
  unfold register
  split
  . exact Leaves.of_eq rfl rfl rfl rfl (fun _ => id)
  . exact Leaves.of_eq rfl rfl rfl rfl (fun _ => List.mem_append_left _)

theorem leaves_callStep {k : Call} {a : CallAction} (hcall : s.call = some k)
    (hstep : s.callStep k a = some s') : Leaves s s' := by
  unfold callStep at hstep
  split at hstep
  . unfold store at hstep
    split at hstep
    . contradiction
    . cases hstep
      exact Leaves.of_eq rfl rfl rfl rfl (fun _ => id)
  . cases hstep
    exact leaves_register s k _
  . cases hstep
    exact leaves_deleteID s _ _
  . next a ok hphase =>
    unfold publish at hstep
    split at hstep
    . split at hstep
      . contradiction
      . cases hstep
        refine ⟨rfl, rfl, rfl, .inr ⟨a, ?_, rfl⟩, fun _ => id⟩
        rw [attempt_of_call hcall, hphase]
        rfl
    . cases hstep
      exact Leaves.of_eq rfl rfl rfl rfl (fun _ => id)
  . cases hstep
    exact Leaves.of_eq rfl rfl rfl rfl (fun _ => List.mem_append_left _)
  . unfold wait at hstep
    split at hstep
    . contradiction
    . split at hstep
      . contradiction
      . split at hstep
        . cases hstep
          exact Leaves.of_eq rfl rfl rfl rfl (fun _ => id)
        . cases hstep
          exact Leaves.of_eq rfl rfl rfl rfl (fun _ => List.mem_append_left _)
  . cases hstep
    exact leaves_deleteID s _ _
  . cases hstep
    exact Leaves.of_eq rfl rfl rfl rfl (fun _ => id)
  . contradiction

theorem leaves_acquire {batch : Bool} {encoded : List MessageID}
    (hstep : s.acquire batch encoded = some s') : Leaves s s' := by
  unfold acquire at hstep
  split at hstep
  . contradiction
  . cases hstep
    exact Leaves.of_eq rfl rfl rfl rfl (fun _ => id)

theorem leaves_publishBatch {msgs : List Message}
    (hstep : s.publishBatch msgs = some s') : Leaves s s' := by
  grind [Leaves, Leaves.of_eq, leaves_acquire, publishBatch]

end State

namespace Wired

def Action.publisher : Action → Option Publisher.Action
  | .publishOnce messageID => some (.publishOnce messageID)
  | .publishBatch msgs => some (.publishBatch msgs)
  | .call a => some (.call a)
  | _ => none

variable {buf : Nat} {s s' : Wired buf}

theorem leaves_of_publisher {a : Action} {b : Publisher.Action} (ha : a.publisher = some b)
    {pub pub' : State} (hstep : pub.step b = some pub') : pub.Leaves pub' := by
  unfold Action.publisher at ha
  split at ha
  . rw [← some.inj ha] at hstep
    exact State.leaves_acquire hstep
  . rw [← some.inj ha] at hstep
    exact State.leaves_publishBatch hstep
  . rw [← some.inj ha] at hstep
    simp only [State.step] at hstep
    split at hstep
    . contradiction
    . next hcall => exact State.leaves_callStep hcall hstep
  . contradiction

inductive Move (s : Wired buf) : Action → Wired buf → Prop where
  | publisher {a : Action} {b : Publisher.Action} {pub : State} (ha : a.publisher = some b)
      (hstep : s.pub.step b = some pub)
    : Move s a { s with pub }
  | brokerReturn {tag : Nat} {replyCode : UInt16} {p : Publishing}
      (hp : s.pub.broker tag = some p) (hmandatory : s.pub.mandatory = true)
      (hreturned : p.returned = none)
    : Move s (.brokerReturn tag replyCode)
        (s.answer tag { p with returned := some replyCode }
          (.ret tag p.attempt.messageID.val replyCode))
  | brokerConfirm {tag : Nat} {ack : Bool} {p : Publishing} (hp : s.pub.broker tag = some p)
      (hconfirmed : p.confirmed = none)
    : Move s (.brokerConfirm tag ack)
        (s.answer tag { p with confirmed := some ack } (.confirm tag ack))
  | read {f : Frame} {socket : List Frame} (hreader : s.reader = none)
      (hsocket : s.socket = f :: socket)
    : Move s .read { s with reader := some f, socket }
  | sendConfirm {tag : Nat} {ack : Bool} {confirmCh : Chan Confirmation buf}
      (hreader : s.reader = some (.confirm tag ack)) (hbuf : confirmCh.buf = s.confirmCh.buf ++ [⟨tag, ack⟩])
      (hclosed : confirmCh.closed = s.confirmCh.closed)
    : Move s .sendConfirm { s with confirmCh, reader := none }
  | shutdown (hreader : s.reader = none)
    : Move s .shutdown { s with
        pub := { s.pub with closed := true }
        returnCh := .closed
        confirmCh := s.confirmCh.close }
  | recvReturn {tag : Nat} {messageID : String} {replyCode : UInt16}
      (hreader : s.reader = some (.ret tag messageID replyCode))
      (hdemux : s.pub.demux = .selecting) (hhand : s.hand = none)
    : Move s .recvReturn { s with reader := none, hand := some (.ret tag messageID replyCode) }
  | recvReturnClosed
    : Move s .recvReturnClosed { s with returnCh := .nil }
  | recvConfirm {c : Confirmation} {confirmCh : Chan Confirmation buf}
      (hbuf : s.confirmCh.buf = c :: confirmCh.buf) (hclosed : confirmCh.closed = s.confirmCh.closed)
      (hdemux : s.pub.demux = .selecting) (hhand : s.hand = none)
    : Move s .recvConfirm { s with confirmCh, hand := some (.confirm c.deliveryTag c.ack) }
  | recvConfirmClosed (hbuf : s.confirmCh.buf = []) (hclosed : s.confirmCh.closed = true)
      (hdemux : s.pub.demux = .selecting) (hhand : s.hand = none)
    : Move s .recvConfirmClosed { s with
        pub := { s.pub with
          confirms := { s.pub.confirms with tracker := s.pub.confirms.tracker.closeAll }
          demux := .exited }
        log := s.log ++ [.closeAll] }
  | unknown {tag : Nat} {messageID : String} {replyCode : UInt16}
      (hhand : s.hand = some (.ret tag messageID replyCode))
      (hmap : messageID ≠ "" → s.pub.returnTagMap messageID = none)
    : Move s .lookUp { s with hand := none }
  | lookUp {tag t : Nat} {messageID : String} {replyCode : UInt16}
      (hhand : s.hand = some (.ret tag messageID replyCode)) (hne : messageID ≠ "")
      (hmap : s.pub.returnTagMap messageID = some t)
    : Move s .lookUp { s with
        pub := { s.pub with
          returnTagMap := Function.update s.pub.returnTagMap messageID none
          demux := .marking t replyCode }
        hand := none
        called := false }
  | callOnReturn {t : Nat} {replyCode : UInt16} (hdemux : s.pub.demux = .marking t replyCode)
    : Move s .callOnReturn { s with
        called := true
        log := if s.onReturn then s.log ++ [.onReturn t replyCode] else s.log }
  | markReturned {t : Nat} {replyCode : UInt16} (hdemux : s.pub.demux = .marking t replyCode)
      (hcalled : s.called = true)
    : Move s .markReturned { s with
        pub := { s.pub with
          confirms := { s.pub.confirms with
            tracker := s.pub.confirms.tracker.markReturned t replyCode }
          demux := .selecting }
        log := s.log ++ [.markReturned t replyCode] }
  | resolve {tag : Nat} {ack : Bool} (hhand : s.hand = some (.confirm tag ack))
    : Move s .resolve { s with
        pub := { s.pub with
          confirms := { s.pub.confirms with
            tracker := if ack then s.pub.confirms.tracker.ack tag false
              else s.pub.confirms.tracker.nack tag false } }
        hand := none
        log := s.log ++ [.confirm tag ack] }

theorem step_move {a : Action} (hstep : s.step a = some s') : Move s a s' := by
  cases a with
  | publishOnce | publishBatch | call =>
    have ⟨pub, hpub, hs'⟩ := map_eq_some_iff.mp hstep
    rw [← hs']
    exact .publisher rfl hpub
  | brokerReturn tag replyCode =>
    simp only [step, brokerReturn] at hstep
    split at hstep
    . contradiction
    . next p hp =>
      split at hstep
      . next h =>
        cases hstep
        exact .brokerReturn hp h.1 h.2
      . contradiction
  | brokerConfirm tag ack =>
    simp only [step, brokerConfirm] at hstep
    split at hstep
    . contradiction
    . next p hp =>
      split at hstep
      . next h =>
        cases hstep
        exact .brokerConfirm hp h
      . contradiction
  | read =>
    simp only [step, read] at hstep
    split at hstep
    . next hreader hsocket =>
      split at hstep
      . contradiction
      . cases hstep
        exact .read hreader hsocket
    . contradiction
  | sendConfirm =>
    simp only [step, sendConfirm] at hstep
    split at hstep
    . next hreader =>
      have ⟨confirmCh, hsend, hs'⟩ := map_eq_some_iff.mp hstep
      have hsend := Chan.trySend_eq_some_iff.mp hsend
      rw [← hs']
      exact .sendConfirm hreader hsend.2.2.1 hsend.2.2.2
    . contradiction
  | shutdown =>
    simp only [step, shutdown] at hstep
    split at hstep
    . next h =>
      cases hstep
      exact .shutdown h.1
    . contradiction
  | recvReturn =>
    simp only [step, recvReturn] at hstep
    split at hstep
    . next hreader =>
      split at hstep
      . next h =>
        cases hstep
        have hselecting := of_decide_eq_true h.1
        exact .recvReturn hreader hselecting.1 hselecting.2
      . contradiction
    . contradiction
  | recvReturnClosed =>
    simp only [step, recvReturnClosed] at hstep
    split at hstep
    . cases hstep
      exact .recvReturnClosed
    . contradiction
  | recvConfirm =>
    simp only [step, recvConfirm] at hstep
    split at hstep
    . next h =>
      have hselecting := of_decide_eq_true h
      split at hstep
      . next hrecv =>
        cases hstep
        have hrecv := Chan.recv_eq_some_some_iff.mp hrecv
        exact .recvConfirm hrecv.1 hrecv.2 hselecting.1 hselecting.2
      . contradiction
    . contradiction
  | recvConfirmClosed =>
    simp only [step, recvConfirmClosed] at hstep
    split at hstep
    . next h =>
      have hselecting := of_decide_eq_true h
      split at hstep
      . next hrecv =>
        cases hstep
        have hrecv := Chan.recv_eq_some_none_iff.mp hrecv
        exact .recvConfirmClosed hrecv.1 hrecv.2.1 hselecting.1 hselecting.2
      . contradiction
    . contradiction
  | lookUp =>
    simp only [step, lookUp] at hstep
    split at hstep
    . next hhand =>
      split at hstep
      . next hne =>
        split at hstep
        . next hmap =>
          cases hstep
          exact .unknown hhand (fun _ => hmap)
        . next hmap =>
          cases hstep
          exact .lookUp hhand hne hmap
      . next hne =>
        cases hstep
        exact .unknown hhand (fun h => absurd h hne)
    . contradiction
  | callOnReturn =>
    simp only [step, callOnReturn] at hstep
    split at hstep
    . next hdemux _ =>
      cases hstep
      exact .callOnReturn hdemux
    . contradiction
  | markReturned =>
    simp only [step, markReturned] at hstep
    split at hstep
    . next hdemux hcalled =>
      cases hstep
      exact .markReturned hdemux hcalled
    . contradiction
  | resolve =>
    simp only [step, resolve] at hstep
    split at hstep
    . next hhand =>
      cases hstep
      exact .resolve hhand
    . contradiction

end Wired
end Publisher
