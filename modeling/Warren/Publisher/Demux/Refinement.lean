import Warren.Publisher.Demux.Moves
import Warren.Publisher.Demux.Pipe

/-!
With the frames on their way, the channel takes the steps of `Publisher.State`, seen from the
goroutine of `startConfirmDemux`.
-/

namespace Publisher

open Function Option
namespace State

theorem store_seen (s : State) (frames : List Frame) (k : Call)
    : (s.seen frames).store k = (s.store k).map (·.seen frames) := by
  unfold store
  split <;> rfl

theorem register_seen (s : State) (frames : List Frame) (k : Call) (a : Attempt)
    : (s.seen frames).register k a = (s.register k a).seen frames := by
  unfold register
  dsimp only [State.seen]
  split <;> rfl

theorem deleteID_seen (s : State) (frames : List Frame) (messageID : MessageID)
    : (s.seen frames).deleteID messageID = (s.deleteID messageID).seen frames := by
  cases hmandatory : s.mandatory <;> simp [deleteID, State.seen, hmandatory]

theorem sent_seen (s : State) (frames : List Frame) (k : Call) (a : Attempt)
    : (s.seen frames).sent k a = (s.sent k a).seen frames := by
  have hbroker (tag : Nat)
      : update (fun tag => (s.broker tag).map (Publishing.seen frames tag)) a.deliveryTag
          (some ⟨a, none, none⟩) tag =
        (update s.broker a.deliveryTag (some ⟨a, none, none⟩) tag).map
          (Publishing.seen frames tag) := by
    rw [update_apply, update_apply]
    split
    . simp [Publishing.seen]
    . rfl
  simp only [State.sent, State.seen]
  congr 1
  funext tag
  exact hbroker tag

theorem publish_seen (s : State) (frames : List Frame) (k : Call) (a : Attempt) (ok : Bool)
    : (s.seen frames).publish k a ok = (s.publish k a ok).map (·.seen frames) := by
  unfold publish
  rw [sent_seen]
  split
  . split
    . next hclosed => simp [show s.closed = true from hclosed]
    . next hclosed => simp [show ¬s.closed = true from hclosed]
  . rfl

theorem wait_seen (s : State) (frames : List Frame) (k : Call) (w : WaitStep)
    : (s.seen frames).wait k w = (s.wait k w).map (·.seen frames) := by
  unfold wait
  split
  . rfl
  . next a published =>
    dsimp only [State.seen]
    split
    . rfl
    . split <;> rfl

theorem callStep_seen (s : State) (frames : List Frame) (k : Call) (a : CallAction)
    : (s.seen frames).callStep k a = (s.callStep k a).map (·.seen frames) := by
  unfold callStep
  split
  . exact store_seen s frames k
  . rw [register_seen]
    rfl
  . rw [deleteID_seen]
    rfl
  . exact publish_seen s frames k _ _
  . rfl
  . exact wait_seen s frames k _
  . rw [deleteID_seen]
    rfl
  . rfl
  . rfl

theorem acquire_seen (s : State) (frames : List Frame) (batch : Bool) (encoded : List MessageID)
    : (s.seen frames).acquire batch encoded = (s.acquire batch encoded).map (·.seen frames) := by
  unfold acquire
  dsimp only [State.seen]
  split <;> rfl

theorem publishBatch_seen (s : State) (frames : List Frame) (msgs : List Message)
    : (s.seen frames).publishBatch msgs = (s.publishBatch msgs).map (·.seen frames) := by
  unfold publishBatch
  split
  . rfl
  . have hsize : (s.seen frames).maxSize = s.maxSize := rfl
    have hmandatory : (s.seen frames).mandatory = s.mandatory := rfl
    rw [hsize, hmandatory]
    split
    . rfl
    . split
      . rfl
      . split
        . rfl
        . exact acquire_seen s frames true _

variable {s : State} {frames : List Frame} {tag : Nat} {messageID : String} {replyCode : UInt16}

theorem messageID_ne_empty {broker : Nat → Option Publishing}
    (h : Pipe broker (.ret tag messageID replyCode :: frames)) : messageID ≠ "" := by
  have ⟨p, _, _, hid, _⟩ := h.ret tag messageID replyCode (by simp)
  rw [hid]
  exact p.attempt.messageID.ne_empty

theorem seen_of_ret (h : Pipe s.broker (.ret tag messageID replyCode :: frames))
    : ∃ p, (s.seen (.ret tag messageID replyCode :: frames)).broker tag = some p ∧
        p.answered = false ∧ p.attempt.messageID.val = messageID ∧
        (s.seen frames).broker =
          update (s.seen (.ret tag messageID replyCode :: frames)).broker tag
            (some { p with returned := some replyCode }) := by
  have ⟨p, hp, _, hid, hconfirm⟩ := h.ret tag messageID replyCode (by simp)
  refine ⟨p.seen (.ret tag messageID replyCode :: frames) tag, ?_, ?_, hid.symm, ?_⟩
  . simp [State.seen, hp]
  . cases hconfirmed : p.confirmed with
    | none => simp [Publishing.answered, Publishing.seen, Frame.isRet, hconfirmed]
    | some ack =>
      have hany := hconfirm (by simp [hconfirmed])
      simp [Publishing.answered, Publishing.seen, Frame.isRet, hany]
  . rw [← seen_ret h hp]
    apply seen_tail hp
    intro t ht
    simp [Frame.isRet, Frame.isConfirm, Ne.symm ht]

theorem seen_of_confirm {ack : Bool} (h : Pipe s.broker (.confirm tag ack :: frames))
    : ∃ p, (s.seen (.confirm tag ack :: frames)).broker tag = some p ∧ p.confirmed = none ∧
        (s.seen frames).broker =
          update (s.seen (.confirm tag ack :: frames)).broker tag
            (some { p with confirmed := some ack }) := by
  have ⟨p, hp, _⟩ := h.confirm tag ack (by simp)
  refine ⟨p.seen (.confirm tag ack :: frames) tag, ?_, ?_, ?_⟩
  . simp [State.seen, hp]
  . simp [Publishing.seen, Frame.isConfirm]
  . rw [← seen_confirm h hp]
    apply seen_tail hp
    intro t ht
    simp [Frame.isRet, Frame.isConfirm, Ne.symm ht]

theorem demuxReturn_seen (h : Pipe s.broker (.ret tag messageID replyCode :: frames))
    (hmandatory : s.mandatory = true)
    : (s.seen (.ret tag messageID replyCode :: frames)).demuxReturn tag replyCode =
        match s.returnTagMap messageID with
        | none => some (s.seen frames)
        | some t =>
          some (State.seen { s with
            returnTagMap := update s.returnTagMap messageID none
            demux := .marking t replyCode } frames) := by
  have ⟨p, hseen, hanswered, hid, hbroker⟩ := seen_of_ret h
  have hmandatory : (s.seen (.ret tag messageID replyCode :: frames)).mandatory = true := hmandatory
  have hne := messageID_ne_empty h
  unfold demuxReturn
  rw [hseen]
  dsimp only
  rw [if_neg (by simp [hmandatory, hanswered]), ← hbroker, hid, if_pos hne]
  cases hmap : s.returnTagMap messageID <;> simp [State.seen, hmap]

theorem demuxConfirm_seen {ack : Bool} (h : Pipe s.broker (.confirm tag ack :: frames))
    : (s.seen (.confirm tag ack :: frames)).demuxConfirm tag ack =
        some (State.seen { s with
          confirms := { s.confirms with
            tracker := if ack then s.confirms.tracker.ack tag false
              else s.confirms.tracker.nack tag false } } frames) := by
  have ⟨p, hseen, hconfirmed, hbroker⟩ := seen_of_confirm h
  unfold demuxConfirm
  rw [hseen]
  dsimp only
  rw [hconfirmed, if_neg (by simp), ← hbroker]
  rfl

end State

namespace Wired

variable {buf : Nat} {s s' : Wired buf}

variable {a : Action}

theorem step_seen_of_publisher {b : Publisher.Action} (ha : a.publisher = some b) {pub pub' : State}
    (hstep : pub.step b = some pub') (frames : List Frame)
    : (pub.seen frames).step b = some (pub'.seen frames) := by
  unfold Action.publisher at ha
  split at ha
  . rw [← some.inj ha] at hstep ⊢
    simp only [State.step] at hstep ⊢
    rw [State.acquire_seen, hstep]
    rfl
  . rw [← some.inj ha] at hstep ⊢
    simp only [State.step] at hstep ⊢
    rw [State.publishBatch_seen, hstep]
    rfl
  . rw [← some.inj ha] at hstep ⊢
    simp only [State.step] at hstep ⊢
    split at hstep
    . contradiction
    . next k hcall =>
      have hcall : (pub.seen frames).call = some k := hcall
      rw [hcall]
      dsimp only
      rw [State.callStep_seen, hstep]
      rfl
  . contradiction

def pipe (s : Wired buf) : List Frame :=
  s.hand.toList ++ (s.confirmCh.buf.map (fun c => Frame.confirm c.deliveryTag c.ack) ++
    (s.reader.toList ++ s.socket))

def seen (s : Wired buf) : State := s.pub.seen s.pipe

def channelActions (s : Wired buf) (a : Action) : List Publisher.Action :=
  match a, s.hand with
  | .shutdown, _ => [.close]
  | .recvConfirmClosed, _ => [.demux .closeAll]
  | .lookUp, some (.ret tag _ replyCode) => [.demux (.ret tag replyCode)]
  | .markReturned, _ => [.demux .markReturned]
  | .resolve, some (.confirm tag ack) => [.demux (.confirm tag ack)]
  | a, _ => a.publisher.toList

-- the broker returns a message before it confirms it, and the MessageIDs in flight are distinct
def Orderly (s : Wired buf) : Action → Prop
  | .brokerReturn tag _ => ∀ p ∈ s.pub.broker tag, p.confirmed = none
  | .call .store => s.seen.FreshID (.call .store)
  | _ => True

instance (s : Wired buf) (a : Action) : Decidable (s.Orderly a) := by
  unfold Orderly
  split <;> infer_instance

structure Wf (s : Wired buf) : Prop where
  pipe : Pipe s.pub.broker s.pipe
  mandatory : ∀ tag messageID replyCode, .ret tag messageID replyCode ∈ s.pipe →
    s.pub.mandatory = true
  hand : s.hand ≠ none → s.pub.demux = .selecting
  closed : s.confirmCh.closed = true → s.pub.closed = true

theorem Wf.init (mandatory onReturn : Bool) (confirmTimeout publishBatchMaxSize : Int)
    : (init mandatory onReturn confirmTimeout publishBatchMaxSize : Wired buf).Wf := by
  constructor
  . exact Pipe.nil _
  all_goals simp [Wired.init, Wired.pipe]

theorem Wf.frame (h : s.Wf) (hbroker : s'.pub.broker = s.pub.broker)
    (hmandatory : s'.pub.mandatory = s.pub.mandatory) (hpipe : s'.pipe = s.pipe)
    (hhand : s'.hand ≠ none → s'.pub.demux = .selecting)
    (hclosed : s'.confirmCh.closed = true → s'.pub.closed = true) : s'.Wf := by
  refine ⟨?_, ?_, hhand, hclosed⟩
  . rw [hbroker, hpipe]
    exact h.pipe
  . rw [hpipe, hmandatory]
    exact h.mandatory

theorem wf_publisher (h : s.Wf) (ho : s.seen.Orderly) {pub : State} (hleaves : s.pub.Leaves pub)
    : Wf { s with pub } := by
  have hpipe : Pipe pub.broker s.pipe := by
    cases hleaves.broker with
    | inl hbroker =>
      rw [hbroker]
      exact h.pipe
    | inr hsent =>
      have ⟨a, ha, hbroker⟩ := hsent
      have hunsent : s.pub.broker a.deliveryTag = none := by
        simpa [Wired.seen, State.seen] using ho.unsent_attempt (a := a) ha
      rw [hbroker]
      exact h.pipe.sent hunsent _
  refine ⟨hpipe, ?_, ?_, ?_⟩
  . intro tag messageID replyCode hmem
    exact hleaves.mandatory.trans (h.mandatory tag messageID replyCode hmem)
  . intro hhand
    exact hleaves.demux.trans (h.hand hhand)
  . intro hclosed
    exact hleaves.closed.trans (h.closed hclosed)

theorem pipe_answer (s : Wired buf) (tag : Nat) (p : Publishing) (f : Frame)
    : (s.answer tag p f).pipe = s.pipe ++ [f] := by
  simp [Wired.pipe, answer]

theorem pipe_of_hand {f : Frame} (hhand : s.hand = some f)
    : s.pipe = f :: Wired.pipe { s with hand := none } := by
  simp [Wired.pipe, hhand]

theorem Wf.tail (h : s.Wf) {f : Frame} (hhand : s.hand = some f)
    (hbroker : s'.pub.broker = s.pub.broker) (hmandatory : s'.pub.mandatory = s.pub.mandatory)
    (hpipe : s'.pipe = Wired.pipe { s with hand := none }) (hhand' : s'.hand = none)
    (hclosed : s'.confirmCh.closed = true → s'.pub.closed = true) : s'.Wf := by
  have hsplit := pipe_of_hand hhand
  refine ⟨?_, ?_, fun hne => absurd hhand' hne, hclosed⟩
  . rw [hbroker, hpipe]
    exact (hsplit ▸ h.pipe).tail
  . rw [hpipe, hmandatory]
    intro tag messageID replyCode hmem
    exact h.mandatory tag messageID replyCode (by simp [hsplit, hmem])

theorem wf_step (h : s.Wf) (ho : s.seen.Orderly) (ha : s.Orderly a) (hstep : s.step a = some s')
    : s'.Wf := by
  cases step_move hstep with
  | publisher ha hpub => exact wf_publisher h ho (leaves_of_publisher ha hpub)
  | brokerReturn hp hmandatory hreturned =>
    refine ⟨?_, fun _ _ _ _ => hmandatory, h.hand, h.closed⟩
    rw [pipe_answer]
    exact h.pipe.brokerReturn hp hreturned (ha _ hp) _
  | brokerConfirm hp hconfirmed =>
    refine ⟨?_, ?_, h.hand, h.closed⟩
    . rw [pipe_answer]
      exact h.pipe.brokerConfirm hp hconfirmed _
    . rw [pipe_answer]
      intro tag messageID replyCode hmem
      exact h.mandatory tag messageID replyCode (by simpa using hmem)
  | read hreader hsocket =>
    refine h.frame rfl rfl ?_ h.hand h.closed
    simp [Wired.pipe, hreader, hsocket]
  | sendConfirm hreader hbuf hclosed =>
    refine h.frame rfl rfl ?_ h.hand (fun hc => h.closed (hclosed ▸ hc))
    simp [Wired.pipe, hreader, hbuf]
  | shutdown hreader => exact h.frame rfl rfl rfl h.hand (fun _ => rfl)
  | @recvReturn tag messageID replyCode hreader hdemux hhand =>
    have hsplit : s.pipe = s.confirmCh.buf.map (fun c => Frame.confirm c.deliveryTag c.ack) ++
        .ret tag messageID replyCode :: s.socket := by
      simp [Wired.pipe, hreader, hhand]
    have hpass : Wired.pipe { s with reader := none, hand := some (.ret tag messageID replyCode) } =
        .ret tag messageID replyCode ::
          (s.confirmCh.buf.map (fun c => Frame.confirm c.deliveryTag c.ack) ++ s.socket) := by
      simp [Wired.pipe]
    refine ⟨?_, ?_, fun _ => hdemux, h.closed⟩
    . rw [hpass]
      apply Pipe.pass (hsplit ▸ h.pipe)
      intro f hf t
      have ⟨c, _, hc⟩ := List.mem_map.mp hf
      rw [← hc]
      rfl
    . rw [hpass]
      intro t id code hmem
      apply h.mandatory t id code
      rw [hsplit]
      simpa [or_left_comm] using hmem
  | recvReturnClosed | callOnReturn hdemux => exact h.frame rfl rfl rfl h.hand h.closed
  | recvConfirm hbuf hclosed hdemux hhand =>
    refine h.frame rfl rfl ?_ (fun _ => hdemux) (fun hc => h.closed (hclosed ▸ hc))
    simp [Wired.pipe, hbuf, hhand]
  | recvConfirmClosed hbuf hclosed hdemux hhand =>
    exact h.frame rfl rfl rfl (fun hne => absurd hhand hne) h.closed
  | unknown hhand | lookUp hhand | resolve hhand => exact h.tail hhand rfl rfl rfl rfl h.closed
  | markReturned hdemux => exact h.frame rfl rfl rfl (fun _ => rfl) h.closed

theorem channelActions_of_publisher {b : Publisher.Action} (ha : a.publisher = some b)
    : s.channelActions a = [b] := by
  cases a with
  | publishOnce | publishBatch | call => simp [channelActions, ha]
  | _ => contradiction

theorem demux_ret_step (h : s.Wf) {tag : Nat} {messageID : String} {replyCode : UInt16}
    (hhand : s.hand = some (.ret tag messageID replyCode))
    : s.seen.step (.demux (.ret tag replyCode)) =
        match s.pub.returnTagMap messageID with
        | none => some (s.pub.seen (Wired.pipe { s with hand := none }))
        | some t =>
          some (State.seen { s.pub with
            returnTagMap := update s.pub.returnTagMap messageID none
            demux := .marking t replyCode } (Wired.pipe { s with hand := none })) := by
  have hpipe := pipe_of_hand hhand
  have hdemux : s.seen.demux = .selecting := h.hand (by simp [hhand])
  have hmandatory := h.mandatory tag messageID replyCode (by simp [hpipe])
  simp only [State.step, State.demuxStep, hdemux]
  simp only [Wired.seen, hpipe]
  exact State.demuxReturn_seen (hpipe ▸ h.pipe) hmandatory

theorem seen_step (h : s.Wf) (hstep : s.step a = some s')
    : Run.run State.step s.seen (s.channelActions a) = some s'.seen := by
  cases step_move hstep with
  | publisher ha hpub =>
    rw [channelActions_of_publisher ha]
    exact Run.run_singleton_of_step (step_seen_of_publisher ha hpub s.pipe)
  | brokerReturn hp hmandatory hreturned =>
    have hseen := seen_brokerReturn s.pipe hp hreturned
    simp only [channelActions, Action.publisher, toList_none, Run.run_nil, Wired.seen,
      pipe_answer]
    rw [← hseen]
    rfl
  | brokerConfirm hp hconfirmed =>
    have hseen := seen_brokerConfirm s.pipe hp hconfirmed
    simp only [channelActions, Action.publisher, toList_none, Run.run_nil, Wired.seen,
      pipe_answer]
    rw [← hseen]
    rfl
  | read hreader hsocket => simp [channelActions, Action.publisher, Wired.seen, Wired.pipe, hreader, hsocket]
  | sendConfirm hreader hbuf => simp [channelActions, Action.publisher, Wired.seen, Wired.pipe, hreader, hbuf]
  | shutdown hreader => exact Run.run_singleton_of_step rfl
  | @recvReturn tag messageID replyCode hreader hdemux hhand =>
    simp only [channelActions, Action.publisher, toList_none, Run.run_nil, some.injEq]
    apply seen_perm
    simp only [Wired.pipe, hreader, hhand, toList_none, toList_some, List.nil_append,
      List.singleton_append]
    exact List.perm_middle
  | recvReturnClosed => rfl
  | recvConfirm hbuf hclosed hdemux hhand =>
    simp [channelActions, Action.publisher, Wired.seen, Wired.pipe, hbuf, hhand]
  | recvConfirmClosed hbuf hclosed hdemux hhand =>
    apply Run.run_singleton_of_step
    have hdemux : s.seen.demux = .selecting := hdemux
    have hclosed : s.seen.closed = true := h.closed hclosed
    simp only [State.step, State.demuxStep, hdemux]
    rw [if_pos hclosed]
    rfl
  | @unknown tag messageID replyCode hhand hmap =>
    have hpipe := pipe_of_hand hhand
    have hne := State.messageID_ne_empty (hpipe ▸ h.pipe)
    simp only [channelActions, hhand]
    apply Run.run_singleton_of_step
    rw [demux_ret_step h hhand, hmap hne]
    rfl
  | @lookUp tag t messageID replyCode hhand hne hmap =>
    simp only [channelActions, hhand]
    apply Run.run_singleton_of_step
    rw [demux_ret_step h hhand, hmap]
    rfl
  | callOnReturn => rfl
  | @markReturned t replyCode hdemux =>
    apply Run.run_singleton_of_step
    have hdemux : s.seen.demux = .marking t replyCode := hdemux
    simp only [State.step, State.demuxStep, hdemux]
    rfl
  | @resolve tag ack hhand =>
    have hpipe := pipe_of_hand hhand
    have hdemux : s.seen.demux = .selecting := h.hand (by simp [hhand])
    simp only [channelActions, hhand]
    apply Run.run_singleton_of_step
    simp only [State.step, State.demuxStep, hdemux]
    simp only [Wired.seen, hpipe]
    exact State.demuxConfirm_seen (hpipe ▸ h.pipe)

end Wired
end Publisher
