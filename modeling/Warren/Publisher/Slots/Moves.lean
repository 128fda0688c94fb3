import Warren.Publisher.Slots.Impl

namespace Slots

open Errors (Err LibErr CtxErr)
open Publisher (MessageID WaitStep Demux)

namespace State

inductive CallMove (s : State) (k : Call) : State → Prop where
  | skip (err : Err) (hphase : k.phase = .looping)
    (hget : k.encoded[k.index]? = some (.error err))
    : CallMove s k { s with call := some k.advance }
  | looped (hphase : k.phase = .looping) (hget : k.encoded[k.index]? = none)
    : CallMove s k { s with call := some { k with phase := .waiting k.published } }
  | store (messageID : MessageID) (hphase : k.phase = .looping)
    (hget : k.encoded[k.index]? = some (.ok messageID))
    : CallMove s k
        { s.store messageID s.nextPublishSeqNo with
          call := some { k with phase := .registering messageID s.nextPublishSeqNo } }
  | registered (messageID : MessageID) (tag : Nat) (hphase : k.phase = .registering messageID tag)
    (hopen : s.confirms.tracker.closed = false)
    : CallMove s k
        { s with
          confirms := { s.confirms with tracker := (s.confirms.tracker.register tag).1 }
          call := some { k.record (.register k.index tag none) with phase := .publishing tag } }
  | refused (messageID : MessageID) (tag : Nat) (hphase : k.phase = .registering messageID tag)
    : CallMove s k
        { s with
          call := some { k.record (.register k.index tag (some .closed)) with
            phase := .deregistering messageID .closed } }
  | deregister (messageID : MessageID) (err : Confirms.Err)
    (hphase : k.phase = .deregistering messageID err)
    : CallMove s k (s.deregister k messageID err)
  | published (tag : Nat) (hphase : k.phase = .publishing tag)
    : CallMove s k (s.publish k tag none)
  | unpublished (tag : Nat) (err : LibErr) (hphase : k.phase = .publishing tag)
    : CallMove s k (s.publish k tag (some err))
  | cancel (tag : Nat) (err : LibErr) (hphase : k.phase = .cancelling tag err)
    : CallMove s k (s.cancel k tag err)
  | wait (tag idx : Nat) (todo : List (Nat × Nat)) (w : WaitStep) (confirms : Confirms.State)
    (hphase : k.phase = .waiting ((tag, idx) :: todo))
    (hstep : s.confirms.step (w.action tag s.confirmTimeout) = some confirms)
    (hresults : confirms.results.drop s.confirms.results.length = [])
    : CallMove s k { s with confirms }
  | waitEnd (tag idx : Nat) (todo : List (Nat × Nat)) (w : WaitStep) (confirms : Confirms.State)
    (x : Nat) (err : Option Confirms.Err) (rest : List (Nat × Option Confirms.Err))
    (hphase : k.phase = .waiting ((tag, idx) :: todo))
    (hstep : s.confirms.step (w.action tag s.confirmTimeout) = some confirms)
    (hresults : confirms.results.drop s.confirms.results.length = (x, err) :: rest)
    : CallMove s k { s with confirms, call := some (k.waitResult tag idx todo err) }
  | waited (hphase : k.phase = .waiting [])
    : CallMove s k
        { s with
          call := some { k with
            phase := .cleaning (if s.mandatory then k.encoded.filterMap encodedID else []) } }
  | clean (messageID : MessageID) (messageIDs : List MessageID)
    (hphase : k.phase = .cleaning (messageID :: messageIDs))
    : CallMove s k
        { s.delete messageID.val with call := some { k with phase := .cleaning messageIDs } }
  | ret (hphase : k.phase = .cleaning [])
    : CallMove s k { s with call := some { k with phase := .returned (partialBatch k.results) } }
  | release (err : Option Err) (hphase : k.phase = .returned err)
    : CallMove s k { s with call := none }

inductive Move (s : State) : State → Prop where
  | start (encoded : List (Except Err MessageID)) (ctxErr : CtxErr) (hcall : s.call = none)
    : Move s { s with call := some (.start encoded ctxErr) }
  | call (k : Call) (s' : State) (hcall : s.call = some k) (hmove : s.CallMove k s') : Move s s'
  | frame (f : Frame) (confirms : Confirms.State) (demux : Demux)
    (hstep : s.confirms.step f.action = some confirms)
    : Move s { s with confirms, demux, call := s.call.map (·.record (.frame f)) }
  | loadAndDelete (messageID : String) (demux : Demux)
    : Move s { s.delete messageID with demux }

variable {s s' : State} {k : Call}

theorem next_move (hphase : k.phase = .looping) : s.CallMove k (s.next k) := by
  unfold next
  split
  . next hget => exact .looped hphase hget
  . next err hget => exact .skip err hphase hget
  . next messageID hget => exact .store messageID hphase hget

theorem register_move {messageID : MessageID} {tag : Nat}
    (hphase : k.phase = .registering messageID tag) : s.CallMove k (s.register k messageID tag) := by
  cases hclosed : s.confirms.tracker.closed with
  | true =>
    have heq : s.register k messageID tag =
        { s with
          call := some { k.record (.register k.index tag (some .closed)) with
            phase := .deregistering messageID .closed } } := by
      simp [register, Confirms.Tracker.register, hclosed]
    rw [heq]
    exact .refused messageID tag hphase
  | false =>
    have heq : s.register k messageID tag =
        { s with
          confirms := { s.confirms with tracker := (s.confirms.tracker.register tag).1 }
          call := some { k.record (.register k.index tag none) with phase := .publishing tag } } := by
      simp [register, Confirms.Tracker.register, hclosed]
    rw [heq]
    exact .registered messageID tag hphase hclosed

theorem callStep_move {a : CallAction} (hstep : s.callStep k a = some s') : s.CallMove k s' := by
  unfold callStep at hstep
  split at hstep
  . next hphase =>
    cases hstep
    exact next_move hphase
  . next messageID tag hphase =>
    cases hstep
    exact register_move hphase
  . next messageID err hphase =>
    cases hstep
    exact .deregister messageID err hphase
  . next tag err hphase =>
    cases hstep
    cases err with
    | none => exact .published tag hphase
    | some err => exact .unpublished tag err hphase
  . next tag err hphase =>
    cases hstep
    exact .cancel tag err hphase
  . next tag idx todo w hphase =>
    unfold wait at hstep
    split at hstep
    . contradiction
    . next confirms hconfirms =>
      split at hstep
      . next hresults =>
        cases hstep
        exact .wait tag idx todo w confirms hphase hconfirms hresults
      . next x err rest hresults =>
        cases hstep
        exact .waitEnd tag idx todo w confirms x err rest hphase hconfirms hresults
  . next hphase =>
    cases hstep
    exact .waited hphase
  . next messageID messageIDs hphase =>
    cases hstep
    exact .clean messageID messageIDs hphase
  . next hphase =>
    cases hstep
    exact .ret hphase
  . next err hphase =>
    cases hstep
    exact .release err hphase
  . contradiction

theorem step_move {a : Action} (hstep : s.step a = some s') : s.Move s' := by
  cases a with
  | start encoded ctxErr =>
    simp only [step, start] at hstep
    split at hstep
    . contradiction
    . next hcall =>
      split at hstep
      . contradiction
      . cases hstep
        exact .start encoded ctxErr hcall
  | call a =>
    have ⟨k, hcall, hstep⟩ := Option.bind_eq_some_iff.mp hstep
    exact .call k s' hcall (callStep_move hstep)
  | frame f =>
    have ⟨demux, _, hstep⟩ := Option.bind_eq_some_iff.mp hstep
    have ⟨confirms, hconfirms, heq⟩ := Option.map_eq_some_iff.mp hstep
    rw [← heq]
    exact .frame f confirms demux hconfirms
  | loadAndDelete messageID replyCode =>
    simp only [step, loadAndDelete] at hstep
    split at hstep
    . cases hstep
      exact .loadAndDelete messageID _
    . contradiction

end State
end Slots
