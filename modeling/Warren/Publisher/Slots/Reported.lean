import Warren.Publisher.Slots.Listed

/-!
`PublishBatch` reports what happened to each message, and leaves nothing behind in `returnTagMap`.
-/

namespace Slots

open Errors (Err LibErr CtxErr Sentinel)
open Publisher (MessageID WaitStep)
open Option

namespace Call

def undeleted (k : Call) : List MessageID :=
  match k.phase with
  | .cleaning messageIDs => messageIDs
  | .returned _ => []
  | _ => k.encoded.filterMap encodedID

end Call

namespace State

variable {s s' : State} {k : Call}

def Mapped (s : State) : Prop :=
  ∀ messageID, s.returnTagMap messageID ≠ none → s.mandatory = true ∧
    ∃ k, s.call = some k ∧ ∃ id ∈ k.undeleted, id.val = messageID

theorem Mapped.delete (h : s.Mapped) (messageID : String) : (s.delete messageID).Mapped := by
  intro id hid
  apply h id
  simp only [State.delete, Function.update_apply] at hid
  split at hid
  . contradiction
  . exact hid

theorem Mapped.set_call (h : s.Mapped) (hk : s.call = some k) {k' : Call}
    (hmap : s'.returnTagMap = s.returnTagMap) (hmandatory : s'.mandatory = s.mandatory)
    (hcall : s'.call = some k')
    (hundeleted : s.mandatory = true → ∀ id ∈ k.undeleted, id ∈ k'.undeleted) : s'.Mapped := by
  intro messageID hget
  rw [hmap] at hget
  have ⟨hon, k₀, hk₀, id, hid, hval⟩ := h messageID hget
  cases hk.symm.trans hk₀
  exact ⟨hmandatory.trans hon, k', hcall, id, hundeleted hon id hid, hval⟩

theorem mem_undeleted {k : Call} {messageID : MessageID} (hphase : k.phase = .looping)
    (hget : k.encoded[k.index]? = some (.ok messageID)) : messageID ∈ k.undeleted := by
  simp only [Call.undeleted, hphase]
  exact List.mem_filterMap.mpr ⟨_, List.mem_of_getElem? hget, rfl⟩

theorem Mapped.store (h : s.Mapped) (hk : s.call = some k) {messageID : MessageID}
    (hmem : messageID ∈ k.undeleted) (tag : Nat) : (s.store messageID tag).Mapped := by
  unfold State.store
  split
  . next hmandatory =>
    intro id hid
    simp only [Function.update_apply] at hid
    split at hid
    . next heq => exact ⟨hmandatory, k, hk, messageID, hmem, heq.symm⟩
    . exact h id hid
  . exact h

theorem CallMove.mapped (hmove : s.CallMove k s') (hk : s.call = some k) (h : s.Mapped)
    : s'.Mapped := by
  cases hmove with
  | skip err hphase hget =>
    exact h.set_call hk rfl rfl rfl (by simp [Call.undeleted, Call.advance, hphase])
  | looped hphase hget | ret hphase =>
    exact h.set_call hk rfl rfl rfl (by simp [Call.undeleted, hphase])
  | store messageID hphase hget =>
    have hstore := h.store hk (mem_undeleted hphase hget) s.nextPublishSeqNo
    have hcall : (s.store messageID s.nextPublishSeqNo).call = some k := by
      unfold State.store
      split <;> exact hk
    exact hstore.set_call hcall rfl rfl rfl (by simp [Call.undeleted, hphase])
  | deregister messageID err hphase =>
    unfold State.deregister
    split
    . exact (h.delete messageID.val).set_call hk rfl rfl rfl
        (by simp [Call.undeleted, Call.advance, Call.setErr, hphase])
    . exact h.set_call hk rfl rfl rfl
        (by simp [Call.undeleted, Call.advance, Call.setErr, hphase])
  | published tag hphase =>
    exact h.set_call hk rfl rfl rfl
      (by simp [Call.undeleted, Call.advance, Call.record, hphase])
  | cancel tag err hphase =>
    exact h.set_call hk rfl rfl rfl
      (by simp [Call.undeleted, Call.advance, Call.setErr, hphase])
  | wait tag idx todo w confirms hphase hstep hresults => exact h
  | waitEnd tag idx todo w confirms x err rest hphase hstep hresults =>
    exact h.set_call hk rfl rfl rfl
      (by simp [Call.undeleted, hphase, Call.waitResult_eq])
  | waited hphase =>
    refine h.set_call hk rfl rfl rfl ?_
    intro hmandatory
    simp [Call.undeleted, hphase, hmandatory]
  | clean messageID messageIDs hphase =>
    intro id hid
    have hne : id ≠ messageID.val := by
      intro heq
      simp [State.delete, heq] at hid
    have hget : s.returnTagMap id ≠ none := by simpa [State.delete, hne] using hid
    obtain ⟨hmandatory, k₀, hk₀, id', hmem, hval⟩ := h id hget
    cases hk.symm.trans hk₀
    simp only [Call.undeleted, hphase] at hmem
    refine ⟨hmandatory, _, rfl, id', ?_, hval⟩
    cases List.mem_cons.mp hmem with
    | inl heq => exact absurd (heq ▸ hval.symm) hne
    | inr hmem => exact hmem
  | release err hphase =>
    intro id hid
    obtain ⟨_, k₀, hk₀, id', hmem, _⟩ := h id hid
    cases hk.symm.trans hk₀
    simp [Call.undeleted, hphase] at hmem
  | _ _ _ hphase =>
    exact h.set_call hk rfl rfl rfl (by simp [Call.undeleted, Call.record, hphase])

theorem mapped_step (hmove : s.Move s') (h : s.Mapped) : s'.Mapped := by
  cases hmove with
  | start encoded ctxErr hnone =>
    intro id hid
    have ⟨_, k, hk, _⟩ := h id hid
    rw [hnone] at hk
    contradiction
  | call k s' hk hmove => exact hmove.mapped hk h
  | frame f confirms demux hstep =>
    intro id hid
    have ⟨hmandatory, k, hk, hmem⟩ := h id hid
    exact ⟨hmandatory, k.record (.frame f), by simp [hk], hmem⟩
  | loadAndDelete messageID demux => exact h.delete messageID

structure Inv (s : State) : Prop where
  ordered : ∀ k, s.call = some k → k.Ordered s.nextPublishSeqNo
  linked : ∃ σ, s.Linked σ
  slotted : ∀ k, s.call = some k → k.Slotted
  listed : ∀ k, s.call = some k → k.Listed
  mapped : s.Mapped

theorem Inv.init (mandatory : Bool) (confirmTimeout : Int)
    : (State.init mandatory confirmTimeout).Inv := by
  constructor
  . intro k hcall
    contradiction
  . exact ⟨_, Linked.init mandatory confirmTimeout⟩
  . intro k hcall
    contradiction
  . intro k hcall
    contradiction
  . intro messageID hget
    contradiction

theorem Inv.step (h : s.Inv) {a : Action} (hstep : s.step a = some s') : s'.Inv := by
  have hmove := step_move hstep
  have ⟨σ, hlinked⟩ := h.linked
  constructor
  . intro k hcall
    exact ordered_step hmove h.ordered hcall
  . exact linked_step hmove hlinked h.ordered
  . intro k hcall
    exact slotted_step hmove h.slotted h.ordered hlinked hcall
  . intro k hcall
    exact listed_step hmove h.listed (fun k hk => (h.slotted k hk).phase) hcall
  . exact mapped_step hmove h.mapped

theorem CallMove.config_eq (hmove : s.CallMove k s') (hk : s.call = some k) {k' : Call}
    (hcall : s'.call = some k') : k'.encoded = k.encoded ∧ k'.ctxErr = k.ctxErr := by
  cases hmove with
  | wait tag idx todo w confirms hphase hstep hresults =>
    cases hk.symm.trans hcall
    exact ⟨rfl, rfl⟩
  | waitEnd tag idx todo w confirms x err rest hphase hstep hresults =>
    cases hcall
    have ⟨_, _, hencoded, hctx, _⟩ := k.waitResult_eq tag idx todo err
    exact ⟨hencoded, hctx⟩
  | release err hphase => contradiction
  | _ =>
    cases hcall
    exact ⟨rfl, rfl⟩

theorem start_call {encoded : List (Except Err MessageID)} {ctxErr : CtxErr}
    (hstep : s.step (.start encoded ctxErr) = some s') : s'.call = some (.start encoded ctxErr) := by
  simp only [step, start] at hstep
  split at hstep
  . contradiction
  . split at hstep
    . contradiction
    . cases hstep
      rfl

theorem config_step {encoded : List (Except Err MessageID)} {ctxErr : CtxErr} {a : Action}
    (ha : a.isStart = false) (hstep : s.step a = some s')
    (h : ∀ k, s.call = some k → k.encoded = encoded ∧ k.ctxErr = ctxErr)
    (k' : Call) (hcall : s'.call = some k') : k'.encoded = encoded ∧ k'.ctxErr = ctxErr := by
  cases a with
  | start encoded ctxErr => contradiction
  | call a =>
    have ⟨k, hk, hstep⟩ := bind_eq_some_iff.mp hstep
    have heq := (callStep_move hstep).config_eq hk hcall
    have hconfig := h k hk
    exact ⟨heq.1.trans hconfig.1, heq.2.trans hconfig.2⟩
  | frame f =>
    have ⟨demux, _, hstep⟩ := bind_eq_some_iff.mp hstep
    have ⟨confirms, _, heq⟩ := map_eq_some_iff.mp hstep
    rw [← heq] at hcall
    have ⟨k, hk, heq⟩ := map_eq_some_iff.mp hcall
    rw [← heq]
    exact h k hk
  | loadAndDelete messageID replyCode =>
    simp only [step, loadAndDelete] at hstep
    split at hstep
    . cases hstep
      exact h k' hcall
    . contradiction

end State

theorem partialBatch_eq_none_iff (results : List (Option Err))
    : State.partialBatch results = none ↔ ∀ result ∈ results, result = none := by
  simp [State.partialBatch]

theorem partialBatch_eq_some_iff (results : List (Option Err))
    : State.partialBatch results = some Sentinel.partialBatch.err ↔ ∃ e, some e ∈ results := by
  simp [State.partialBatch, isSome_iff_exists]

namespace State

theorem reported_of_run {mandatory : Bool} {confirmTimeout : Int}
    {encoded : List (Except Err MessageID)} {ctxErr : CtxErr} {as bs : List Action}
    (hbs : ∀ a ∈ bs, a.isStart = false) {s : State}
    (hrun : Run.run step (init mandatory confirmTimeout) (as ++ .start encoded ctxErr :: bs)
      = some s)
    {k : Call} (hcall : s.call = some k) {err : Option Err} (hphase : k.phase = .returned err)
    : k.results.length = encoded.length ∧
      (∀ i result, k.results[i]? = some result → Reported ctxErr encoded k.log i result) ∧
      (∀ i, i ∈ k.log.filterMap Event.handed ↔
        (∃ messageID, encoded[i]? = some (.ok messageID)) ∧
          ∃ tag, .register i tag none ∈ k.log) ∧
      (k.log.filterMap Event.handed).Pairwise (· < ·) ∧
      (err = some Sentinel.partialBatch.err ↔ ∃ e, some e ∈ k.results) ∧
      (err = none ↔ ∀ result ∈ k.results, result = none) ∧
      ∀ messageID, s.returnTagMap messageID = none := by
  have hinv : s.Inv := Run.inv_of_steps (fun _ _ _ h => h.step) (Inv.init _ _) hrun
  have hslotted := hinv.slotted k hcall
  have hlisted := hinv.listed k hcall
  obtain ⟨hencoded, hctx⟩ : k.encoded = encoded ∧ k.ctxErr = ctxErr := by
    rw [Run.run_append] at hrun
    obtain ⟨s₁, _, hrun⟩ := bind_eq_some_iff.mp hrun
    obtain ⟨s₂, hstart, hrun⟩ := Run.exists_step_of_run_cons hrun
    have hconfig : ∀ k, s₂.call = some k → k.encoded = encoded ∧ k.ctxErr = ctxErr := by
      rw [start_call hstart]
      intro k hk
      cases hk
      exact ⟨rfl, rfl⟩
    have halong : Run.Along step (fun _ a => a.isStart = false) s₂ bs := by
      apply Run.along_of_forall_mem
      intro a ha _
      apply hbs a ha
    exact Run.inv_of_run (fun _ _ _ h ha hstep => config_step ha hstep h) hconfig halong hrun k
      hcall
  have herr : err = partialBatch k.results := by
    have hphaseInv := hslotted.phase
    rw [Call.PhaseInv, hphase] at hphaseInv
    exact hphaseInv.2
  rw [← hencoded, ← hctx, herr]
  refine ⟨hslotted.length, hslotted.reported_of_returned hphase, hlisted.mem_handed_iff hphase,
    hlisted.pairwise_handed hphase, partialBatch_eq_some_iff k.results,
    partialBatch_eq_none_iff k.results, ?_⟩
  intro messageID
  by_contra hget
  obtain ⟨_, k', hk', id, hmem, _⟩ := hinv.mapped messageID hget
  cases hcall.symm.trans hk'
  simp [Call.undeleted, hphase] at hmem

end State

/-!
Of four messages the first does not encode. The publish of the second fails, and the third is
registered under the tag that it has given back. The last one is unroutable.
-/

def Phase.result : Phase → Option (Option Err)
  | .returned err => some err
  | _ => none

theorem Phase.eq_of_result {phase : Phase} {err : Option Err} (h : phase.result = some err)
    : phase = .returned err := by
  cases phase with
  | returned err' =>
    cases h
    rfl
  | _ => contradiction

def foreignErr : LibErr := ⟨.wrap (.value (.ctx .deadlineExceeded)), by decide⟩

def mixedBatch : List (Except Err MessageID) :=
  [.error Sentinel.invalidMessage.err, .ok ⟨"a", by decide⟩, .ok ⟨"b", by decide⟩,
    .ok ⟨"c", by decide⟩]

def mixedRun : List Action :=
  [.call .next,
    .call .next, .call .register, .call (.publish (some foreignErr)), .call .cancel,
    .call .next, .call .register, .call (.publish none),
    .call .next, .call .register, .call (.publish none),
    .call .next, .loadAndDelete "c" 312, .frame (.markReturned 2 312), .frame (.ack 2 true),
    .call (.wait .begin), .call (.wait .done), .call (.wait .delete),
    .call (.wait .begin), .call (.wait .done), .call (.wait .delete),
    .call .waited, .call .clean, .call .clean, .call .clean, .call .ret]

namespace State

theorem reported_of_run_mixedRun
    : ∃ s k, Run.run step (init true 0) (.start mixedBatch .canceled :: mixedRun) = some s ∧
        s.call = some k ∧ k.phase = .returned (some Sentinel.partialBatch.err) ∧
        k.results = [some Sentinel.invalidMessage.err, some (Errors.wrapAMQPError foreignErr.err),
          none, some (Errors.wrapCode 312 Sentinel.unroutable.err)] ∧
        k.log.filterMap Event.handed = [1, 2, 3] ∧
        (∀ i result, k.results[i]? = some result →
          Reported .canceled mixedBatch k.log i result) ∧
        s.returnTagMap "b" = none := by
  have ⟨s, hrun, hs⟩ := map_eq_some_iff.mp
    (by rfl : (Run.run step (init true 0) (.start mixedBatch .canceled :: mixedRun)).map
      (fun s => s.call.map (fun k => (k.phase.result, k.results, k.log.filterMap Event.handed)))
        = some (some (some (some Sentinel.partialBatch.err),
          [some Sentinel.invalidMessage.err, some (Errors.wrapAMQPError foreignErr.err),
            none, some (Errors.wrapCode 312 Sentinel.unroutable.err)], [1, 2, 3])))
  have ⟨k, hcall, hk⟩ := map_eq_some_iff.mp hs
  simp only [Prod.mk.injEq] at hk
  have ⟨hresult, hresults, hhanded⟩ := hk
  have hphase := Phase.eq_of_result hresult
  have hbs : ∀ a ∈ mixedRun, a.isStart = false := by simp [mixedRun, Action.isStart]
  have hrun' : Run.run step (init true 0) ([] ++ .start mixedBatch .canceled :: mixedRun) = some s :=
    hrun
  have ⟨_, hreported, _, _, _, _, hmap⟩ := reported_of_run hbs hrun' hcall hphase
  exact ⟨s, k, hrun, hcall, hphase, hresults, hhanded, hreported, hmap "b"⟩

end State
end Slots
