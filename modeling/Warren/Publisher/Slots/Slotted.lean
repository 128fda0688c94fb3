import Warren.Publisher.Slots.Tracked

namespace Slots

open Errors (Err LibErr CtxErr Sentinel)
open Publisher (MessageID WaitStep)
open Confirms (Entry Spec)
open List Option

inductive Reported (ctxErr : CtxErr) (encoded : List (Except Err MessageID)) (log : List Event)
    (i : Nat) : Option Err → Prop where
  | encode (err : Err) (hget : encoded[i]? = some (.error err))
    : Reported ctxErr encoded log i (some err)
  | register (tag : Nat) (err : Confirms.Err) (hmem : .register i tag (some err) ∈ log)
    : Reported ctxErr encoded log i (some (Errors.mapConfirmError ctxErr err))
  | publish (tag : Nat) (err : LibErr) (hmem : .publish i tag (some err) ∈ log)
    : Reported ctxErr encoded log i (some (Errors.wrapAMQPError err.err))
  | confirm (tag : Nat) (err : Option Confirms.Err) (before between after : List Event)
    (hlog : log = before ++ .wait tag err :: after) (hsince : Since before i tag between)
    (hpublish : .publish i tag none ∈ between)
    (hverdict : (entryOf tag between).verdict = some err ∨ err = some .timeout ∨ err = some .ctx)
    : Reported ctxErr encoded log i (err.map (Errors.mapConfirmError ctxErr))

theorem Reported.append {ctxErr : CtxErr} {encoded : List (Except Err MessageID)}
    {log : List Event} {i : Nat} {result : Option Err} (h : Reported ctxErr encoded log i result)
    (events : List Event) : Reported ctxErr encoded (log ++ events) i result := by
  cases h with
  | encode err hget => exact .encode err hget
  | register tag err hmem => exact .register tag err (mem_append_left _ hmem)
  | publish tag err hmem => exact .publish tag err (mem_append_left _ hmem)
  | confirm tag err before between after hlog hsince hpublish hverdict =>
    refine .confirm tag err before between (after ++ events) ?_ hsince hpublish hverdict
    rw [hlog, append_assoc, cons_append]

namespace Call

def PhaseInv (k : Call) : Prop :=
  match k.phase with
  | .looping => True
  | .registering _ _ => ∃ messageID, k.encoded[k.index]? = some (.ok messageID)
  | .deregistering _ err =>
    (∃ messageID, k.encoded[k.index]? = some (.ok messageID)) ∧
      ∃ tag, .register k.index tag (some err) ∈ k.log
  | .publishing _ => ∃ messageID, k.encoded[k.index]? = some (.ok messageID)
  | .cancelling tag err =>
    (∃ messageID, k.encoded[k.index]? = some (.ok messageID)) ∧
      .publish k.index tag (some err) ∈ k.log
  | .waiting _ => k.encoded.length ≤ k.index
  | .cleaning _ => k.encoded.length ≤ k.index
  | .returned err => k.encoded.length ≤ k.index ∧ err = State.partialBatch k.results

theorem PhaseInv.record {k : Call} (h : k.PhaseInv) (e : Event) : (k.record e).PhaseInv := by
  rcases k with ⟨encoded, ctxErr, index, published, results, phase, log⟩
  cases phase with
  | deregistering messageID err =>
    have ⟨hok, tag, hmem⟩ := h
    exact ⟨hok, tag, mem_append_left _ hmem⟩
  | cancelling tag err => exact ⟨h.1, mem_append_left _ h.2⟩
  | _ => exact h

structure Slotted (k : Call) : Prop where
  length : k.results.length = k.encoded.length
  index : k.index ≤ k.encoded.length
  ahead : ∀ i, k.index ≤ i → k.results[i]? = k.encoded[i]?.map encodeErr
  unset : ∀ p ∈ k.sent, k.results[p.2]? = some none
  behind : ∀ i result, i < k.index → k.results[i]? = some result →
    (∃ tag, (tag, i) ∈ k.sent) ∨ Reported k.ctxErr k.encoded k.log i result
  phase : k.PhaseInv

section Slotted

variable {k k' : Call} {seqNo tag idx : Nat} {todo : List (Nat × Nat)}

theorem Slotted.start (encoded : List (Except Err MessageID)) (ctxErr : CtxErr)
    : (Call.start encoded ctxErr).Slotted := by
  constructor
  . exact length_map _
  . exact Nat.zero_le _
  . intro i _
    exact getElem?_map
  . intro p hp
    contradiction
  . intro i result hlt
    contradiction
  . trivial

theorem Slotted.congr (h : k.Slotted) (hencoded : k'.encoded = k.encoded)
    (hctx : k'.ctxErr = k.ctxErr) (hindex : k'.index = k.index) (hresults : k'.results = k.results)
    (hsent : k'.sent = k.sent) (events : List Event) (hlog : k'.log = k.log ++ events)
    (hphase : k'.PhaseInv) : k'.Slotted := by
  constructor
  . rw [hresults, hencoded]
    exact h.length
  . rw [hindex, hencoded]
    exact h.index
  . rw [hindex, hresults, hencoded]
    exact h.ahead
  . rw [hsent, hresults]
    exact h.unset
  . rw [hindex, hresults, hsent, hencoded, hctx, hlog]
    intro i result hlt hget
    exact (h.behind i result hlt hget).imp_right (·.append events)
  . exact hphase

theorem Slotted.advance (h : k.Slotted) (hord : k.Ordered seqNo)
    (hencoded : k'.encoded = k.encoded) (hctx : k'.ctxErr = k.ctxErr)
    (hindex : k'.index = k.index + 1)
    (hphase : k'.phase = .looping) (events : List Event) (hlog : k'.log = k.log ++ events)
    (hlt : k.index < k.encoded.length) (hlength : k'.results.length = k.results.length)
    (hresults : ∀ i, k.index ≠ i → k'.results[i]? = k.results[i]?)
    (hsent : ∀ p ∈ k.sent, p ∈ k'.sent)
    (hunset : ∀ p ∈ k'.sent, p ∈ k.sent ∨ k'.results[p.2]? = some none)
    (hslot : ∀ result, k'.results[k.index]? = some result →
      (∃ tag, (tag, k.index) ∈ k'.sent) ∨ Reported k.ctxErr k.encoded k'.log k.index result)
    : k'.Slotted := by
  constructor
  . rw [hlength, hencoded]
    exact h.length
  . rw [hindex, hencoded]
    exact hlt
  . rw [hindex, hencoded]
    intro i hi
    rw [hresults i (by omega)]
    exact h.ahead i (by omega)
  . intro p hp
    cases hunset p hp with
    | inl hp =>
      have hbound := hord.bound p hp
      rw [hresults p.2 (by omega)]
      exact h.unset p hp
    | inr hnone => exact hnone
  . rw [hindex, hencoded, hctx]
    intro i result hi hget
    cases Nat.lt_succ_iff_lt_or_eq.mp hi with
    | inl hi =>
      rw [hresults i (by omega)] at hget
      cases h.behind i result hi hget with
      | inl hmem =>
        have ⟨tag, hmem⟩ := hmem
        exact .inl ⟨tag, hsent _ hmem⟩
      | inr hreported =>
        rw [hlog]
        exact .inr (hreported.append events)
    | inr heq =>
      rw [heq] at hget ⊢
      exact hslot result hget
  . simp [PhaseInv, hphase]

theorem Slotted.advance_setErr (h : k.Slotted) (hord : k.Ordered seqNo)
    (hlt : k.index < k.encoded.length) (hsent : k.sent = k.published) {err : Err}
    (hreported : Reported k.ctxErr k.encoded k.log k.index (some err))
    : ((k.setErr k.index err).advance).Slotted := by
  have hsent' : ((k.setErr k.index err).advance).sent = k.sent := hsent.symm
  refine h.advance hord rfl rfl rfl rfl [] (append_nil _).symm hlt ?_ ?_ ?_ ?_ ?_
  . exact length_set
  . intro i hi
    exact getElem?_set_ne hi
  . intro p hp
    exact hsent'.symm ▸ hp
  . intro p hp
    exact .inl (hsent' ▸ hp)
  . intro result hget
    right
    have hset : (k.results.set k.index (some err))[k.index]? = some (some err) :=
      getElem?_set_self (h.length ▸ hlt)
    have heq : result = some err := Option.some.inj (hget.symm.trans hset)
    rw [heq]
    exact hreported

theorem Slotted.published (h : k.Slotted) (hord : k.Ordered seqNo)
    (hphase : k.phase = .publishing tag)
    : Slotted { k with
        log := k.log ++ [.publish k.index tag none], index := k.index + 1, phase := .looping,
        published := k.published ++ [(tag, k.index)] } := by
  have hsent : k.sent = k.published := by simp [sent, hphase]
  obtain ⟨messageID, hok⟩ : ∃ messageID, k.encoded[k.index]? = some (.ok messageID) := by
    simpa [PhaseInv, hphase] using h.phase
  have hnone : k.results[k.index]? = some none := by
    rw [h.ahead k.index (Nat.le_refl _), hok]
    rfl
  have hlt := (List.getElem?_eq_some_iff.mp hok).1
  refine h.advance hord rfl rfl rfl rfl _ rfl hlt rfl (fun _ _ => rfl) ?_ ?_ ?_
  . intro p hp
    exact mem_append_left _ (hsent ▸ hp)
  . intro p hp
    cases mem_append.mp hp with
    | inl hp => exact .inl (hsent ▸ hp)
    | inr hp =>
      right
      rw [mem_singleton.mp hp]
      exact hnone
  . intro result _
    exact .inl ⟨tag, mem_append_right _ (mem_singleton.mpr rfl)⟩

theorem Slotted.waitEnd (h : k.Slotted) (hord : k.Ordered seqNo)
    (hphase : k.phase = .waiting ((tag, idx) :: todo)) {event : Event} {err : Option Err}
    (hencoded : k'.encoded = k.encoded) (hctx : k'.ctxErr = k.ctxErr) (hindex : k'.index = k.index)
    (hphase' : k'.phase = .waiting todo) (hlog : k'.log = k.log ++ [event])
    (hresults : k'.results = k.results.set idx err)
    (hreported : Reported k.ctxErr k.encoded k'.log idx err) : k'.Slotted := by
  have hsent : k.sent = (tag, idx) :: todo := by simp [sent, hphase]
  have hsent' : k'.sent = todo := by simp [sent, hphase']
  have hbound := hord.bound (tag, idx) (hsent ▸ mem_cons_self)
  have hlooped : k.encoded.length ≤ k.index := by simpa [PhaseInv, hphase] using h.phase
  constructor
  . rw [hresults, hencoded, length_set]
    exact h.length
  . rw [hindex, hencoded]
    exact h.index
  . rw [hindex, hresults, hencoded]
    intro i hi
    rw [getElem?_set_ne (by omega)]
    exact h.ahead i hi
  . rw [hsent', hresults]
    intro p hp
    have hlt := (pairwise_cons.mp (hsent ▸ hord.pairwise)).1 p hp
    rw [getElem?_set_ne (by omega)]
    exact h.unset p (hsent ▸ mem_cons_of_mem _ hp)
  . rw [hindex, hresults, hencoded, hctx, hsent']
    intro i result hi hget
    by_cases hidx : idx = i
    . rw [hidx, getElem?_set_self (by rw [h.length]; have := h.index; omega)] at hget
      rw [← some.inj hget, ← hidx]
      exact .inr hreported
    . rw [getElem?_set_ne hidx] at hget
      rw [hlog]
      apply Or.imp _ (·.append [event]) (h.behind i result hi hget)
      intro hmem
      obtain ⟨t, hmem⟩ := hmem
      rw [hsent] at hmem
      cases List.mem_cons.mp hmem with
      | inl heq => exact absurd (Prod.mk.inj heq).2.symm hidx
      | inr hmem => exact ⟨t, hmem⟩
  . simpa [PhaseInv, hphase', hindex, hencoded] using hlooped

end Slotted

theorem Slotted.reported_of_returned {k : Call} {err : Option Err} (h : k.Slotted)
    (hphase : k.phase = .returned err) (i : Nat) (result : Option Err)
    (hget : k.results[i]? = some result) : Reported k.ctxErr k.encoded k.log i result := by
  have hinv := h.phase
  rw [PhaseInv, hphase] at hinv
  have hlt := (List.getElem?_eq_some_iff.mp hget).1
  rw [h.length] at hlt
  cases h.behind i result (by omega) hget with
  | inl hmem => simp [sent, hphase] at hmem
  | inr hreported => exact hreported

end Call

namespace State

variable {s s' : State} {k k' : Call} {σ : Spec}

theorem waitResult_results {tag idx : Nat} {todo : List (Nat × Nat)} {err : Option Confirms.Err}
    (hget : k.results[idx]? = some none)
    : (k.waitResult tag idx todo err).results =
        k.results.set idx (err.map (Errors.mapConfirmError k.ctxErr)) := by
  cases err with
  | none =>
    have ⟨hlt, heq⟩ := List.getElem?_eq_some_iff.mp hget
    rw [Option.map_none, ← heq]
    exact (set_getElem_self hlt).symm
  | some err => rfl

theorem Linked.reported {tag idx : Nat} {todo : List (Nat × Nat)} {err : Option Confirms.Err}
    (h : s.Linked σ) (hk : s.call = some k) (hphase : k.phase = .waiting ((tag, idx) :: todo))
    (hleft : σ.left tag = some err ∨ err = some .timeout ∨ err = some .ctx)
    : Reported k.ctxErr k.encoded (k.log ++ [.wait tag err]) idx
        (err.map (Errors.mapConfirmError k.ctxErr)) := by
  have hmem : (tag, idx) ∈ k.sent := by simp [Call.sent, hphase]
  obtain ⟨between, hfollowed, hpublish⟩ := (h.tracked k hk).sent tag idx hmem
  refine .confirm tag err k.log between [] rfl hfollowed.toSince hpublish ?_
  rw [Spec.left, h.kept tag, hfollowed.entry] at hleft
  exact hleft

theorem CallMove.slotted (hmove : s.CallMove k s') (hk : s.call = some k) (h : k.Slotted)
    (hord : k.Ordered s.nextPublishSeqNo) (hlinked : s.Linked σ) (hcall : s'.call = some k')
    : k'.Slotted := by
  have hinv := h.phase
  cases hmove with
  | skip err hphase hget =>
    cases hcall
    have hlt := (List.getElem?_eq_some_iff.mp hget).1
    have hsent : k.advance.sent = k.sent := by simp [Call.sent, Call.advance, hphase]
    refine h.advance hord rfl rfl rfl rfl [] (append_nil _).symm hlt rfl (fun _ _ => rfl)
      (fun p hp => hsent ▸ hp) (fun p hp => .inl (hsent ▸ hp)) ?_
    intro result hresult
    have hslot := h.ahead k.index (Nat.le_refl _)
    rw [hget] at hslot
    have heq : result = some err := some.inj (hresult.symm.trans hslot)
    rw [heq]
    exact .inr (.encode err hget)
  | looped hphase hget =>
    cases hcall
    refine h.congr rfl rfl rfl rfl (by simp [Call.sent, hphase]) [] (append_nil _).symm ?_
    exact getElem?_eq_none_iff.mp hget
  | store messageID hphase hget =>
    cases hcall
    refine h.congr rfl rfl rfl rfl (by simp [Call.sent, hphase]) [] (append_nil _).symm ?_
    exact ⟨messageID, hget⟩
  | registered messageID tag hphase hopen =>
    cases hcall
    rw [Call.PhaseInv, hphase] at hinv
    exact h.congr rfl rfl rfl rfl (by simp [Call.sent, Call.record, hphase]) _ rfl hinv
  | refused messageID tag hphase =>
    cases hcall
    rw [Call.PhaseInv, hphase] at hinv
    refine h.congr rfl rfl rfl rfl (by simp [Call.sent, Call.record, hphase]) _ rfl ⟨hinv, tag, ?_⟩
    exact mem_append_right _ (mem_singleton.mpr rfl)
  | deregister messageID err hphase =>
    cases hcall
    rw [Call.PhaseInv, hphase] at hinv
    obtain ⟨⟨_, hok⟩, tag, hmem⟩ := hinv
    exact h.advance_setErr hord (List.getElem?_eq_some_iff.mp hok).1 (by simp [Call.sent, hphase])
      (.register tag err hmem)
  | published tag hphase =>
    cases hcall
    exact h.published hord hphase
  | unpublished tag err hphase =>
    cases hcall
    rw [Call.PhaseInv, hphase] at hinv
    refine h.congr rfl rfl rfl rfl (by simp [Call.sent, Call.record, hphase]) _ rfl ⟨hinv, ?_⟩
    exact mem_append_right _ (mem_singleton.mpr rfl)
  | cancel tag err hphase =>
    cases hcall
    rw [Call.PhaseInv, hphase] at hinv
    obtain ⟨⟨_, hok⟩, hmem⟩ := hinv
    exact h.advance_setErr hord (List.getElem?_eq_some_iff.mp hok).1 (by simp [Call.sent, hphase])
      (.publish tag err hmem)
  | wait tag idx todo w confirms hphase hstep hresults =>
    cases hk.symm.trans hcall
    exact h
  | waitEnd tag idx todo w confirms x err rest hphase hstep hresults =>
    cases hcall
    obtain ⟨σ', _, hmove⟩ := exists_wait hlinked.models hstep
    cases hmove with
    | inl hsame =>
      rw [hresults] at hsame
      exact absurd hsame.1 (cons_ne_nil _ _)
    | inr hend =>
      obtain ⟨err', hdrop, _, hleft⟩ := hend
      rw [hresults] at hdrop
      cases hdrop
      have hmem : (tag, idx) ∈ k.sent := by simp [Call.sent, hphase]
      obtain ⟨hphase', hindex, hencoded, hctx, hlog⟩ := k.waitResult_eq tag idx todo err
      apply h.waitEnd hord hphase hencoded hctx hindex hphase' hlog
        (waitResult_results (h.unset (tag, idx) hmem))
      rw [hlog]
      exact hlinked.reported hk hphase hleft
  | waited hphase | clean messageID messageIDs hphase =>
    cases hcall
    rw [Call.PhaseInv, hphase] at hinv
    exact h.congr rfl rfl rfl rfl (by simp [Call.sent, hphase]) [] (append_nil _).symm hinv
  | ret hphase =>
    cases hcall
    rw [Call.PhaseInv, hphase] at hinv
    exact h.congr rfl rfl rfl rfl (by simp [Call.sent, hphase]) [] (append_nil _).symm ⟨hinv, rfl⟩
  | release err hphase => contradiction

theorem slotted_step (hmove : s.Move s') (h : ∀ k, s.call = some k → k.Slotted)
    (hord : ∀ k, s.call = some k → k.Ordered s.nextPublishSeqNo) (hlinked : s.Linked σ)
    (hcall : s'.call = some k') : k'.Slotted := by
  cases hmove with
  | start encoded ctxErr hnone =>
    cases hcall
    exact Call.Slotted.start encoded ctxErr
  | call k s' hk hmove => exact hmove.slotted hk (h k hk) (hord k hk) hlinked hcall
  | frame f confirms demux hstep =>
    have ⟨k, hk, heq⟩ := map_eq_some_iff.mp hcall
    rw [← heq]
    exact (h k hk).congr rfl rfl rfl rfl rfl _ rfl ((h k hk).phase.record _)
  | loadAndDelete messageID demux => exact h k' hcall

end State
end Slots
