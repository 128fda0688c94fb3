import Warren.Publisher.Returns.Calls

/-!
What the steps of the goroutine of `startConfirmDemux` keep.
-/

namespace Publisher

open Function List Option
open Confirms

theorem map_attempt_update {broker : Nat → Option Publishing} {tag : Nat} {pub pub' : Publishing}
    (h : broker tag = some pub) (hattempt : pub'.attempt = pub.attempt) (t : Nat)
    : (update broker tag (some pub') t).map (·.attempt) = (broker t).map (·.attempt) := by
  rw [update_apply]
  split
  . next ht => rw [ht, h, map_some, map_some, hattempt]
  . rfl

theorem of_update_answered {broker : Nat → Option Publishing} {tag t : Nat} {pub p : Publishing}
    (hpub : pub.answered = true) (h : update broker tag (some pub) t = some p)
    (hp : p.answered = false) : broker t = some p ∧ t ≠ tag := by
  rw [update_apply] at h
  split at h
  . rw [some.injEq] at h
    rw [h, hp] at hpub
    contradiction
  . next ht => exact ⟨h, ht⟩

namespace State

variable {s s' : State} {σ : Spec} {tag : Nat} {pub : Publishing} {replyCode : UInt16}

theorem verdict_return (hpub : s.broker tag = some pub) (hanswered : pub.answered = false)
    (hbroker : s'.broker =
      update s.broker tag (some { pub with returned := some replyCode }))
    (hdemux : s'.demux = .exited ↔ s.demux = .exited) (t : Nat) : s'.verdict t = s.verdict t := by
  have hconfirmed : pub.confirmed = none := by
    simp only [Publishing.answered, Bool.or_eq_false_iff, isSome_eq_false_iff,
      isNone_iff_eq_none] at hanswered
    exact hanswered.2
  unfold verdict
  simp only [hbroker, hdemux]
  rw [update_apply]
  split
  . next ht => simp [ht, hpub, Publishing.verdict, hconfirmed]
  . rfl

-- the tracker is not told of the return before the goroutine marks it
theorem Exact.ret (h : s.Exact σ) (hdemux : s.demux = .selecting) (hpub : s.broker tag = some pub)
    (hanswered : pub.answered = false)
    (hs' : s' = { s with
      broker := update s.broker tag (some { pub with returned := some replyCode })
      returnTagMap := s'.returnTagMap, demux := s'.demux })
    (hdemux' : s'.demux = .selecting ∧ σ.entries tag = none ∨ s'.demux = .marking tag replyCode)
    (hjoined : s.mandatory = true → s'.Joined) : s'.Exact σ := by
  have hbroker : s'.broker = update s.broker tag (some { pub with returned := some replyCode }) := by
    rw [hs']
  have hexited : s'.demux ≠ .exited := by
    rcases hdemux' with ⟨heq, _⟩ | heq <;> simp [heq]
  have hverdict := verdict_return hpub hanswered hbroker (by simp [hexited, hdemux])
  have hreturned : pub.returned = none := by
    have hnone : pub.returned = none ∧ pub.confirmed = none := by
      simpa [Publishing.answered] using hanswered
    exact hnone.1
  apply h.answer (fun _ => false) id (by rw [hs']) (by rw [hs']) (by rw [hs']) (by rw [hs'])
  . rw [hbroker]
    exact map_attempt_update hpub rfl
  . intro hmandatory
    exact hjoined (by rw [← hmandatory, hs'])
  . rw [hs']
    exact h.told.models
  . rfl
  . rfl
  . rfl
  . exact fun heq => absurd heq hexited
  . intro t v hv
    rw [hverdict]
    exact hv
  . intro t e he
    obtain ⟨hv, hret⟩ := h.told.entry t e he
    rw [if_neg (by simp), hverdict, hv, hret]
    refine ⟨rfl, ?_⟩
    simp only [marked, hdemux, hbroker, update_apply]
    by_cases ht : t = tag
    . obtain ⟨_, hnone⟩ | heq := hdemux'
      . rw [ht, hnone] at he
        contradiction
      . simp [heq, Demux.marks, ht, hpub, hreturned]
    . rcases hdemux' with ⟨heq, _⟩ | heq <;> simp [heq, Demux.marks, ht, Ne.symm ht]
  . intro t code hmark
    obtain ⟨heq, _⟩ | heq := hdemux'
    . rw [heq] at hmark
      contradiction
    . rw [heq, Demux.marking.injEq] at hmark
      rw [hbroker, ← hmark.1, ← hmark.2]
      exact ⟨_, update_self _ _ _, rfl⟩

theorem Exact.demuxReturn (h : s.Exact σ) (hdemux : s.demux = .selecting)
    (hstep : s.demuxReturn tag replyCode = some s') : s'.Exact σ := by
  unfold State.demuxReturn at hstep
  split at hstep
  . contradiction
  . next pub hpub =>
    split at hstep
    . contradiction
    . next hopen =>
      rw [not_or, Bool.not_eq_false, Bool.not_eq_true] at hopen
      obtain ⟨hmandatory, hanswered⟩ := hopen
      have hj := h.joined hmandatory
      simp only [ne_eq, pub.attempt.messageID.ne_empty, not_false_eq_true, ↓reduceIte] at hstep
      split at hstep
      . next hmap =>
        cases hstep
        refine h.ret hdemux hpub hanswered rfl (.inl ⟨hdemux, ?_⟩) (fun _ => ?_)
        . rw [← not_isSome_iff_eq_none, h.told.live]
          intro hlive
          rw [hj.live tag pub hpub hanswered hlive] at hmap
          contradiction
        . exact hj.frame rfl (fun t p hp hans => (of_update_answered rfl hp hans).1) (fun _ => id)
            (fun _ => id) (fun _ => id)
      . next t hmap =>
        cases hstep
        have htag := hj.own tag pub t hpub hanswered hmap
        refine h.ret hdemux hpub hanswered rfl (.inr (by rw [htag])) (fun _ => ?_)
        refine hj.delete rfl (fun t p hp hans => (of_update_answered rfl hp hans).1) ?_ ?_ (fun _ => id)
        . intro t p hp hans hl
          obtain ⟨hp', hne⟩ := of_update_answered rfl hp hans
          refine ⟨hl, fun heq => ?_⟩
          have hmap' := hj.live t p hp' hans hl
          rw [heq] at hmap'
          exact hne (hj.own tag pub t hpub hanswered hmap')
        . intro a ha
          refine ⟨ha, fun heq => ?_⟩
          exact hj.alone a (attempt_of_stored ha) tag pub hpub hanswered heq.symm

theorem Exact.demuxMarkReturned (h : s.Exact σ) (hdemux : s.demux = .marking tag replyCode)
    : Exact { s with
        confirms := { s.confirms with tracker := s.confirms.tracker.markReturned tag replyCode }
        demux := .selecting } (σ.markReturned tag replyCode) := by
  have hverdict (t : Nat) : verdict { s with
      confirms := { s.confirms with tracker := s.confirms.tracker.markReturned tag replyCode }
      demux := .selecting } t = s.verdict t := by
    simp [verdict, hdemux]
  refine h.answer (· == tag) (fun e => { e with returned := some replyCode }) rfl rfl rfl rfl
    (fun _ => rfl) ?_ (h.told.models.markReturned tag replyCode) rfl rfl rfl ?_ ?_ ?_ ?_
  . intro hmandatory
    have hj := h.joined hmandatory
    exact ⟨hj.own, hj.live, hj.stored, hj.alone⟩
  . simp
  . intro t v hv
    rw [hverdict]
    exact hv
  . intro t e he
    obtain ⟨hv, hret⟩ := h.told.entry t e he
    rw [hverdict, ← hv]
    simp only [marked, hdemux, Demux.marks] at hret ⊢
    by_cases ht : t = tag
    . obtain ⟨pub, hpub, hcode⟩ := h.told.marking tag replyCode hdemux
      simp [ht, hpub, hcode]
    . simpa [ht, Ne.symm ht] using hret
  . simp

def confirmErr (ack : Bool) : Option Confirms.Err :=
  if ack then none else some .nacked

theorem confirm_tracker (tracker : Confirms.Tracker) (tag : Nat) (ack : Bool)
    : (if ack then tracker.ack tag false else tracker.nack tag false) =
        tracker.resolveOne tag (confirmErr ack) := by
  cases ack <;> rfl

theorem verdict_resolve {e : Entry} (hverdict : e.verdict = none)
    (hreturned : e.returned = pub.returned) (ack : Bool)
    : (e.resolve (confirmErr ack)).verdict =
        Publishing.verdict { pub with confirmed := some ack } := by
  cases ack with
  | true =>
    simp [Entry.resolve, hverdict, confirmErr, Entry.outcome, hreturned,
      Publishing.verdict]
  | false => simp [Entry.resolve, hverdict, confirmErr, Entry.outcome, Publishing.verdict]

theorem Exact.confirm (h : s.Exact σ) {ack : Bool} (hdemux : s.demux = .selecting)
    (hstep : s.demuxConfirm tag ack = some s') : s'.Exact (σ.frame tag false (confirmErr ack)) := by
  unfold State.demuxConfirm at hstep
  split at hstep
  . contradiction
  . next pub hpub =>
    split at hstep
    . contradiction
    . next hconfirmed =>
      rw [Bool.not_eq_true, isSome_eq_false_iff, isNone_iff_eq_none] at hconfirmed
      rw [some.injEq, confirm_tracker] at hstep
      have hbroker : s'.broker =
          update s.broker tag (some { pub with confirmed := some ack }) := by
        rw [← hstep]
      have hdemux' : s'.demux = .selecting := by
        rw [← hstep]
        exact hdemux
      have hold : s.verdict tag = none := by
        simp [verdict, hpub, Publishing.verdict, hconfirmed, hdemux]
      have hself : s'.verdict tag = Publishing.verdict { pub with confirmed := some ack } := by
        simp [verdict, hbroker, hdemux']
      have hother (t : Nat) (ht : t ≠ tag) : s'.verdict t = s.verdict t := by
        simp [verdict, hbroker, hdemux', hdemux, ht]
      refine h.answer (Spec.covers tag false) (·.resolve (confirmErr ack)) (by rw [← hstep])
        (by rw [← hstep]) (by rw [← hstep]) (by rw [← hstep]) ?_ ?_ ?_ rfl rfl rfl ?_ ?_ ?_ ?_
      . rw [hbroker]
        exact map_attempt_update hpub rfl
      . intro hmandatory
        have hj := h.joined (by rw [← hmandatory, ← hstep])
        rw [← hstep]
        refine hj.frame rfl ?_ (fun _ => id) (fun _ => id) (fun _ => id)
        intro t p hp hans
        have hanswered : { pub with confirmed := some ack }.answered = true := by
          simp [Publishing.answered]
        exact (of_update_answered hanswered hp hans).1
      . rw [← hstep]
        exact h.told.models.resolveOne tag _
      . simp [hdemux']
      . intro t v hv
        have ht : t ≠ tag := by
          rintro rfl
          rw [hold] at hv
          contradiction
        rw [hother t ht]
        exact hv
      . intro t e he
        obtain ⟨hv, hret⟩ := h.told.entry t e he
        simp only [marked, hdemux, hdemux', hbroker, update_apply, Spec.covers] at hret ⊢
        by_cases ht : t = tag
        . rw [ht, hold] at hv
          rw [ht] at hret
          have hreturned : e.returned = pub.returned := by simpa [Demux.marks, hpub] using hret
          simp only [ht, beq_self_eq_true, Bool.false_eq_true, if_false, if_true]
          rw [hself]
          exact ⟨verdict_resolve hv hreturned ack, by simpa [Demux.marks, Entry.resolve] using hreturned⟩
        . simp only [ht, beq_iff_eq, Bool.false_eq_true, if_false]
          rw [hother t ht]
          exact ⟨hv, hret⟩
      . simp [hdemux']

theorem Exact.demuxCloseAll (h : s.Exact σ) (hdemux : s.demux = .selecting)
    : Exact { s with
        confirms := { s.confirms with tracker := s.confirms.tracker.closeAll }
        demux := .exited } σ.closeAll := by
  have hmodels := h.told.models.closeAll
  have hverdict (t : Nat) : verdict { s with
      confirms := { s.confirms with tracker := s.confirms.tracker.closeAll }
      demux := .exited } t = some ((s.verdict t).getD (some .closed)) := by
    simp only [verdict, hdemux, reduceCtorEq, if_false, if_true, or_none]
    cases (s.broker t).bind (·.verdict) <;> rfl
  refine h.answer (fun _ => true) Entry.close rfl rfl rfl rfl (fun _ => rfl) ?_ hmodels rfl rfl rfl ?_
    ?_ ?_ ?_
  . intro hmandatory
    have hj := h.joined hmandatory
    exact ⟨hj.own, hj.live, hj.stored, hj.alone⟩
  . exact fun _ => hmodels.closed.symm
  . intro t v hv
    rw [hverdict, hv]
    rfl
  . intro t e he
    obtain ⟨hv, hret⟩ := h.told.entry t e he
    rw [if_pos rfl, hverdict, ← hv]
    refine ⟨rfl, ?_⟩
    simpa [marked, hdemux, Demux.marks, Entry.close] using hret
  . simp

theorem Exact.demuxStep (h : s.Exact σ) {a : DemuxAction} (hstep : s.demuxStep a = some s')
    : ∃ σ', s'.Exact σ' := by
  unfold State.demuxStep at hstep
  split at hstep
  . next hdemux => exact ⟨σ, h.demuxReturn hdemux hstep⟩
  . next hdemux =>
    rw [some.injEq] at hstep
    exact ⟨_, hstep ▸ h.demuxMarkReturned hdemux⟩
  . next hdemux => exact ⟨_, h.confirm hdemux hstep⟩
  . next hdemux =>
    split at hstep
    . rw [some.injEq] at hstep
      exact ⟨_, hstep ▸ h.demuxCloseAll hdemux⟩
    . contradiction
  . contradiction

theorem exact_step {a : Action} (h : ∃ σ, s.Exact σ) (hfresh : s.FreshID a)
    (hstep : s.step a = some s') : ∃ σ, s'.Exact σ := by
  obtain ⟨σ, h⟩ := h
  cases a with
  | publishOnce messageID => exact ⟨σ, h.acquire hstep⟩
  | publishBatch msgs => exact ⟨σ, h.publishBatch hstep⟩
  | call a =>
    simp only [State.step] at hstep
    split at hstep
    . contradiction
    . next k hcall => exact h.callStep hcall hfresh hstep
  | demux a => exact h.demuxStep hstep
  | close =>
    cases hstep
    have ht := h.told
    refine ⟨σ, h.still rfl rfl rfl rfl (fun _ => rfl) ?_ ⟨ht.models, ht.live, ht.waiting, ht.kept,
      ht.closed, ht.entry, ht.marking, ht.results⟩⟩
    intro hmandatory
    have hj := h.joined hmandatory
    exact ⟨hj.own, hj.live, hj.stored, hj.alone⟩

end State
end Publisher
