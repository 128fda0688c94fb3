import Warren.Publisher.Returns.Invariant

/-!
What the steps of `publishOnce` and `PublishBatch` keep.
-/

namespace Publisher

open Function List Option
open Confirms

namespace State

variable {s s' : State} {σ σ' : Spec} {k : Call} {a : Attempt} {tag : Nat} {messageID : MessageID}

theorem Exact.acquire (h : s.Exact σ) {batch : Bool} {encoded : List MessageID}
    (hstep : s.acquire batch encoded = some s') : s'.Exact σ := by
  unfold State.acquire at hstep
  split at hstep
  . contradiction
  . next hcall =>
    cases hstep
    apply h.setCall rfl
    . intro tag
      rw [Bool.eq_false_iff]
      intro hwaiting
      obtain ⟨k, _, _, hk, _⟩ := h.told.waiting tag hwaiting
      rw [hcall] at hk
      contradiction
    . simp [State.published, hcall]
    . simp [State.registered, hcall]
    . simp [State.attempt]
    . simp [State.stored]
    . exact drained_next rfl

theorem Exact.publishBatch (h : s.Exact σ) {msgs : List Message}
    (hstep : s.publishBatch msgs = some s') : s'.Exact σ := by
  have hrefused (hs : some s = some s') : s'.Exact σ := by
    cases hs
    exact h
  unfold State.publishBatch at hstep
  split at hstep
  . exact hrefused hstep
  . split at hstep
    . exact hrefused hstep
    . split at hstep
      . exact hrefused hstep
      . split at hstep
        . exact hrefused hstep
        . exact h.acquire hstep

def FreshID (s : State) : Action → Prop
  | .call .store =>
    s.mandatory = true → ∀ k ∈ s.call, ∀ messageID ∈ k.todo.head?, ∀ tag < s.nextPublishSeqNo,
      ∀ pub ∈ s.broker tag, pub.attempt.messageID.val = messageID.val → pub.answered = true
  | _ => True

instance (s : State) (a : Action) : Decidable (s.FreshID a) := by
  unfold FreshID
  split <;> infer_instance

theorem other_of_freshID (h : s.Orderly) (hcall : s.call = some k) {todo : List MessageID}
    (htodo : k.todo = messageID :: todo) (hfresh : s.FreshID (.call .store))
    (hmandatory : s.mandatory = true)
    : ∀ tag pub, s.broker tag = some pub → pub.answered = false →
        pub.attempt.messageID.val ≠ messageID.val := by
  intro tag pub hpub hanswered heq
  have htag : tag < s.nextPublishSeqNo := by
    apply Nat.lt_of_not_le
    intro hle
    rw [h.unsent tag hle] at hpub
    contradiction
  have htrue := hfresh hmandatory k hcall messageID (by rw [htodo]; rfl) tag htag pub hpub heq
  rw [htrue] at hanswered
  contradiction

theorem Numbered.store (h : s.Numbered) (ha : a.number = s.attempts)
    (hattempts : s'.attempts = s.attempts + 1) (hbroker : s'.broker = s.broker)
    (hpublished : s'.published = s.published) (hattempt : s'.attempt = some a)
    (hresults : s'.results = s.results) : s'.Numbered := by
  have hlt {b : Attempt} (hb : b.number < s.attempts) : b.number < s'.attempts := by omega
  constructor
  . rw [hpublished]
    exact h.nodup
  . rw [hpublished]
    exact fun b hb => hlt (h.published b hb)
  . intro b hb
    rw [hattempt] at hb
    cases hb
    omega
  . rw [hresults]
    intro b err hmem
    have hb := (h.results b err hmem).1
    refine ⟨hlt hb, ?_⟩
    intro hstored
    have heq := attempt_of_stored hstored
    rw [hattempt, some.injEq] at heq
    rw [← heq] at hb
    omega
  . rw [hbroker]
    exact h.tagged
  . rw [hbroker, hpublished, hresults]
    exact h.accounted

theorem Exact.store (h : s.Exact σ) (hcall : s.call = some k) (hphase : k.phase = .store)
    (hfresh : s.FreshID (.call .store)) (hstep : s.store k = some s') : s'.Exact σ := by
  unfold State.store at hstep
  split at hstep
  . contradiction
  . next messageID todo htodo =>
    rw [some.injEq] at hstep
    generalize ha : Attempt.mk s.attempts messageID s.nextPublishSeqNo = a at hstep
    have hcall' : s'.call = some { k with todo, phase := .register a } := by rw [← hstep]
    have hbroker : s'.broker = s.broker := by rw [← hstep]
    have hresults : s'.results = s.results := by rw [← hstep]
    have hpublished : s'.published = s.published := by
      rw [published_of_call hcall, published_of_call hcall']
    have hlive : ∀ tag, s'.Live tag ↔ s.Live tag := by
      intro tag
      unfold Live
      rw [hpublished, registered_of_call hcall, registered_of_call hcall', hphase]
      rfl
    have hattempt : s'.attempt = some a := attempt_of_call hcall'
    refine ⟨⟨?_, ?_, ?_, ?_⟩, ?_, ?_, ?_⟩
    . rw [hbroker, ← hstep]
      exact h.orderly.unsent
    . intro b hb
      rw [hattempt] at hb
      cases hb
      rw [← ha, ← hstep]
    . rw [hpublished, hbroker]
      exact h.orderly.arrived
    . intro k' messageIDs hk' hphase'
      rw [hcall', some.injEq] at hk'
      rw [← hk'] at hphase'
      contradiction
    . intro hmandatory
      have hmandatory : s.mandatory = true := by rw [← hmandatory, ← hstep]
      apply (h.joined hmandatory).store _ hbroker _ (stored_of_call hcall') hattempt
      . rw [← ha]
        exact other_of_freshID h.orderly hcall htodo hfresh hmandatory
      . simp [← hstep, hmandatory, ← ha]
      . intro tag
        exact (hlive tag).mp
    . exact h.numbered.store (by rw [← ha]) (by rw [← hstep]) hbroker hpublished hattempt hresults
    . have hwaiting := h.told.waiting_eq_false hcall (by simp [hphase])
      refine h.told.move (by rw [← hstep]; exact h.told.models) (by rw [← hstep]) hbroker
        (by rw [← hstep]) (fun tag => (h.told.live tag).trans (hlive tag).symm) ?_ h.told.kept
        (fun _ _ => id) ?_
      . intro tag hw
        rw [hwaiting tag] at hw
        contradiction
      . rw [hresults]
        exact fun _ _ => .inl

theorem Exact.fail (h : s.Exact σ) {err : Option Err} (hattempt : s.attempt = some a)
    (herr : err = some .amqp ∨ err = some .channelClosed)
    (hs' : s' = { s with confirms := s'.confirms, call := some k, results := s.results ++ [(a, err)] })
    (hmodels : s'.confirms.Models σ')
    (hclosed : s'.confirms.tracker.closed = s.confirms.tracker.closed)
    (hpublished : k.published = s.published) (hstored : k.phase.stored = none)
    (hregistered : k.phase.registered = none) (hattempt' : ∀ b, k.phase.attempt = some b → b = a)
    (hdrained : ∀ messageIDs, k.phase = .delete messageIDs → k.published = [])
    (hgone : σ'.entries a.deliveryTag = none)
    (hother : ∀ tag, tag ≠ a.deliveryTag → σ'.entries tag = σ.entries tag)
    (hwaiting : ∀ tag, σ'.waiting tag = false) (hkept : ∀ tag, σ'.kept tag = none)
    : s'.Exact σ' := by
  have hunsent := h.orderly.unsent_attempt hattempt
  have hcall : s'.call = some k := by rw [hs']
  have hbroker : s'.broker = s.broker := by rw [hs']
  have hresults : s'.results = s.results ++ [(a, err)] := by rw [hs']
  have hnone : s'.stored = none := (stored_of_call hcall).trans hstored
  have hpublished' : s'.published = s.published := (published_of_call hcall).trans hpublished
  have hmem {b : Attempt} {e : Option Err} (hmem : (b, e) ∈ s'.results)
      : (b, e) ∈ s.results ∨ b = a ∧ e = err := by
    rw [hresults, mem_append, mem_singleton, Prod.mk.injEq] at hmem
    exact hmem
  have hlive (tag : Nat) : s'.Live tag ↔ s.Live tag ∧ tag ≠ a.deliveryTag := by
    simp only [Live, hpublished', registered_of_call hcall, hregistered]
    constructor
    . rintro (⟨b, hb, htag⟩ | ⟨_, hb, _⟩)
      . exact ⟨.inl ⟨b, hb, htag⟩, htag ▸ h.orderly.deliveryTag_ne hattempt hb⟩
      . contradiction
    . rintro ⟨hl | ⟨b, hb, htag⟩, hne⟩
      . exact .inl hl
      . have hba := attempt_of_registered hb
        rw [hattempt, some.injEq] at hba
        exact absurd (hba ▸ htag.symm) hne
  have hshrinks : ∀ b, s'.attempt = some b → s.attempt = some b := by
    intro b hb
    rw [attempt_of_call hcall] at hb
    rw [hattempt' b hb]
    exact hattempt
  have hnoStored : ∀ b, s'.stored = some b → s.stored = some b := by simp [hnone]
  apply h.frame (by rw [hs']) (by rw [hs']) (fun _ => by rw [hbroker])
    (hpublished' ▸ List.Sublist.refl _) hshrinks hnoStored
  . intro k' messageIDs hk'
    rw [hcall, some.injEq] at hk'
    rw [← hk']
    exact hdrained messageIDs
  . intro b e hb
    refine (hmem hb).imp_right fun hba => ⟨hnone, .inl ?_⟩
    rw [hba.1]
    exact hattempt
  . intro r hr
    simp [hresults, hr]
  . rw [hpublished']
    exact fun _ => .inl
  . intro hmandatory
    have hj := h.joined (by rw [← hmandatory, hs'])
    exact hj.frame (by rw [hs']) (fun _ _ hpub _ => hbroker ▸ hpub)
      (fun tag hl => ((hlive tag).mp hl).1) hnoStored hshrinks
  . refine h.told.move hmodels hclosed hbroker (by rw [hs']) ?_ ?_ hkept ?_ ?_
    . intro tag
      rw [hlive]
      by_cases htag : tag = a.deliveryTag
      . simp [htag, hgone]
      . simp [htag, hother tag htag, h.told.live tag]
    . intro tag hw
      rw [hwaiting tag] at hw
      contradiction
    . intro tag e he
      rwa [hother] at he
      rintro rfl
      rw [hgone] at he
      contradiction
    . intro b e hb
      refine (hmem hb).imp_right fun hba => .inr ?_
      rw [hba.1, hba.2]
      exact ⟨by simp [hunsent], herr⟩

theorem register_of_closed (hclosed : s.confirms.tracker.closed = true) (k : Call) (a : Attempt)
    : s.register k a = s.resolved a (some .channelClosed)
        (if k.batch then { k with phase := .deregister a } else k.next) := by
  unfold State.register
  rw [Tracker.register_of_closed hclosed]
  rfl

theorem Exact.register_closed (h : s.Exact σ) (hcall : s.call = some k)
    (hphase : k.phase = .register a) (hclosed : s.confirms.tracker.closed = true)
    : (s.register k a).Exact σ := by
  have hattempt : s.attempt = some a := attempt_of_phase hcall hphase
  rw [register_of_closed hclosed]
  apply h.fail hattempt (.inr rfl) rfl
  . exact h.told.models
  . rfl
  . rw [published_of_call hcall]
    split
    . rfl
    . exact Call.next_published k
  . split
    . rfl
    . exact Call.next_stored k
  . split
    . rfl
    . exact Call.next_registered k
  . intro b hb
    split at hb
    . exact (some.inj hb).symm
    . rw [Call.next_attempt] at hb
      contradiction
  . intro messageIDs
    split
    . simp
    . rw [Call.next_published]
      exact Call.published_of_next_delete
  . rw [← not_isSome_iff_eq_none, h.told.live]
    rintro (⟨b, hb, htag⟩ | ⟨b, hb, _⟩)
    . exact h.orderly.deliveryTag_ne hattempt hb htag
    . rw [registered_of_call hcall, hphase] at hb
      contradiction
  . exact fun _ _ => rfl
  . exact h.told.waiting_eq_false hcall (by simp [hphase])
  . exact h.told.kept

theorem register_of_open (hclosed : s.confirms.tracker.closed = false) (k : Call) (a : Attempt)
    : s.register k a =
        { s with
          confirms := { s.confirms with tracker := (s.confirms.tracker.register a.deliveryTag).1 }
          call := some { k with phase := .publish a } } := by
  unfold State.register
  simp [Tracker.register, hclosed]

theorem Exact.register_open (h : s.Exact σ) (hcall : s.call = some k)
    (hphase : k.phase = .register a) (hclosed : s.confirms.tracker.closed = false)
    : (s.register k a).Exact (σ.register a.deliveryTag) := by
  have hwaiting := h.told.waiting_eq_false hcall (by simp [hphase])
  have hwait : s.confirms.waits a.deliveryTag = none := by
    have hwaits := (h.told.models.tags a.deliveryTag).waiting
    rw [hwaiting] at hwaits
    simpa using hwaits.symm
  have hmodels := h.told.models.register hwait
  have hspec : σ.register a.deliveryTag =
      { σ with entries := update σ.entries a.deliveryTag (some .fresh) } := by
    simp [Spec.register, h.told.models.closed, hclosed]
  have hdemux : s.demux ≠ .exited := by
    intro hdemux
    rw [h.told.closed hdemux] at hclosed
    contradiction
  have hattempt : s.attempt = some a := attempt_of_phase hcall hphase
  have hunsent := h.orderly.unsent_attempt hattempt
  rw [hspec] at hmodels ⊢
  rw [register_of_open hclosed]
  generalize hs' : State.mk _ _ _ _ _ _ _ _ _ _ _ _ = s'
  have hcall' : s'.call = some { k with phase := .publish a } := by rw [← hs']
  have hbroker : s'.broker = s.broker := by rw [← hs']
  have hdemux' : s'.demux = s.demux := by rw [← hs']
  have hresults : s'.results = s.results := by rw [← hs']
  have hpublished : s'.published = s.published := by
    rw [published_of_call hcall, published_of_call hcall']
  have hlive : ∀ tag, s'.Live tag ↔ s.Live tag ∨ a.deliveryTag = tag := by
    intro tag
    unfold Live
    rw [hpublished, registered_of_call hcall, registered_of_call hcall', hphase]
    simp [Phase.registered]
  have hattempt' : s'.attempt = s.attempt := hattempt ▸ attempt_of_call hcall'
  have hstored' : s'.stored = s.stored := by
    rw [stored_of_call hcall, stored_of_call hcall', hphase]
    rfl
  have hverdict (tag : Nat) : s'.verdict tag = s.verdict tag := by
    simp only [verdict, hbroker, hdemux']
  apply h.frame (by rw [← hs']) (by rw [← hs']) (fun _ => by rw [hbroker])
    (hpublished ▸ List.Sublist.refl _) (fun _ => by rw [hattempt']; exact id)
    (fun _ => by rw [hstored']; exact id)
  . intro k' messageIDs hk' hphase'
    rw [hcall', some.injEq] at hk'
    rw [← hk'] at hphase'
    contradiction
  . rw [hresults]
    exact fun _ _ => .inl
  . rw [hresults]
    exact fun _ => id
  . rw [hpublished]
    exact fun _ => .inl
  . intro hmandatory
    have hj := h.joined (by rw [← hmandatory, ← hs'])
    exact hj.register (by rw [← hs']) hbroker hunsent (fun tag => (hlive tag).mp) hstored' hattempt'
  . refine ⟨by rw [← hs']; exact hmodels, ?_, ?_, h.told.kept, ?_, ?_, ?_, ?_⟩
    . intro tag
      rw [hlive, ← h.told.live tag]
      simp only [update_apply, eq_comm (a := tag)]
      split
      . next htag => simp [htag]
      . next htag => simp [htag]
    . intro tag hw
      rw [hwaiting tag] at hw
      contradiction
    . rw [hdemux']
      exact fun hexited => absurd hexited hdemux
    . intro tag e he
      rw [hverdict]
      simp only [marked, hbroker, hdemux']
      simp only [update_apply] at he
      split at he
      . next htag =>
        rw [← some.inj he, htag]
        simp [State.verdict, hunsent, hdemux, Entry.fresh]
      . exact h.told.entry tag e he
    . rw [hdemux', hbroker]
      exact h.told.marking
    . rw [hresults]
      intro b err hmem
      refine (h.told.results b err hmem).mono (by rw [hbroker]) (fun v hv => ?_)
      rw [hverdict]
      exact hv

theorem Exact.deleteID (h : s.Exact σ) (hstored : s.stored = none)
    (hneeded : s.mandatory = true → ∀ tag pub, s.broker tag = some pub → pub.answered = false →
      s.Live tag → pub.attempt.messageID.val ≠ messageID.val)
    : (s.deleteID messageID).Exact σ := by
  have ht := h.told
  unfold State.deleteID
  split
  . next hmandatory =>
    refine h.still rfl rfl rfl rfl (fun _ => rfl) ?_ ⟨ht.models, ht.live, ht.waiting, ht.kept,
      ht.closed, ht.entry, ht.marking, ht.results⟩
    intro _
    refine (h.joined hmandatory).delete rfl (fun _ _ hpub _ => hpub) ?_ ?_ (fun _ => id)
    . intro tag pub hpub hanswered hl
      exact ⟨hl, hneeded hmandatory tag pub hpub hanswered hl⟩
    . intro a ha
      have ha' : s.stored = some a := ha
      rw [hstored] at ha'
      contradiction
  . exact h

theorem deleteID_call (s : State) (messageID : MessageID)
    : (s.deleteID messageID).call = s.call := by
  unfold deleteID
  split <;> rfl

theorem Exact.deregister (h : s.Exact σ) (hcall : s.call = some k)
    (hphase : k.phase = .deregister a)
    : Exact { s.deleteID a.messageID with call := some k.next } σ := by
  have hattempt : s.attempt = some a := attempt_of_phase hcall hphase
  have hcall' := (deleteID_call s a.messageID).trans hcall
  have hdelete : (s.deleteID a.messageID).Exact σ := by
    apply h.deleteID
    . rw [stored_of_call hcall, hphase]
      rfl
    . intro hmandatory tag pub hpub hanswered _
      exact (h.joined hmandatory).alone a hattempt tag pub hpub hanswered
  refine hdelete.setCall rfl (hdelete.told.waiting_eq_false hcall' (by simp [hphase])) ?_ ?_ ?_ ?_
    (drained_next rfl)
  . rw [published_of_call rfl, Call.next_published, published_of_call hcall']
  . rw [registered_of_call rfl, Call.next_registered, registered_of_call hcall', hphase]
    rfl
  . simp [State.attempt]
  . simp [State.stored]

theorem Exact.delete (h : s.Exact σ) {messageIDs : List MessageID} (hcall : s.call = some k)
    (hphase : k.phase = .delete (messageID :: messageIDs))
    : Exact { s.deleteID messageID with call := some { k with phase := .delete messageIDs } }
        σ := by
  have hdrained := h.orderly.drained k _ hcall hphase
  have hcall' := (deleteID_call s messageID).trans hcall
  have hdelete : (s.deleteID messageID).Exact σ := by
    apply h.deleteID
    . rw [stored_of_call hcall, hphase]
      rfl
    . intro _ tag pub _ _ hlive
      simp [Live, published_of_call hcall, hdrained, registered_of_call hcall, hphase,
        Phase.registered] at hlive
  refine hdelete.setCall rfl (hdelete.told.waiting_eq_false hcall' (by simp [hphase])) ?_ ?_ ?_ ?_ ?_
  . exact (published_of_call hcall').symm
  . rw [registered_of_call rfl, registered_of_call hcall', hphase]
    rfl
  . simp [State.attempt, Phase.attempt]
  . simp [State.stored, Phase.stored]
  . intro k' _ hk' _
    cases hk'
    exact hdrained

theorem Exact.release (h : s.Exact σ) {messageIDs : List MessageID} (hcall : s.call = some k)
    (hphase : k.phase = .delete messageIDs) : Exact { s with call := none } σ := by
  have hdrained := h.orderly.drained k _ hcall hphase
  refine h.setCall rfl (h.told.waiting_eq_false hcall (by simp [hphase])) ?_ ?_ nofun nofun nofun
  . rw [published_of_call hcall, hdrained]
    rfl
  . rw [registered_of_call hcall, hphase]
    rfl

theorem Exact.cancel (h : s.Exact σ) (hcall : s.call = some k) (hphase : k.phase = .cancel a)
    : (s.cancel k a).Exact (σ.cancel a.deliveryTag) := by
  have hwaiting := h.told.waiting_eq_false hcall (by simp [hphase])
  have hattempt : s.attempt = some a := attempt_of_phase hcall hphase
  apply h.fail hattempt (.inl rfl) rfl
  . exact h.told.models.cancel _
  . exact (Tracker.cancel_eq _ _).2.1
  . rw [Call.next_published, published_of_call hcall]
  . exact Call.next_stored k
  . exact Call.next_registered k
  . simp
  . rw [Call.next_published]
    exact fun _ => Call.published_of_next_delete
  . exact Spec.cancel_entries_self _ _
  . intro tag htag
    exact (Spec.cancel_of_ne σ htag).1
  . intro tag
    rw [(Spec.cancel_eq σ _).2.1, hwaiting tag]
  . rw [Spec.cancel_kept_of_not_waiting (hwaiting _)]
    exact h.told.kept

theorem sent_published (hcall : s.call = some k) (a : Attempt)
    : (s.sent k a).published = s.published ++ [a] := by
  rw [published_of_call hcall, published_of_call rfl, Call.next_published]

theorem sent_attempt (s : State) (k : Call) (a : Attempt) : (s.sent k a).attempt = none := by
  rw [attempt_of_call rfl, Call.next_attempt]

theorem sent_stored (s : State) (k : Call) (a : Attempt) : (s.sent k a).stored = none := by
  rw [stored_of_call rfl, Call.next_stored]

theorem sent_live (hcall : s.call = some k) (hphase : k.phase = .publish a) (tag : Nat)
    : (s.sent k a).Live tag ↔ s.Live tag := by
  unfold Live
  rw [sent_published hcall, registered_of_call hcall, registered_of_call rfl, hphase,
    Call.next_registered]
  simp [Phase.registered, or_and_right, exists_or]

theorem Orderly.sent (h : s.Orderly) (hcall : s.call = some k) (hattempt : s.attempt = some a)
    : (s.sent k a).Orderly := by
  constructor
  . intro tag htag
    unfold State.sent at htag ⊢
    dsimp only at htag ⊢
    rw [update_of_ne]
    . apply h.unsent
      omega
    . rw [h.tag a hattempt]
      omega
  . simp [sent_attempt]
  . intro b hb
    rw [sent_published hcall, mem_append, mem_singleton] at hb
    cases hb with
    | inl hb =>
      obtain ⟨pub, hpub, heq⟩ := h.arrived b hb
      refine ⟨pub, ?_, heq⟩
      simp only [State.sent]
      rw [update_of_ne (h.deliveryTag_ne hattempt hb)]
      exact hpub
    | inr hb =>
      refine ⟨⟨a, none, none⟩, ?_, hb.symm⟩
      rw [hb]
      exact update_self _ _ _
  . exact drained_next rfl

theorem Joined.sent (h : s.Joined) (hcall : s.call = some k) (hphase : k.phase = .publish a)
    : (s.sent k a).Joined := by
  have hmap : s.returnTagMap a.messageID.val = some a.deliveryTag := by
    apply h.stored
    rw [stored_of_call hcall, hphase]
    rfl
  constructor
  . intro tag pub t hpub hanswered ht
    simp only [State.sent, update_apply] at hpub
    split at hpub
    . next htag =>
      rw [some.injEq] at hpub
      have ht' : s.returnTagMap pub.attempt.messageID.val = some t := ht
      rw [← hpub, hmap, some.injEq] at ht'
      rw [htag, ht']
    . exact h.own tag pub t hpub hanswered ht
  . intro tag pub hpub hanswered hl
    simp only [State.sent, update_apply] at hpub
    split at hpub
    . next htag =>
      cases hpub
      rw [htag]
      exact hmap
    . exact h.live tag pub hpub hanswered ((sent_live hcall hphase tag).mp hl)
  . simp [sent_stored]
  . simp [sent_attempt]

theorem Numbered.sent (h : s.Numbered) (ho : s.Orderly) (hcall : s.call = some k)
    (hattempt : s.attempt = some a) : (s.sent k a).Numbered := by
  have hnew : a ∉ s.published := fun ha => ho.deliveryTag_ne hattempt ha rfl
  constructor
  . rw [sent_published hcall, nodup_append]
    refine ⟨h.nodup, nodup_singleton a, ?_⟩
    intro b hb c hc
    rw [mem_singleton.mp hc]
    exact fun heq => hnew (heq ▸ hb)
  . rw [sent_published hcall]
    intro b hb
    cases mem_append.mp hb with
    | inl hb => exact h.published b hb
    | inr hb =>
      rw [mem_singleton.mp hb]
      exact h.attempt a hattempt
  . rw [sent_attempt]
    nofun
  . rw [sent_stored]
    intro b err hmem
    exact ⟨(h.results b err hmem).1, nofun⟩
  . intro tag pub hpub
    simp only [State.sent, update_apply] at hpub
    split at hpub
    . next htag =>
      cases hpub
      exact htag.symm
    . exact h.tagged tag pub hpub
  . intro tag pub hpub
    rw [sent_published hcall]
    simp only [State.sent, update_apply] at hpub
    split at hpub
    . cases hpub
      exact .inl (by simp)
    . cases h.accounted tag pub hpub with
      | inl hmem => exact .inl (by simp [hmem])
      | inr hresult => exact .inr hresult

theorem verdict_sent (hunsent : s.broker a.deliveryTag = none) (tag : Nat)
    : (s.sent k a).verdict tag = s.verdict tag := by
  simp only [State.verdict, State.sent, update_apply]
  split
  . next htag =>
    rw [htag, hunsent]
    rfl
  . rfl

theorem Told.sent (h : s.Told σ) (hnumbered : s.Numbered) (hcall : s.call = some k)
    (hphase : k.phase = .publish a) (hunsent : s.broker a.deliveryTag = none)
    : (s.sent k a).Told σ := by
  have hstored : s.stored = some a := by
    rw [stored_of_call hcall, hphase]
    rfl
  have hbroker {tag : Nat} {pub : Publishing} (hpub : s.broker tag = some pub)
      : (s.sent k a).broker tag = some pub := by
    simp only [State.sent]
    rw [update_of_ne]
    . exact hpub
    . rintro rfl
      rw [hunsent] at hpub
      contradiction
  refine ⟨h.models, ?_, ?_, h.kept, h.closed, ?_, ?_, ?_⟩
  . intro tag
    rw [sent_live hcall hphase]
    exact h.live tag
  . intro tag hw
    rw [h.waiting_eq_false hcall (by simp [hphase]) tag] at hw
    contradiction
  . intro tag e he
    rw [verdict_sent hunsent]
    have hreturned : (s.sent k a).marked tag = s.marked tag := by
      simp only [marked, State.sent, update_apply]
      split
      . rfl
      . split
        . next htag => simp [htag, hunsent]
        . rfl
    rw [hreturned]
    exact h.entry tag e he
  . intro tag replyCode hmark
    obtain ⟨pub, hpub, hret⟩ := h.marking tag replyCode hmark
    exact ⟨pub, hbroker hpub, hret⟩
  . intro b err hmem
    rcases h.results b err hmem with ⟨pub, hpub, hattempt, hresolved⟩ | ⟨hnever, herr⟩
    . refine .inl ⟨pub, hbroker hpub, hattempt, hresolved.mono (fun v hv => ?_)⟩
      rw [verdict_sent hunsent]
      exact hv
    . refine .inr ⟨?_, herr⟩
      intro pub hpub
      simp only [State.sent, update_apply] at hpub
      split at hpub
      . cases hpub
        rintro rfl
        exact (hnumbered.results _ err hmem).2 hstored
      . exact hnever pub hpub

theorem Exact.publish (h : s.Exact σ) {ok : Bool} (hcall : s.call = some k)
    (hphase : k.phase = .publish a) (hstep : s.publish k a ok = some s') : s'.Exact σ := by
  have hattempt : s.attempt = some a := attempt_of_phase hcall hphase
  unfold State.publish at hstep
  split at hstep
  . split at hstep
    . contradiction
    . cases hstep
      refine ⟨h.orderly.sent hcall hattempt, ?_, h.numbered.sent h.orderly hcall hattempt,
        h.told.sent h.numbered hcall hphase (h.orderly.unsent_attempt hattempt)⟩
      intro hmandatory
      exact (h.joined hmandatory).sent hcall hphase
  . cases hstep
    refine h.setCall rfl (h.told.waiting_eq_false hcall (by simp [hphase])) ?_ ?_ ?_ nofun ?_
    . exact (published_of_call hcall).symm
    . rw [registered_of_call hcall, hphase]
      rfl
    . rw [hattempt]
      exact fun _ => id
    . intro k' messageIDs hk' hdelete
      cases hk'
      contradiction

theorem closed_of_waitStep {c c' : Confirms.State} {w : WaitStep} {timeout : Int}
    (hstep : c.step (w.action tag timeout) = some c') : c'.tracker.closed = c.tracker.closed := by
  cases w with
  | begin =>
    simp only [WaitStep.action, Confirms.State.step, Confirms.State.waitBegin] at hstep
    split at hstep
    . contradiction
    . split at hstep <;> cases hstep <;> rfl
  | done =>
    simp only [WaitStep.action, Confirms.State.step, Confirms.State.waitDone] at hstep
    split at hstep
    . split at hstep
      . cases hstep
        rfl
      . contradiction
    . contradiction
  | timer | ctx =>
    simp only [WaitStep.action, Confirms.State.step, Confirms.State.waitExpire] at hstep
    split at hstep
    . split at hstep
      . cases hstep
        rfl
      . contradiction
    . contradiction
  | delete =>
    simp only [WaitStep.action, Confirms.State.step, Confirms.State.waitDelete] at hstep
    split at hstep
    . cases hstep
      rfl
    . cases hstep
      rfl
    . contradiction

theorem Exact.left_eq (h : s.Exact σ) (hlive : s.Live tag) : σ.left tag = s.verdict tag := by
  obtain ⟨e, he⟩ := isSome_iff_exists.mp ((h.told.live tag).mpr hlive)
  simp only [Spec.left, h.told.kept tag, he]
  exact (h.told.entry tag e he).1

theorem resolved_of_left {err : Option Confirms.Err}
    (h : s.verdict tag = some err ∨ err = some .timeout ∨ err = some .ctx)
    : s.Resolved tag (err.map mapConfirmError) := by
  rcases h with hv | herr | herr
  . exact .inr (.inr ⟨err, hv, rfl⟩)
  . rw [herr]
    exact .inl rfl
  . rw [herr]
    exact .inr (.inl rfl)

theorem Exact.deliveryTag_ne (h : s.Exact σ) {b : Attempt} {published : List Attempt}
    (hpublished : s.published = a :: published) (hb : b ∈ published)
    : b.deliveryTag ≠ a.deliveryTag := by
  intro htag
  obtain ⟨pub, hpub, hattempt⟩ := h.orderly.arrived b (by simp [hpublished, hb])
  obtain ⟨pub', hpub', hattempt'⟩ := h.orderly.arrived a (by simp [hpublished])
  rw [htag, hpub', some.injEq] at hpub
  rw [← hpub, hattempt'] at hattempt
  have hnodup := h.numbered.nodup
  rw [hpublished, nodup_cons] at hnodup
  exact hnodup.1 (hattempt ▸ hb)

theorem Exact.endWait (h : s.Exact σ) {published : List Attempt} {confirms : Confirms.State}
    {err : Option Confirms.Err} (hcall : s.call = some k) (hphase : k.phase = .wait)
    (hpublished : k.published = a :: published)
    (hclosed : confirms.tracker.closed = s.confirms.tracker.closed)
    (hleft : σ.left a.deliveryTag = some err ∨ err = some .timeout ∨ err = some .ctx)
    (hmodels : confirms.Models (σ.finish a.deliveryTag err))
    : Exact (resolved { s with confirms } a (err.map mapConfirmError)
        (Call.next { k with published })) (σ.finish a.deliveryTag err) := by
  have hpublished' : s.published = a :: published := (published_of_call hcall).trans hpublished
  have hmem {b : Attempt} {e : Option Err} (hmem : (b, e) ∈ s.results ++ [(a, err.map mapConfirmError)])
      : (b, e) ∈ s.results ∨ b = a ∧ e = err.map mapConfirmError := by
    simpa using hmem
  have hsub : ∀ b ∈ published, b ∈ s.published := by
    rw [hpublished']
    exact fun _ => mem_cons_of_mem a
  refine h.frame rfl rfl (fun _ => rfl) ?_ ?_ ?_ (drained_next rfl) ?_ ?_ ?_ ?_ ?_
  . rw [published_of_call rfl, Call.next_published, hpublished']
    exact sublist_cons_self a published
  . simp [State.attempt, resolved]
  . simp [State.stored, resolved]
  . intro b e hb
    refine (hmem hb).imp_right fun hba => ⟨?_, .inr ?_⟩
    . simp [State.stored, resolved]
    . simp [hba.1, hpublished']
  . intro r hr
    exact mem_append_left _ hr
  . intro b hb
    rw [hpublished', mem_cons] at hb
    cases hb with
    | inl hba => exact .inr ⟨err.map mapConfirmError, by simp [resolved, hba]⟩
    | inr hb =>
      rw [published_of_call rfl, Call.next_published]
      exact .inl hb
  . intro hmandatory
    exact (h.joined hmandatory).next rfl rfl rfl hsub
  . refine h.told.move hmodels hclosed rfl rfl ?_ ?_ ?_ ?_ ?_
    . intro tag
      rw [live_next_iff rfl]
      simp only [Spec.finish, Spec.remove, update_apply]
      split
      . next htag =>
        simp only [isSome_none, Bool.false_eq_true, false_iff, not_exists, not_and]
        intro b hb
        rw [htag]
        exact h.deliveryTag_ne hpublished' hb
      . next htag =>
        rw [h.told.live, Live, hpublished', registered_of_call hcall, hphase]
        simp [Phase.registered, Ne.symm htag]
    . intro tag hw
      simp only [Spec.finish, update_apply] at hw
      split at hw
      . contradiction
      . -- only the tag that ends was waited for
        next hne =>
        obtain ⟨k', a', _, hk', _, hpublished', htag⟩ := h.told.waiting tag hw
        rw [hcall, some.injEq] at hk'
        rw [← hk', hpublished, cons.injEq] at hpublished'
        exact absurd (hpublished'.1 ▸ htag.symm) hne
    . intro tag
      simp only [Spec.finish, update_apply]
      split
      . rfl
      . exact h.told.kept tag
    . intro tag e he
      simp only [Spec.finish, Spec.remove, update_apply] at he
      split at he
      . contradiction
      . exact he
    . intro b e hb
      refine (hmem hb).imp_right fun hba => .inl ?_
      obtain ⟨pub, hpub, hattempt⟩ := h.orderly.arrived a (by simp [hpublished'])
      rw [h.left_eq (.inl ⟨a, by simp [hpublished'], rfl⟩)] at hleft
      rw [hba.1, hba.2]
      exact ⟨pub, hpub, hattempt, resolved_of_left hleft⟩

theorem Exact.wait (h : s.Exact σ) {w : WaitStep} (hcall : s.call = some k)
    (hphase : k.phase = .wait) (hstep : s.wait k w = some s') : ∃ σ', s'.Exact σ' := by
  have ht := h.told
  unfold State.wait at hstep
  split at hstep
  . contradiction
  . next a published hpublished =>
    split at hstep
    . contradiction
    . next confirms hwait =>
      have hclosed := closed_of_waitStep hwait
      obtain ⟨σ', hmodels, hmove⟩ := exists_waitMove ht.models hwait
      refine ⟨σ', ?_⟩
      rw [← hmodels.results, ← ht.models.results] at hstep
      rcases hmove with ⟨hentries, hkept, hresults, hwaiting⟩ | ⟨err, hσ', hleft⟩
      . rw [hresults, drop_length] at hstep
        cases hstep
        refine h.still rfl rfl rfl rfl (fun _ => rfl) ?_ ?_
        . intro hmandatory
          have hj := h.joined hmandatory
          exact ⟨hj.own, hj.live, hj.stored, hj.alone⟩
        . refine ht.move hmodels hclosed rfl rfl ?_ ?_ ?_ ?_ (fun _ _ => .inl)
          . rw [hentries]
            exact ht.live
          . intro tag hw
            cases hwaiting tag hw with
            | inl hw => exact ht.waiting tag hw
            | inr htag => exact ⟨k, a, published, hcall, hphase, hpublished, htag.symm⟩
          . rw [hkept]
            exact ht.kept
          . rw [hentries]
            exact fun _ _ => id
      . have hresults : σ'.results = σ.results ++ [(a.deliveryTag, err)] := by rw [hσ']; rfl
        rw [hresults, drop_append_of_le_length (Nat.le_refl _), drop_length] at hstep
        cases hstep
        rw [hσ'] at hmodels ⊢
        exact h.endWait hcall hphase hpublished hclosed hleft hmodels

theorem Exact.callStep (h : s.Exact σ) {a : CallAction} (hcall : s.call = some k)
    (hfresh : s.FreshID (.call a)) (hstep : s.callStep k a = some s') : ∃ σ', s'.Exact σ' := by
  unfold State.callStep at hstep
  split at hstep
  . next hphase => exact ⟨σ, h.store hcall hphase hfresh hstep⟩
  . next a hphase =>
    cases hstep
    cases hclosed : s.confirms.tracker.closed with
    | true => exact ⟨σ, h.register_closed hcall hphase hclosed⟩
    | false => exact ⟨_, h.register_open hcall hphase hclosed⟩
  . next hphase =>
    rw [some.injEq] at hstep
    exact ⟨σ, hstep ▸ h.deregister hcall hphase⟩
  . next hphase => exact ⟨σ, h.publish hcall hphase hstep⟩
  . next hphase =>
    rw [some.injEq] at hstep
    exact ⟨_, hstep ▸ h.cancel hcall hphase⟩
  . next hphase => exact h.wait hcall hphase hstep
  . next hphase =>
    rw [some.injEq] at hstep
    exact ⟨σ, hstep ▸ h.delete hcall hphase⟩
  . next hphase =>
    rw [some.injEq] at hstep
    exact ⟨σ, hstep ▸ h.release hcall hphase⟩
  . contradiction

end State
end Publisher
