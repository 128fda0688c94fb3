import Warren.Publisher.Returns.Waits
import Warren.Publisher.Slots.Moves

namespace Slots

open Errors (Err LibErr CtxErr)
open Publisher (MessageID WaitStep)
open Confirms (Entry Spec)
open List Option

def entryAfter (tag : Nat) (e : Entry) : Event → Entry
  | .frame (.markReturned t replyCode) =>
    if tag == t then { e with returned := some replyCode } else e
  | .frame (.ack t multiple) => if Spec.covers t multiple tag then e.resolve none else e
  | .frame (.nack t multiple) => if Spec.covers t multiple tag then e.resolve (some .nacked) else e
  | .frame .closeAll => e.close
  | _ => e

def entryOf (tag : Nat) (events : List Event) : Entry := events.foldl (entryAfter tag) .fresh

def Event.takes (tag : Nat) : Event → Bool
  | .register _ t _ => t == tag
  | .wait t _ => t == tag
  | _ => false

theorem entryOf_concat (tag : Nat) (events : List Event) (e : Event)
    : entryOf tag (events ++ [e]) = entryAfter tag (entryOf tag events) e := by
  simp [entryOf]

structure Since (log : List Event) (idx tag : Nat) (between : List Event) : Prop where
  split : ∃ before, log = before ++ .register idx tag none :: between
  own : ∀ e ∈ between, e.takes tag = false

variable {e : Event}

theorem Since.concat {log between : List Event} {idx tag : Nat} (h : Since log idx tag between)
    (he : e.takes tag = false) : Since (log ++ [e]) idx tag (between ++ [e]) := by
  have ⟨before, hlog⟩ := h.split
  refine ⟨⟨before, ?_⟩, ?_⟩
  . rw [hlog, append_assoc, cons_append]
  . intro e' he'
    cases mem_append.mp he' with
    | inl hmem => exact h.own e' hmem
    | inr hmem => exact mem_singleton.mp hmem ▸ he

theorem Since.of_register (log : List Event) (idx tag : Nat)
    : Since (log ++ [.register idx tag none]) idx tag [] :=
  ⟨⟨log, rfl⟩, by simp⟩

structure Followed (log : List Event) (σ : Spec) (idx tag : Nat) (between : List Event)
    : Prop extends Since log idx tag between where
  entry : σ.entries tag = some (entryOf tag between)

section Followed

variable {log between : List Event} {σ σ' : Spec} {idx tag : Nat}

theorem Followed.congr (h : Followed log σ idx tag between) (hσ : σ'.entries tag = σ.entries tag)
    : Followed log σ' idx tag between :=
  ⟨h.toSince, hσ.trans h.entry⟩

theorem Followed.concat (h : Followed log σ idx tag between) (he : e.takes tag = false)
    (hσ : σ'.entries tag = (σ.entries tag).map (entryAfter tag · e))
    : Followed (log ++ [e]) σ' idx tag (between ++ [e]) := by
  refine ⟨h.toSince.concat he, ?_⟩
  rw [hσ, h.entry, map_some, entryOf_concat]

theorem Followed.concat_of_eq (h : Followed log σ idx tag between) (he : e.takes tag = false)
    (hafter : ∀ entry, entryAfter tag entry e = entry) (hσ : σ'.entries tag = σ.entries tag)
    : Followed (log ++ [e]) σ' idx tag (between ++ [e]) := by
  apply h.concat he
  rw [hσ, h.entry, map_some, hafter]

theorem Followed.of_register (log : List Event) (hσ : σ.entries tag = some .fresh)
    : Followed (log ++ [.register idx tag none]) σ idx tag [] :=
  ⟨Since.of_register log idx tag, hσ⟩

end Followed

namespace Call

def sent (k : Call) : List (Nat × Nat) :=
  match k.phase with
  | .waiting todo => todo
  | .cleaning _ => []
  | .returned _ => []
  | _ => k.published

def current (k : Call) : Option Nat :=
  match k.phase with
  | .registering _ tag => some tag
  | .publishing tag => some tag
  | .cancelling tag _ => some tag
  | _ => none

def awaited (k : Call) : Option Nat :=
  match k.phase with
  | .waiting ((tag, _) :: _) => some tag
  | _ => none

theorem waitResult_eq (k : Call) (tag idx : Nat) (todo : List (Nat × Nat))
    (err : Option Confirms.Err)
    : (k.waitResult tag idx todo err).phase = .waiting todo ∧
      (k.waitResult tag idx todo err).index = k.index ∧
      (k.waitResult tag idx todo err).encoded = k.encoded ∧
      (k.waitResult tag idx todo err).ctxErr = k.ctxErr ∧
      (k.waitResult tag idx todo err).log = k.log ++ [.wait tag err] := by
  cases err <;> simp [waitResult, record, setErr]

structure Ordered (k : Call) (seqNo : Nat) : Prop where
  pairwise : k.sent.Pairwise (fun p q => p.1 < q.1 ∧ p.2 < q.2)
  bound : ∀ p ∈ k.sent, p.1 < seqNo ∧ p.2 < k.index
  current : ∀ tag, k.current = some tag → tag = seqNo

section Ordered

variable {k k' : Call} {seqNo tag : Nat}

theorem Ordered.start (encoded : List (Except Err MessageID)) (ctxErr : CtxErr) (seqNo : Nat)
    : (Call.start encoded ctxErr).Ordered seqNo := by
  constructor
  . exact List.Pairwise.nil
  . intro p hp
    contradiction
  . intro tag htag
    contradiction

theorem Ordered.congr (h : k.Ordered seqNo) (hsent : k'.sent = k.sent) (hindex : k.index ≤ k'.index)
    (hcurrent : ∀ tag, k'.current = some tag → tag = seqNo) : k'.Ordered seqNo := by
  refine ⟨hsent ▸ h.pairwise, ?_, hcurrent⟩
  rw [hsent]
  intro p hp
  have hbound := h.bound p hp
  omega

theorem Ordered.sent_ne (h : k.Ordered seqNo) (hcurrent : k.current = some tag)
    {p : Nat × Nat} (hp : p ∈ k.sent) : p.1 ≠ tag := by
  have hlt := h.bound p hp
  have htag := h.current tag hcurrent
  omega

theorem Ordered.published (h : k.Ordered seqNo) (hphase : k.phase = .publishing tag)
    {log : List Event}
    : Ordered { k with
        log, index := k.index + 1, phase := .looping,
        published := k.published ++ [(tag, k.index)] } (seqNo + 1) := by
  have hsent : k.sent = k.published := by simp [sent, hphase]
  have htag := h.current tag (by simp [Call.current, hphase])
  have hbound := hsent ▸ h.bound
  constructor
  . refine pairwise_append.mpr ⟨hsent ▸ h.pairwise, pairwise_singleton _ _, ?_⟩
    intro p hp q hq
    rw [mem_singleton] at hq
    rw [hq, htag]
    exact hbound p hp
  . intro p hp
    cases mem_append.mp hp with
    | inl hp =>
      have hlt := hbound p hp
      dsimp only
      omega
    | inr hp =>
      rw [mem_singleton.mp hp]
      dsimp only
      omega
  . simp [Call.current]

theorem Ordered.waitEnd {idx : Nat} {todo : List (Nat × Nat)} (h : k.Ordered seqNo)
    (hphase : k.phase = .waiting ((tag, idx) :: todo)) (hphase' : k'.phase = .waiting todo)
    (hindex : k'.index = k.index) : k'.Ordered seqNo := by
  have hsent : k.sent = (tag, idx) :: todo := by simp [sent, hphase]
  have hsent' : k'.sent = todo := by simp [sent, hphase']
  constructor
  . rw [hsent']
    exact (pairwise_cons.mp (hsent ▸ h.pairwise)).2
  . rw [hsent', hindex]
    intro p hp
    apply h.bound
    rw [hsent]
    exact mem_cons_of_mem _ hp
  . simp [Call.current, hphase']

end Ordered

end Call

namespace State

variable {s s' : State} {k k' : Call}

theorem store_eq (s : State) (messageID : MessageID) (tag : Nat)
    : (s.store messageID tag).confirms = s.confirms ∧
      (s.store messageID tag).nextPublishSeqNo = s.nextPublishSeqNo ∧
      (s.store messageID tag).mandatory = s.mandatory := by
  unfold store
  split <;> simp

theorem deregister_eq (s : State) (k : Call) (messageID : MessageID) (err : Confirms.Err)
    : (s.deregister k messageID err).confirms = s.confirms ∧
      (s.deregister k messageID err).nextPublishSeqNo = s.nextPublishSeqNo ∧
      (s.deregister k messageID err).mandatory = s.mandatory := by
  unfold deregister
  split <;> simp [delete]

theorem CallMove.ordered (hmove : s.CallMove k s') (hk : s.call = some k)
    (h : k.Ordered s.nextPublishSeqNo) (hcall : s'.call = some k')
    : k'.Ordered s'.nextPublishSeqNo := by
  cases hmove with
  | skip err hphase hget =>
    cases hcall
    exact h.congr (by simp [Call.sent, hphase, Call.advance]) (Nat.le_succ _)
      (by simp [Call.current, Call.advance])
  | store messageID hphase hget =>
    cases hcall
    rw [(s.store_eq messageID _).2.1]
    exact h.congr (by simp [Call.sent, hphase]) (Nat.le_refl _) (by simp [Call.current])
  | registered messageID tag hphase hopen | unpublished tag err hphase =>
    cases hcall
    exact h.congr (by simp [Call.sent, hphase, Call.record]) (Nat.le_refl _)
      (by simpa [Call.current, hphase] using h.current)
  | refused messageID tag hphase =>
    cases hcall
    exact h.congr (by simp [Call.sent, hphase, Call.record]) (Nat.le_refl _)
      (by simp [Call.current])
  | deregister messageID err hphase =>
    cases hcall
    rw [(s.deregister_eq k messageID err).2.1]
    exact h.congr (by simp [Call.sent, hphase, Call.advance, Call.setErr]) (Nat.le_succ _)
      (by simp [Call.current, Call.advance])
  | published tag hphase =>
    cases hcall
    exact h.published hphase
  | cancel tag err hphase =>
    cases hcall
    exact h.congr (by simp [Call.sent, hphase, Call.advance, Call.setErr]) (Nat.le_succ _)
      (by simp [Call.current, Call.advance])
  | wait tag idx todo w confirms hphase hstep hresults =>
    rw [hk] at hcall
    cases hcall
    exact h
  | waitEnd tag idx todo w confirms x err rest hphase hstep hresults =>
    cases hcall
    have heq := k.waitResult_eq tag idx todo err
    exact h.waitEnd hphase heq.1 heq.2.1
  | clean messageID messageIDs hphase =>
    cases hcall
    exact h.congr (by simp [Call.sent, hphase]) (Nat.le_refl _) (by simp [Call.current])
  | release err hphase => contradiction
  | _ hphase =>
    cases hcall
    exact h.congr (by simp [Call.sent, hphase]) (Nat.le_refl _) (by simp [Call.current])

theorem ordered_step (hmove : s.Move s') (h : ∀ k, s.call = some k → k.Ordered s.nextPublishSeqNo)
    (hcall : s'.call = some k') : k'.Ordered s'.nextPublishSeqNo := by
  cases hmove with
  | start encoded ctxErr hnone =>
    cases hcall
    exact Call.Ordered.start encoded ctxErr _
  | call k s' hk hmove => exact hmove.ordered hk (h k hk) hcall
  | frame f confirms demux hstep =>
    have ⟨k, hk, heq⟩ := map_eq_some_iff.mp hcall
    rw [← heq]
    exact (h k hk).congr rfl (Nat.le_refl _) (h k hk).current
  | loadAndDelete messageID demux => exact h k' hcall

end State

namespace Call

structure Tracked (k : Call) (σ : Spec) : Prop where
  sent : ∀ tag idx, (tag, idx) ∈ k.sent →
    ∃ between, Followed k.log σ idx tag between ∧ .publish idx tag none ∈ between
  publishing : ∀ tag, k.phase = .publishing tag → ∃ between, Followed k.log σ k.index tag between

section Tracked

variable {k k' : Call} {σ σ' : Spec}

theorem Tracked.start (encoded : List (Except Err MessageID)) (ctxErr : CtxErr) (σ : Spec)
    : (Call.start encoded ctxErr).Tracked σ := by
  constructor
  . intro tag idx hmem
    contradiction
  . intro tag hphase
    contradiction

theorem Tracked.congr (h : k.Tracked σ) (hlog : k'.log = k.log)
    (hsent : ∀ p ∈ k'.sent, p ∈ k.sent ∧ σ'.entries p.1 = σ.entries p.1)
    (hphase : ∀ tag, k'.phase ≠ .publishing tag) : k'.Tracked σ' := by
  constructor
  . intro tag idx hmem
    have ⟨hmem, hσ⟩ := hsent _ hmem
    have ⟨between, hfollowed, hpublish⟩ := h.sent tag idx hmem
    exact ⟨between, hlog ▸ hfollowed.congr hσ, hpublish⟩
  . intro tag heq
    exact absurd heq (hphase tag)

theorem Tracked.record (h : k.Tracked σ) (hlog : k'.log = k.log ++ [e])
    (hafter : ∀ tag entry, entryAfter tag entry e = entry)
    (hsent : ∀ p ∈ k'.sent, p ∈ k.sent ∧ e.takes p.1 = false ∧ σ'.entries p.1 = σ.entries p.1)
    (hpublishing : ∀ tag, k'.phase = .publishing tag →
      ∃ between, Followed (k.log ++ [e]) σ' k'.index tag between)
    : k'.Tracked σ' := by
  constructor
  . intro tag idx hmem
    have ⟨hmem, htakes, hσ⟩ := hsent _ hmem
    have ⟨between, hfollowed, hpublish⟩ := h.sent tag idx hmem
    rw [hlog]
    exact ⟨_, hfollowed.concat_of_eq htakes (hafter tag) hσ, mem_append_left _ hpublish⟩
  . rw [hlog]
    exact hpublishing

theorem Tracked.frame (h : k.Tracked σ) (f : Frame)
    (hσ : ∀ tag, σ'.entries tag = (σ.entries tag).map (entryAfter tag · (.frame f)))
    : (k.record (.frame f)).Tracked σ' := by
  constructor
  . intro tag idx hmem
    have ⟨between, hfollowed, hpublish⟩ := h.sent tag idx hmem
    exact ⟨_, hfollowed.concat rfl (hσ tag), mem_append_left _ hpublish⟩
  . intro tag hphase
    have ⟨between, hfollowed⟩ := h.publishing tag hphase
    exact ⟨_, hfollowed.concat rfl (hσ tag)⟩

theorem Tracked.published {tag : Nat} (h : k.Tracked σ) (hphase : k.phase = .publishing tag)
    : Tracked { k with
        log := k.log ++ [.publish k.index tag none], index := k.index + 1, phase := .looping,
        published := k.published ++ [(tag, k.index)] } σ := by
  have hsent : k.sent = k.published := by simp [Call.sent, hphase]
  constructor
  . intro t idx hmem
    cases mem_append.mp hmem with
    | inl hmem =>
      have ⟨between, hfollowed, hpublish⟩ := h.sent t idx (hsent ▸ hmem)
      exact ⟨_, hfollowed.concat_of_eq rfl (fun _ => rfl) rfl, mem_append_left _ hpublish⟩
    | inr hmem =>
      have ⟨ht, hidx⟩ := Prod.mk.inj (mem_singleton.mp hmem)
      have ⟨between, hfollowed⟩ := h.publishing tag hphase
      rw [ht, hidx]
      exact ⟨_, hfollowed.concat_of_eq rfl (fun _ => rfl) rfl, by simp⟩
  . intro t heq
    contradiction

end Tracked

end Call

namespace State

structure Linked (s : State) (σ : Spec) : Prop where
  models : s.confirms.Models σ
  kept : ∀ tag, σ.kept tag = none
  waiting : ∀ tag, σ.waiting tag = true → s.call.bind Call.awaited = some tag
  tracked : ∀ k, s.call = some k → k.Tracked σ

variable {s s' : State} {k k' : Call} {σ σ' : Spec} {tag idx : Nat} {todo : List (Nat × Nat)}

theorem Linked.init (mandatory : Bool) (confirmTimeout : Int)
    : (State.init mandatory confirmTimeout).Linked .init := by
  constructor
  . exact Confirms.State.Models.init
  . intro tag
    rfl
  . intro tag hwaiting
    contradiction
  . intro k hcall
    contradiction

theorem exists_frame {c c' : Confirms.State} (h : c.Models σ) {f : Frame}
    (hstep : c.step f.action = some c')
    : ∃ σ', c'.Models σ' ∧ σ'.kept = σ.kept ∧ σ'.waiting = σ.waiting ∧
        ∀ tag, σ'.entries tag = (σ.entries tag).map (entryAfter tag · (.frame f)) := by
  have ⟨σ', hrun, hmodels⟩ := h.step (by cases f <;> trivial) hstep
  refine ⟨σ', hmodels, ?_⟩
  cases f with
  | markReturned t replyCode =>
    cases hrun
    refine ⟨rfl, rfl, ?_⟩
    intro tag
    simp only [Spec.markReturned, Spec.mapEntries, entryAfter]
    split <;> simp
  | closeAll =>
    cases hrun
    exact ⟨rfl, rfl, fun _ => rfl⟩
  | _ =>
    cases hrun
    refine ⟨rfl, rfl, ?_⟩
    intro tag
    simp only [Spec.frame, Spec.mapEntries, entryAfter]
    split <;> simp

theorem exists_wait {c c' : Confirms.State} (h : c.Models σ) {w : WaitStep}
    {timeout : Int} (hstep : c.step (w.action tag timeout) = some c')
    : ∃ σ', c'.Models σ' ∧
        ((c'.results.drop c.results.length = [] ∧ σ'.entries = σ.entries ∧ σ'.kept = σ.kept ∧
            ∀ x, σ'.waiting x = true → σ.waiting x = true ∨ x = tag) ∨
          ∃ err, c'.results.drop c.results.length = [(tag, err)] ∧ σ' = σ.finish tag err ∧
            (σ.left tag = some err ∨ err = some .timeout ∨ err = some .ctx)) := by
  have ⟨σ', hmodels, hmove⟩ := Publisher.exists_waitMove h hstep
  refine ⟨σ', hmodels, ?_⟩
  rw [← hmodels.results, ← h.results]
  cases hmove with
  | inl hsame =>
    have ⟨hentries, hkept, hresults, hwaiting⟩ := hsame
    left
    rw [hresults, drop_length]
    exact ⟨rfl, hentries, hkept, hwaiting⟩
  | inr hfinish =>
    have ⟨err, heq, hleft⟩ := hfinish
    right
    refine ⟨err, ?_, heq, hleft⟩
    rw [heq]
    exact drop_left

theorem Linked.congr (h : s.Linked σ) (hconfirms : s'.confirms = s.confirms)
    (hawaited : ∀ tag, s.call.bind Call.awaited = some tag →
      s'.call.bind Call.awaited = some tag)
    (htracked : ∀ k, s'.call = some k → k.Tracked σ) : s'.Linked σ :=
  ⟨hconfirms ▸ h.models, h.kept, fun tag hwaiting => hawaited tag (h.waiting tag hwaiting),
    htracked⟩

theorem Linked.waiting_eq_false (h : s.Linked σ) (hcall : s.call = some k)
    (hawaited : k.awaited = none) (tag : Nat) : σ.waiting tag = false := by
  cases hwaiting : σ.waiting tag with
  | false => rfl
  | true =>
    have hsome := h.waiting tag hwaiting
    rw [hcall, bind_some, hawaited] at hsome
    contradiction

theorem Linked.set_call (h : s.Linked σ) (hk : s.call = some k) (hawaited : k.awaited = none)
    (hconfirms : s'.confirms = s.confirms) (hcall : s'.call = some k') (htracked : k'.Tracked σ)
    : s'.Linked σ := by
  apply h.congr hconfirms
  . rw [hk, bind_some, hawaited]
    intro tag htag
    contradiction
  . rw [hcall]
    intro k'' heq
    exact some.inj heq ▸ htracked

theorem Linked.register {messageID : MessageID} (h : s.Linked σ) (hk : s.call = some k)
    (hord : k.Ordered s.nextPublishSeqNo) (hphase : k.phase = .registering messageID tag)
    (hopen : s.confirms.tracker.closed = false)
    : Linked
        { s with
          confirms := { s.confirms with tracker := (s.confirms.tracker.register tag).1 }
          call := some { k.record (.register k.index tag none) with phase := .publishing tag } }
        (σ.register tag) := by
  have hnot := h.waiting_eq_false hk (by simp [Call.awaited, hphase])
  have hwait : s.confirms.waits tag = none := by
    have hwaiting := (h.models.tags tag).waiting
    rw [hnot tag] at hwaiting
    simpa using hwaiting.symm
  have hclosed : σ.closed = false := h.models.closed.trans hopen
  have hcurrent : k.current = some tag := by simp [Call.current, hphase]
  constructor
  . exact h.models.register hwait
  . intro x
    simp only [Spec.register, hclosed]
    exact h.kept x
  . intro x hx
    simp only [Spec.register, hclosed] at hx
    rw [if_neg (by simp), hnot x] at hx
    contradiction
  . intro k' hk'
    cases hk'
    apply (h.tracked k hk).record rfl (fun _ _ => rfl)
    . intro p hp
      have hmem : p ∈ k.sent := by simpa [Call.sent, Call.record, hphase] using hp
      have hne := hord.sent_ne hcurrent hmem
      refine ⟨hmem, ?_, ?_⟩
      . simpa [Event.takes] using hne.symm
      . simp [Spec.register, hclosed, hne]
    . intro t ht
      cases ht
      exact ⟨[], Followed.of_register k.log (by simp [Spec.register, hclosed])⟩

theorem Linked.cancel {err : LibErr} (h : s.Linked σ) (hk : s.call = some k)
    (hord : k.Ordered s.nextPublishSeqNo) (hphase : k.phase = .cancelling tag err)
    : (s.cancel k tag err).Linked (σ.cancel tag) := by
  have hnot := h.waiting_eq_false hk (by simp [Call.awaited, hphase])
  have hcurrent : k.current = some tag := by simp [Call.current, hphase]
  constructor
  . exact h.models.cancel tag
  . rw [Spec.cancel_kept_of_not_waiting (hnot tag)]
    exact h.kept
  . intro x hx
    rw [(σ.cancel_eq tag).2.1, hnot x] at hx
    contradiction
  . intro k' hk'
    cases hk'
    refine (h.tracked k hk).congr rfl ?_ ?_
    . intro p hp
      have hmem : p ∈ k.sent := by simpa [Call.sent, Call.advance, Call.setErr, hphase] using hp
      exact ⟨hmem, (σ.cancel_of_ne (hord.sent_ne hcurrent hmem)).1⟩
    . simp [Call.advance]

theorem Linked.wait {confirms : Confirms.State}
    (h : s.Linked σ) (hk : s.call = some k) (hphase : k.phase = .waiting ((tag, idx) :: todo))
    (hmodels : confirms.Models σ') (hentries : σ'.entries = σ.entries) (hkept : σ'.kept = σ.kept)
    (hwaiting : ∀ x, σ'.waiting x = true → σ.waiting x = true ∨ x = tag)
    : Linked { s with confirms } σ' := by
  constructor
  . exact hmodels
  . rw [hkept]
    exact h.kept
  . intro x hx
    cases hwaiting x hx with
    | inl hx => exact h.waiting x hx
    | inr heq => simp [hk, Call.awaited, hphase, heq]
  . intro k' hk'
    have heq : k = k' := some.inj (hk.symm.trans hk')
    apply (h.tracked k' hk').congr rfl
    . intro p hp
      exact ⟨hp, by rw [hentries]⟩
    . rw [← heq, hphase]
      simp

theorem Linked.waitEnd {confirms : Confirms.State}
    {err : Option Confirms.Err} (h : s.Linked σ) (hk : s.call = some k)
    (hord : k.Ordered s.nextPublishSeqNo) (hphase : k.phase = .waiting ((tag, idx) :: todo))
    (hmodels : confirms.Models (σ.finish tag err))
    : Linked { s with confirms, call := some (k.waitResult tag idx todo err) }
        (σ.finish tag err) := by
  have hsent : k.sent = (tag, idx) :: todo := by simp [Call.sent, hphase]
  have ⟨hphase', _, _, _, hlog⟩ := k.waitResult_eq tag idx todo err
  constructor
  . exact hmodels
  . intro x
    simp only [Spec.finish, Function.update_apply, h.kept x, ite_self]
  . intro x hx
    simp only [Spec.finish, Function.update_apply] at hx
    split at hx
    . contradiction
    . next hne =>
      have hawaited := h.waiting x hx
      simp only [hk, bind_some, Call.awaited, hphase, some.injEq] at hawaited
      exact absurd hawaited.symm hne
  . intro k' hk'
    cases hk'
    apply (h.tracked k hk).record hlog (fun _ _ => rfl)
    . intro p hp
      have hmem : p ∈ todo := by simpa [Call.sent, hphase'] using hp
      have hlt := (pairwise_cons.mp (hsent ▸ hord.pairwise)).1 p hmem
      have hne : p.1 ≠ tag := Nat.ne_of_gt hlt.1
      refine ⟨hsent ▸ mem_cons_of_mem _ hmem, ?_, ?_⟩
      . simpa [Event.takes] using hne.symm
      . simp [Spec.finish, Spec.remove, hne]
    . rw [hphase']
      simp

theorem CallMove.linked (hmove : s.CallMove k s') (hk : s.call = some k) (h : s.Linked σ)
    (hord : k.Ordered s.nextPublishSeqNo) : ∃ σ', s'.Linked σ' := by
  have htracked := h.tracked k hk
  cases hmove with
  | skip err hphase hget =>
    refine ⟨σ, h.set_call hk (by simp [Call.awaited, hphase]) rfl rfl ?_⟩
    exact htracked.congr rfl (by simp [Call.sent, Call.advance, hphase]) (by simp [Call.advance])
  | looped hphase hget =>
    refine ⟨σ, h.set_call hk (by simp [Call.awaited, hphase]) rfl rfl ?_⟩
    exact htracked.congr rfl (by simp [Call.sent, hphase]) (by simp)
  | store messageID hphase hget =>
    refine ⟨σ, h.set_call hk (by simp [Call.awaited, hphase]) (s.store_eq messageID _).1 rfl ?_⟩
    exact htracked.congr rfl (by simp [Call.sent, hphase]) (by simp)
  | registered messageID tag hphase hopen => exact ⟨_, h.register hk hord hphase hopen⟩
  | refused messageID tag hphase =>
    have hcurrent : k.current = some tag := by simp [Call.current, hphase]
    refine ⟨σ, h.set_call hk (by simp [Call.awaited, hphase]) rfl rfl ?_⟩
    apply htracked.record rfl (fun _ _ => rfl)
    . intro p hp
      have hmem : p ∈ k.sent := by simpa [Call.sent, Call.record, hphase] using hp
      refine ⟨hmem, ?_, rfl⟩
      simpa [Event.takes] using (hord.sent_ne hcurrent hmem).symm
    . simp
  | deregister messageID err hphase =>
    refine ⟨σ, h.set_call hk (by simp [Call.awaited, hphase])
      (s.deregister_eq k messageID err).1 rfl ?_⟩
    exact htracked.congr rfl (by simp [Call.sent, Call.advance, Call.setErr, hphase])
      (by simp [Call.advance])
  | published tag hphase =>
    exact ⟨σ, h.set_call hk (by simp [Call.awaited, hphase]) rfl rfl (htracked.published hphase)⟩
  | unpublished tag err hphase =>
    refine ⟨σ, h.set_call hk (by simp [Call.awaited, hphase]) rfl rfl ?_⟩
    apply htracked.record rfl (fun _ _ => rfl)
    . intro p hp
      exact ⟨by simpa [Call.sent, Call.record, hphase] using hp, rfl, rfl⟩
    . simp
  | cancel tag err hphase => exact ⟨_, h.cancel hk hord hphase⟩
  | wait tag idx todo w confirms hphase hstep hresults =>
    have ⟨σ', hmodels, hmove⟩ := exists_wait h.models hstep
    cases hmove with
    | inl hsame => exact ⟨σ', h.wait hk hphase hmodels hsame.2.1 hsame.2.2.1 hsame.2.2.2⟩
    | inr hend =>
      have ⟨err, hdrop, _⟩ := hend
      rw [hresults] at hdrop
      contradiction
  | waitEnd tag idx todo w confirms x err rest hphase hstep hresults =>
    have ⟨σ', hmodels, hmove⟩ := exists_wait h.models hstep
    cases hmove with
    | inl hsame =>
      rw [hresults] at hsame
      exact absurd hsame.1 (cons_ne_nil _ _)
    | inr hend =>
      have ⟨err', hdrop, heq, _⟩ := hend
      rw [hresults] at hdrop
      cases hdrop
      exact ⟨_, h.waitEnd hk hord hphase (heq ▸ hmodels)⟩
  | clean messageID messageIDs hphase =>
    refine ⟨σ, h.set_call hk (by simp [Call.awaited, hphase]) rfl rfl ?_⟩
    exact htracked.congr rfl (by simp [Call.sent]) (by simp)
  | release err hphase =>
    refine ⟨σ, h.congr rfl ?_ ?_⟩
    . simp [hk, Call.awaited, hphase]
    . simp
  | _ hphase =>
    refine ⟨σ, h.set_call hk (by simp [Call.awaited, hphase]) rfl rfl ?_⟩
    exact htracked.congr rfl (by simp [Call.sent]) (by simp)

theorem linked_step (hmove : s.Move s') (h : s.Linked σ)
    (hord : ∀ k, s.call = some k → k.Ordered s.nextPublishSeqNo) : ∃ σ', s'.Linked σ' := by
  cases hmove with
  | start encoded ctxErr hnone =>
    refine ⟨σ, h.congr rfl ?_ ?_⟩
    . simp [hnone]
    . intro k hk
      cases hk
      exact Call.Tracked.start encoded ctxErr σ
  | call k s' hk hmove => exact hmove.linked hk h (hord k hk)
  | frame f confirms demux hstep =>
    have ⟨σ', hmodels, hkept, hwaiting, hentries⟩ := exists_frame h.models hstep
    refine ⟨σ', hmodels, hkept ▸ h.kept, ?_, ?_⟩
    . intro tag htag
      rw [hwaiting] at htag
      rw [bind_map]
      exact h.waiting tag htag
    . intro k' hk'
      have ⟨k, hk, heq⟩ := map_eq_some_iff.mp hk'
      rw [← heq]
      exact (h.tracked k hk).frame f hentries
  | loadAndDelete messageID demux => exact ⟨σ, h.congr rfl (fun _ => id) h.tracked⟩

end State
end Slots
