import Warren.Publisher.Slots.Slotted

namespace Slots

open Errors (Err LibErr CtxErr)
open Publisher (MessageID WaitStep)
open List

namespace Event

def attempted : Event → Option Nat
  | register idx _ _ => some idx
  | _ => none

def registered : Event → Option Nat
  | register idx _ none => some idx
  | _ => none

def handed : Event → Option Nat
  | publish idx _ _ => some idx
  | _ => none

end Event

namespace Call

def encodes (k : Call) (i : Nat) : Bool := (k.encoded[i]?.bind encodedID).isSome

def tried (k : Call) : Nat :=
  match k.phase with
  | .deregistering _ _ => k.index + 1
  | .publishing _ => k.index + 1
  | .cancelling _ _ => k.index + 1
  | _ => k.index

def pending (k : Call) : List Nat :=
  match k.phase with
  | .publishing _ => [k.index]
  | _ => []

structure Listed (k : Call) : Prop where
  attempted : k.log.filterMap Event.attempted = (range k.tried).filter k.encodes
  handed : k.log.filterMap Event.handed ++ k.pending = k.log.filterMap Event.registered

section Listed

variable {k k' : Call}

theorem Listed.start (encoded : List (Except Err MessageID)) (ctxErr : CtxErr)
    : (Call.start encoded ctxErr).Listed :=
  ⟨rfl, rfl⟩

theorem Listed.congr (h : k.Listed) (hencoded : k'.encoded = k.encoded) (hlog : k'.log = k.log)
    (htried : k'.tried = k.tried) (hpending : k'.pending = k.pending) : k'.Listed := by
  constructor
  . rw [hlog, htried, h.attempted]
    unfold encodes
    rw [hencoded]
  . rw [hlog, hpending]
    exact h.handed

theorem filter_range_succ (k : Call) (n : Nat)
    : (range (n + 1)).filter k.encodes =
        (range n).filter k.encodes ++ [n].filter k.encodes := by
  rw [range_succ, filter_append]

theorem Listed.skip (h : k.Listed) (hphase : k.phase = .looping) {err : Err}
    (hget : k.encoded[k.index]? = some (.error err)) : k.advance.Listed := by
  have htried : k.tried = k.index := by simp [tried, hphase]
  have hencodes : k.encodes k.index = false := by simp [encodes, hget, encodedID]
  constructor
  . show k.log.filterMap _ = (range (k.index + 1)).filter k.encodes
    rw [filter_range_succ, h.attempted, htried]
    simp [hencodes]
  . have hhanded := h.handed
    simp only [pending, hphase] at hhanded
    exact hhanded

theorem Listed.register (h : k.Listed) {messageID : MessageID} {tag : Nat}
    (hphase : k.phase = .registering messageID tag)
    (hok : ∃ messageID, k.encoded[k.index]? = some (.ok messageID)) {err : Option Confirms.Err}
    (hencoded : k'.encoded = k.encoded) (hlog : k'.log = k.log ++ [.register k.index tag err])
    (htried : k'.tried = k.index + 1)
    (hpending : k'.pending = if err.isNone then [k.index] else []) : k'.Listed := by
  have ⟨messageID', hok⟩ := hok
  have hencodes : k.encodes k.index = true := by simp [encodes, hok, encodedID]
  have hattempted := h.attempted
  have hhanded := h.handed
  simp only [tried, hphase] at hattempted
  simp only [pending, hphase, append_nil] at hhanded
  have heq : k'.encodes = k.encodes := by
    unfold encodes
    rw [hencoded]
  constructor
  . rw [hlog, htried, heq, filter_range_succ, filterMap_append, hattempted]
    simp [Event.attempted, hencodes]
  . rw [hlog, hpending, filterMap_append, filterMap_append, ← hhanded]
    cases err with
    | none => simp [Event.handed, Event.registered]
    | some err =>
      have hnone : Event.registered (.register k.index tag (some err)) = none := rfl
      simp [Event.handed, hnone]

theorem Listed.publish (h : k.Listed) {tag : Nat} (hphase : k.phase = .publishing tag)
    {err : Option LibErr} (hencoded : k'.encoded = k.encoded)
    (hlog : k'.log = k.log ++ [.publish k.index tag err]) (htried : k'.tried = k.index + 1)
    (hpending : k'.pending = []) : k'.Listed := by
  have hattempted := h.attempted
  have hhanded := h.handed
  simp only [tried, hphase] at hattempted
  simp only [pending, hphase] at hhanded
  have heq : k'.encodes = k.encodes := by
    unfold encodes
    rw [hencoded]
  constructor
  . rw [hlog, htried, heq, filterMap_append, hattempted]
    simp [Event.attempted]
  . rw [hlog, hpending, filterMap_append, filterMap_append, ← hhanded]
    simp [Event.handed, Event.registered]

theorem Listed.record (h : k.Listed) {e : Event} (hattempted : e.attempted = none)
    (hregistered : e.registered = none) (hhanded : e.handed = none)
    (hencoded : k'.encoded = k.encoded) (hlog : k'.log = k.log ++ [e])
    (htried : k'.tried = k.tried) (hpending : k'.pending = k.pending) : k'.Listed := by
  constructor
  . rw [hlog, htried, filterMap_append, h.attempted]
    unfold encodes
    simp [hattempted, hencoded]
  . rw [hlog, hpending, filterMap_append, filterMap_append, ← h.handed]
    simp [hregistered, hhanded]

end Listed

end Call

namespace State

variable {s s' : State} {k k' : Call}

theorem CallMove.listed (hmove : s.CallMove k s') (hk : s.call = some k) (h : k.Listed)
    (hinv : k.PhaseInv) (hcall : s'.call = some k') : k'.Listed := by
  cases hmove with
  | skip err hphase hget =>
    cases hcall
    exact h.skip hphase hget
  | store messageID hphase hget =>
    cases hcall
    exact h.congr rfl rfl (by simp [Call.tried, hphase]) (by simp [Call.pending, hphase])
  | registered messageID tag hphase hopen | refused messageID tag hphase =>
    cases hcall
    rw [Call.PhaseInv, hphase] at hinv
    exact h.register hphase hinv rfl rfl rfl rfl
  | deregister messageID err hphase | cancel tag err hphase =>
    cases hcall
    exact h.congr rfl rfl (by simp [Call.tried, Call.advance, Call.setErr, hphase])
      (by simp [Call.pending, Call.advance, hphase])
  | published tag hphase | unpublished tag err hphase =>
    cases hcall
    exact h.publish hphase rfl rfl rfl rfl
  | wait tag idx todo w confirms hphase hstep hresults =>
    cases hk.symm.trans hcall
    exact h
  | waitEnd tag idx todo w confirms x err rest hphase hstep hresults =>
    cases hcall
    obtain ⟨hphase', hindex, hencoded, _, hlog⟩ := k.waitResult_eq tag idx todo err
    exact h.record rfl rfl rfl hencoded hlog (by simp [Call.tried, hphase, hphase', hindex])
      (by simp [Call.pending, hphase, hphase'])
  | clean messageID messageIDs hphase =>
    cases hcall
    exact h.congr rfl rfl (by simp [Call.tried, hphase]) (by simp [Call.pending, hphase])
  | release err hphase => contradiction
  | _ hphase =>
    cases hcall
    exact h.congr rfl rfl (by simp [Call.tried, hphase]) (by simp [Call.pending, hphase])

theorem listed_step (hmove : s.Move s') (h : ∀ k, s.call = some k → k.Listed)
    (hinv : ∀ k, s.call = some k → k.PhaseInv) (hcall : s'.call = some k') : k'.Listed := by
  cases hmove with
  | start encoded ctxErr hnone =>
    cases hcall
    exact Call.Listed.start encoded ctxErr
  | call k s' hk hmove => exact hmove.listed hk (h k hk) (hinv k hk) hcall
  | frame f confirms demux hstep =>
    have ⟨k, hk, heq⟩ := Option.map_eq_some_iff.mp hcall
    rw [← heq]
    exact (h k hk).record rfl rfl rfl rfl rfl rfl rfl
  | loadAndDelete messageID demux => exact h k' hcall

end State

theorem registered_sublist_attempted (log : List Event)
    : (log.filterMap Event.registered).Sublist (log.filterMap Event.attempted) := by
  induction log with
  | nil => exact List.Sublist.refl _
  | cons e log ih =>
    cases e with
    | register idx tag err =>
      cases err with
      | none => exact ih.cons_cons idx
      | some err => exact ih.cons idx
    | _ => exact ih

theorem mem_registered_iff {log : List Event} {i : Nat}
    : i ∈ log.filterMap Event.registered ↔ ∃ tag, .register i tag none ∈ log := by
  rw [mem_filterMap]
  constructor
  . intro h
    have ⟨e, hmem, he⟩ := h
    cases e with
    | register idx tag err =>
      cases err with
      | none =>
        cases he
        exact ⟨tag, hmem⟩
      | some err => contradiction
    | _ => contradiction
  . intro h
    have ⟨tag, hmem⟩ := h
    exact ⟨_, hmem, rfl⟩

namespace Call

variable {k : Call} {err : Option Err}

theorem Listed.handed_of_returned (h : k.Listed) (hphase : k.phase = .returned err)
    : k.log.filterMap Event.handed = k.log.filterMap Event.registered := by
  have hhanded := h.handed
  simp only [pending, hphase, append_nil] at hhanded
  exact hhanded

theorem Listed.attempted_of_returned (h : k.Listed) (hphase : k.phase = .returned err)
    : k.log.filterMap Event.attempted = (range k.index).filter k.encodes := by
  have hattempted := h.attempted
  simp only [tried, hphase] at hattempted
  exact hattempted

theorem Listed.pairwise_handed (h : k.Listed) (hphase : k.phase = .returned err)
    : (k.log.filterMap Event.handed).Pairwise (· < ·) := by
  have hpairwise : ((range k.index).filter k.encodes).Pairwise (· < ·) :=
    pairwise_lt_range.filter _
  rw [h.handed_of_returned hphase]
  rw [← h.attempted_of_returned hphase] at hpairwise
  exact hpairwise.sublist (registered_sublist_attempted k.log)

theorem Listed.mem_handed_iff (h : k.Listed) (hphase : k.phase = .returned err) (i : Nat)
    : i ∈ k.log.filterMap Event.handed ↔
        (∃ messageID, k.encoded[i]? = some (.ok messageID)) ∧
          ∃ tag, .register i tag none ∈ k.log := by
  rw [h.handed_of_returned hphase, ← mem_registered_iff]
  constructor
  . intro hmem
    refine ⟨?_, hmem⟩
    have hattempted := (registered_sublist_attempted k.log).subset hmem
    rw [h.attempted_of_returned hphase, mem_filter] at hattempted
    have ⟨messageID, hid⟩ := Option.isSome_iff_exists.mp hattempted.2
    have ⟨e, hget, he⟩ := Option.bind_eq_some_iff.mp hid
    cases e with
    | error err => contradiction
    | ok messageID => exact ⟨messageID, hget⟩
  . exact fun hmem => hmem.2

end Call
end Slots
