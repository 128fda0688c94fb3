import Warren.Publisher.Demux.Impl
import Warren.Publisher.Returns.Verdicts

namespace Publisher

open Function List Option
open State

namespace Frame

def isRet (tag : Nat) : Frame → Bool
  | .ret t _ _ => t = tag
  | .confirm _ _ => false

def isConfirm (tag : Nat) : Frame → Bool
  | .ret _ _ _ => false
  | .confirm t _ => t = tag

def Before (f g : Frame) : Prop :=
  ∀ tag, (f.isConfirm tag → g.isConfirm tag = false ∧ g.isRet tag = false) ∧
    (f.isRet tag → g.isRet tag = false)

end Frame

structure Pipe (broker : Nat → Option Publishing) (frames : List Frame) : Prop where
  ordered : frames.Pairwise Frame.Before
  ret : ∀ tag messageID replyCode, .ret tag messageID replyCode ∈ frames →
    ∃ p, broker tag = some p ∧ p.returned = some replyCode ∧ messageID = p.attempt.messageID.val ∧
      (p.confirmed.isSome → frames.any (·.isConfirm tag))
  confirm : ∀ tag ack, .confirm tag ack ∈ frames →
    ∃ p, broker tag = some p ∧ p.confirmed = some ack

theorem Pipe.nil (broker : Nat → Option Publishing) : Pipe broker [] := by
  constructor
  all_goals simp

variable {broker : Nat → Option Publishing} {frames : List Frame} {tag : Nat} {f : Frame}
  {p : Publishing} {s : State}

theorem Pipe.pass {rest : List Frame} {messageID : String} {replyCode : UInt16}
    (h : Pipe broker (frames ++ .ret tag messageID replyCode :: rest))
    (hframes : ∀ f ∈ frames, ∀ t, f.isRet t = false)
    : Pipe broker (.ret tag messageID replyCode :: (frames ++ rest)) := by
  have hperm := @List.perm_middle _ (Frame.ret tag messageID replyCode) frames rest
  have hordered := pairwise_append.mp h.ordered
  have hrest := pairwise_cons.mp hordered.2.1
  refine ⟨?_, ?_, ?_⟩
  . refine List.Pairwise.cons ?_ (pairwise_append.mpr ⟨hordered.1, hrest.2, ?_⟩)
    . intro f hf
      cases mem_append.mp hf with
      | inl hf =>
        intro t
        exact ⟨nofun, fun _ => hframes f hf t⟩
      | inr hf => exact hrest.1 f hf
    . intro f hf g hg
      exact hordered.2.2 f hf g (by simp [hg])
  . intro t id code hmem
    rw [hperm.any_eq.symm]
    exact h.ret t id code (hperm.mem_iff.mpr hmem)
  . intro t ack hmem
    exact h.confirm t ack (hperm.mem_iff.mpr hmem)

theorem Pipe.tail (h : Pipe broker (f :: frames)) : Pipe broker frames := by
  have hordered := pairwise_cons.mp h.ordered
  refine ⟨hordered.2, ?_, ?_⟩
  . intro tag messageID replyCode hmem
    have ⟨p, hp, hreturned, hid, hany⟩ := h.ret tag messageID replyCode (mem_cons_of_mem f hmem)
    refine ⟨p, hp, hreturned, hid, ?_⟩
    intro hconfirmed
    have hany := hany hconfirmed
    rw [any_cons, Bool.or_eq_true] at hany
    cases hany with
    | inl hf =>
      have := ((hordered.1 _ hmem tag).1 hf).2
      simp [Frame.isRet] at this
    | inr hany => exact hany
  . intro tag ack hmem
    exact h.confirm tag ack (mem_cons_of_mem f hmem)

theorem Pipe.sent (h : Pipe broker frames) (hunsent : broker tag = none) (p : Publishing)
    : Pipe (update broker tag (some p)) frames := by
  grind [Pipe, update_of_ne]

theorem isRet_eq_false_of_returned (h : Pipe broker frames) (hp : broker tag = some p)
    (hreturned : p.returned = none) : ∀ f ∈ frames, f.isRet tag = false := by
  intro f hf
  cases f with
  | confirm => rfl
  | ret t messageID replyCode =>
    have ⟨q, hq, hq', _⟩ := h.ret t messageID replyCode hf
    simp only [Frame.isRet, decide_eq_false_iff_not]
    rintro rfl
    rw [hp, some.injEq] at hq
    rw [← hq, hreturned] at hq'
    contradiction

theorem isConfirm_eq_false_of_confirmed (h : Pipe broker frames) (hp : broker tag = some p)
    (hconfirmed : p.confirmed = none) : ∀ f ∈ frames, f.isConfirm tag = false := by
  intro f hf
  cases f with
  | ret => rfl
  | confirm t ack =>
    have ⟨q, hq, hq'⟩ := h.confirm t ack hf
    simp only [Frame.isConfirm, decide_eq_false_iff_not]
    rintro rfl
    rw [hp, some.injEq] at hq
    rw [← hq, hconfirmed] at hq'
    contradiction

theorem Pipe.brokerReturn (h : Pipe broker frames) (hp : broker tag = some p)
    (hreturned : p.returned = none) (hconfirmed : p.confirmed = none) (replyCode : UInt16)
    : Pipe (update broker tag (some { p with returned := some replyCode }))
        (frames ++ [.ret tag p.attempt.messageID.val replyCode]) := by
  have hret := isRet_eq_false_of_returned h hp hreturned
  have hconfirm := isConfirm_eq_false_of_confirmed h hp hconfirmed
  refine ⟨?_, ?_, ?_⟩
  . rw [pairwise_append]
    refine ⟨h.ordered, pairwise_singleton .., ?_⟩
    intro f hf g hg t
    rw [mem_singleton.mp hg]
    by_cases ht : t = tag
    . rw [ht, hret f hf, hconfirm f hf]
      exact ⟨nofun, nofun⟩
    . simp [Frame.isRet, Frame.isConfirm, Ne.symm ht]
  . intro t messageID code hmem
    rw [mem_append, mem_singleton, Frame.ret.injEq] at hmem
    cases hmem with
    | inl hmem =>
      have ⟨q, hq, hcode, hid, hany⟩ := h.ret t messageID code hmem
      have ht : t ≠ tag := by
        rintro rfl
        simpa [Frame.isRet] using hret _ hmem
      rw [update_of_ne ht]
      refine ⟨q, hq, hcode, hid, ?_⟩
      intro hconfirmed
      rw [any_append, hany hconfirmed]
      rfl
    | inr heq =>
      rw [heq.1, heq.2.1, heq.2.2, update_self]
      exact ⟨_, rfl, rfl, rfl, by simp [hconfirmed]⟩
  . intro t ack hmem
    simp only [mem_append, mem_singleton, reduceCtorEq, or_false] at hmem
    have ⟨q, hq, hack⟩ := h.confirm t ack hmem
    have ht : t ≠ tag := by
      rintro rfl
      simpa [Frame.isConfirm] using hconfirm _ hmem
    rw [update_of_ne ht]
    exact ⟨q, hq, hack⟩

theorem Pipe.brokerConfirm (h : Pipe broker frames) (hp : broker tag = some p)
    (hconfirmed : p.confirmed = none) (ack : Bool)
    : Pipe (update broker tag (some { p with confirmed := some ack }))
        (frames ++ [.confirm tag ack]) := by
  have hconfirm := isConfirm_eq_false_of_confirmed h hp hconfirmed
  refine ⟨?_, ?_, ?_⟩
  . rw [pairwise_append]
    refine ⟨h.ordered, pairwise_singleton .., ?_⟩
    intro f hf g hg t
    rw [mem_singleton.mp hg]
    by_cases ht : t = tag
    . rw [ht, hconfirm f hf]
      exact ⟨nofun, fun _ => rfl⟩
    . simp [Frame.isRet, Frame.isConfirm, Ne.symm ht]
  . intro t messageID code hmem
    simp only [mem_append, mem_singleton, reduceCtorEq, or_false] at hmem
    have ⟨q, hq, hcode, hid, hany⟩ := h.ret t messageID code hmem
    by_cases ht : t = tag
    . rw [ht] at hq ⊢
      rw [hp, some.injEq] at hq
      rw [update_self]
      refine ⟨_, rfl, hq ▸ hcode, hq ▸ hid, ?_⟩
      simp [Frame.isConfirm]
    . rw [update_of_ne ht]
      refine ⟨q, hq, hcode, hid, ?_⟩
      intro hconfirmed
      rw [any_append, hany hconfirmed]
      rfl
  . intro t ack' hmem
    rw [mem_append, mem_singleton, Frame.confirm.injEq] at hmem
    cases hmem with
    | inl hmem =>
      have ⟨q, hq, hack⟩ := h.confirm t ack' hmem
      have ht : t ≠ tag := by
        rintro rfl
        simpa [Frame.isConfirm] using hconfirm _ hmem
      rw [update_of_ne ht]
      exact ⟨q, hq, hack⟩
    | inr heq =>
      rw [heq.1, heq.2, update_self]
      exact ⟨_, rfl, rfl⟩

def Publishing.seen (frames : List Frame) (tag : Nat) (p : Publishing) : Publishing :=
  { p with
    returned := if frames.any (·.isRet tag) then none else p.returned
    confirmed := if frames.any (·.isConfirm tag) then none else p.confirmed }

def State.seen (s : State) (frames : List Frame) : State :=
  { s with broker := fun tag => (s.broker tag).map (Publishing.seen frames tag) }

theorem seen_congr {frames' : List Frame}
    (hret : frames'.any (·.isRet tag) = frames.any (·.isRet tag))
    (hconfirm : frames'.any (·.isConfirm tag) = frames.any (·.isConfirm tag)) (p : Publishing)
    : p.seen frames' tag = p.seen frames tag := by
  unfold Publishing.seen
  rw [hret, hconfirm]

theorem seen_perm {frames' : List Frame} (h : frames'.Perm frames) (s : State)
    : s.seen frames' = s.seen frames := by
  have hseen (tag : Nat) : Publishing.seen frames' tag = Publishing.seen frames tag := by
    funext p
    exact seen_congr h.any_eq h.any_eq p
  simp only [seen, hseen]

theorem any_eq_false_of_forall {q : Frame → Bool} (h : ∀ f ∈ frames, q f = false)
    : frames.any q = false := by
  rw [List.any_eq_false]
  intro f hf
  simp [h f hf]

theorem seen_snoc {p' : Publishing} (hp : s.broker tag = some p)
    (hself : p'.seen (frames ++ [f]) tag = p.seen frames tag)
    (hother : ∀ t, t ≠ tag → f.isRet t = false ∧ f.isConfirm t = false)
    : seen { s with broker := update s.broker tag (some p') } (frames ++ [f]) =
        s.seen frames := by
  have hbroker (t : Nat) : (update s.broker tag (some p') t).map
      (Publishing.seen (frames ++ [f]) t) = (s.broker t).map (Publishing.seen frames t) := by
    rw [update_apply]
    split
    . next ht => rw [ht, hp, map_some, map_some, hself]
    . next ht =>
      congr 1
      funext q
      apply seen_congr
      all_goals simp [hother t ht]
  simp only [seen, hbroker]

theorem seen_brokerReturn (frames : List Frame) (hp : s.broker tag = some p)
    (hreturned : p.returned = none) (replyCode : UInt16)
    : seen { s with
        broker := update s.broker tag (some { p with returned := some replyCode }) }
        (frames ++ [.ret tag p.attempt.messageID.val replyCode]) = s.seen frames := by
  apply seen_snoc hp
  . simp [Publishing.seen, Frame.isRet, Frame.isConfirm, hreturned]
  . intro t ht
    simp [Frame.isRet, Frame.isConfirm, Ne.symm ht]

theorem seen_brokerConfirm (frames : List Frame) (hp : s.broker tag = some p)
    (hconfirmed : p.confirmed = none) (ack : Bool)
    : seen { s with
        broker := update s.broker tag (some { p with confirmed := some ack }) }
        (frames ++ [.confirm tag ack]) = s.seen frames := by
  apply seen_snoc hp
  . simp [Publishing.seen, Frame.isRet, Frame.isConfirm, hconfirmed]
  . intro t ht
    simp [Frame.isRet, Frame.isConfirm, Ne.symm ht]

theorem seen_tail (hp : s.broker tag = some p)
    (hother : ∀ t, t ≠ tag → f.isRet t = false ∧ f.isConfirm t = false)
    : (s.seen frames).broker =
        update (s.seen (f :: frames)).broker tag (some (p.seen frames tag)) := by
  funext t
  rw [update_apply]
  split
  . next ht => simp [seen, ht, hp]
  . next ht =>
    simp only [seen]
    congr 1
    funext q
    apply seen_congr
    all_goals simp [hother t ht]

theorem seen_ret {messageID : String} {replyCode : UInt16}
    (h : Pipe broker (.ret tag messageID replyCode :: frames)) (hp : broker tag = some p)
    : p.seen frames tag =
        { p.seen (.ret tag messageID replyCode :: frames) tag with returned := some replyCode } := by
  have ⟨q, hq, hreturned, _⟩ := h.ret tag messageID replyCode (by simp)
  rw [hp, some.injEq] at hq
  have hany : frames.any (·.isRet tag) = false := by
    apply any_eq_false_of_forall
    intro f hf
    exact ((pairwise_cons.mp h.ordered).1 f hf tag).2 (by simp [Frame.isRet])
  simp [Publishing.seen, Frame.isConfirm, hany, hq, hreturned]

theorem seen_confirm {ack : Bool} (h : Pipe broker (.confirm tag ack :: frames))
    (hp : broker tag = some p)
    : p.seen frames tag =
        { p.seen (.confirm tag ack :: frames) tag with confirmed := some ack } := by
  have ⟨q, hq, hconfirmed⟩ := h.confirm tag ack (by simp)
  rw [hp, some.injEq] at hq
  have hany : frames.any (·.isConfirm tag) = false := by
    apply any_eq_false_of_forall
    intro f hf
    exact ((pairwise_cons.mp h.ordered).1 f hf tag).1 (by simp [Frame.isConfirm]) |>.1
  simp [Publishing.seen, Frame.isRet, hany, hq, hconfirmed]

end Publisher
