import Warren.Publisher.Returns.Impl

namespace Publisher

open Function Option

namespace Phase

def attempt : Phase → Option Attempt
  | .register a => some a
  | .deregister a => some a
  | .publish a => some a
  | .cancel a => some a
  | _ => none

def stored : Phase → Option Attempt
  | .register a => some a
  | .publish a => some a
  | _ => none

def registered : Phase → Option Attempt
  | .publish a => some a
  | .cancel a => some a
  | _ => none

theorem attempt_of_stored {p : Phase} {a : Attempt} (h : p.stored = some a)
    : p.attempt = some a := by
  cases p with
  | register => exact h
  | publish => exact h
  | _ => contradiction

theorem attempt_of_registered {p : Phase} {a : Attempt} (h : p.registered = some a)
    : p.attempt = some a := by
  cases p with
  | publish | cancel => exact h
  | _ => contradiction

end Phase

namespace Call

@[simp]
theorem next_published (k : Call) : k.next.published = k.published := by
  unfold next
  split <;> rfl

theorem next_phase (k : Call)
    : k.next.phase = .store ∨ k.next.phase = .wait ∨ k.next.phase = .delete k.encoded := by
  unfold next
  split <;> simp

theorem published_of_next_delete {k : Call} {messageIDs : List MessageID}
    (h : k.next.phase = .delete messageIDs) : k.published = [] := by
  unfold next at h
  split at h
  . contradiction
  . contradiction
  . next hpublished => exact hpublished

@[simp]
theorem next_attempt (k : Call) : k.next.phase.attempt = none := by
  rcases next_phase k with h | h | h <;> rw [h] <;> rfl

@[simp]
theorem next_stored (k : Call) : k.next.phase.stored = none := by
  rcases next_phase k with h | h | h <;> rw [h] <;> rfl

@[simp]
theorem next_registered (k : Call) : k.next.phase.registered = none := by
  rcases next_phase k with h | h | h <;> rw [h] <;> rfl

end Call

namespace State

def attempt (s : State) : Option Attempt := s.call.bind (·.phase.attempt)

def stored (s : State) : Option Attempt := s.call.bind (·.phase.stored)

def registered (s : State) : Option Attempt := s.call.bind (·.phase.registered)

def published (s : State) : List Attempt := (s.call.map (·.published)).getD []

def Live (s : State) (tag : Nat) : Prop :=
  (∃ a ∈ s.published, a.deliveryTag = tag) ∨ ∃ a, s.registered = some a ∧ a.deliveryTag = tag

structure Orderly (s : State) : Prop where
  unsent : ∀ tag, s.nextPublishSeqNo ≤ tag → s.broker tag = none
  tag : ∀ a, s.attempt = some a → a.deliveryTag = s.nextPublishSeqNo
  arrived : ∀ a ∈ s.published, ∃ pub, s.broker a.deliveryTag = some pub ∧ pub.attempt = a
  drained : ∀ k messageIDs, s.call = some k → k.phase = .delete messageIDs → k.published = []

variable {s s' : State} {a : Attempt} {k : Call}

theorem Orderly.frame (h : s.Orderly) (hseqNo : s'.nextPublishSeqNo = s.nextPublishSeqNo)
    (hbroker : ∀ tag, (s'.broker tag).map (·.attempt) = (s.broker tag).map (·.attempt))
    (hattempt : ∀ a, s'.attempt = some a → s.attempt = some a)
    (hpublished : ∀ a ∈ s'.published, a ∈ s.published)
    (hdrained : ∀ k messageIDs, s'.call = some k → k.phase = .delete messageIDs → k.published = [])
    : s'.Orderly := by
  constructor
  . intro tag htag
    rw [hseqNo] at htag
    have heq := hbroker tag
    rw [h.unsent tag htag] at heq
    simpa using heq
  . intro a ha
    rw [hseqNo]
    exact h.tag a (hattempt a ha)
  . intro a ha
    have ⟨pub, hpub, heq⟩ := h.arrived a (hpublished a ha)
    have hmap := hbroker a.deliveryTag
    rw [hpub, map_some, map_eq_some_iff] at hmap
    have ⟨pub', hpub', heq'⟩ := hmap
    exact ⟨pub', hpub', heq'.trans heq⟩
  . exact hdrained

theorem Orderly.init (mandatory : Bool) (confirmTimeout publishBatchMaxSize : Int)
    : (init mandatory confirmTimeout publishBatchMaxSize).Orderly := by
  constructor
  . simp [State.init]
  . simp [State.init, State.attempt]
  . simp [State.init, State.published]
  . simp [State.init]

theorem Orderly.unsent_attempt (h : s.Orderly) (ha : s.attempt = some a)
    : s.broker a.deliveryTag = none := by
  apply h.unsent
  rw [h.tag a ha]

theorem published_of_call (h : s.call = some k) : s.published = k.published := by
  simp [published, h]

theorem attempt_of_call (h : s.call = some k) : s.attempt = k.phase.attempt := by
  simp [attempt, h]

theorem attempt_of_phase {p : Phase} (h : s.call = some k) (hp : k.phase = p)
    : s.attempt = p.attempt := by
  simp [attempt, h, hp]

theorem stored_of_call (h : s.call = some k) : s.stored = k.phase.stored := by
  simp [stored, h]

theorem registered_of_call (h : s.call = some k) : s.registered = k.phase.registered := by
  simp [registered, h]

theorem attempt_of_stored (h : s.stored = some a) : s.attempt = some a := by
  have ⟨k, hcall, hk⟩ := bind_eq_some_iff.mp h
  rw [attempt_of_call hcall]
  exact Phase.attempt_of_stored hk

theorem attempt_of_registered (h : s.registered = some a) : s.attempt = some a := by
  have ⟨k, hcall, hk⟩ := bind_eq_some_iff.mp h
  rw [attempt_of_call hcall]
  exact Phase.attempt_of_registered hk

theorem Orderly.deliveryTag_ne (h : s.Orderly) (ha : s.attempt = some a) {b : Attempt}
    (hb : b ∈ s.published) : b.deliveryTag ≠ a.deliveryTag := by
  intro htag
  have ⟨pub, hpub, _⟩ := h.arrived b hb
  rw [htag, h.unsent_attempt ha] at hpub
  contradiction

structure Joined (s : State) : Prop where
  own : ∀ tag pub t, s.broker tag = some pub → pub.answered = false →
    s.returnTagMap pub.attempt.messageID.val = some t → t = tag
  live : ∀ tag pub, s.broker tag = some pub → pub.answered = false → s.Live tag →
    s.returnTagMap pub.attempt.messageID.val = some tag
  stored : ∀ a, s.stored = some a → s.returnTagMap a.messageID.val = some a.deliveryTag
  alone : ∀ a, s.attempt = some a → ∀ tag pub, s.broker tag = some pub → pub.answered = false →
    pub.attempt.messageID.val ≠ a.messageID.val

theorem Joined.frame (h : s.Joined) (hmap : s'.returnTagMap = s.returnTagMap)
    (hbroker : ∀ tag pub, s'.broker tag = some pub → pub.answered = false → s.broker tag = some pub)
    (hlive : ∀ tag, s'.Live tag → s.Live tag)
    (hstored : ∀ a, s'.stored = some a → s.stored = some a)
    (hattempt : ∀ a, s'.attempt = some a → s.attempt = some a) : s'.Joined := by
  grind [Joined]

theorem Joined.delete (h : s.Joined) {messageID : String}
    (hmap : s'.returnTagMap = update s.returnTagMap messageID none)
    (hbroker : ∀ tag pub, s'.broker tag = some pub → pub.answered = false → s.broker tag = some pub)
    (hneeded : ∀ tag pub, s'.broker tag = some pub → pub.answered = false → s'.Live tag →
      s.Live tag ∧ pub.attempt.messageID.val ≠ messageID)
    (hstored : ∀ a, s'.stored = some a → s.stored = some a ∧ a.messageID.val ≠ messageID)
    (hattempt : ∀ a, s'.attempt = some a → s.attempt = some a) : s'.Joined := by
  constructor
  . intro tag pub t hpub hanswered ht
    rw [hmap, update_apply] at ht
    split at ht
    . contradiction
    . exact h.own tag pub t (hbroker tag pub hpub hanswered) hanswered ht
  . intro tag pub hpub hanswered hl
    have ⟨hl', hne⟩ := hneeded tag pub hpub hanswered hl
    rw [hmap, update_of_ne hne]
    exact h.live tag pub (hbroker tag pub hpub hanswered) hanswered hl'
  . intro a ha
    have ⟨ha', hne⟩ := hstored a ha
    rw [hmap, update_of_ne hne]
    exact h.stored a ha'
  . intro a ha tag pub hpub hanswered
    exact h.alone a (hattempt a ha) tag pub (hbroker tag pub hpub hanswered) hanswered

theorem Joined.store (h : s.Joined)
    (hmap : s'.returnTagMap = update s.returnTagMap a.messageID.val (some a.deliveryTag))
    (hbroker : s'.broker = s.broker) (hlive : ∀ tag, s'.Live tag → s.Live tag)
    (hstored : s'.stored = some a) (hattempt : s'.attempt = some a)
    (hother : ∀ tag pub, s.broker tag = some pub → pub.answered = false →
      pub.attempt.messageID.val ≠ a.messageID.val) : s'.Joined := by
  constructor
  . intro tag pub t hpub hanswered ht
    rw [hbroker] at hpub
    rw [hmap, update_of_ne (hother tag pub hpub hanswered)] at ht
    exact h.own tag pub t hpub hanswered ht
  . intro tag pub hpub hanswered hl
    rw [hbroker] at hpub
    rw [hmap, update_of_ne (hother tag pub hpub hanswered)]
    exact h.live tag pub hpub hanswered (hlive tag hl)
  . intro b hb
    rw [hstored, some.injEq] at hb
    rw [hmap, ← hb, update_self]
  . intro b hb tag pub hpub hanswered
    rw [hbroker] at hpub
    rw [hattempt] at hb
    cases hb
    exact hother tag pub hpub hanswered

theorem Joined.register (h : s.Joined) (hmap : s'.returnTagMap = s.returnTagMap)
    (hbroker : s'.broker = s.broker) (hunsent : s.broker a.deliveryTag = none)
    (hlive : ∀ tag, s'.Live tag → s.Live tag ∨ a.deliveryTag = tag) (hstored : s'.stored = s.stored)
    (hattempt : s'.attempt = s.attempt) : s'.Joined := by
  constructor
  . rw [hbroker, hmap]
    exact h.own
  . rw [hbroker, hmap]
    intro tag pub hpub hanswered hl
    cases hlive tag hl with
    | inl hl => exact h.live tag pub hpub hanswered hl
    | inr htag =>
      rw [← htag, hunsent] at hpub
      contradiction
  . rw [hstored, hmap]
    exact h.stored
  . rw [hattempt, hbroker]
    exact h.alone

theorem Joined.init (mandatory : Bool) (confirmTimeout publishBatchMaxSize : Int)
    : (init mandatory confirmTimeout publishBatchMaxSize).Joined := by
  constructor
  all_goals simp [State.init, State.stored, State.attempt]

theorem drained_next (hcall : s.call = some k.next) (k' : Call) (messageIDs : List MessageID)
    (hk' : s.call = some k') (hdelete : k'.phase = .delete messageIDs) : k'.published = [] := by
  rw [hcall, some.injEq] at hk'
  rw [← hk'] at hdelete ⊢
  rw [Call.next_published]
  exact Call.published_of_next_delete hdelete

theorem live_next_iff (hcall : s.call = some k.next) (tag : Nat)
    : s.Live tag ↔ ∃ a ∈ k.published, a.deliveryTag = tag := by
  simp [Live, published_of_call hcall, registered_of_call hcall]

theorem Joined.next (h : s.Joined) (hcall : s'.call = some k.next)
    (hmap : s'.returnTagMap = s.returnTagMap) (hbroker : s'.broker = s.broker)
    (hpublished : ∀ a ∈ k.published, a ∈ s.published) : s'.Joined := by
  refine h.frame hmap (fun _ _ hpub _ => hbroker ▸ hpub) ?_ ?_ ?_
  . intro tag hl
    have ⟨a, ha, htag⟩ := (live_next_iff hcall tag).mp hl
    exact .inl ⟨a, hpublished a ha, htag⟩
  . simp [stored_of_call hcall]
  . simp [attempt_of_call hcall]

end State
end Publisher
