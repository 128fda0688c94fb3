import Warren.Publisher.Pool.Entries

namespace Pool

open List
open Procs

def CallPhase.isDone : CallPhase → Bool
  | .done _ => true
  | _ => false

namespace State

variable {size : Nat} {s s' : State size}

def Idle (s : State size) : Prop :=
  ∀ {j : Nat} {p : CallPhase}, s.calls[j]? = some p → p.isDone = true

variable {j : Nat} {a : Action}

theorem calls_of_callMove {a : CallAction} (hmove : s.CallMove j a s')
    : ∃ p q, s.calls[j]? = some p ∧ p.isDone = false ∧ s'.calls = s.calls.set j q ∧
        s'.drains = s.drains := by
  cases hmove with
  | cancel hcall => exact ⟨_, _, hcall, rfl, rfl, rfl⟩
  | foundDead e pending entry closeCh hcall hentry => exact ⟨_, _, hcall, rfl, rfl, rfl⟩
  | discard e hcall => exact ⟨_, _, hcall, rfl, rfl, rfl⟩
  | openFn hcall hempty => exact ⟨_, _, hcall, rfl, rfl, rfl⟩
  | opened hcall => exact ⟨_, _, hcall, rfl, rfl, rfl⟩
  | openErr hcall => exact ⟨_, _, hcall, rfl, rfl, rfl⟩
  | openPanic hcall => exact ⟨_, _, hcall, rfl, rfl, rfl⟩
  | releaseDead e entry closeCh hcall hentry => exact ⟨_, _, hcall, rfl, rfl, rfl⟩
  | releaseLive e hcall => exact ⟨_, _, hcall, rfl, rfl, rfl⟩
  | noRoom e hcall hfull => exact ⟨_, _, hcall, rfl, rfl, rfl⟩
  | close e hcall => exact ⟨_, _, hcall, rfl, rfl, rfl⟩
  | returnToken tokens hcall hsend => exact ⟨_, _, hcall, rfl, rfl, rfl⟩
  | _ _ _ hcall => exact ⟨_, _, hcall, rfl, rfl, rfl⟩

theorem unfinished_of_step (hstep : s.step a = some s') {q : CallPhase}
    (hcall : s'.calls[j]? = some q) (hq : q.isDone = false)
    : (∃ p, s.calls[j]? = some p ∧ p.isDone = false) ∨ (a = .acquire ∧ j = s.calls.length) := by
  cases step_move hstep with
  | acquire v tokens hrecv | saturated hempty =>
    rcases getElem?_concat_eq_some hcall with ⟨hj, _⟩ | hold
    . exact .inr ⟨rfl, hj⟩
    . exact .inl ⟨q, hold, hq⟩
  | call i a s' hmove =>
    have ⟨p, q', hp, hdone, hcalls, _⟩ := calls_of_callMove hmove
    rw [hcalls] at hcall
    rcases getElem?_set_eq_some hcall with ⟨hj, _⟩ | ⟨_, hold⟩
    . exact .inl ⟨p, hj ▸ hp, hdone⟩
    . exact .inl ⟨q, hold, hq⟩
  | _ => exact .inl ⟨q, hcall, hq⟩

theorem drains_of_acquire (h : s.step .acquire = some s') : s'.drains = s.drains := by
  cases step_move h with
  | acquire v tokens hrecv => rfl
  | saturated hempty => rfl

theorem drains_of_callStep {a : CallAction} (h : s.step (.call j a) = some s')
    : s'.drains = s.drains := by
  have ⟨_, _, _, _, _, hdrains⟩ := calls_of_callMove (callStep_move h)
  exact hdrains

theorem undrained_of_step (hstep : s.step a = some s') {q : DrainPhase}
    (hdrain : s'.drains[j]? = some q) (hq : q ≠ .done)
    : (∃ p, s.drains[j]? = some p ∧ p ≠ .done) ∨ (a = .drain ∧ j = s.drains.length) := by
  have hset {i : Nat} {p r : DrainPhase} (hi : s.drains[i]? = some p) (hp : p ≠ .done)
      (hj : (s.drains.set i r)[j]? = some q) : ∃ p, s.drains[j]? = some p ∧ p ≠ .done := by
    rcases getElem?_set_eq_some hj with ⟨heq, _⟩ | ⟨_, hold⟩
    . exact ⟨p, heq ▸ hi, hp⟩
    . exact ⟨q, hold, hq⟩
  cases step_move hstep with
  | call i a s' hmove => exact .inl ⟨q, drains_of_callStep hstep ▸ hdrain, hq⟩
  | drain =>
    rcases getElem?_concat_eq_some hdrain with ⟨hj, _⟩ | hold
    . exact .inr ⟨rfl, hj⟩
    . exact .inl ⟨q, hold, hq⟩
  | drainTake i e free hi hrecv | drained i hi hempty | drainClose i e hi =>
    exact .inl (hset hi (by simp) hdrain)
  | _ => exact .inl ⟨q, hdrain, hq⟩

theorem buf_of_not_recv {free : Chan Nat size} (h : ∀ e free', free.recv ≠ some (some e, free'))
    : free.buf = [] := by
  cases hbuf : free.buf with
  | nil => rfl
  | cons e rest =>
    have hready : free.recv.isSome = true := Chan.recv_isSome_iff.mpr (.inl (by simp [hbuf]))
    have ⟨⟨v, free'⟩, hrecv⟩ := Option.isSome_iff_exists.mp hready
    cases v with
    | none => simp [(Chan.recv_eq_some_none_iff.mp hrecv).1] at hbuf
    | some e => exact absurd hrecv (h e free')

theorem done_set {ps : List DrainPhase} {i : Nat} {p q : DrainPhase} (hi : ps[i]? = some p)
    (hp : p ≠ .done) (hj : ps[j]? = some .done) : (ps.set i q)[j]? = some .done := by
  have hne : i ≠ j := by
    rintro rfl
    rw [hi, Option.some.injEq] at hj
    exact hp hj
  rwa [getElem?_set_ne hne]

structure Quiet (s s' : State size) : Prop where
  calls : s'.calls = s.calls
  free : s.free.buf = [] → s'.free.buf = []
  doneBefore : ∀ {j : Nat}, s.drains[j]? = some .done → s'.drains[j]? = some .done
  doneNow : ∀ {j : Nat}, s'.drains[j]? = some .done →
    s.drains[j]? = some .done ∨ s'.free.buf = []

theorem Quiet.refl (s : State size) : s.Quiet s := ⟨rfl, id, id, .inl⟩

theorem Idle.quiet (h : s.Idle) (ha : a ≠ .acquire) (hstep : s.step a = some s') : s.Quiet s' := by
  cases step_move hstep with
  | acquire v tokens hrecv => contradiction
  | saturated hempty => contradiction
  | call i a s' hmove =>
    have ⟨p, _, hp, hdone, _⟩ := calls_of_callMove hmove
    rw [h hp] at hdone
    contradiction
  | drain =>
    refine ⟨rfl, id, fun hj => getElem?_concat_of_eq_some hj _, ?_⟩
    intro j hj
    rcases getElem?_concat_eq_some hj with ⟨_, hq⟩ | hold
    . contradiction
    . exact .inl hold
  | drainTake i e free hdrain hrecv =>
    have ⟨hbuf, _⟩ := Chan.recv_eq_some_some_iff.mp hrecv
    refine ⟨rfl, ?_, ?_, ?_⟩
    . intro hempty
      rw [hempty] at hbuf
      contradiction
    . exact done_set hdrain (by simp)
    . intro j hj
      rcases getElem?_set_eq_some hj with ⟨_, hq⟩ | ⟨_, hold⟩
      . contradiction
      . exact .inl hold
  | drained i hdrain hempty =>
    have hbuf := buf_of_not_recv hempty
    exact ⟨rfl, id, done_set hdrain (by simp), fun _ => .inr hbuf⟩
  | drainClose i e hdrain =>
    refine ⟨rfl, id, ?_, ?_⟩
    . exact done_set hdrain (by simp)
    . intro j hj
      rcases getElem?_set_eq_some hj with ⟨_, hq⟩ | ⟨_, hold⟩
      . contradiction
      . exact .inl hold
  | notifyClose e entry closeCh hentry hready | closeNotify e entry closeCh hentry hready =>
    exact ⟨rfl, id, id, .inl⟩

theorem Owned.closed_of_idle (h : s.Owned) (hidle : s.Idle) (hfree : s.free.buf = []) {e : Nat}
    {entry : Entry} (hentry : s.entries e = some entry)
    : entry.closed = true ∨ ∃ j : Nat, s.drains[j]? = some (.closing e) := by
  cases hclosed : entry.closed with
  | true => exact .inl rfl
  | false =>
    right
    have hlive : s.live e = true := by simp [live, hentry, hclosed]
    have hcalls : s.calls.countP (CallPhase.owns e) = 0 := by
      rw [countP_eq_zero]
      intro p hp
      obtain ⟨j, hj⟩ := mem_iff_getElem?.mp hp
      cases p with
      | done r => simp [CallPhase.owns, CallPhase.entry]
      | _ => exact absurd (hidle hj) (by simp [CallPhase.isDone])
    have honce := h.once e
    rw [owners, hfree, hcalls, hlive] at honce
    simp only [count_nil, Bool.toNat_true, Nat.zero_add] at honce
    have hpos : 0 < s.drains.countP (DrainPhase.owns e) := by omega
    obtain ⟨p, hp, howns⟩ := countP_pos_iff.mp hpos
    obtain ⟨j, hj⟩ := mem_iff_getElem?.mp hp
    refine ⟨j, ?_⟩
    cases p with
    | closing e' =>
      have heq : e' = e := by simpa [DrainPhase.owns, DrainPhase.entry] using howns
      rw [hj, heq]
    | _ => simp [DrainPhase.owns, DrainPhase.entry] at howns

end State
end Pool
