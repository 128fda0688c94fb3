import Warren.Confirms.Tracker.Lemmas
import Warren.Confirms.Tracker.Spec

/-!
The tracker refines its specification: at every point of every interleaving the value left for
`Wait` on each tag is the one the specification leaves.
-/

namespace Confirms

open Function Option
open Tracker

namespace WaitCall

def received (c : WaitCall) : Option (Option Err) :=
  match c.phase with
  | .received err => some err
  | _ => none

end WaitCall

namespace Entry

variable {x : Nat} {e : Entry}

theorem resolve_of_verdict (h : e.verdict ≠ none) (baseErr : Option Err)
    : e.resolve baseErr = e := by
  rcases e with ⟨returned, verdict⟩
  cases verdict with
  | none => contradiction
  | some v => rfl

end Entry

namespace Waiter

def value (w : Waiter) (c : Option WaitCall) : Option (Option Err) :=
  (c.bind WaitCall.received).or w.done.buf.head?

theorem value_trySend (w : Waiter) (c : Option WaitCall) (err : Option Err)
    (hopen : w.done.closed = false) : (w.trySend err).value c = some ((w.value c).getD err) := by
  unfold value
  rw [trySend_buf _ _ hopen]
  cases c.bind WaitCall.received with
  | some received => simp
  | none =>
    cases hbuf : w.done.buf with
    | nil => simp
    | cons verdict rest => simp

theorem value_setReturned (w : Waiter) (c : Option WaitCall) (replyCode : UInt16)
    : ({ w with returned := true, returnCode := replyCode } : Waiter).value c = w.value c := rfl

structure Models (w : Waiter) (c : Option WaitCall) (e : Entry) : Prop where
  returned : e.returned = if w.returned then some w.returnCode else none
  verdict : e.verdict = w.value c

theorem Models.fresh : Models default none Entry.fresh := by
  constructor <;> rfl

variable {w : Waiter} {c : Option WaitCall} {e : Entry}

theorem Models.resolve (h : Models w c e) (hopen : w.done.closed = false) (baseErr : Option Err)
    : Models (w.resolve baseErr) c (e.resolve baseErr) := by
  constructor
  . rw [resolve_returned, resolve_returnCode]
    exact h.returned
  . have houtcome : e.outcome baseErr =
        if w.returned ∧ baseErr = none then some (.unroutable w.returnCode) else baseErr := by
      cases baseErr with
      | none => simp [Entry.outcome, h.returned, apply_ite]
      | some err => simp [Entry.outcome]
    unfold Waiter.resolve Entry.resolve
    rw [houtcome, h.verdict]
    split <;> rw [value_trySend _ _ _ hopen]

theorem Models.close (h : Models w c e) (hopen : w.done.closed = false)
    : Models (w.trySend (some .closed)) c e.close := by
  constructor
  . rw [trySend_returned, trySend_returnCode]
    exact h.returned
  . unfold Entry.close
    rw [value_trySend _ _ _ hopen, h.verdict]

theorem Models.markReturned (h : Models w c e) (replyCode : UInt16)
    : Models { w with returned := true, returnCode := replyCode } c
        { e with returned := some replyCode } := by
  constructor
  . rfl
  . rw [value_setReturned]
    exact h.verdict

end Waiter

namespace Spec

structure Fixed (σ : Spec) (tag : Nat) (v : Option Err) : Prop where
  left_eq : σ.left tag = some v
  entry : ∀ e, σ.entries tag = some e → e.verdict = some v ∧ σ.kept tag = none

variable {σ : Spec} {tag : Nat} {v : Option Err}

theorem Fixed.of_absent (hentry : σ.entries tag = none) (hkept : σ.kept tag = none)
    : σ.Fixed tag (some .closed) := by
  constructor
  . simp [left, hentry, hkept]
  . intro e he
    simp [hentry] at he

theorem Fixed.of_entry (hentry : σ.entries tag = some e) (hkept : σ.kept tag = none)
    (hverdict : e.verdict = some v) : σ.Fixed tag v := by
  constructor
  . simp [left, hentry, hkept, hverdict]
  . intro e' he'
    rw [hentry] at he'
    cases he'
    exact ⟨hverdict, hkept⟩

theorem Fixed.of_kept (hentry : σ.entries tag = none) (hkept : σ.kept tag = some v)
    : σ.Fixed tag v := by
  constructor
  . simp [left, hkept]
  . intro e he
    simp [hentry] at he

theorem Fixed.congr {σ' : Spec} (h : σ.Fixed tag v) (hentry : σ'.entries tag = σ.entries tag)
    (hkept : σ'.kept tag = σ.kept tag) : σ'.Fixed tag v := by
  constructor
  . unfold left
    rw [hentry, hkept]
    exact h.left_eq
  . rw [hentry, hkept]
    exact h.entry

theorem Fixed.mapEntries (h : σ.Fixed tag v) (covered : Nat → Bool) {f : Entry → Entry}
    (hf : ∀ e v, e.verdict = some v → (f e).verdict = some v)
    : (σ.mapEntries covered f).Fixed tag v := by
  cases hentry : σ.entries tag with
  | none =>
    apply h.congr
    . simp [Spec.mapEntries, hentry]
    . rfl
  | some e =>
    have ⟨hverdict, hkept⟩ := h.entry e hentry
    by_cases hcovered : covered tag
    . have hentry' : (σ.mapEntries covered f).entries tag = some (f e) := by
        simp [Spec.mapEntries, hentry, hcovered]
      exact Fixed.of_entry hentry' hkept (hf e v hverdict)
    . apply h.congr
      . simp [Spec.mapEntries, hcovered]
      . rfl

theorem cancel_of_ne (σ : Spec) (hx : x ≠ tag)
    : (σ.cancel tag).entries x = σ.entries x ∧ (σ.cancel tag).kept x = σ.kept x := by
  unfold cancel
  split
  . simp
  . split <;> simp [remove, hx]

theorem cancel_entries_self (σ : Spec) (tag : Nat) : (σ.cancel tag).entries tag = none := by
  unfold cancel
  split
  . assumption
  . split <;> simp [remove]

theorem cancel_eq (σ : Spec) (tag : Nat)
    : (σ.cancel tag).closed = σ.closed ∧ (σ.cancel tag).waiting = σ.waiting ∧
      (σ.cancel tag).results = σ.results := by
  unfold cancel
  split
  . simp
  . split <;> simp [remove]

theorem cancel_kept_of_not_waiting (h : σ.waiting tag = false) : (σ.cancel tag).kept = σ.kept := by
  unfold cancel
  split
  . rfl
  . simp [h, remove]

theorem cancel_kept_of_waiting (h : σ.waiting tag = true)
    (hentry : σ.entries tag = some e) : (σ.cancel tag).kept tag = e.close.verdict := by
  simp [cancel, hentry, h]

theorem run_waitBegin (hwaiting : σ.waiting tag = false)
    : Run.run step σ [.waitBegin tag] =
        some { σ with waiting := update σ.waiting tag true } := by
  simp [Run.run, step, waitBegin, hwaiting]

theorem run_waitEnd {err : Option Err} (hwaiting : σ.waiting tag = true)
    (herr : σ.left tag = some err ∨ err = some .timeout ∨ err = some .ctx)
    : Run.run step σ [.waitEnd tag err] = some (σ.finish tag err) := by
  simp only [Run.run, step, waitEnd]
  rw [if_pos ⟨hwaiting, herr⟩]

theorem run_waitBegin_waitEnd {err : Option Err} (hwaiting : σ.waiting tag = false)
    (hleft : σ.left tag = some err)
    : Run.run step σ [.waitBegin tag, .waitEnd tag err] = some (σ.finish tag err) := by
  have hbegin : step σ (.waitBegin tag) =
      some { σ with waiting := update σ.waiting tag true } := by
    simp [step, waitBegin, hwaiting]
  rw [Run.run_cons_of_step _ hbegin, run_waitEnd]
  . simp [finish, remove]
  . simp
  . left
    exact hleft

end Spec

namespace State

variable {s s' : State} {tag p : Nat} {c : WaitCall} {σ : Spec}

theorem left_of_wait (h : s.waits tag = some c)
    : s.left tag = (s.tracker.waiters c.waiter).value (some c) := by
  rcases c with ⟨p, timeout, phase⟩
  cases phase <;> simp [left, h, Waiter.value, WaitCall.received]

theorem left_of_pending (hwait : s.waits tag = none)
    (hpending : s.tracker.pending.lookup tag = some p)
    : s.left tag = (s.tracker.waiters p).value none := by
  simp [left, hwait, hpending, Waiter.value]

theorem left_of_absent (hwait : s.waits tag = none) (hpending : s.tracker.pending.lookup tag = none)
    : s.left tag = some (some .closed) := by
  simp [left, hwait, hpending]

def Owns (s : State) (tag p : Nat) : Prop :=
  s.tracker.pending.lookup tag = some p ∨ ∃ c, s.waits tag = some c ∧ c.waiter = p

structure TagModels (s : State) (σ : Spec) (tag : Nat) : Prop where
  lt_next : ∀ p, s.Owns tag p → p < s.tracker.next
  waiter_eq : ∀ p c, s.tracker.pending.lookup tag = some p → s.waits tag = some c → c.waiter = p
  expired : ∀ c err, s.waits tag = some c → c.phase = .expired err → err = .timeout ∨ err = .ctx
  waiting : σ.waiting tag = (s.waits tag).isSome
  kept : s.waits tag = none → σ.kept tag = none
  registered : ∀ p, s.tracker.pending.lookup tag = some p →
    σ.kept tag = none ∧
    ∃ e, σ.entries tag = some e ∧ (s.tracker.waiters p).Models (s.waits tag) e ∧
      (e.verdict = none → tag ∈ s.tracker.window)
  removed : s.tracker.pending.lookup tag = none → ∃ v, s.left tag = some v ∧ σ.Fixed tag v

structure Models (s : State) (σ : Spec) : Prop where
  wf : s.tracker.WF
  owner_unique : ∀ tag tag' p, s.Owns tag p → s.Owns tag' p → tag = tag'
  closed : σ.closed = s.tracker.closed
  results : σ.results = s.results
  tags : ∀ tag, s.TagModels σ tag

theorem Models.init : Models .init .init := by
  constructor
  . refine ⟨List.Pairwise.nil, Nat.le_refl _, fun _ => rfl⟩
  . simp [State.init, new, Owns]
  . rfl
  . rfl
  . intro tag
    constructor
    all_goals simp [State.init, Spec.init, new, Owns]
    exact ⟨some .closed, rfl, Spec.Fixed.of_absent rfl rfl⟩

theorem TagModels.left_eq (h : s.TagModels σ tag) : s.left tag = σ.left tag := by
  cases hpending : s.tracker.pending.lookup tag with
  | none =>
    have ⟨v, hleft, hfixed⟩ := h.removed hpending
    rw [hleft, hfixed.left_eq]
  | some p =>
    have ⟨hkept, e, hentry, hmodels, _⟩ := h.registered p hpending
    have hspec : σ.left tag = e.verdict := by
      simp [Spec.left, hkept, hentry]
    rw [hspec, hmodels.verdict]
    cases hwait : s.waits tag with
    | none => rw [left_of_pending hwait hpending]
    | some c => rw [left_of_wait hwait, h.waiter_eq p c hpending hwait]

theorem Models.pending_inj (h : s.Models σ) (tag tag' p : Nat)
    (hp : s.tracker.pending.lookup tag = some p) (hp' : s.tracker.pending.lookup tag' = some p)
    : tag = tag' :=
  h.owner_unique tag tag' p (.inl hp) (.inl hp')

theorem Models.detached (h : s.Models σ) (hpending : s.tracker.pending.lookup tag = none)
    (hwait : s.waits tag = some c) (tag' : Nat)
    : s.tracker.pending.lookup tag' ≠ some c.waiter := by
  intro htag'
  have heq := h.owner_unique tag tag' c.waiter (.inr ⟨c, hwait, rfl⟩) (.inl htag')
  rw [← heq, hpending] at htag'
  contradiction

theorem left_congr (hpending : s.tracker.pending.lookup tag = none)
    (hpending' : s'.tracker.pending.lookup tag = none) (hwaits : s'.waits tag = s.waits tag)
    (hwaiters : ∀ c, s.waits tag = some c → s'.tracker.waiters c.waiter = s.tracker.waiters c.waiter)
    : s'.left tag = s.left tag := by
  cases hwait : s.waits tag with
  | none =>
    rw [hwait] at hwaits
    rw [left_of_absent hwait hpending, left_of_absent hwaits hpending']
  | some c =>
    rw [hwait] at hwaits
    rw [left_of_wait hwait, left_of_wait hwaits, hwaiters c hwait]

theorem TagModels.congr {σ' : Spec} (h : s.TagModels σ tag)
    (hpending : s'.tracker.pending.lookup tag = s.tracker.pending.lookup tag)
    (hwaits : s'.waits tag = s.waits tag)
    (hwaiters : ∀ p, s.Owns tag p → s'.tracker.waiters p = s.tracker.waiters p)
    (hnext : s.tracker.next ≤ s'.tracker.next)
    (hwindow : (s.tracker.pending.lookup tag).isSome → tag ∈ s.tracker.window →
      tag ∈ s'.tracker.window) (hentry : σ'.entries tag = σ.entries tag)
    (hkept : σ'.kept tag = σ.kept tag) (hwaiting : σ'.waiting tag = σ.waiting tag)
    : s'.TagModels σ' tag := by
  constructor
  . intro p hp
    simp only [Owns, hpending, hwaits] at hp
    exact Nat.lt_of_lt_of_le (h.lt_next p hp) hnext
  . rw [hpending, hwaits]
    exact h.waiter_eq
  . rw [hwaits]
    exact h.expired
  . rw [hwaiting, hwaits]
    exact h.waiting
  . rw [hwaits, hkept]
    exact h.kept
  . intro p hp
    rw [hpending] at hp
    have ⟨hkept', e, he, hmodels, hmem⟩ := h.registered p hp
    rw [hkept, hentry, hwaits, hwaiters p (.inl hp)]
    refine ⟨hkept', e, he, hmodels, ?_⟩
    intro hnone
    exact hwindow (by simp [hp]) (hmem hnone)
  . intro hp
    have hp' := hp
    rw [hpending] at hp'
    have ⟨v, hleft, hfixed⟩ := h.removed hp'
    refine ⟨v, ?_, hfixed.congr hentry hkept⟩
    rw [left_congr hp' hp hwaits, hleft]
    intro c hwait
    apply hwaiters
    exact .inr ⟨c, hwait, rfl⟩

theorem Models.mapEntries (h : s.Models σ) {t : Tracker} (covered : Nat → Bool) {f : Entry → Entry}
    (hwf : t.WF) (hpending : t.pending = s.tracker.pending) (hclosed : t.closed = s.tracker.closed)
    (hnext : t.next = s.tracker.next)
    (hdetached : ∀ p, (∀ tag, s.tracker.pending.lookup tag ≠ some p) →
      t.waiters p = s.tracker.waiters p)
    (hentry : ∀ tag p e, s.tracker.pending.lookup tag = some p →
      (s.tracker.waiters p).Models (s.waits tag) e →
      (e.verdict = none → tag ∈ s.tracker.window) →
      (t.waiters p).Models (s.waits tag) (if covered tag then f e else e) ∧
      ((if covered tag then f e else e).verdict = none → tag ∈ t.window))
    (hf : ∀ e v, e.verdict = some v → (f e).verdict = some v)
    : Models { s with tracker := t } (σ.mapEntries covered f) := by
  constructor
  . exact hwf
  . simp only [Owns, hpending]
    exact h.owner_unique
  . rw [hclosed]
    exact h.closed
  . exact h.results
  . intro tag
    have htag := h.tags tag
    constructor
    . simp only [Owns, hpending, hnext]
      exact htag.lt_next
    . simp only [hpending]
      exact htag.waiter_eq
    . exact htag.expired
    . exact htag.waiting
    . exact htag.kept
    . intro p hp
      dsimp only at hp ⊢
      rw [hpending] at hp
      have ⟨hkept, e, he, hmodels, hwindow⟩ := htag.registered p hp
      refine ⟨hkept, if covered tag then f e else e, ?_, hentry tag p e hp hmodels hwindow⟩
      simp only [Spec.mapEntries, he, map_some]
      split <;> rfl
    . intro hp
      have hp' := hp
      rw [hpending] at hp'
      have ⟨v, hleft, hfixed⟩ := htag.removed hp'
      refine ⟨v, ?_, hfixed.mapEntries covered hf⟩
      rw [left_congr hp' hp, hleft]
      . rfl
      . intro c hwait
        apply hdetached
        exact h.detached hp' hwait

theorem Models.modify (h : s.Models σ) (tag : Nat) {f : Waiter → Waiter} {g : Entry → Entry}
    (hopen : ∀ w, (f w).done.closed = w.done.closed)
    (hfg : ∀ w c e, w.done.closed = false → w.Models c e → (f w).Models c (g e))
    (hg : ∀ e v, e.verdict = some v → (g e).verdict = some v)
    : Models { s with tracker := s.tracker.modify tag f } (σ.mapEntries (· == tag) g) := by
  have heq := modify_eq s.tracker tag f
  apply h.mapEntries _ (h.wf.modify tag hopen) heq.1 heq.2.2.2.1 heq.2.2.2.2 _ _ hg
  . intro p hp
    rw [modify_waiters, if_neg (hp tag)]
  . intro x p e hp hmodels hwindow
    rw [modify_waiters, modify_window]
    by_cases hx : x = tag
    . rw [← hx, if_pos hp]
      simp only [beq_self_eq_true, ↓reduceIte]
      refine ⟨hfg _ _ _ (h.wf.open_done p) hmodels, ?_⟩
      intro hnone
      apply hwindow
      cases hverdict : e.verdict with
      | none => rfl
      | some v =>
        rw [hg e v hverdict] at hnone
        contradiction
    . rw [if_neg]
      . simp only [beq_eq_false_iff_ne.mpr hx, Bool.false_eq_true, ↓reduceIte]
        exact ⟨hmodels, hwindow⟩
      . intro hp'
        exact hx (h.pending_inj x tag p hp hp')

theorem Models.markReturned (h : s.Models σ) (tag : Nat) (replyCode : UInt16)
    : Models { s with tracker := s.tracker.markReturned tag replyCode }
        (σ.markReturned tag replyCode) := by
  rw [markReturned_eq_modify]
  apply h.modify
  . intro w
    rfl
  . intro w c e _ hmodels
    exact hmodels.markReturned replyCode
  . intro e v hverdict
    exact hverdict

theorem Models.resolveOne (h : s.Models σ) (tag : Nat) (baseErr : Option Err)
    : Models { s with tracker := s.tracker.resolveOne tag baseErr } (σ.frame tag false baseErr) := by
  rw [resolveOne_eq_modify]
  apply h.modify tag (g := (·.resolve baseErr))
  . intro w
    rw [Waiter.resolve_closed]
  . intro w c e hopen hmodels
    exact hmodels.resolve hopen baseErr
  . intro e v hverdict
    simp [Entry.resolve, hverdict]

theorem Models.resolveUpTo (h : s.Models σ) (tag : Nat) (baseErr : Option Err)
    : Models { s with tracker := s.tracker.resolveUpTo tag baseErr } (σ.frame tag true baseErr) := by
  have heq := resolveUpTo_eq s.tracker tag baseErr
  apply h.mapEntries (Spec.covers tag true) (h.wf.resolveUpTo tag baseErr) heq.1 heq.2.1 heq.2.2
  . intro p hp
    rw [resolveUpTo_waiters h.wf, if_neg]
    intro ⟨x, _, _, hx⟩
    exact hp x hx
  . intro x p e hp hmodels hwindow
    have hcond : (∃ y ∈ s.tracker.window, y ≤ tag ∧ s.tracker.pending.lookup y = some p) ↔
        x ∈ s.tracker.window ∧ x ≤ tag := by
      constructor
      . intro ⟨y, hmem, hle, hy⟩
        rw [h.pending_inj x y p hp hy]
        exact ⟨hmem, hle⟩
      . intro ⟨hmem, hle⟩
        exact ⟨x, hmem, hle, hp⟩
    rw [resolveUpTo_waiters h.wf, if_congr hcond rfl rfl]
    by_cases hle : x ≤ tag
    . have hcovers : Spec.covers tag true x = true := by simpa [Spec.covers] using hle
      simp only [hcovers, ↓reduceIte]
      refine ⟨?_, by simp [Entry.resolve]⟩
      by_cases hmem : x ∈ s.tracker.window
      . rw [if_pos ⟨hmem, hle⟩]
        exact hmodels.resolve (h.wf.open_done p) baseErr
      -- the window has moved past the tag, so its verdict is there already
      . rw [if_neg (fun hand => hmem hand.1)]
        have hsome : e.verdict ≠ none := fun hnone => hmem (hwindow hnone)
        rw [Entry.resolve_of_verdict hsome]
        exact hmodels
    . have hcovers : Spec.covers tag true x = false := by simpa [Spec.covers] using hle
      rw [if_neg (fun hand => hle hand.2)]
      simp only [hcovers, Bool.false_eq_true, ↓reduceIte]
      refine ⟨hmodels, ?_⟩
      intro hnone
      apply mem_resolveUpTo_window h.wf _ (hwindow hnone)
      . omega
      . simp [hp]
  . intro e v hverdict
    simp [Entry.resolve, hverdict]

theorem owns_register (hwait : s.waits tag = none) (hclosed : s.tracker.closed = false)
    (hp : Owns { s with tracker := (s.tracker.register tag).1 } x p)
    : (x = tag ∧ p = s.tracker.next) ∨ (x ≠ tag ∧ s.Owns x p) := by
  have heq := (register_eq hclosed tag).1
  by_cases hx : x = tag
  . left
    rw [hx] at hp
    simp only [Owns, heq, AList.lookup_insert, hwait, some.injEq, reduceCtorEq, false_and,
      exists_false, or_false] at hp
    exact ⟨hx, hp.symm⟩
  . right
    simp only [Owns, heq, AList.lookup_insert_ne hx] at hp
    exact ⟨hx, hp⟩

theorem Models.register_self (h : s.Models σ) (hwait : s.waits tag = none)
    (hclosed : s.tracker.closed = false)
    : TagModels { s with tracker := (s.tracker.register tag).1 }
        { σ with entries := update σ.entries tag (some .fresh) } tag := by
  have heq := register_eq hclosed tag
  have hself : (s.tracker.register tag).1.pending.lookup tag = some s.tracker.next := by
    rw [heq.1, AList.lookup_insert]
  constructor
  . intro p hp
    cases owns_register hwait hclosed hp with
    | inl hp =>
      rw [heq.2.2.2]
      omega
    | inr hp => exact absurd rfl hp.1
  . simp [hwait]
  . simp [hwait]
  . exact (h.tags tag).waiting
  . exact (h.tags tag).kept
  . intro p hp
    dsimp only at hp ⊢
    rw [hself, some.injEq] at hp
    refine ⟨(h.tags tag).kept hwait, .fresh, by simp, ?_, ?_⟩
    . rw [← hp, heq.2.1, update_self, hwait]
      exact Waiter.Models.fresh
    . intro _
      exact mem_register_window h.wf hclosed (.inl rfl)
  . simp [hself]

theorem Models.register_other (h : s.Models σ) (hclosed : s.tracker.closed = false) (hx : x ≠ tag)
    : TagModels { s with tracker := (s.tracker.register tag).1 }
        { σ with entries := update σ.entries tag (some .fresh) } x := by
  have heq := register_eq hclosed tag
  apply (h.tags x).congr
  . dsimp only
    rw [heq.1, AList.lookup_insert_ne hx]
  . rfl
  . intro p hp
    have hlt := (h.tags x).lt_next p hp
    rw [heq.2.1, update_of_ne (Nat.ne_of_lt hlt)]
  . dsimp only
    rw [heq.2.2.2]
    omega
  . intro hp hmem
    exact mem_register_window h.wf hclosed (.inr ⟨hp, hmem⟩)
  . simp [hx]
  . rfl
  . rfl

theorem Models.register (h : s.Models σ) (hwait : s.waits tag = none)
    : Models { s with tracker := (s.tracker.register tag).1 } (σ.register tag) := by
  cases hclosed : s.tracker.closed with
  | true =>
    rw [register_of_closed hclosed]
    have hspec : σ.register tag = σ := by
      simp [Spec.register, h.closed, hclosed]
    rw [hspec]
    exact h
  | false =>
    have hspec : σ.register tag =
        { σ with entries := update σ.entries tag (some .fresh) } := by
      simp [Spec.register, h.closed, hclosed]
    rw [hspec]
    constructor
    . exact h.wf.register tag
    . intro x x' p hx hx'
      cases owns_register hwait hclosed hx with
      | inl hx =>
        cases owns_register hwait hclosed hx' with
        | inl hx' => rw [hx.1, hx'.1]
        | inr hx' =>
          have hlt := (h.tags x').lt_next p hx'.2
          omega
      | inr hx =>
        cases owns_register hwait hclosed hx' with
        | inl hx' =>
          have hlt := (h.tags x).lt_next p hx.2
          omega
        | inr hx' => exact h.owner_unique x x' p hx.2 hx'.2
    . rw [(register_eq hclosed tag).2.2.1]
      simp [h.closed, hclosed]
    . exact h.results
    . intro x
      by_cases hx : x = tag
      . rw [hx]
        exact h.register_self hwait hclosed
      . exact h.register_other hclosed hx

theorem Models.closeAll_pending_some (h : s.Models σ)
    (hp : s.tracker.closeAll.pending.lookup tag = some p)
    : s.tracker.pending.lookup tag = some p := by
  rw [closeAll_pending h.wf h.pending_inj] at hp
  split at hp
  . contradiction
  . exact hp

theorem Models.closeAll_pending_none (h : s.Models σ) (hp : s.tracker.pending.lookup tag = some p)
    (hremoved : s.tracker.closeAll.pending.lookup tag = none)
    : (s.tracker.waiters p).done.buf = [] := by
  rw [Tracker.closeAll_pending h.wf h.pending_inj] at hremoved
  split at hremoved
  . next hex =>
    have ⟨q, hq, hbuf⟩ := hex
    rw [hp, some.injEq] at hq
    rw [hq]
    exact hbuf
  . rw [hp] at hremoved
    contradiction

theorem Models.closeAll_waiters (h : s.Models σ) (hp : s.tracker.pending.lookup tag = some p)
    : s.tracker.closeAll.waiters p = (s.tracker.waiters p).trySend (some .closed) := by
  rw [Tracker.closeAll_waiters h.wf, if_pos]
  exact ⟨⟨tag, p⟩, mem_entries_iff.mpr hp, rfl⟩

theorem Models.closeAll_removed (h : s.Models σ)
    (hremoved : s.tracker.closeAll.pending.lookup tag = none)
    : ∃ v, left { s with tracker := s.tracker.closeAll } tag = some v ∧ σ.closeAll.Fixed tag v := by
  have htag := h.tags tag
  cases hp : s.tracker.pending.lookup tag with
  | none =>
    have ⟨v, hleft, hfixed⟩ := htag.removed hp
    refine ⟨v, ?_, (hfixed.mapEntries (fun _ => true) (f := .close) ?_).congr rfl rfl⟩
    . rw [left_congr hp hremoved, hleft]
      . rfl
      . intro c hwait
        rw [Tracker.closeAll_waiters h.wf, if_neg]
        intro ⟨e, he, hc⟩
        rw [mem_entries_iff, hc] at he
        exact h.detached hp hwait e.1 he
    . intro e v hverdict
      simp [Entry.close, hverdict]
  | some p =>
    have ⟨hkept, e, he, hmodels, _⟩ := htag.registered p hp
    have hentry : σ.closeAll.entries tag = some e.close := by
      simp [Spec.closeAll, Spec.mapEntries, he]
    refine ⟨_, ?_, Spec.Fixed.of_entry hentry hkept rfl⟩
    cases hwait : s.waits tag with
    | none =>
      have hnone : e.verdict = none := by
        rw [hmodels.verdict, hwait]
        simp [Waiter.value, h.closeAll_pending_none hp hremoved]
      rw [left_of_absent (s := { s with tracker := s.tracker.closeAll }) hwait hremoved, hnone]
      rfl
    | some c =>
      have hclose := hmodels.close (h.wf.open_done p)
      rw [left_of_wait (s := { s with tracker := s.tracker.closeAll }) hwait]
      rw [htag.waiter_eq p c hp hwait, h.closeAll_waiters hp, ← hwait, ← hclose.verdict]
      rfl

theorem Models.closeAll (h : s.Models σ)
    : Models { s with tracker := s.tracker.closeAll } σ.closeAll := by
  have heq := closeAll_eq s.tracker
  have howns : ∀ tag p, Owns { s with tracker := s.tracker.closeAll } tag p → s.Owns tag p := by
    intro tag p hp
    exact Or.imp_left h.closeAll_pending_some hp
  constructor
  . exact h.wf.closeAll
  . intro tag tag' p hp hp'
    exact h.owner_unique tag tag' p (howns tag p hp) (howns tag' p hp')
  . simp [Spec.closeAll, heq.2.1]
  . exact h.results
  . intro tag
    have htag := h.tags tag
    constructor
    . intro p hp
      rw [heq.2.2]
      exact htag.lt_next p (howns tag p hp)
    . intro p c hp hwait
      exact htag.waiter_eq p c (h.closeAll_pending_some hp) hwait
    . exact htag.expired
    . exact htag.waiting
    . exact htag.kept
    . intro p hp
      have hp' := h.closeAll_pending_some hp
      have ⟨hkept, e, he, hmodels, _⟩ := htag.registered p hp'
      rw [h.closeAll_waiters hp']
      refine ⟨hkept, e.close, ?_, hmodels.close (h.wf.open_done p), ?_⟩
      . simp [Spec.closeAll, Spec.mapEntries, he]
      . simp [Entry.close]
    . exact h.closeAll_removed

theorem Models.update {σ' : Spec} (h : s.Models σ) (tag : Nat) (hwf : s'.tracker.WF)
    (howns : ∀ x p, s'.Owns x p → s.Owns x p) (hclosed : σ'.closed = s'.tracker.closed)
    (hresults : σ'.results = s'.results)
    (hpending : ∀ x, x ≠ tag →
      s'.tracker.pending.lookup x = s.tracker.pending.lookup x ∧ s'.waits x = s.waits x)
    (hwaiters : ∀ p, ¬s.Owns tag p → s'.tracker.waiters p = s.tracker.waiters p)
    (hnext : s'.tracker.next = s.tracker.next) (hwindow : s'.tracker.window = s.tracker.window)
    (hspec : ∀ x, x ≠ tag → σ'.entries x = σ.entries x ∧ σ'.kept x = σ.kept x ∧
      σ'.waiting x = σ.waiting x) (htag : s'.TagModels σ' tag)
    : s'.Models σ' := by
  constructor
  . exact hwf
  . intro x x' p hx hx'
    exact h.owner_unique x x' p (howns x p hx) (howns x' p hx')
  . exact hclosed
  . exact hresults
  . intro x
    by_cases hx : x = tag
    . rw [hx]
      exact htag
    . have ⟨hentry, hkept, hwaiting⟩ := hspec x hx
      apply (h.tags x).congr (hpending x hx).1 (hpending x hx).2 _ _ _ hentry hkept hwaiting
      . intro p hp
        apply hwaiters
        intro hp'
        exact hx (h.owner_unique x tag p hp hp')
      . omega
      . intro _
        rw [hwindow]
        exact id

theorem Models.cancel_removed (h : s.Models σ) (tag : Nat)
    : ∃ v, left { s with tracker := s.tracker.cancel tag } tag = some v ∧
        (σ.cancel tag).Fixed tag v := by
  have htag := h.tags tag
  have hremoved := σ.cancel_entries_self tag
  have hp : (s.tracker.cancel tag).pending.lookup tag = none := by
    rw [(cancel_eq s.tracker tag).1, AList.lookup_erase]
  cases hwait : s.waits tag with
  | none =>
    have hwaiting : σ.waiting tag = false := by
      simp [htag.waiting, hwait]
    refine ⟨some .closed, left_of_absent hwait hp, Spec.Fixed.of_absent hremoved ?_⟩
    rw [Spec.cancel_kept_of_not_waiting hwaiting]
    exact htag.kept hwait
  | some c =>
    have hwaiting : σ.waiting tag = true := by
      simp [htag.waiting, hwait]
    cases hp' : s.tracker.pending.lookup tag with
    | none =>
      have ⟨v, hleft, hfixed⟩ := htag.removed hp'
      refine ⟨v, ?_, ?_⟩
      . rw [left_congr hp' hp, hleft]
        . rfl
        . intro c' _
          rw [cancel_waiters, hp', if_neg (by simp)]
      . cases hentry : σ.entries tag with
        | none =>
          have hsame : σ.cancel tag = σ := by
            simp [Spec.cancel, hentry]
          rw [hsame]
          exact hfixed
        | some e =>
          apply Spec.Fixed.of_kept hremoved
          rw [Spec.cancel_kept_of_waiting hwaiting hentry]
          simp [Entry.close, (hfixed.entry e hentry).1]
    | some p =>
      have ⟨_, e, hentry, hmodels, _⟩ := htag.registered p hp'
      have hclose := hmodels.close (h.wf.open_done p)
      refine ⟨_, ?_, Spec.Fixed.of_kept hremoved (Spec.cancel_kept_of_waiting hwaiting hentry)⟩
      rw [left_of_wait (s := { s with tracker := s.tracker.cancel tag }) hwait]
      rw [cancel_waiters, htag.waiter_eq p c hp' hwait, if_pos hp', ← hwait,
        ← hclose.verdict]
      rfl

theorem owns_of_cancel (hp : Owns { s with tracker := s.tracker.cancel tag } x p) : s.Owns x p := by
  apply Or.imp_left _ hp
  rw [(cancel_eq s.tracker tag).1]
  by_cases hx : x = tag
  . rw [hx, AList.lookup_erase]
    simp
  . rw [AList.lookup_erase_ne hx]
    exact id

theorem Models.cancel (h : s.Models σ) (tag : Nat)
    : Models { s with tracker := s.tracker.cancel tag } (σ.cancel tag) := by
  have heq := cancel_eq s.tracker tag
  have hspec := σ.cancel_eq tag
  have htag := h.tags tag
  apply h.update tag (h.wf.cancel tag) (fun _ _ => owns_of_cancel)
  . rw [hspec.1, h.closed, heq.2.1]
  . rw [hspec.2.2, h.results]
  . intro x hx
    rw [heq.1]
    exact ⟨AList.lookup_erase_ne hx, rfl⟩
  . intro p hp
    rw [cancel_waiters, if_neg]
    intro hp'
    exact hp (.inl hp')
  . exact heq.2.2.1
  . exact heq.2.2.2
  . intro x hx
    rw [hspec.2.1]
    exact ⟨(σ.cancel_of_ne hx).1, (σ.cancel_of_ne hx).2, rfl⟩
  . constructor
    . intro p hp
      rw [heq.2.2.1]
      exact htag.lt_next p (owns_of_cancel hp)
    . simp [heq.1]
    . exact htag.expired
    . rw [hspec.2.1]
      exact htag.waiting
    . intro hwait
      have hwaiting : σ.waiting tag = false := by
        rw [htag.waiting]
        simpa using hwait
      rw [Spec.cancel_kept_of_not_waiting hwaiting]
      exact htag.kept hwait
    . simp [heq.1]
    . intro _
      exact h.cancel_removed tag

theorem Models.finish (h : s.Models σ) (tag : Nat) (err : Option Err)
    : (waitDelete.finish s tag err).Models (σ.finish tag err) := by
  unfold waitDelete.finish setWait
  have hself : (s.tracker.pending.erase tag).lookup tag = none := AList.lookup_erase _ _
  have howns : ∀ x p, (waitDelete.finish s tag err).Owns x p → s.Owns x p ∧ x ≠ tag := by
    intro x p hp
    by_cases hx : x = tag
    . rw [hx] at hp
      simp [Owns, waitDelete.finish, setWait] at hp
    . refine ⟨?_, hx⟩
      simpa [Owns, waitDelete.finish, setWait, hx, AList.lookup_erase_ne hx] using hp
  apply h.update tag
  . exact ⟨h.wf.sorted, h.wf.head_le, h.wf.open_done⟩
  . intro x p hp
    exact (howns x p hp).1
  . exact h.closed
  . simp [Spec.finish, h.results]
  . intro x hx
    simp [hx, AList.lookup_erase_ne hx]
  . intro p _
    rfl
  . rfl
  . rfl
  . intro x hx
    simp [Spec.finish, Spec.remove, hx]
  . constructor
    . intro p hp
      exact absurd rfl (howns tag p hp).2
    . simp
    . simp
    . simp [Spec.finish]
    . simp [Spec.finish]
    . simp
    . intro hp
      refine ⟨some .closed, ?_, ?_⟩
      . apply left_of_absent _ hp
        simp
      . apply Spec.Fixed.of_absent
        . simp [Spec.finish, Spec.remove]
        . simp [Spec.finish]

theorem Models.select (h : s.Models σ) (phase : WaitPhase) {w : Waiter}
    (hwait : s.waits tag = some c) (hopen : w.done.closed = false)
    (hreturned : w.returned = (s.tracker.waiters c.waiter).returned)
    (hcode : w.returnCode = (s.tracker.waiters c.waiter).returnCode)
    (hvalue : w.value (some { c with phase }) = (s.tracker.waiters c.waiter).value (some c))
    (hphase : ∀ err, phase = .expired err → err = .timeout ∨ err = .ctx)
    : Models { s.setWait tag (some { c with phase }) with
        tracker := s.tracker.setWaiter c.waiter w } σ := by
  have htag := h.tags tag
  have howns : ∀ x p, Owns { s.setWait tag (some { c with phase }) with
      tracker := s.tracker.setWaiter c.waiter w } x p → s.Owns x p := by
    intro x p hp
    by_cases hx : x = tag
    . rw [hx] at hp ⊢
      simpa [Owns, setWait, hwait] using hp
    . simpa [Owns, setWait, hx] using hp
  apply h.update tag
  . exact h.wf.setWaiter _ _ hopen
  . exact howns
  . exact h.closed
  . exact h.results
  . intro x hx
    simp [setWait, hx]
  . intro p hp
    simp only [setWaiter_waiters]
    rw [update_of_ne]
    intro hc
    exact hp (.inr ⟨c, hwait, hc.symm⟩)
  . rfl
  . rfl
  . intro x _
    simp
  . constructor
    . intro p hp
      exact htag.lt_next p (howns tag p hp)
    . intro p c' hp hc'
      simp only [setWait, update_self, some.injEq] at hc'
      rw [← hc']
      exact htag.waiter_eq p c hp hwait
    . intro c' err hc' herr
      simp only [setWait, update_self, some.injEq] at hc'
      rw [← hc'] at herr
      exact hphase err herr
    . rw [htag.waiting]
      simp [setWait, hwait]
    . simp [setWait]
    . intro p hp
      have ⟨hkept, e, hentry, hmodels, hwindow⟩ := htag.registered p hp
      refine ⟨hkept, e, hentry, ?_, hwindow⟩
      have hp' := htag.waiter_eq p c hp hwait
      simp only [setWaiter_waiters, setWait, hp', update_self]
      rw [hp'] at hreturned hcode hvalue
      constructor
      . rw [hreturned, hcode]
        exact hmodels.returned
      . rw [hvalue, ← hwait]
        exact hmodels.verdict
    . intro hp
      have ⟨v, hleft, hfixed⟩ := htag.removed hp
      refine ⟨v, ?_, hfixed⟩
      rw [left_of_wait hwait] at hleft
      rw [left_of_wait (c := { c with phase })]
      . simp [hvalue, hleft]
      . simp [setWait]

theorem Models.waitBegin (h : s.Models σ) (timeout : Int) (hwait : s.waits tag = none)
    (hpending : s.tracker.pending.lookup tag = some p)
    : Models (s.setWait tag (some ⟨p, timeout, .selecting⟩))
        { σ with waiting := Function.update σ.waiting tag true } := by
  have htag := h.tags tag
  have howns : ∀ x q, (s.setWait tag (some ⟨p, timeout, .selecting⟩)).Owns x q → s.Owns x q := by
    intro x q hq
    by_cases hx : x = tag
    . rw [hx] at hq ⊢
      simpa [Owns, setWait, hpending, hwait] using hq
    . simpa [Owns, setWait, hx] using hq
  apply h.update tag
  . exact h.wf
  . exact howns
  . exact h.closed
  . exact h.results
  . intro x hx
    simp [setWait, hx]
  . intro q _
    rfl
  . rfl
  . rfl
  . intro x hx
    simp [hx]
  . have ⟨hkept, e, hentry, hmodels, hwindow⟩ := htag.registered p hpending
    constructor
    . intro q hq
      exact htag.lt_next q (howns tag q hq)
    . intro q c hq hc
      simp only [setWait, update_self, some.injEq] at hc hq
      rw [hpending, some.injEq] at hq
      rw [← hc, hq]
    . intro c err hc
      simp only [setWait, Function.update_self, Option.some.injEq] at hc
      simp [← hc]
    . simp [setWait]
    . simp [setWait]
    . intro q hq
      simp only [setWait] at hq
      rw [hpending, some.injEq] at hq
      refine ⟨hkept, e, hentry, ?_, hwindow⟩
      rw [hwait, hq] at hmodels
      simp only [setWait, update_self]
      exact ⟨hmodels.returned, hmodels.verdict⟩
    . intro hp
      simp only [setWait] at hp
      rw [hpending] at hp
      contradiction

theorem Models.step_waitBegin (h : s.Models σ) {timeout : Int}
    (hstep : s.waitBegin tag timeout = some s')
    : ∃ σ', Run.run Spec.step σ (s.specActions (.waitBegin tag timeout)) = some σ' ∧
        s'.Models σ' := by
  unfold State.waitBegin at hstep
  split at hstep
  . contradiction
  . next hwait =>
    have hwaiting : σ.waiting tag = false := by
      simp [(h.tags tag).waiting, hwait]
    split at hstep
    . next hpending =>
      simp only [some.injEq] at hstep
      have hleft : σ.left tag = some (some .closed) := by
        rw [← (h.tags tag).left_eq, left_of_absent hwait hpending]
      have hfinish : s' = waitDelete.finish s tag (some .closed) := by
        rw [← hstep]
        unfold waitDelete.finish setWait
        rw [erase_of_lookup_eq_none hpending, ← hwait, update_eq_self]
      refine ⟨σ.finish tag (some .closed), ?_, hfinish ▸ h.finish tag _⟩
      simp only [specActions, hpending]
      exact Spec.run_waitBegin_waitEnd hwaiting hleft
    . next p hpending =>
      simp only [some.injEq] at hstep
      refine ⟨_, ?_, hstep ▸ h.waitBegin timeout hwait hpending⟩
      simp only [specActions, hpending]
      exact Spec.run_waitBegin hwaiting

theorem Models.step_waitDone (h : s.Models σ) (hstep : s.waitDone tag = some s') : s'.Models σ := by
  unfold State.waitDone at hstep
  split at hstep
  . next p timeout hwait =>
    split at hstep
    . next err done hrecv =>
      rw [Chan.recv_eq_some_some_iff] at hrecv
      simp only [some.injEq] at hstep
      rw [← hstep]
      apply h.select _ hwait
      . dsimp only
        rw [hrecv.2]
        apply h.wf.open_done
      . rfl
      . rfl
      . simp [Waiter.value, WaitCall.received, hrecv.1]
      . simp
    . contradiction
  . contradiction

theorem Models.step_waitExpire (h : s.Models σ) {err : Err} {enabled : Int → Bool}
    (herr : err = .timeout ∨ err = .ctx) (hstep : s.waitExpire tag err enabled = some s')
    : s'.Models σ := by
  unfold State.waitExpire at hstep
  split at hstep
  . next p timeout hwait =>
    split at hstep
    . simp only [some.injEq] at hstep
      have hselect := h.select (.expired err) hwait (h.wf.open_done p) rfl rfl rfl
        (by simpa using herr)
      rw [← hstep]
      simpa [setWaiter, setWait] using hselect
    . contradiction
  . contradiction

theorem Models.step_waitDelete (h : s.Models σ) (hstep : s.waitDelete tag = some s')
    : ∃ σ', Run.run Spec.step σ (s.specActions (.waitDelete tag)) = some σ' ∧ s'.Models σ' := by
  have htag := h.tags tag
  unfold State.waitDelete at hstep
  split at hstep
  . next p timeout err hwait =>
    simp only [some.injEq] at hstep
    refine ⟨σ.finish tag err, ?_, hstep ▸ h.finish tag err⟩
    simp only [specActions, hwait]
    apply Spec.run_waitEnd
    . simp [htag.waiting, hwait]
    . left
      rw [← htag.left_eq, left_of_wait hwait]
      rfl
  . next p timeout err hwait =>
    simp only [some.injEq] at hstep
    refine ⟨σ.finish tag (some err), ?_, hstep ▸ h.finish tag (some err)⟩
    simp only [specActions, hwait]
    apply Spec.run_waitEnd
    . simp [htag.waiting, hwait]
    . right
      simpa using htag.expired _ err hwait rfl
  . contradiction

theorem Models.step {a : Action} (h : s.Models σ) (ha : s.Registrable a)
    (hstep : s.step a = some s')
    : ∃ σ', Run.run Spec.step σ (s.specActions a) = some σ' ∧ s'.Models σ' := by
  cases a with
  | register tag =>
    simp only [State.step, some.injEq] at hstep
    exact ⟨_, rfl, hstep ▸ h.register ha⟩
  | markReturned tag replyCode =>
    simp only [State.step, some.injEq] at hstep
    exact ⟨_, rfl, hstep ▸ h.markReturned tag replyCode⟩
  | ack tag multiple =>
    simp only [State.step, some.injEq] at hstep
    refine ⟨_, rfl, hstep ▸ ?_⟩
    cases multiple with
    | true => exact h.resolveUpTo tag none
    | false => exact h.resolveOne tag none
  | nack tag multiple =>
    simp only [State.step, some.injEq] at hstep
    refine ⟨_, rfl, hstep ▸ ?_⟩
    cases multiple with
    | true => exact h.resolveUpTo tag (some .nacked)
    | false => exact h.resolveOne tag (some .nacked)
  | closeAll =>
    simp only [State.step, some.injEq] at hstep
    exact ⟨_, rfl, hstep ▸ h.closeAll⟩
  | cancel tag =>
    simp only [State.step, some.injEq] at hstep
    exact ⟨_, rfl, hstep ▸ h.cancel tag⟩
  | waitBegin tag timeout => exact h.step_waitBegin hstep
  | waitDone tag => exact ⟨σ, rfl, h.step_waitDone hstep⟩
  | waitTimer tag => exact ⟨σ, rfl, h.step_waitExpire (.inl rfl) hstep⟩
  | waitCtx tag => exact ⟨σ, rfl, h.step_waitExpire (.inr rfl) hstep⟩
  | waitDelete tag => exact h.step_waitDelete hstep

end State

open State

theorem tracker_refines_spec {as : List Action} {s : State}
    (hregister : Run.Along step Registrable .init as)
    (hrun : Run.run step .init as = some s)
    : ∃ σ, Run.run Spec.step .init (Run.observed step specActions .init as) = some σ ∧
        (∀ tag, s.left tag = σ.left tag) ∧ s.results = σ.results := by
  have ⟨σ, hσ, hmodels⟩ := Run.simulation_of_run (R := Models)
    (fun s a s' σ h ha hstep => h.step ha hstep) Models.init hregister hrun
  exact ⟨σ, hσ, fun tag => (hmodels.tags tag).left_eq, hmodels.results.symm⟩

def outOfOrderRun : List Action :=
  [.register 5, .ack 5 true, .register 4, .markReturned 4 312, .register 9, .waitBegin 4 0,
    .ack 6 true, .waitDone 4, .waitDelete 4, .waitBegin 9 1, .closeAll, .waitTimer 9, .waitDelete 9]

theorem tracker_refines_spec_outOfOrderRun
    : ∃ s σ, Run.run step .init outOfOrderRun = some s ∧
        Run.run Spec.step .init
          (Run.observed step specActions .init outOfOrderRun) = some σ ∧
        (∀ tag, s.left tag = σ.left tag) ∧ s.results = σ.results ∧
        s.results = [(4, some (.unroutable 312)), (9, some .timeout)] := by
  have hresults : (Run.run step .init outOfOrderRun).map results =
      some [(4, some (.unroutable 312)), (9, some .timeout)] := by decide
  have ⟨s, hrun, hs⟩ := map_eq_some_iff.mp hresults
  have ⟨σ, hσ, hleft, heq⟩ := tracker_refines_spec (by decide) hrun
  exact ⟨s, σ, hrun, hσ, hleft, heq, hs⟩

end Confirms
