import Mathlib.Order.Nat
import Warren.Publisher.Retry.Impl

namespace PublishRetry

open Encode (Body Headers Message Publishing buildPublishing)
open Errors (Err Attempt isTransient)
open List

variable {M : Type} {p : Publisher} {ctxDone : Option Nat} {msg : Message M} {body : Body}
variable {turns : Nat → Turn}

namespace Turn

-- when the `select` looks, or in the instant that ends its wait, both of its arms are ready
def Raced (t : Turn) (done : Nat) : Prop :=
  t.checkAt < done ∧ (done ≤ t.selectAt ∧ t.firesAt ≤ t.selectAt ∨ done = t.firesAt)

/--
The context is done before the backoff has elapsed. When the loop finds that both have happened, the
`select` decides.
-/
def CtxEnds (t : Turn) (ctxDone : Option Nat) : Prop :=
  ∃ done ∈ ctxDone, (t.Raced done → t.either = .ctx) ∧ (¬ t.Raced done → done < t.firesAt)

theorem arm_eq_ctx_iff (t : Turn) {done : Nat} (hcheck : t.checkAt < done)
    : t.arm (some done) = .ctx
        ↔ (t.Raced done → t.either = .ctx) ∧ (¬ t.Raced done → done < t.firesAt) := by
  grind [arm, Raced]

theorem ctxEnds_iff (t : Turn) (ctxDone : Option Nat)
    : t.CtxEnds ctxDone ↔ ctxDone.any (· ≤ t.checkAt) = true ∨ t.arm ctxDone = .ctx := by
  cases ctxDone with
  | none => simp [CtxEnds, arm]
  | some done =>
    have hends : t.CtxEnds (some done)
        ↔ (t.Raced done → t.either = .ctx) ∧ (¬ t.Raced done → done < t.firesAt) := by
      simp [CtxEnds]
    rw [hends]
    by_cases hcheck : t.checkAt < done
    . rw [t.arm_eq_ctx_iff hcheck]
      simp
      omega
    . have hlt := t.checkAt_lt
      have hraced : ¬ t.Raced done := fun h => hcheck h.1
      simp [hraced]
      omega

end Turn

def Halts (p : Publisher) (ctxDone : Option Nat) (turns : Nat → Turn) (i : Nat) : Prop :=
  isTransient (Errors.publishOnce (turns i).attempt) = false
    ∨ p.retryPolicy = none
    ∨ (∃ retries ∈ p.retryPolicy, 0 < retries ∧ retries ≤ i)
    ∨ (turns i).CtxEnds ctxDone

variable {i : Nat}

theorem loop_succ_of_halts (fuel : Nat) (hhalts : Halts p ctxDone turns i)
    : loop p ctxDone msg body turns (fuel + 1) i
        =
      publishOnce msg body (turns i).attempt (ret (Errors.publishOnce (turns i).attempt)) := by
  rw [loop]
  congr 1
  split
  next hok => rw [hok]
  next err herr hnone => rw [herr]
  next err retries herr hsome =>
    rw [herr]
    split
    next => rfl
    next htransient =>
      split
      next => rfl
      next hbound =>
        split
        next => rfl
        next hcheck =>
          split
          next => rfl
          next harm =>
            exfalso
            rcases hhalts with htrans | hnone | ⟨r, hr, hpos, hi⟩ | hends
            . rw [herr] at htrans
              contradiction
            . simp [hnone] at hsome
            . rw [hsome, Option.mem_some_iff] at hr
              omega
            . rw [Turn.ctxEnds_iff] at hends
              simp [hcheck, harm] at hends

theorem loop_succ_of_not_halts (fuel : Nat) (hhalts : ¬ Halts p ctxDone turns i)
    : loop p ctxDone msg body turns (fuel + 1) i
        =
      publishOnce msg body (turns i).attempt (loop p ctxDone msg body turns fuel (i + 1)) := by
  rw [Halts, Turn.ctxEnds_iff] at hhalts
  push Not at hhalts
  obtain ⟨htransient, hnone, hbound, hcheck, harm⟩ := hhalts
  rw [loop]
  congr 1
  split
  next hok =>
    rw [hok] at htransient
    contradiction
  next err herr hnone' => contradiction
  next err retries herr hsome =>
    have hlt := hbound retries hsome
    rw [herr] at htransient
    rw [if_neg htransient, if_neg (by omega), if_neg hcheck]
    split
    next hctx => contradiction
    next => rfl

section PublishOnce

variable (msg : Message M) (body : Body) (a : Attempt) (rest : Outcome M)

@[simp]
theorem returned_publishOnce : (publishOnce msg body a rest).returned = rest.returned := rfl

@[simp]
theorem attempts_publishOnce
    : (publishOnce msg body a rest).attempts = (msg, body) :: rest.attempts := rfl

theorem frames_publishOnce
    : (publishOnce msg body a rest).frames = rest.frames
        ∨ (publishOnce msg body a rest).frames = buildPublishing msg body :: rest.frames := by
  unfold publishOnce
  dsimp
  split
  . right
    rfl
  . left
    rfl

@[simp]
theorem returned_ret (err : Option Err) : (ret err : Outcome M).returned = some err := rfl

@[simp]
theorem attempts_ret (err : Option Err) : (ret err : Outcome M).attempts = [] := rfl

end PublishOnce

structure Uniform (msg : Message M) (body : Body) (o : Outcome M) : Prop where
  attempts : ∀ a ∈ o.attempts, a = (msg, body)
  frames : ∀ f ∈ o.frames, f = buildPublishing msg body
  length : o.frames.length ≤ o.attempts.length

theorem uniform_ret (err : Option Err) : Uniform msg body (ret err) := by
  constructor
  all_goals simp [ret]

theorem uniform_publishOnce {o : Outcome M} (a : Attempt) (h : Uniform msg body o)
    : Uniform msg body (publishOnce msg body a o) := by
  grind [Uniform, frames_publishOnce, attempts_publishOnce]

theorem loop_succ_cases (p : Publisher) (ctxDone : Option Nat) (msg : Message M) (body : Body)
    (turns : Nat → Turn) (fuel i : Nat)
    : loop p ctxDone msg body turns (fuel + 1) i
          = publishOnce msg body (turns i).attempt (ret (Errors.publishOnce (turns i).attempt))
        ∨ loop p ctxDone msg body turns (fuel + 1) i
          = publishOnce msg body (turns i).attempt
              (loop p ctxDone msg body turns fuel (i + 1)) := by
  by_cases hhalts : Halts p ctxDone turns i
  . left
    apply loop_succ_of_halts fuel hhalts
  . right
    apply loop_succ_of_not_halts fuel hhalts

theorem uniform_loop (p : Publisher) (ctxDone : Option Nat) (turns : Nat → Turn) (fuel i : Nat)
    : Uniform msg body (loop p ctxDone msg body turns fuel i) := by
  induction fuel generalizing i with
  | zero =>
    constructor
    all_goals simp [loop]
  | succ fuel ih =>
    cases loop_succ_cases p ctxDone msg body turns fuel i with
    | inl hret =>
      rw [hret]
      apply uniform_publishOnce
      apply uniform_ret
    | inr hgo =>
      rw [hgo]
      apply uniform_publishOnce
      apply ih

theorem length_attempts_loop_le (p : Publisher) (ctxDone : Option Nat) (turns : Nat → Turn)
    (fuel i : Nat) : (loop p ctxDone msg body turns fuel i).attempts.length ≤ fuel := by
  induction fuel generalizing i with
  | zero => simp [loop]
  | succ fuel ih =>
    cases loop_succ_cases p ctxDone msg body turns fuel i with
    | inl hret => simp [hret]
    | inr hgo =>
      rw [hgo, attempts_publishOnce, length_cons]
      have hle := ih (i + 1)
      omega

theorem loop_of_first {k : Nat} (hhalts : Halts p ctxDone turns k) (n : Nat) {fuel : Nat}
    (hi : i + n = k) (hfuel : n < fuel) (hfirst : ∀ j, i ≤ j → j < k → ¬ Halts p ctxDone turns j)
    : (loop p ctxDone msg body turns fuel i).returned
          = some (Errors.publishOnce (turns k).attempt)
        ∧ (loop p ctxDone msg body turns fuel i).attempts.length = n + 1 := by
  induction n generalizing i fuel with
  | zero =>
    cases fuel with
    | zero => omega
    | succ fuel =>
      rw [Nat.add_zero] at hi
      subst hi
      rw [loop_succ_of_halts fuel hhalts]
      simp
  | succ n ih =>
    cases fuel with
    | zero => omega
    | succ fuel =>
      have hgo := hfirst i (by omega) (by omega)
      rw [loop_succ_of_not_halts fuel hgo]
      have ⟨hret, hlength⟩ := @ih (i + 1) fuel (by omega) (by omega)
        (fun j hj => hfirst j (by omega))
      simp [hret, hlength]

theorem loop_of_none (hgo : ∀ j, ¬ Halts p ctxDone turns j) (fuel i : Nat)
    : (loop p ctxDone msg body turns fuel i).returned = none
        ∧ (loop p ctxDone msg body turns fuel i).attempts.length = fuel := by
  induction fuel generalizing i with
  | zero => simp [loop]
  | succ fuel ih =>
    rw [loop_succ_of_not_halts fuel (hgo i)]
    have ⟨hret, hlength⟩ := ih (i + 1)
    simp [hret, hlength]

theorem length_attempts_le_of_halts (hhalts : Halts p ctxDone turns i) (fuel : Nat)
    : (loop p ctxDone msg body turns fuel 0).attempts.length ≤ i + 1 := by
  classical
  have hex : ∃ k, Halts p ctxDone turns k := ⟨i, hhalts⟩
  have hle := Nat.find_min' hex hhalts
  by_cases hfuel : Nat.find hex < fuel
  . have hlength : (loop p ctxDone msg body turns fuel 0).attempts.length = Nat.find hex + 1 := by
      apply And.right
      apply loop_of_first (Nat.find_spec hex) (Nat.find hex) (Nat.zero_add _) hfuel
      intro j _ hj
      apply Nat.find_min hex hj
    omega
  . apply Nat.le_trans (length_attempts_loop_le p ctxDone turns fuel 0)
    omega

def Stops (p : Publisher) (ctxDone : Option Nat) (turns : Nat → Turn) (i : Nat) : Prop :=
  Errors.publishOnce (turns i).attempt = none
    ∨ isTransient (Errors.publishOnce (turns i).attempt) = false
    ∨ p.retryPolicy = none
    ∨ (∃ retries ∈ p.retryPolicy, 0 < retries ∧ i = retries)
    ∨ (turns i).CtxEnds ctxDone

theorem halts_of_stops (h : Stops p ctxDone turns i) : Halts p ctxDone turns i := by
  rcases h with hok | htransient | hnone | ⟨retries, hmem, hpos, heq⟩ | hends
  . left
    rw [hok]
    rfl
  . left
    apply htransient
  . right; left
    apply hnone
  . right; right; left
    exact ⟨retries, hmem, hpos, by omega⟩
  . right; right; right
    apply hends

theorem exists_stops_of_halts (h : Halts p ctxDone turns i) : ∃ j ≤ i, Stops p ctxDone turns j := by
  rcases h with htransient | hnone | ⟨retries, hmem, hpos, hle⟩ | hends
  . exact ⟨i, Nat.le_refl i, .inr (.inl htransient)⟩
  . exact ⟨i, Nat.le_refl i, .inr (.inr (.inl hnone))⟩
  . refine ⟨retries.toNat, by omega, ?_⟩
    right; right; right; left
    exact ⟨retries, hmem, hpos, by omega⟩
  . exact ⟨i, Nat.le_refl i, .inr (.inr (.inr (.inr hends)))⟩

def iteration (ctxDone : Option Nat) (t : Turn) : Errors.Iteration where
  attempt := t.attempt
  ctxDone := ctxDone.any (· ≤ t.checkAt)
  backoffDone := t.arm ctxDone = .ctx

theorem returned_retryLoop (p : Publisher) (ctxDone : Option Nat) (msg : Message M) (body : Body)
    (turns : Nat → Turn) (fuel i : Nat)
    : (Errors.retryLoop p.retryPolicy i
          ((range' i fuel).map (fun j => iteration ctxDone (turns j)))).returned
        =
      (loop p ctxDone msg body turns fuel i).returned := by
  induction fuel generalizing i with
  | zero => rfl
  | succ fuel ih =>
    have hattempt : (iteration ctxDone (turns i)).attempt = (turns i).attempt := rfl
    have hcheck : (iteration ctxDone (turns i)).ctxDone = ctxDone.any (· ≤ (turns i).checkAt) := rfl
    have harm : (iteration ctxDone (turns i)).backoffDone = decide ((turns i).arm ctxDone = .ctx) :=
      rfl
    rw [range'_succ, map_cons, loop, returned_publishOnce]
    unfold Errors.retryLoop
    rw [hattempt, hcheck, harm]
    cases Errors.publishOnce (turns i).attempt with
    | none => rfl
    | some err =>
      cases hpolicy : p.retryPolicy with
      | none => rfl
      | some retries =>
        rw [hpolicy] at ih
        dsimp only
        split
        . rfl
        . split
          . rfl
          . split
            . rfl
            . cases (turns i).arm ctxDone with
              | ctx => rfl
              | timer => apply ih

theorem publish_eq_loop {c : Call M} (hopen : p.closed = false) (henc : c.encoded = .ok (msg, body))
    (turns : Nat → Turn) (fuel : Nat)
    : publish p c turns fuel
        =
      loop p c.ctxDone { msg with headers := c.injectTrace msg.headers } body turns fuel 0 := by
  unfold publish
  simp [hopen, henc]

theorem publish_exact (p : Publisher) (c : Call M) (msg : Message M) (body : Body)
    (turns : Nat → Turn) (hopen : p.closed = false) (henc : c.encoded = .ok (msg, body))
    : (∀ fuel, Uniform { msg with headers := c.injectTrace msg.headers } body
          (publish p c turns fuel))
        ∧ (∀ k, Stops p c.ctxDone turns k → (∀ i < k, ¬ Stops p c.ctxDone turns i) →
            ∀ fuel, k < fuel →
              (publish p c turns fuel).returned = some (Errors.publishOnce (turns k).attempt)
                ∧ (publish p c turns fuel).attempts.length = k + 1)
        ∧ ((∀ k, ¬ Stops p c.ctxDone turns k) → ∀ fuel,
            (publish p c turns fuel).returned = none
              ∧ (publish p c turns fuel).attempts.length = fuel)
        ∧ (∀ i, Errors.publishOnce (turns i).attempt = none → ∀ fuel,
            (publish p c turns fuel).attempts.length ≤ i + 1)
        ∧ (∀ i err, Errors.publishOnce (turns i).attempt = some err →
            err.is (.ctx .canceled) = true → ∀ fuel,
              (publish p c turns fuel).attempts.length ≤ i + 1)
        ∧ (∀ retries : Nat, p.retryPolicy = some (retries : Int) → 0 < retries → ∀ fuel,
            (publish p c turns fuel).frames.length ≤ retries + 1) := by
  have heq := publish_eq_loop hopen henc turns
  simp only [heq]
  refine ⟨?_, ?_, ?_, ?_, ?_, ?_⟩
  . intro fuel
    apply uniform_loop
  . intro k hstops hfirst fuel hfuel
    apply loop_of_first (halts_of_stops hstops) k (Nat.zero_add k) hfuel
    intro j _ hj hhalts
    obtain ⟨i, hi, hstopsi⟩ := exists_stops_of_halts hhalts
    apply hfirst i (Nat.lt_of_le_of_lt hi hj) hstopsi
  . intro hgo fuel
    apply loop_of_none
    intro j hhalts
    obtain ⟨i, _, hstopsi⟩ := exists_stops_of_halts hhalts
    apply hgo i hstopsi
  . intro i hok fuel
    apply length_attempts_le_of_halts
    apply halts_of_stops
    left
    apply hok
  . intro i err herr hcanceled fuel
    apply length_attempts_le_of_halts
    left
    simp [herr, isTransient, hcanceled]
  . intro retries hsome hpos fuel
    apply Nat.le_trans (uniform_loop p c.ctxDone turns fuel 0).length
    apply length_attempts_le_of_halts
    right; right; left
    exact ⟨retries, hsome, by omega, by omega⟩

def nackedOnce (selectAt : Nat) (hselect : 3 ≤ selectAt) (either : Arm) (i : Nat) : Turn where
  attempt := {
    rateLimiter := none
    barrier := .cleared
    pool := .idle
    send := {
      ctxErr := .canceled
      register := none
      publish := none
      wait := if i = 0 then some .nacked else none } }
  checkAt := 3
  firesAt := 10
  selectAt
  either
  checkAt_lt := by decide
  checkAt_le := hselect

def orderMessage : Message Unit where
  body := some ()
  messageID := "order-1"
  correlationID := ""
  replyTo := ""
  type := ""
  appID := ""
  userID := ""
  contentType := "application/json"
  contentEncoding := ""
  headers := []
  priority := 0
  timestamp := 0
  expiration := 0
  deliveryMode := Encode.persistent
  delay := 0

def orderCall (ctxDone : Option Nat) : Call Unit where
  encoded := .ok (orderMessage, [])
  injectTrace := id
  ctxDone

theorem publish_exact_nackedOnce
    : (publish ⟨false, some 3⟩ (orderCall none) (nackedOnce 4 (by decide) .ctx) 5).returned
          = some none
        ∧ (publish ⟨false, some 3⟩ (orderCall none) (nackedOnce 4 (by decide) .ctx)
            5).attempts.length = 2 := by
  have h := publish_exact ⟨false, some 3⟩ (orderCall none) orderMessage []
    (nackedOnce 4 (by decide) .ctx) rfl rfl
  apply h.2.1 1
  . left
    rfl
  . intro i hi
    have hi : i = 0 := by omega
    subst hi
    simp [Stops, Turn.CtxEnds, orderCall]
    decide
  . decide

/--
The context is done at 5 and the backoff has elapsed at 10, both before the loop reaches its
`select` at 12, which takes the arm of the timer.
-/
theorem retries_after_ctxDone
    : 5 < (nackedOnce 12 (by decide) .timer 0).firesAt
        ∧ (publish ⟨false, some 3⟩ (orderCall (some 5)) (nackedOnce 12 (by decide) .timer)
            5).attempts.length = 2 := by
  decide

end PublishRetry
