import Mathlib.Data.Finset.Lattice.Fold
import Mathlib.Data.Finset.Range
import Mathlib.Data.Int.ConditionallyCompleteOrder
import Mathlib.Order.ConditionallyCompleteLattice.Basic
import Mathlib.Order.Interval.Finset.Nat
import Mathlib.Order.Monotone.Basic
import Warren.Publisher.RateLimiter.Impl

/-!
The waits of a sequence of calls in closed form, and what follows for the rate.
-/

namespace RateLimiter

variable {ε : Type} {perSec : Nat} {I : Int} {now : Nat → Int} {ctxErr : Nat → Option ε} {k : Nat}

def since (I : Int) (now : Nat → Int) (k j : Nat) : Int := now j + (k - j) * I

def cursor (I : Int) (now : Nat → Int) (k : Nat) : Int :=
  (Finset.range (k + 1)).sup' Finset.nonempty_range_add_one (since I now k)

def Fits (I : Int) (now : Nat → Int) (k : Nat) : Prop := cursor I now k / second ≤ maxSeconds

def calls (now : Nat → Int) (j k : Nat) : Nat :=
  ((Finset.range (k + 1)).filter (fun i => now j ≤ now i ∧ now i ≤ now k)).card

structure Paced (perSec : Nat) (I : Int) (now d : Nat → Int) : Prop where
  delay : ∀ k, Fits I now k →
    d k = min maxDuration (max 0 (cursor I now k - (perSec - 1) * I - now k))
  spaced : ∀ granted : Nat → Nat, StrictMono granted → ∀ k m,
    Fits I now (granted (k + perSec + m)) → d (granted (k + perSec + m)) < maxDuration →
    now (granted k) + d (granted k) + (m + 1) * I
      ≤ now (granted (k + perSec + m)) + d (granted (k + perSec + m))
  needed : Monotone now → ∀ k, Fits I now k → 0 < d k →
    ∃ j < k, perSec * I + (now k - now j) < calls now j k * I

theorem since_le_cursor (I : Int) (now : Nat → Int) {j : Nat} (hj : j ≤ k)
    : since I now k j ≤ cursor I now k := by
  apply Finset.le_sup'
  rw [Finset.mem_range]
  omega

theorem exists_since (I : Int) (now : Nat → Int) (k : Nat)
    : ∃ j ≤ k, cursor I now k = since I now k j := by
  have ⟨j, hj, heq⟩ :=
    Finset.exists_mem_eq_sup' (Finset.nonempty_range_add_one (n := k)) (since I now k)
  rw [Finset.mem_range] at hj
  exact ⟨j, by omega, heq⟩

theorem now_le_cursor (I : Int) (now : Nat → Int) (k : Nat) : now k ≤ cursor I now k := by
  have h := since_le_cursor I now (Nat.le_refl k)
  simpa [since] using h

theorem cursor_add_le (I : Int) (now : Nat → Int) {n : Nat} (hkn : k ≤ n)
    : cursor I now k + (n - k) * I ≤ cursor I now n := by
  have ⟨j, hj, heq⟩ := exists_since I now k
  have h := since_le_cursor I now (Nat.le_trans hj hkn)
  unfold since at heq h
  rw [heq]
  grind

theorem cursor_succ (I : Int) (now : Nat → Int) (k : Nat)
    : cursor I now (k + 1) = max (now (k + 1)) (cursor I now k + I) := by
  apply Int.le_antisymm
  . have ⟨j, hj, heq⟩ := exists_since I now (k + 1)
    rw [heq]
    cases Nat.lt_or_ge k j with
    | inl hlt =>
      have hj : j = k + 1 := by omega
      subst hj
      simp [since]
    | inr hle =>
      have h := since_le_cursor I now hle
      apply Int.le_trans _ (Int.le_max_right ..)
      unfold since at h ⊢
      grind
  . apply Int.max_le.mpr
    refine ⟨now_le_cursor I now (k + 1), ?_⟩
    have h := cursor_add_le I now (Nat.le_succ k)
    grind

theorem fits_of_le {n : Nat} (hI : 0 ≤ I) (hkn : k ≤ n) (h : Fits I now n) : Fits I now k := by
  have hle := cursor_add_le I now hkn
  have hmul : 0 ≤ (n - k : Int) * I := Int.mul_nonneg (by omega) hI
  apply Int.le_trans _ h
  apply Int.ediv_le_ediv (by decide)
  omega

theorem add_eq {t d : Int} (hmax : (t + d) / second ≤ maxSeconds) (hmin : -second ≤ t + d)
    : add t d = t + d := by
  unfold add second maxSeconds at *
  rw [if_neg (by omega), if_neg (by omega)]

theorem reserve_snd (rl : Limiter) (now : Int)
    : (reserve rl now).2
        = { rl with tat := add (if rl.tat < now then now else rl.tat) rl.interval } := by
  unfold reserve
  rw [apply_ite Prod.snd, ite_self]

def At (perSec : Nat) (I : Int) (now : Nat → Int) (k : Nat) (rl : Limiter) : Prop :=
  rl.interval = I ∧ rl.tau = (perSec - 1) * I
    ∧ (if rl.tat < now k then now k else rl.tat) = cursor I now k

theorem at_after (perSec : Nat) (hI : 0 ≤ I) (hnow : ∀ k, 0 < now k)
    (ctxErr : Nat → Option ε) (hfits : Fits I now k)
    : ∃ rl, after (some { interval := I, tau := (perSec - 1) * I }) now ctxErr k = some rl
        ∧ At perSec I now k rl := by
  induction k with
  | zero =>
    refine ⟨_, rfl, rfl, rfl, ?_⟩
    rw [if_pos (hnow 0)]
    simp [cursor, since]
  | succ k ih =>
    have ⟨rl, hafter, hinterval, htau, hcursor⟩ := ih (fits_of_le hI (Nat.le_succ k) hfits)
    have hsucc := cursor_succ I now k
    have hadd : add (cursor I now k) I = cursor I now k + I := by
      have hle := now_le_cursor I now k
      have hpos := hnow k
      apply add_eq
      . apply Int.le_trans _ hfits
        apply Int.ediv_le_ediv (by decide)
        omega
      . unfold second
        omega
    refine ⟨(reserve rl (now k)).2, ?_, ?_⟩
    . unfold after wait
      rw [hafter]
      dsimp only
      split
      all_goals rfl
    . rw [reserve_snd]
      unfold At
      dsimp only
      rw [hcursor, hinterval, hadd, hsucc]
      refine ⟨rfl, htau, ?_⟩
      split
      all_goals omega

theorem reserve_eq {rl : Limiter} (h : At perSec I now k rl) (htau : 0 ≤ (perSec - 1) * I)
    (hsecond : (perSec - 1) * I ≤ second) (hnow : 0 < now k) (hfits : Fits I now k)
    : (reserve rl (now k)).1
        = min maxDuration (max 0 (cursor I now k - (perSec - 1) * I - now k)) := by
  have ⟨_, hrl, hcursor⟩ := h
  have hle := now_le_cursor I now k
  have hadd : add (cursor I now k) (-((perSec - 1) * I)) = cursor I now k - (perSec - 1) * I := by
    apply add_eq
    . apply Int.le_trans _ hfits
      apply Int.ediv_le_ediv (by decide)
      omega
    . omega
  unfold reserve sub
  simp only [hcursor, hrl, hadd]
  unfold maxDuration
  split
  all_goals
    omega

theorem delay_eq (hI : 0 ≤ I) (hperSec : 1 ≤ perSec) (hsecond : (perSec - 1) * I ≤ second)
    (hnow : ∀ k, 0 < now k) (ctxErr : Nat → Option ε) (hfits : Fits I now k)
    : delay (some { interval := I, tau := (perSec - 1) * I }) now ctxErr k
        = min maxDuration (max 0 (cursor I now k - (perSec - 1) * I - now k)) := by
  have ⟨rl, hafter, hat⟩ := at_after perSec hI hnow ctxErr hfits
  unfold delay
  rw [hafter]
  exact reserve_eq hat (Int.mul_nonneg (by omega) hI) hsecond (hnow k) hfits

theorem le_calls {j : Nat} (hmono : Monotone now) : k + 1 - j ≤ calls now j k := by
  rw [← Nat.card_Icc]
  apply Finset.card_le_card
  intro i hi
  rw [Finset.mem_Icc] at hi
  rw [Finset.mem_filter, Finset.mem_range]
  exact ⟨by omega, hmono hi.1, hmono hi.2⟩

theorem paced_of_delay {d : Nat → Int} (hperSec : 1 ≤ perSec) (hI : 0 < I)
    (hd : ∀ k, Fits I now k →
      d k = min maxDuration (max 0 (cursor I now k - (perSec - 1) * I - now k)))
    : Paced perSec I now d := by
  have htau : 0 ≤ (perSec - 1) * I := Int.mul_nonneg (by omega) (by omega)
  refine ⟨hd, ?_, ?_⟩
  . intro granted hgranted k m hfits huncut
    have hlater : granted k + (perSec + m) ≤ granted (k + perSec + m) := by
      have h := hgranted.add_le_nat (perSec + m) k
      have hsum : perSec + m + k = k + perSec + m := by omega
      rw [hsum] at h
      omega
    generalize granted k = i at *
    generalize granted (k + perSec + m) = n at *
    have hle : i ≤ n := by omega
    have hcursor := cursor_add_le I now hle
    have hnow := now_le_cursor I now i
    have hi := hd i (fits_of_le (by omega) hle hfits)
    have hn := hd n hfits
    have hslots : (m + perSec) * I ≤ (n - i : Int) * I :=
      Int.mul_le_mul_of_nonneg_right (by omega) (by omega)
    grind
  . intro hmono k hfits hpos
    have ⟨j, hj, hcursor⟩ := exists_since I now k
    rw [hd k hfits, hcursor] at hpos
    unfold since at hpos
    have hlt : j ≠ k := by
      intro heq
      subst heq
      grind
    have hcalls : (k + 1 - j : Int) * I ≤ calls now j k * I := by
      have h := le_calls (k := k) (j := j) hmono
      exact Int.mul_le_mul_of_nonneg_right (by omega) (by omega)
    refine ⟨j, by omega, ?_⟩
    grind

theorem newRateLimiter_paces (perSec : Nat) (hmin : 1 ≤ perSec) (hmax : perSec ≤ 10 ^ 9)
    (now : Nat → Int) (hnow : ∀ k, 0 < now k) (ctxErr : Nat → Option ε)
    : Paced perSec (second / perSec) now (delay (newRateLimiter perSec) now ctxErr) := by
  have hI : 1 ≤ second / perSec := by
    apply Int.le_ediv_of_mul_le
    . omega
    . unfold second
      omega
  have hnew : newRateLimiter perSec
      = some { interval := second / perSec, tau := (perSec - 1) * (second / perSec) } := by
    unfold newRateLimiter
    rw [if_neg (by omega), Int.tdiv_eq_ediv_of_nonneg (by decide)]
    dsimp only
    rw [if_neg (by omega)]
  apply paced_of_delay hmin hI
  intro k hfits
  rw [hnew]
  apply delay_eq (by omega) hmin _ hnow ctxErr hfits
  have hmul := Int.mul_ediv_self_le (x := second) (k := perSec) (by omega)
  grind

theorem newRateLimiter_paces_burst
    : Paced 2 (second / 2) (fun _ => 1)
          (delay (newRateLimiter 2) (fun _ => 1) (fun _ => (none : Option Unit)))
        ∧ delay (newRateLimiter 2) (fun _ => 1) (fun _ => (none : Option Unit)) 2
          = 500000000 :=
  ⟨newRateLimiter_paces 2 (by decide) (by decide) _ (fun _ => by decide) _, by decide⟩

def clockBack (k : Nat) : Int := if k = 0 then 400 * 365 * 86400 * second else 1

theorem delay_cut
    : Fits second clockBack 1
        ∧ delay (newRateLimiter 1) clockBack (fun _ => (none : Option Unit)) 1 = maxDuration
        ∧ maxDuration < max 0 (cursor second clockBack 1 - (1 - 1) * second - clockBack 1) := by
  unfold Fits
  decide

end RateLimiter
