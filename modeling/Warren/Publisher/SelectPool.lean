import Mathlib.Data.List.Induction
import Warren.Connection.WaitBarrier.Impl

/-!
`selectPool` (`publisher.go`): the choice of the socket by the number of publishes in flight.
-/

namespace SelectPool

open List
open WaitBarrier

structure FirstMin (xs : List Nat) (idx v : Nat) : Prop where
  get : xs[idx]? = some v
  le : ∀ w ∈ xs, v ≤ w
  lt : ∀ j w, j < idx → xs[j]? = some w → v < w

namespace FirstMin

variable {xs : List Nat} {idx v n : Nat}

theorem lt_length (h : FirstMin xs idx v) : idx < xs.length := by
  apply List.getElem?_eq_some_iff.mp h.get |>.1

theorem singleton (n : Nat) : FirstMin [n] 0 n := by
  constructor
  . simp
  . simp
  . intro j w hj
    omega

theorem concat_lt (h : FirstMin xs idx v) (hlt : n < v) : FirstMin (xs ++ [n]) xs.length n := by
  have hall : ∀ w ∈ xs, n < w := fun w hw => Nat.lt_of_lt_of_le hlt (h.le w hw)
  constructor
  . simp
  . intro w hw
    cases mem_append.mp hw with
    | inl hold => apply Nat.le_of_lt (hall w hold)
    | inr hnew => simp_all
  . intro j w hj hw
    rw [getElem?_append_left hj] at hw
    apply hall
    apply mem_of_getElem? hw

theorem concat_le (h : FirstMin xs idx v) (hle : v ≤ n) : FirstMin (xs ++ [n]) idx v := by
  grind [FirstMin]

end FirstMin

-- `inflight` of each `publisherConnPool`, and the sockets at the same indices
structure Publisher where
  pools : List Nat
  mcs : List State
  length_mcs : mcs.length = pools.length
  pools_ne : pools ≠ []

def loop (minFlight : Int) (minIdx i : Nat) : List Nat → Nat
  | [] => minIdx
  | n :: pools =>
    if minFlight < 0 ∨ n < minFlight then
      loop n i (i + 1) pools
    else
      loop minFlight minIdx (i + 1) pools

theorem firstMin_loop_of_firstMin {seen : List Nat} {minFlight minIdx : Nat} (pools : List Nat)
    (h : FirstMin seen minIdx minFlight)
    : ∃ v, FirstMin (seen ++ pools) (loop minFlight minIdx seen.length pools) v := by
  induction pools generalizing seen minFlight minIdx with
  | nil =>
    rw [append_nil]
    exact ⟨minFlight, h⟩
  | cons n pools ih =>
    have hlength : (seen ++ [n]).length = seen.length + 1 := by simp
    rw [append_cons, loop, ← hlength]
    split
    next hlt =>
      apply ih
      apply h.concat_lt
      omega
    next hge =>
      apply ih
      apply h.concat_le
      omega

theorem firstMin_loop (pools : List Nat) (hne : pools ≠ [])
    : ∃ v, FirstMin pools (loop (-1) 0 0 pools) v := by
  cases pools with
  | nil => contradiction
  | cons n pools =>
    rw [loop, if_pos (by omega)]
    apply firstMin_loop_of_firstMin pools (FirstMin.singleton n)

namespace Publisher

def minIdx (p : Publisher) : Nat := loop (-1) 0 0 p.pools

theorem firstMin_minIdx (p : Publisher) : ∃ v, FirstMin p.pools p.minIdx v := by
  apply firstMin_loop p.pools p.pools_ne

theorem minIdx_lt (p : Publisher) : p.minIdx < p.pools.length := by
  have ⟨_, h⟩ := p.firstMin_minIdx
  apply h.lt_length

def selectPool (p : Publisher) : Nat × State :=
  have hlt := p.minIdx_lt
  have hmcs := p.length_mcs
  (p.pools[p.minIdx], p.mcs[p.minIdx])

/--
Each blocked socket has another one before it in the order of `selectPool` that is not blocked.
-/
def Outranked (p : Publisher) : Prop :=
  ∀ (i n : Nat) (mc : State), p.pools[i]? = some n → p.mcs[i]? = some mc →
    mc.blocked = true →
    ∃ (j m : Nat) (mc' : State), p.pools[j]? = some m ∧ p.mcs[j]? = some mc' ∧
      mc'.blocked = false ∧ (m < n ∨ m = n ∧ j < i)

theorem loop_of_not_blocked {s : State} {i : Nat} (hreconnecting : s.reconnecting = false)
    (hblocked : s.blocked = false) : s.loop i = s.releaseMu i .readDegraded := by
  unfold State.loop
  simp [hreconnecting, hblocked]

theorem not_blocked_of_outranked {p : Publisher} {v : Nat} (hmin : FirstMin p.pools p.minIdx v)
    (hmc : p.mcs[p.minIdx]? = some p.selectPool.2) (h : p.Outranked)
    : p.selectPool.2.blocked = false := by
  apply eq_false_of_ne_true
  intro hblocked
  have ⟨j, m, mc, hm, _, _, hbefore⟩ := h p.minIdx v _ hmin.get hmc hblocked
  have hle := hmin.le m (mem_of_getElem? hm)
  cases hbefore with
  | inl hless => omega
  | inr heq =>
    have hstrict := hmin.lt j m heq.2 hm
    omega

-- the chosen socket is itself before each blocked one
theorem outranked_of_not_blocked {p : Publisher} {v : Nat} (hmin : FirstMin p.pools p.minIdx v)
    (hmc : p.mcs[p.minIdx]? = some p.selectPool.2) (h : p.selectPool.2.blocked = false)
    : p.Outranked := by
  intro i n mc hn hmc' hblocked
  refine ⟨p.minIdx, v, p.selectPool.2, hmin.get, hmc, h, ?_⟩
  have hle := hmin.le n (mem_of_getElem? hn)
  rcases Nat.lt_trichotomy i p.minIdx with hlt | heq | hgt
  . exact .inl (hmin.lt i n hlt hn)
  . rw [heq, hmc, Option.some.injEq] at hmc'
    rw [← hmc', h] at hblocked
    contradiction
  . omega

theorem not_blocked_iff_outranked (p : Publisher) (hconn : ∀ mc ∈ p.mcs, mc.reconnecting = false)
    : (p.selectPool.2.blocked = false
        ∧ ∀ i, p.selectPool.2.loop i = p.selectPool.2.releaseMu i .readDegraded) ↔ p.Outranked := by
  have ⟨v, hmin⟩ := p.firstMin_minIdx
  have hlt : p.minIdx < p.mcs.length := by
    rw [p.length_mcs]
    exact p.minIdx_lt
  have hmc : p.mcs[p.minIdx]? = some p.selectPool.2 := getElem?_eq_getElem hlt
  have hmem : p.selectPool.2 ∈ p.mcs := getElem_mem hlt
  constructor
  . intro h
    exact outranked_of_not_blocked hmin hmc h.1
  . intro h
    have hnot := not_blocked_of_outranked hmin hmc h
    exact ⟨hnot, fun i => loop_of_not_blocked (hconn _ hmem) hnot⟩

def blockedFirst (inflight : Nat × Nat) : Publisher where
  pools := [inflight.1, inflight.2]
  mcs := [{ State.init 15 false with blocked := true }, .init 15 false]
  length_mcs := rfl
  pools_ne := by simp

theorem outranked_blockedFirst : (blockedFirst (1, 0)).Outranked := by
  intro i n mc hn hmc hblocked
  refine ⟨1, 0, .init 15 false, rfl, rfl, rfl, ?_⟩
  match i with
  | 0 =>
    left
    cases hn
    decide
  | 1 =>
    cases hmc
    contradiction
  | i + 2 => cases hn

theorem not_blocked_iff_outranked_blockedFirst
    : (blockedFirst (1, 0)).Outranked
        ∧ (∀ mc ∈ (blockedFirst (1, 0)).mcs, mc.reconnecting = false)
        ∧ (blockedFirst (1, 0)).selectPool.2.blocked = false := by
  have hconn : ∀ mc ∈ (blockedFirst (1, 0)).mcs, mc.reconnecting = false := by
    simp [blockedFirst, State.init]
  exact ⟨outranked_blockedFirst, hconn,
    ((not_blocked_iff_outranked _ hconn).mpr outranked_blockedFirst).1⟩

/--
The blocked socket is chosen as it has no publish in flight, and the caller starts to wait on it.
-/
theorem selects_blocked
    : (∃ mc ∈ (blockedFirst (0, 1)).mcs, mc.blocked = false)
        ∧ (∀ mc ∈ (blockedFirst (0, 1)).mcs, mc.reconnecting = false)
        ∧ (blockedFirst (0, 1)).selectPool.2.blocked = true
        ∧ (((blockedFirst (0, 1)).selectPool.2.loop 0).callers 0).phase = .enqueuing 0 := by
  refine ⟨?_, ?_, rfl, rfl⟩
  all_goals simp [blockedFirst, State.init]

end Publisher
end SelectPool
