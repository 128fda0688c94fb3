import Mathlib.Data.List.Rotate

/-!
The addresses that a socket dials one after another: `shuffledAddrs`, `dialOrder` and `nextDialAddr`
(`connection.go`).
-/

namespace Rotation

open List

-- what `Shuffle` of `math/rand/v2` draws for an index, whatever the seed and the generator are
abbrev Source := (i : Nat) → Fin (i + 1)

def swap (out : List String) (i j : Nat) : List String :=
  match out[i]?, out[j]? with
  | some a, some b => (out.set i b).set j a
  | _, _ => out

def shuffle (r : Source) : Nat → List String → List String
  | 0, out => out
  | i + 1, out => shuffle r i (swap out (i + 1) (r (i + 1)))

def shuffledAddrs (addrs : List String) (r : Source) : List String :=
  if addrs.length < 2 then addrs else shuffle r (addrs.length - 1) addrs

structure ConnOptions where
  addr : String
  addrs : List String

def ConnOptions.dialAddrs (opts : ConnOptions) : List String :=
  if 0 < opts.addrs.length then opts.addrs else [opts.addr]

theorem ConnOptions.length_dialAddrs_pos (opts : ConnOptions) : 0 < opts.dialAddrs.length := by
  unfold dialAddrs
  split
  . assumption
  . apply Nat.one_pos

theorem perm_swap (out : List String) (i j : Nat) : (swap out i j).Perm out := by
  unfold swap
  split
  next a b hi hj =>
    have ⟨hi, ha⟩ := List.getElem?_eq_some_iff.mp hi
    have ⟨hj, hb⟩ := List.getElem?_eq_some_iff.mp hj
    rw [← ha, ← hb]
    apply set_set_perm hi hj
  next => rfl

theorem perm_shuffle (r : Source) (i : Nat) (out : List String) : (shuffle r i out).Perm out := by
  induction i generalizing out with
  | zero => rfl
  | succ i ih => exact (ih _).trans (perm_swap out (i + 1) (r (i + 1)))

theorem perm_shuffledAddrs (addrs : List String) (r : Source)
    : (shuffledAddrs addrs r).Perm addrs := by
  unfold shuffledAddrs
  split
  . rfl
  . apply perm_shuffle

-- the part of a `managedConn` that chooses the address; `addrPerm` is nil before the first dial
structure ManagedConn (opts : ConnOptions) where
  shuffleSource : Source
  addrPerm : Option (List String)
  dialCursor : Nat
  perm : ∀ {addrs}, addrPerm = some addrs → addrs.Perm opts.dialAddrs
  cursor_lt : dialCursor < opts.dialAddrs.length

namespace ManagedConn

-- the socket as `openPool` allocates it
def fresh (opts : ConnOptions) (shuffleSource : Source) : ManagedConn opts where
  shuffleSource := shuffleSource
  addrPerm := none
  dialCursor := 0
  perm := by
    intro addrs h
    cases h
  cursor_lt := opts.length_dialAddrs_pos

variable {opts : ConnOptions} (mc : ManagedConn opts)

def dialOrder : List String := mc.addrPerm.getD (shuffledAddrs opts.dialAddrs mc.shuffleSource)

theorem perm_dialOrder : mc.dialOrder.Perm opts.dialAddrs := by
  unfold dialOrder
  cases h : mc.addrPerm with
  | none => apply perm_shuffledAddrs
  | some addrs => apply mc.perm h

theorem cursor_lt_length : mc.dialCursor < mc.dialOrder.length := by
  rw [mc.perm_dialOrder.length_eq]
  apply mc.cursor_lt

def nextDialAddr : String × ManagedConn opts :=
  (mc.dialOrder.get ⟨mc.dialCursor, mc.cursor_lt_length⟩,
    { mc with
      addrPerm := some mc.dialOrder
      dialCursor := (mc.dialCursor + 1) % mc.dialOrder.length
      perm := by
        intro addrs h
        cases h
        apply mc.perm_dialOrder
      cursor_lt := by
        rw [mc.perm_dialOrder.length_eq]
        apply Nat.mod_lt
        have hlt := mc.cursor_lt
        omega })

def after : Nat → ManagedConn opts → ManagedConn opts
  | 0, mc => mc
  | k + 1, mc => after k mc.nextDialAddr.2

def results : Nat → ManagedConn opts → List String
  | 0, _ => []
  | k + 1, mc => mc.nextDialAddr.1 :: results k mc.nextDialAddr.2

theorem length_results (k : Nat) : (results k mc).length = k := by
  induction k generalizing mc with
  | zero => rfl
  | succ k ih => rw [results, length_cons, ih]

theorem results_add (k n : Nat) : results (k + n) mc = results k mc ++ results n (after k mc) := by
  induction k generalizing mc with
  | zero => rw [Nat.zero_add]; rfl
  | succ k ih =>
    rw [Nat.add_right_comm, results, ih]
    rfl

theorem getElem?_results {k i : Nat} (hi : i < k)
    : (results k mc)[i]? = mc.dialOrder[(mc.dialCursor + i) % mc.dialOrder.length]? := by
  induction k generalizing mc i with
  | zero => omega
  | succ k ih =>
    cases i with
    | zero =>
      show _ = mc.dialOrder[mc.dialCursor % mc.dialOrder.length]?
      rw [Nat.mod_eq_of_lt mc.cursor_lt_length, getElem?_eq_getElem mc.cursor_lt_length]
      rfl
    | succ i =>
      rw [results, getElem?_cons_succ, ih _ (by omega)]
      show mc.dialOrder[((mc.dialCursor + 1) % mc.dialOrder.length + i) % mc.dialOrder.length]? = _
      rw [Nat.mod_add_mod, Nat.add_right_comm, Nat.add_assoc]

theorem results_eq_rotate : results mc.dialOrder.length mc = mc.dialOrder.rotate mc.dialCursor := by
  apply ext_getElem?
  intro i
  by_cases hi : i < mc.dialOrder.length
  . rw [getElem?_results mc hi, getElem?_rotate hi, Nat.add_comm]
  . rw [getElem?_eq_none (by rw [length_results]; omega),
      getElem?_eq_none (by rw [length_rotate]; omega)]

theorem perm_results : (results opts.dialAddrs.length mc).Perm opts.dialAddrs := by
  have hperm := mc.perm_dialOrder
  rw [← hperm.length_eq, results_eq_rotate]
  exact (rotate_perm _ _).trans hperm

/--
Any `n` addresses that a socket dials one after another are the `n` configured ones.
-/
theorem dials_all (k : Nat)
    : mc.dialOrder.Perm opts.dialAddrs
        ∧ ((results (k + opts.dialAddrs.length) mc).drop k).Perm opts.dialAddrs
        ∧ ∀ addr ∈ opts.dialAddrs, addr ≠ (after k mc).nextDialAddr.1 →
          addr ∈ results (opts.dialAddrs.length - 1) (after k mc).nextDialAddr.2 := by
  have hperm := perm_results (after k mc)
  refine ⟨mc.perm_dialOrder, ?_, ?_⟩
  . rw [results_add]
    rwa [drop_left' (length_results mc k)]
  . intro addr haddr hne
    have hmem := hperm.mem_iff.mpr haddr
    have hpos := mc.cursor_lt
    rw [← Nat.sub_add_cancel (by omega : 1 ≤ opts.dialAddrs.length), results, mem_cons] at hmem
    apply hmem.resolve_left hne

end ManagedConn
end Rotation
