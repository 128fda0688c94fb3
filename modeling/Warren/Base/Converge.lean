import Mathlib.Data.List.Basic

/-!
Requests that bring a store to a description. A store grants a request or refuses it with an error,
and a requester goes on until it is refused.
-/

namespace Converge

variable {σ μ ε : Type} {call : σ → μ → σ × Option ε} {has : σ → μ → Prop} {told : μ → Prop}
variable {s : σ} {m : μ} {ms : List μ}

/--
The store after the requests, and its replies up to the first refusal.
-/
def send (call : σ → μ → σ × Option ε) : List μ → σ → σ × List (Option ε)
  | [], s => (s, [])
  | m :: ms, s =>
    match call s m with
    | (s', some err) => (s', [some err])
    | (s', none) => ((send call ms s').1, none :: (send call ms s').2)

def Granted (r : σ × List (Option ε)) : Prop := ∀ reply ∈ r.2, reply = none

theorem send_cons_of_granted (h : Granted (send call (m :: ms) s))
    : (call s m).2 = none
      ∧ Granted (send call ms (call s m).1)
      ∧ (send call (m :: ms) s).1 = (send call ms (call s m).1).1 := by
  simp only [send] at h ⊢
  split at h
  next s' err heq => exact absurd (h _ (List.mem_singleton.mpr rfl)) (Option.some_ne_none err)
  next s' heq =>
    rw [heq]
    refine ⟨rfl, ?_, rfl⟩
    intro reply hreply
    apply h reply (List.mem_cons_of_mem _ hreply)

/--
A request that is granted holds from then on, as long as what is asked after it is granted, and is
granted again without a change. The requester is told of a refusal where `told` says so.
-/
structure Lawful (call : σ → μ → σ × Option ε) (has : σ → μ → Prop) (told : μ → Prop) : Prop where
  granted : ∀ s m, told m → (call s m).2 = none → has (call s m).1 m
  kept : ∀ s m m', has s m → has (call s m').1 m' → has (call s m').1 m
  again : ∀ s m, has s m → call s m = (s, none)

namespace Lawful

theorem has_of_granted (h : Lawful call has told) (htold : ∀ m ∈ ms, told m)
    (hgranted : Granted (send call ms s))
    : (∀ m ∈ ms, has (send call ms s).1 m) ∧ ∀ m, has s m → has (send call ms s).1 m := by
  induction ms generalizing s with
  | nil => exact ⟨by simp, fun m hm => hm⟩
  | cons m' ms ih =>
    obtain ⟨hreply, hrest, hs⟩ := send_cons_of_granted hgranted
    obtain ⟨htold', htolds⟩ := List.forall_mem_cons.mp htold
    obtain ⟨hhas, hkept⟩ := ih htolds hrest
    have hm' := h.granted s m' htold' hreply
    rw [hs]
    exact ⟨List.forall_mem_cons.mpr ⟨hkept m' hm', hhas⟩, fun m hm => hkept m (h.kept s m m' hm hm')⟩

theorem send_again (h : Lawful call has told) (hs : ∀ m ∈ ms, has s m)
    : (send call ms s).1 = s ∧ Granted (send call ms s) := by
  induction ms with
  | nil => exact ⟨rfl, by simp [Granted, send]⟩
  | cons m ms ih =>
    obtain ⟨hstore, hgranted⟩ := ih (fun m hm => hs m (List.mem_cons_of_mem _ hm))
    unfold send
    rw [h.again s m (hs m List.mem_cons_self)]
    exact ⟨hstore, List.forall_mem_cons.mpr ⟨rfl, hgranted⟩⟩

end Lawful

/--
Every request is granted if it is granted in a store that has the requests before it. The invariant
is about the requests that have been made.
-/
theorem granted_of_inv {I : List μ → σ → Prop} {pre : List μ}
    (hstep : ∀ pre m post s, I pre s → ms = pre ++ m :: post →
      (call s m).2 = none ∧ I (pre ++ [m]) (call s m).1)
    {post : List μ} (hs : I pre s) (heq : ms = pre ++ post)
    : Granted (send call post s) ∧ I ms (send call post s).1 := by
  induction post generalizing pre s with
  | nil =>
    rw [List.append_nil] at heq
    exact ⟨by simp [Granted, send], heq ▸ hs⟩
  | cons m post ih =>
    obtain ⟨hreply, hs'⟩ := hstep pre m post s hs heq
    obtain ⟨hgranted, hI⟩ := ih hs' (by simp [heq])
    unfold send
    split
    next err hcall =>
      rw [hcall] at hreply
      contradiction
    next hcall =>
      rw [hcall] at hgranted hI
      exact ⟨List.forall_mem_cons.mpr ⟨rfl, hgranted⟩, hI⟩

end Converge
