import Warren.Errors.Paths

/-!
No error is both transient and permanent.
-/

namespace Errors

open List

def Exclusive (err : Err) : Prop :=
  ¬ (isTransient (some err) = true ∧ isPermanent (some err) = true)

def Sole (s : Sentinel) (err : Err) : Prop :=
  ∀ v ∈ err.values, v = .sentinel s ∨ v.isSentinel = false

theorem isTransient_some (err : Err)
    : isTransient (some err)
        =
      (!err.is (.ctx .canceled) && err.isAny (.sentinel .transient :: transientSentinels)) := by
  simp only [isTransient, ErrorTree.isAny, any_cons]
  cases err.is (.ctx .canceled) with
  | true => simp
  | false => cases err.is (.sentinel .transient) <;> simp

def permanentValues : List Value :=
  .sentinel .permanent :: .sentinel .topologyRedeclareFailed :: .sentinel .messageTooLarge ::
    permanentSentinels

theorem isPermanent_some (err : Err) : isPermanent (some err) = err.isAny permanentValues := by
  simp only [isPermanent, permanentValues, ErrorTree.isAny, any_cons]
  cases err.is (.sentinel .permanent) with
  | true => simp
  | false =>
    cases err.is (.sentinel .topologyRedeclareFailed) with
    | true => simp
    | false => cases err.is (.sentinel .messageTooLarge) <;> simp

theorem transient_notMem_permanent
    : ∀ v ∈ .sentinel .transient :: transientSentinels,
        v.isSentinel = true ∧ v ∉ permanentValues := by
  decide

theorem permanent_isSentinel : ∀ v ∈ permanentValues, v.isSentinel = true := by
  decide

variable {err : Err}

theorem Sole.eq_of_mem {s : Sentinel} (h : Sole s err) {v : Value}
    (hv : v ∈ err.values) (hs : v.isSentinel = true) : v = .sentinel s := by
  cases h v hv with
  | inl h => assumption
  | inr h => simp [h] at hs

theorem Sole.exclusive {s : Sentinel} (h : Sole s err) : Exclusive err := by
  rintro ⟨ht, hp⟩
  rw [isTransient_some, Bool.and_eq_true, ErrorTree.isAny_iff] at ht
  rw [isPermanent_some, ErrorTree.isAny_iff] at hp
  have ⟨v, hv, htv⟩ := ht.2
  have ⟨w, hw, hpw⟩ := hp
  have ⟨hvs, hvp⟩ := transient_notMem_permanent v htv
  have heq : v = w := by
    rw [h.eq_of_mem hv hvs, h.eq_of_mem hw (permanent_isSentinel w hpw)]
  rw [heq] at hvp
  exact hvp hpw

theorem CtxErr.foreign (e : CtxErr) : ∀ v ∈ e.err.values, v.isSentinel = false := by
  intro v hv
  rw [mem_singleton.mp hv]
  rfl

theorem forall_mem_map {α : Type} {P : Err → Prop} {f : α → Err} (h : ∀ a, P (f a)) (o : Option α)
    : ∀ err ∈ o.map f, P err := by
  intro err herr
  have ⟨a, _, ha⟩ := Option.map_eq_some_iff.mp herr
  rw [← ha]
  apply h

end Errors
