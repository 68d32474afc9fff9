import Mathlib.Data.List.Basic
import Mathlib.Logic.Function.Basic

namespace Foundation

variable {κ ν : Type} [DecidableEq κ]

/-- The requests with their values, and the table after them. -/
inductive Allocation : (κ → Option ν) → (ν → Prop) → List (κ × ν) → (κ → Option ν) → Prop
  | nil (table : κ → Option ν) (used : ν → Prop) : Allocation table used [] table
  | known {table table' : κ → Option ν} {used : ν → Prop} {k : κ} {v : ν} {l : List (κ × ν)} :
      table k = some v → Allocation table used l table' →
      Allocation table used ((k, v) :: l) table'
  | fresh {table table' : κ → Option ν} {used : ν → Prop} {k : κ} {v : ν} {l : List (κ × ν)} :
      table k = none → ¬used v →
      Allocation (Function.update table k (some v)) (fun w ↦ used w ∨ w = v) l table' →
      Allocation table used ((k, v) :: l) table'

namespace Allocation

variable {table table' : κ → Option ν} {used : ν → Prop} {l : List (κ × ν)} {k k' : κ} {v v' : ν}

theorem kept (h : Allocation table used l table') (hk : table k = some v) :
    table' k = some v := by
  induction h with
  | nil => exact hk
  | known _ _ ih => exact ih hk
  | @fresh table _ _ k₀ v₀ _ hnone _ _ ih =>
    refine ih ?_
    have hne : k ≠ k₀ := fun heq ↦ by
      rw [heq, hnone] at hk
      cases hk
    rwa [Function.update_of_ne hne]

theorem given (h : Allocation table used l table') (hk : (k, v) ∈ l) : table' k = some v := by
  induction h with
  | nil => cases hk
  | known hknown hrest ih =>
    rcases List.mem_cons.mp hk with heq | hk
    · cases heq
      exact hrest.kept hknown
    · exact ih hk
  | fresh _ _ hrest ih =>
    rcases List.mem_cons.mp hk with heq | hk
    · cases heq
      exact hrest.kept (Function.update_self _ _ _)
    · exact ih hk

/-- Two keys share a value only where they did from the start. -/
theorem shared (h : Allocation table used l table')
    (hused : ∀ k v, table k = some v → used v) (hk : table' k = some v) (hk' : table' k' = some v) :
    k = k' ∨ (table k = some v ∧ table k' = some v) := by
  induction h with
  | nil => exact .inr ⟨hk, hk'⟩
  | known _ _ ih => exact ih hused hk hk'
  | @fresh table _ used k₀ v₀ _ hnone hfresh _ ih =>
    have hold (k : κ) (hne : k ≠ k₀) (hup : Function.update table k₀ (some v₀) k = some v) :
        table k = some v := by rwa [Function.update_of_ne hne] at hup
    have hnew (hup : Function.update table k₀ (some v₀) k₀ = some v) : v₀ = v := by
      rw [Function.update_self] at hup
      exact Option.some.inj hup
    have hused' (k : κ) (v : ν) (hup : Function.update table k₀ (some v₀) k = some v) :
        used v ∨ v = v₀ := by
      by_cases hne : k = k₀
      · subst hne
        rw [Function.update_self] at hup
        exact .inr (Option.some.inj hup).symm
      · rw [Function.update_of_ne hne] at hup
        exact .inl (hused k v hup)
    refine (ih hused' hk hk').elim .inl fun ⟨hup, hup'⟩ ↦ ?_
    by_cases hk₀ : k = k₀
    · by_cases hk₀' : k' = k₀
      · exact .inl (hk₀.trans hk₀'.symm)
      · rw [hk₀] at hup
        exact (hfresh (hnew hup ▸ hused k' v (hold k' hk₀' hup'))).elim
    · by_cases hk₀' : k' = k₀
      · rw [hk₀'] at hup'
        exact (hfresh (hnew hup' ▸ hused k v (hold k hk₀ hup))).elim
      · exact .inr ⟨hold k hk₀ hup, hold k' hk₀' hup'⟩

theorem value_eq_iff (h : Allocation table used l table')
    (hused : ∀ k v, table k = some v → used v) (hk : (k, v) ∈ l) (hk' : (k', v') ∈ l) :
    v = v' ↔ k = k' ∨ ∃ w, table k = some w ∧ table k' = some w := by
  have hv := h.given hk
  have hv' := h.given hk'
  constructor
  · rintro rfl
    exact (h.shared hused hv hv').imp_right fun hw ↦ ⟨v, hw⟩
  · rintro (rfl | ⟨w, hw, hw'⟩)
    · exact Option.some.inj (hv.symm.trans hv')
    · have hvw : v = w := Option.some.inj (hv.symm.trans (h.kept hw))
      have hvw' : v' = w := Option.some.inj (hv'.symm.trans (h.kept hw'))
      exact hvw.trans hvw'.symm

end Allocation

end Foundation
