import Mathlib.Data.List.Basic

namespace Foundation.CachedCell

inductive Op (ν : Type) where
  | look (v : ν)
  | write (v : ν)
  | foreign (v : ν)

/-- What the party knows, and the last value that others have written since it
last knew the cell. -/
structure View (ν : Type) where
  copy : Option ν
  foreign : Option ν

variable {ν : Type} [DecidableEq ν]

def View.Writes (s : View ν) (v : ν) : Prop := s.copy ≠ none ∧ s.copy ≠ some v

instance (s : View ν) (v : ν) : Decidable (s.Writes v) := inferInstanceAs (Decidable (_ ∧ _))

def View.Stale (s : View ν) (v : ν) : Prop := s.copy = some v ∧ ∃ x, s.foreign = some x ∧ x ≠ v

def View.step (s : View ν) : Op ν → View ν
  | .look v => if s.copy = none then ⟨some v, none⟩ else s
  | .write v => if s.Writes v then ⟨some v, none⟩ else s
  | .foreign v => { s with foreign := some v }

def view (ops : List (Op ν)) : View ν := ops.foldl View.step ⟨none, none⟩

theorem view_snoc (ops : List (Op ν)) (op : Op ν) : view (ops ++ [op]) = (view ops).step op := by
  rw [view, List.foldl_append]
  rfl

/-- The cell's value after the operations: a look finds it, and a write goes
through unless the party thinks it needless. -/
inductive Run (start : ν) : List (Op ν) → ν → Prop
  | nil : Run start [] start
  | look {ops : List (Op ν)} {v : ν} : Run start ops v → Run start (ops ++ [.look v]) v
  | write {ops : List (Op ν)} {v : ν} (w : ν) : Run start ops v →
      Run start (ops ++ [.write w]) (if (view ops).Writes w then w else v)
  | foreign {ops : List (Op ν)} {v : ν} (w : ν) :
      Run start ops v → Run start (ops ++ [.foreign w]) w

variable {start v w : ν} {ops : List (Op ν)}

theorem Run.value_eq (h : Run start ops v) (hw : (view ops).copy = some w) :
    v = (view ops).foreign.getD w := by
  induction h generalizing w with
  | nil => cases hw
  | look _ ih =>
    rw [view_snoc, View.step] at hw ⊢
    split at hw
    · next hnone =>
      rw [if_pos hnone]
      exact Option.some.inj hw
    · next hsome =>
      rw [if_neg hsome]
      exact ih hw
  | write w' _ ih =>
    rw [view_snoc, View.step] at hw ⊢
    split at hw
    · next hwrites =>
      rw [if_pos hwrites, if_pos hwrites]
      exact Option.some.inj hw
    · next hskips =>
      rw [if_neg hskips, if_neg hskips]
      exact ih hw
  | foreign w' _ _ =>
    rw [view_snoc]
    rfl

/-- After a write of `w` the cell holds `w`, unless the copy said so already and
others have written something else since. -/
theorem Run.write_iff (h : Run start ops v) (w : ν) (hcopy : (view ops).copy ≠ none) :
    (if (view ops).Writes w then w else v) = w ↔ ¬ (view ops).Stale w := by
  by_cases hw : (view ops).copy = some w
  · rw [if_neg fun hwrites ↦ hwrites.2 hw, h.value_eq hw, View.Stale]
    cases (view ops).foreign <;> simp [hw]
  · rw [if_pos ⟨hcopy, hw⟩]
    exact iff_of_true rfl fun hstale ↦ hw hstale.1

end Foundation.CachedCell
