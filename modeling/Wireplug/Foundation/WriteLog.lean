import Mathlib.Data.List.Forall2
import Mathlib.Data.List.Induction
import Wireplug.Foundation.HashMap

namespace Foundation.WriteLog

/-- What may happen to a map of records: a batch of writes, or a sweep that
drops the records it does not keep. -/
inductive Op (κ ν : Type) where
  | write (updates : List (κ × ν))
  | sweep (keep : ν → Bool)

variable {κ ν : Type} [DecidableEq κ]

def Op.apply : Op κ ν → HashMap κ ν → HashMap κ ν
  | .write updates, m => updates.foldl (fun m p ↦ m.insert p.1 p.2) m
  | .sweep keep, m => m.retain fun _ v ↦ keep v

def replay (ops : List (Op κ ν)) (m : HashMap κ ν) : HashMap κ ν :=
  ops.foldl (fun m op ↦ op.apply m) m

def lastUpdate (updates : List (κ × ν)) (k : κ) : Option ν :=
  (updates.reverse.find? fun p ↦ p.1 = k).map Prod.snd

def Op.Spares (k : κ) (v : ν) : Op κ ν → Prop
  | .write updates => lastUpdate updates k = none
  | .sweep keep => keep v = true

/-- `v` comes from the last batch that writes `k`, and no sweep has dropped it. -/
def Current (ops : List (Op κ ν)) (k : κ) (v : ν) : Prop :=
  ∃ before updates after, ops = before ++ .write updates :: after ∧
    lastUpdate updates k = some v ∧ ∀ op ∈ after, op.Spares k v

theorem replay_append (ops ops' : List (Op κ ν)) (m : HashMap κ ν) :
    replay (ops ++ ops') m = replay ops' (replay ops m) := List.foldl_append

theorem get?_write (updates : List (κ × ν)) (m : HashMap κ ν) (k : κ) :
    ((Op.write updates).apply m).get? k = (lastUpdate updates k).or (m.get? k) :=
  HashMap.get?_foldl_insert updates m k

theorem get?_sweep (keep : ν → Bool) (m : HashMap κ ν) (k : κ) :
    ((Op.sweep keep).apply m).get? k = (m.get? k).filter keep := by
  rw [Op.apply, HashMap.get?_retain]

theorem lastUpdate_isSome {updates : List (κ × ν)} {k : κ} :
    (lastUpdate updates k).isSome ↔ ∃ v, (k, v) ∈ updates := by
  rw [lastUpdate, Option.isSome_map, List.find?_isSome]
  constructor
  · intro h
    obtain ⟨⟨k', v⟩, hp, h⟩ := h
    simp only [decide_eq_true_eq] at h
    subst h
    exact ⟨v, List.mem_reverse.mp hp⟩
  · intro h
    obtain ⟨v, hv⟩ := h
    exact ⟨(k, v), List.mem_reverse.mpr hv, by simp⟩

theorem mem_of_lastUpdate {updates : List (κ × ν)} {k : κ} {v : ν}
    (h : lastUpdate updates k = some v) : (k, v) ∈ updates := by
  obtain ⟨⟨k', v'⟩, hp, rfl⟩ := Option.map_eq_some_iff.mp h
  have hk := List.find?_some hp
  simp only [decide_eq_true_eq] at hk
  subst hk
  exact List.mem_reverse.mp (List.mem_of_find?_eq_some hp)

theorem Current.snoc {ops : List (Op κ ν)} {op : Op κ ν} {k : κ} {v : ν}
    (h : Current ops k v) (hop : op.Spares k v) : Current (ops ++ [op]) k v := by
  obtain ⟨before, updates, after, rfl, hlast, hafter⟩ := h
  refine ⟨before, updates, after ++ [op], by simp, hlast, fun o ho ↦ ?_⟩
  rcases List.mem_append.mp ho with ho | ho
  · exact hafter o ho
  · rw [List.mem_singleton.mp ho]; exact hop

theorem current_snoc {ops : List (Op κ ν)} {op : Op κ ν} {k : κ} {v : ν} :
    Current (ops ++ [op]) k v ↔
      (Current ops k v ∧ op.Spares k v) ∨
        ∃ updates, op = .write updates ∧ lastUpdate updates k = some v := by
  constructor
  · intro h
    obtain ⟨before, updates, after, hops, hlast, hafter⟩ := h
    rcases List.eq_nil_or_concat after with rfl | ⟨after, last, rfl⟩
    · obtain ⟨rfl, h⟩ := List.append_inj' hops rfl
      cases h
      exact .inr ⟨updates, rfl, hlast⟩
    · rw [List.concat_eq_append, ← List.cons_append, ← List.append_assoc] at hops
      obtain ⟨rfl, h⟩ := List.append_inj' hops rfl
      cases h
      refine .inl ⟨⟨before, updates, after, rfl, hlast, fun o ho ↦ hafter o ?_⟩, hafter op ?_⟩
      · rw [List.concat_eq_append]; exact List.mem_append_left _ ho
      · simp
  · rintro (⟨h, hop⟩ | ⟨updates, rfl, hlast⟩)
    · exact h.snoc hop
    · exact ⟨ops, updates, [], rfl, hlast, by simp⟩

/-- The map is determined by its log: a key holds the last value written under
it, for as long as no sweep has dropped that value. -/
theorem get?_replay (ops : List (Op κ ν)) (k : κ) (v : ν) :
    (replay ops HashMap.empty).get? k = some v ↔ Current ops k v := by
  induction ops using List.reverseRecOn generalizing v with
  | nil => simp [replay, Current]
  | append_singleton ops op ih =>
    rw [replay_append, current_snoc, ← ih]
    cases op with
    | write updates =>
      change ((Op.write updates).apply _).get? k = _ ↔ _
      rw [get?_write]
      cases h : lastUpdate updates k with
      | none => simp [Op.Spares, h]
      | some w => simp [Op.Spares, h]
    | sweep keep =>
      change ((Op.sweep keep).apply _).get? k = _ ↔ _
      rw [get?_sweep, Option.filter_eq_some_iff]
      simp [Op.Spares]

theorem get?_replay_of_spares {ops : List (Op κ ν)} {m : HashMap κ ν} {k : κ} {v : ν}
    (h : m.get? k = some v) (hops : ∀ op ∈ ops, op.Spares k v) :
    (replay ops m).get? k = some v := by
  induction ops generalizing m with
  | nil => exact h
  | cons op ops ih =>
    refine ih ?_ fun op' hop' ↦ hops op' (List.mem_cons_of_mem _ hop')
    have hspares := hops op List.mem_cons_self
    cases op with
    | write updates =>
      have hnone : lastUpdate updates k = none := hspares
      rw [get?_write, hnone, Option.none_or, h]
    | sweep keep =>
      have hkeep : keep v = true := hspares
      rw [get?_sweep, h, Option.filter_some, if_pos hkeep]

theorem Current.get?_replay {ops : List (Op κ ν)} {k : κ} {v : ν} (h : Current ops k v)
    (m : HashMap κ ν) : (replay ops m).get? k = some v := by
  obtain ⟨before, updates, after, rfl, hlast, hafter⟩ := h
  rw [replay_append]
  refine @get?_replay_of_spares _ _ _ after _ _ _ ?_ hafter
  rw [get?_write, hlast, Option.some_or]

section Rel

variable {r : ν → ν → Prop} {updates updates' : List (κ × ν)} {m m' : HashMap κ ν} {k : κ}

theorem lastUpdate_rel (h : List.Forall₂ (fun p q ↦ p.1 = q.1 ∧ r p.2 q.2) updates updates')
    (k : κ) : Option.Rel r (lastUpdate updates k) (lastUpdate updates' k) := by
  rw [lastUpdate, lastUpdate]
  generalize updates.reverse = l, updates'.reverse = l', List.forall₂_reverse_iff.mpr h = hreverse
  induction hreverse with
  | nil => exact .none
  | @cons p q l l' hpq _ ih =>
    obtain ⟨hkey, hval⟩ := hpq
    by_cases hp : p.1 = k
    · rw [List.find?_cons_of_pos (by simpa using hp),
        List.find?_cons_of_pos (by simpa using hkey ▸ hp)]
      exact .some hval
    · rw [List.find?_cons_of_neg (by simpa using hp),
        List.find?_cons_of_neg (by simpa using hkey ▸ hp)]
      exact ih

theorem get?_write_rel (hupdates : Option.Rel r (lastUpdate updates k) (lastUpdate updates' k))
    (h : Option.Rel r (m.get? k) (m'.get? k)) :
    Option.Rel r (((Op.write updates).apply m).get? k) (((Op.write updates').apply m').get? k) := by
  rw [get?_write, get?_write]
  generalize lastUpdate updates k = o, lastUpdate updates' k = o' at hupdates
  cases hupdates with
  | none => exact h
  | some hv => exact .some hv

theorem get?_sweep_rel {keep keep' : ν → Bool} (hkeep : ∀ v v', r v v' → keep v = keep' v')
    (h : Option.Rel r (m.get? k) (m'.get? k)) :
    Option.Rel r (((Op.sweep keep).apply m).get? k) (((Op.sweep keep').apply m').get? k) := by
  rw [get?_sweep, get?_sweep]
  generalize m.get? k = o, m'.get? k = o' at h
  cases h with
  | none => exact .none
  | @some v v' hv =>
    rw [Option.filter_some, Option.filter_some, hkeep v v' hv]
    split
    · exact .some hv
    · exact .none

end Rel

end Foundation.WriteLog
