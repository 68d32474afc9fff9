import Mathlib.Data.List.Nodup
import Mathlib.Data.List.Perm.Basic

namespace Foundation

/-- A finite map together with the order in which it happens to be iterated. -/
structure HashMap (κ ν : Type) where
  entries : List (κ × ν)
  nodup : (entries.map Prod.fst).Nodup

namespace HashMap

variable {κ ν : Type}

def empty : HashMap κ ν := ⟨[], List.nodup_nil⟩

def keys (m : HashMap κ ν) : List κ := m.entries.map Prod.fst

def retain (m : HashMap κ ν) (keep : κ → ν → Bool) : HashMap κ ν where
  entries := m.entries.filter fun p ↦ keep p.1 p.2
  nodup := (List.filter_sublist.map Prod.fst).nodup m.nodup

variable [DecidableEq κ]

def modify (m : HashMap κ ν) (k : κ) (f : ν → ν) : HashMap κ ν where
  entries := m.entries.map fun p ↦ if p.1 = k then (p.1, f p.2) else p
  nodup := by
    have h : (Prod.fst ∘ fun p : κ × ν ↦ if p.1 = k then (p.1, f p.2) else p) = Prod.fst := by
      funext p
      rw [Function.comp_apply]
      split <;> rfl
    rw [List.map_map, h]
    exact m.nodup

def get? (m : HashMap κ ν) (k : κ) : Option ν :=
  (m.entries.find? fun p ↦ p.1 = k).map Prod.snd

def insert (m : HashMap κ ν) (k : κ) (v : ν) : HashMap κ ν where
  entries := (k, v) :: m.entries.filter fun p ↦ p.1 ≠ k
  nodup := by
    rw [List.map_cons, List.nodup_cons]
    refine ⟨?_, (List.filter_sublist.map Prod.fst).nodup m.nodup⟩
    simp

def ofEntries (l : List (κ × ν)) : HashMap κ ν :=
  l.foldl (fun m p ↦ m.insert p.1 p.2) empty

def Equiv (m m' : HashMap κ ν) : Prop := ∀ k, m.get? k = m'.get? k

theorem get?_eq_some {m : HashMap κ ν} {k : κ} {v : ν} :
    m.get? k = some v ↔ (k, v) ∈ m.entries := by
  obtain ⟨l, hl⟩ := m
  simp only [get?]
  induction l with
  | nil => simp
  | cons p l ih =>
    obtain ⟨hp, hl'⟩ := List.nodup_cons.mp hl
    by_cases h : p.1 = k
    · have hnot : (k, v) ∉ l := fun hm ↦
        hp (List.mem_map.mpr ⟨(k, v), hm, h.symm⟩)
      obtain ⟨k', v'⟩ := p
      subst h
      simp [hnot, eq_comm]
    · have hne : (k, v) ≠ p := fun he ↦ h (congrArg Prod.fst he).symm
      simp [h, hne, ih hl']

theorem get?_perm {m m' : HashMap κ ν} (h : m.entries.Perm m'.entries) (k : κ) :
    m.get? k = m'.get? k := by
  ext v
  rw [get?_eq_some, get?_eq_some, h.mem_iff]

@[simp] theorem get?_empty (k : κ) : (empty : HashMap κ ν).get? k = none := rfl

@[simp] theorem get?_insert (m : HashMap κ ν) (k k' : κ) (v : ν) :
    (m.insert k v).get? k' = if k' = k then some v else m.get? k' := by
  ext w
  rw [get?_eq_some]
  by_cases h : k' = k
  · simp [insert, h, eq_comm]
  · simp [insert, h, get?_eq_some]

@[simp] theorem get?_modify (m : HashMap κ ν) (k k' : κ) (f : ν → ν) :
    (m.modify k f).get? k' = if k' = k then (m.get? k).map f else m.get? k' := by
  simp only [get?, modify, List.find?_map, Option.map_map]
  have hkey : ((fun p : κ × ν ↦ decide (p.1 = k')) ∘ fun p ↦ if p.1 = k then (p.1, f p.2) else p) =
      fun p ↦ decide (p.1 = k') := by
    funext p
    rw [Function.comp_apply]
    split <;> rfl
  rw [hkey]
  split
  · next h =>
    subst h
    refine Option.map_congr fun p hp ↦ ?_
    have hk : p.1 = k' := by simpa using List.find?_some hp
    rw [Function.comp_apply, Function.comp_apply, if_pos hk]
  · next h =>
    refine Option.map_congr fun p hp ↦ ?_
    have hk : p.1 = k' := by simpa using List.find?_some hp
    rw [Function.comp_apply, if_neg (fun he ↦ h (hk.symm.trans he))]

@[simp] theorem get?_retain (m : HashMap κ ν) (keep : κ → ν → Bool) (k : κ) :
    (m.retain keep).get? k = (m.get? k).filter (keep k) := by
  ext w
  rw [get?_eq_some, Option.filter_eq_some_iff, get?_eq_some]
  simp [retain]

theorem mem_keys {m : HashMap κ ν} {k : κ} : k ∈ m.keys ↔ ∃ v, m.get? k = some v := by
  simp only [keys, List.mem_map, get?_eq_some]
  exact ⟨fun ⟨⟨_, v⟩, hp, h⟩ ↦ ⟨v, h ▸ hp⟩, fun ⟨v, hv⟩ ↦ ⟨(k, v), hv, rfl⟩⟩

theorem get?_foldl_insert (l : List (κ × ν)) (m : HashMap κ ν) (k : κ) :
    (l.foldl (fun m p ↦ m.insert p.1 p.2) m).get? k =
      ((l.reverse.find? fun p ↦ p.1 = k).map Prod.snd).or (m.get? k) := by
  induction l generalizing m with
  | nil => simp
  | cons p l ih =>
    rw [List.foldl_cons, ih, get?_insert, List.reverse_cons, List.find?_append]
    by_cases h : p.1 = k
    · cases hf : l.reverse.find? fun p ↦ p.1 = k <;> simp [h]
    · cases hf : l.reverse.find? fun p ↦ p.1 = k <;> simp [h, Ne.symm h]

theorem get?_ofEntries_map (l : List κ) (f : κ → ν) (k : κ) :
    (ofEntries (l.map fun k ↦ (k, f k))).get? k = if k ∈ l then some (f k) else none := by
  rw [ofEntries, get?_foldl_insert, get?_empty, Option.or_none]
  cases h : (l.map fun k ↦ (k, f k)).reverse.find? fun p ↦ p.1 = k with
  | none =>
    have hk : k ∉ l := fun hmem ↦ by
      have hnot := List.find?_eq_none.mp h (k, f k) (by simpa using hmem)
      simp at hnot
    rw [if_neg hk, Option.map_none]
  | some p =>
    obtain ⟨k', hk', rfl⟩ := List.mem_map.mp (List.mem_reverse.mp (List.mem_of_find?_eq_some h))
    obtain rfl : k' = k := by simpa using List.find?_some h
    rw [if_pos hk', Option.map_some]

theorem ofEntries_equiv (m : HashMap κ ν) {l : List (κ × ν)} (hl : l.Perm m.entries) :
    (ofEntries l).Equiv m := by
  intro k
  have hnodup : (l.reverse.map Prod.fst).Nodup :=
    ((l.reverse_perm.trans hl).map Prod.fst).nodup_iff.mpr m.nodup
  have hget : (⟨l.reverse, hnodup⟩ : HashMap κ ν).get? k = m.get? k := by
    ext v
    rw [get?_eq_some, get?_eq_some]
    exact List.mem_reverse.trans hl.mem_iff
  rw [ofEntries, get?_foldl_insert, get?_empty, Option.or_none]
  exact hget

end HashMap

end Foundation
