import Mathlib.Data.List.Basic
import Mathlib.Data.List.Nodup

namespace Foundation

inductive LockMode where
  | read
  | write
  deriving DecidableEq

/-- A lock for one writer or any number of readers. `K` is what it keeps; its users see who has it
and who waits for it, the first one first. -/
structure RwLock (ι K : Type) where
  free : K
  request : K → ι → LockMode → K
  release : K → ι → K
  Holds : K → ι → LockMode → Prop
  queue : K → List (ι × LockMode)

namespace RwLock

variable {ι K : Type} (L : RwLock ι K)

def Member (s : K) (i : ι) (m : LockMode) : Prop := L.Holds s i m ∨ (i, m) ∈ L.queue s

/-- What becomes of a free lock when nobody asks twice for it or gives back what he has not. -/
inductive Reachable : K → Prop
  | free : Reachable L.free
  | request {s : K} {i : ι} (h : Reachable s) (hi : ∀ m, ¬ L.Member s i m) (m : LockMode) :
      Reachable (L.request s i m)
  | release {s : K} {i : ι} {m : LockMode} (h : Reachable s) (hi : L.Holds s i m) :
      Reachable (L.release s i)

/-- A writer has the lock alone. Those who cannot have it at once wait in a first-in, first-out
queue, and nobody is let in while others wait. -/
structure Fair : Prop where
  free_holds : ∀ i m, ¬ L.Holds L.free i m
  free_queue : L.queue L.free = []
  request : ∀ s i m, L.Reachable s → (∀ m', ¬ L.Member s i m') →
    (L.queue s = [] ∧ L.queue (L.request s i m) = [] ∧
      ∀ j m', L.Holds (L.request s i m) j m' ↔ L.Holds s j m' ∨ j = i ∧ m' = m) ∨
    (L.queue (L.request s i m) = L.queue s ++ [(i, m)] ∧
      ∀ j m', L.Holds (L.request s i m) j m' ↔ L.Holds s j m')
  release : ∀ s i m, L.Reachable s → L.Holds s i m →
    ∃ woken, L.queue s = woken ++ L.queue (L.release s i) ∧
      ∀ j m', L.Holds (L.release s i) j m' ↔ L.Holds s j m' ∧ j ≠ i ∨ (j, m') ∈ woken
  exclusive : ∀ s i j m, L.Reachable s → L.Holds s i .write → L.Holds s j m → j = i
  blocked : ∀ s, L.Reachable s → L.queue s ≠ [] → ∃ i m, L.Holds s i m

variable {L} {s : K} {i j k : ι} {m m' : LockMode}

namespace Fair

theorem not_member_free (h : L.Fair) (i : ι) (m : LockMode) : ¬ L.Member L.free i m := by
  rw [Member, h.free_queue, or_iff_left List.not_mem_nil]
  exact h.free_holds i m

theorem member_request (h : L.Fair) (hs : L.Reachable s) (hi : ∀ m', ¬ L.Member s i m') :
    L.Member (L.request s i m) j m' ↔ L.Member s j m' ∨ j = i ∧ m' = m := by
  rw [Member, Member]
  rcases h.request s i m hs hi with ⟨hempty, hqueue, hholds⟩ | ⟨hqueue, hholds⟩
  · rw [hempty, hqueue, hholds]
    simp only [List.not_mem_nil, or_false]
  · rw [hqueue, hholds, List.mem_append, List.mem_singleton, Prod.mk.injEq, or_assoc]

theorem holds_request (h : L.Fair) (hs : L.Reachable s) (hi : ∀ m', ¬ L.Member s i m')
    (hj : L.Holds s j m') : L.Holds (L.request s i m) j m' := by
  rcases h.request s i m hs hi with ⟨-, -, hholds⟩ | ⟨-, hholds⟩
  · exact (hholds j m').mpr (.inl hj)
  · exact (hholds j m').mpr hj

theorem holds_release (h : L.Fair) (hs : L.Reachable s) (hi : L.Holds s i m)
    (hj : L.Holds s j m') (hne : j ≠ i) : L.Holds (L.release s i) j m' := by
  obtain ⟨woken, -, hholds⟩ := h.release s i m hs hi
  exact (hholds j m').mpr (.inl ⟨hj, hne⟩)

theorem one_place (h : L.Fair) (hs : L.Reachable s) : ((L.queue s).map Prod.fst).Nodup ∧
    ∀ i m m', L.Holds s i m → (i, m') ∉ L.queue s := by
  induction hs with
  | free =>
    rw [h.free_queue]
    exact ⟨List.nodup_nil, fun i m m' hi ↦ (h.free_holds i m hi).elim⟩
  | @request s i hs hi m ih =>
    rcases h.request s i m hs hi with ⟨-, hqueue, -⟩ | ⟨hqueue, hholds⟩
    · rw [hqueue]
      exact ⟨List.nodup_nil, fun _ _ _ _ ↦ List.not_mem_nil⟩
    · rw [hqueue, List.map_append, List.nodup_append]
      refine ⟨⟨ih.1, List.nodup_singleton _, fun j hj k hk ↦ ?_⟩, fun j m₁ m₂ hj hmem ↦ ?_⟩
      · rintro rfl
        obtain ⟨⟨j, m'⟩, hmem, rfl⟩ := List.mem_map.mp hj
        obtain rfl := List.mem_singleton.mp hk
        exact hi m' (.inr hmem)
      · rcases List.mem_append.mp hmem with hmem | hmem
        · exact ih.2 j m₁ m₂ ((hholds j m₁).mp hj) hmem
        · obtain ⟨rfl, rfl⟩ := Prod.mk.inj (List.mem_singleton.mp hmem)
          exact hi m₁ (.inl ((hholds _ m₁).mp hj))
  | @release s i m hs hi ih =>
    obtain ⟨woken, hqueue, hholds⟩ := h.release s i m hs hi
    rw [hqueue, List.map_append, List.nodup_append] at ih
    refine ⟨ih.1.2.1, fun j m₁ m₂ hj hmem ↦ ?_⟩
    rcases (hholds j m₁).mp hj with ⟨hj, -⟩ | hj
    · exact ih.2 j m₁ m₂ hj (List.mem_append_right _ hmem)
    · exact ih.1.2.2 j (List.mem_map_of_mem (f := Prod.fst) hj) j
        (List.mem_map_of_mem (f := Prod.fst) hmem) rfl

theorem member_release (h : L.Fair) (hs : L.Reachable s) (hi : L.Holds s i m) :
    L.Member (L.release s i) j m' ↔ L.Member s j m' ∧ j ≠ i := by
  obtain ⟨woken, hqueue, hholds⟩ := h.release s i m hs hi
  have hne (hmem : (j, m') ∈ L.queue s) : j ≠ i := by
    rintro rfl
    exact (h.one_place hs).2 j m m' hi hmem
  have hsplit : (j, m') ∈ L.queue s ↔ (j, m') ∈ woken ∨ (j, m') ∈ L.queue (L.release s i) := by
    rw [hqueue, List.mem_append]
  rw [Member, Member, hholds, or_and_right, and_iff_left_of_imp hne, hsplit, or_assoc]

theorem holds_of_idle (h : L.Fair) (hs : L.Reachable s) (hidle : ∀ j m', ¬ L.Member s j m') :
    L.Holds (L.request s i m) i m := by
  rcases h.request s i m hs (hidle i) with ⟨-, -, hholds⟩ | ⟨hqueue, hholds⟩
  · exact (hholds i m).mpr (.inr ⟨rfl, rfl⟩)
  · obtain ⟨j, m', hj⟩ := h.blocked _ (.request hs (hidle i) m) (by simp [hqueue])
    exact (hidle j m' (.inl ((hholds j m').mp hj))).elim

end Fair

variable (L) in
def Ahead (s : K) (i j : ι) (m : LockMode) : Prop :=
  ∃ front back, L.queue s = front ++ (i, m) :: back ∧
    ∀ m', ¬ L.Holds s j m' ∧ (j, m') ∉ front

theorem ahead_of_not_member (hi : (i, m) ∈ L.queue s) (hj : ∀ m', ¬ L.Member s j m') :
    L.Ahead s i j m := by
  obtain ⟨front, back, hqueue⟩ := List.append_of_mem hi
  refine ⟨front, back, hqueue, fun m' ↦ ⟨fun hholds ↦ hj m' (.inl hholds), fun hmem ↦ ?_⟩⟩
  refine hj m' (.inr ?_)
  rw [hqueue]
  exact List.mem_append_left _ hmem

theorem Ahead.not_holder (h : L.Ahead s i j m) (m' : LockMode) : ¬ L.Holds s j m' := by
  obtain ⟨front, back, -, hj⟩ := h
  exact (hj m').1

theorem Ahead.request (h : L.Fair) (hs : L.Reachable s) (hk : ∀ m', ¬ L.Member s k m')
    (hahead : L.Ahead s i j m) : L.Ahead (L.request s k m') i j m := by
  obtain ⟨front, back, hqueue, hj⟩ := hahead
  rcases h.request s k m' hs hk with ⟨hempty, -, -⟩ | ⟨hqueue', hholds⟩
  · rw [hqueue] at hempty
    simp at hempty
  · refine ⟨front, back ++ [(k, m')], ?_, fun m'' ↦ ⟨?_, (hj m'').2⟩⟩
    · rw [hqueue', hqueue, List.append_assoc, List.cons_append]
    · rw [hholds]
      exact (hj m'').1

theorem Ahead.release (h : L.Fair) (hs : L.Reachable s) (hk : L.Holds s k m')
    (hahead : L.Ahead s i j m) : L.Holds (L.release s k) i m ∨ L.Ahead (L.release s k) i j m := by
  obtain ⟨front, back, hqueue, hj⟩ := hahead
  obtain ⟨woken, hwoken, hholds⟩ := h.release s k m' hs hk
  rcases List.append_eq_append_iff.mp (hqueue.symm.trans hwoken) with
    ⟨rest, rfl, hrest⟩ | ⟨rest, rfl, hrest⟩
  · cases rest with
    | nil =>
      refine .inr ⟨[], back, hrest.symm, fun m'' ↦ ⟨fun hmem ↦ ?_, List.not_mem_nil⟩⟩
      rcases (hholds j m'').mp hmem with ⟨hmem, -⟩ | hmem
      · exact (hj m'').1 hmem
      · rw [List.append_nil] at hmem
        exact (hj m'').2 hmem
    | cons first rest =>
      obtain ⟨rfl, -⟩ := List.cons.inj hrest
      exact .inl ((hholds i m).mpr (.inr (by simp)))
  · refine .inr ⟨rest, back, hrest, fun m'' ↦ ⟨fun hmem ↦ ?_, fun hmem ↦ ?_⟩⟩
    · rcases (hholds j m'').mp hmem with ⟨hmem, -⟩ | hmem
      · exact (hj m'').1 hmem
      · exact (hj m'').2 (List.mem_append_left _ hmem)
    · exact (hj m'').2 (List.mem_append_right _ hmem)

end RwLock

/-- The lock as a list of those who have it and a list of those who wait. -/
structure QueueLock (ι : Type) where
  holders : List (ι × LockMode)
  queue : List (ι × LockMode)

namespace QueueLock

variable {ι : Type}

def admits (holders : List (ι × LockMode)) : LockMode → Bool
  | .read => holders.all fun h ↦ h.2 = .read
  | .write => holders.isEmpty

def wake (holders : List (ι × LockMode)) : List (ι × LockMode) → QueueLock ι
  | [] => ⟨holders, []⟩
  | first :: queue =>
    if admits holders first.2 then wake (first :: holders) queue else ⟨holders, first :: queue⟩

def request (lock : QueueLock ι) (i : ι) (mode : LockMode) : QueueLock ι :=
  wake lock.holders (lock.queue ++ [(i, mode)])

def release [DecidableEq ι] (lock : QueueLock ι) (i : ι) : QueueLock ι :=
  wake (lock.holders.filter fun h ↦ h.1 ≠ i) lock.queue

structure Sound (lock : QueueLock ι) : Prop where
  exclusive : ∀ i, (i, .write) ∈ lock.holders → lock.holders = [(i, .write)]
  blocked : ∀ first queue, lock.queue = first :: queue → admits lock.holders first.2 = false

variable {holders queue : List (ι × LockMode)} {lock : QueueLock ι} {i : ι} {m : LockMode}

theorem exclusive_cons {first : ι × LockMode} (hadmits : admits holders first.2 = true)
    (h : ∀ i, (i, .write) ∈ holders → holders = [(i, .write)]) :
    ∀ i, (i, .write) ∈ first :: holders → first :: holders = [(i, .write)] := by
  obtain ⟨j, mode⟩ := first
  intro i hi
  cases mode with
  | read =>
    have hread : (i, LockMode.write) ∈ holders := by simpa using hi
    have hall := List.all_eq_true.mp hadmits _ hread
    simp at hall
  | write =>
    obtain rfl := List.isEmpty_iff.mp hadmits
    rw [List.mem_singleton.mp hi]

theorem sound_wake (h : ∀ i, (i, .write) ∈ holders → holders = [(i, .write)]) :
    (wake holders queue).Sound := by
  induction queue generalizing holders with
  | nil => exact ⟨h, fun _ _ h ↦ by cases h⟩
  | cons first queue ih =>
    rw [wake]
    split
    · next hadmits => exact ih (exclusive_cons hadmits h)
    · next hadmits =>
      refine ⟨h, fun first' queue' heq ↦ ?_⟩
      cases heq
      exact Bool.eq_false_iff.mpr hadmits

theorem exists_woken : ∃ woken, queue = woken ++ (wake holders queue).queue ∧
    ∀ h, h ∈ (wake holders queue).holders ↔ h ∈ holders ∨ h ∈ woken := by
  induction queue generalizing holders with
  | nil => exact ⟨[], rfl, by simp [wake]⟩
  | cons first queue ih =>
    rw [wake]
    split
    · obtain ⟨woken, hqueue, hholders⟩ := @ih (first :: holders)
      refine ⟨first :: woken, ?_, fun h ↦ ?_⟩
      · rw [List.cons_append, ← hqueue]
      · rw [hholders, List.mem_cons, List.mem_cons, or_comm (a := h = first), or_assoc]
    · exact ⟨[], rfl, by simp⟩

theorem wake_of_blocked {first : ι × LockMode} (h : admits holders first.2 = false) :
    wake holders (first :: queue) = ⟨holders, first :: queue⟩ := by
  rw [wake, if_neg (Bool.eq_false_iff.mp h)]

theorem Sound.request_cases (h : lock.Sound) (i : ι) (m : LockMode) :
    (lock.queue = [] ∧ (lock.request i m).queue = [] ∧
      (lock.request i m).holders = (i, m) :: lock.holders) ∨
    ((lock.request i m).queue = lock.queue ++ [(i, m)] ∧
      (lock.request i m).holders = lock.holders) := by
  rw [request]
  cases hqueue : lock.queue with
  | nil =>
    rw [List.nil_append, wake]
    split
    · exact .inl ⟨rfl, rfl, rfl⟩
    · exact .inr ⟨rfl, rfl⟩
  | cons first queue =>
    rw [List.cons_append, wake_of_blocked (h.blocked first queue hqueue)]
    exact .inr ⟨rfl, rfl⟩

theorem Sound.release [DecidableEq ι] (h : lock.Sound) (i : ι) : (lock.release i).Sound := by
  refine sound_wake fun j hj ↦ ?_
  obtain ⟨hmem, hne⟩ := List.mem_filter.mp hj
  rw [h.exclusive j hmem, List.filter_cons, if_pos hne]
  rfl

end QueueLock

open QueueLock

variable {ι : Type} [DecidableEq ι]

def queueLock (ι : Type) [DecidableEq ι] : RwLock ι (QueueLock ι) where
  free := ⟨[], []⟩
  request := QueueLock.request
  release := QueueLock.release
  Holds lock i m := (i, m) ∈ lock.holders
  queue := QueueLock.queue

theorem sound_of_reachable {lock : QueueLock ι} (h : (queueLock ι).Reachable lock) :
    lock.Sound := by
  induction h with
  | free => exact ⟨fun _ h ↦ (by cases h), fun _ _ h ↦ by cases h⟩
  | request _ _ _ ih => exact sound_wake ih.exclusive
  | release _ _ ih => exact ih.release _

theorem queueLock_fair : (queueLock ι).Fair where
  free_holds _ _ := List.not_mem_nil
  free_queue := rfl
  request lock i m h _ := by
    rcases (sound_of_reachable h).request_cases i m with ⟨hempty, hqueue, hholders⟩ |
      ⟨hqueue, hholders⟩
    · refine .inl ⟨hempty, hqueue, fun j m' ↦ ?_⟩
      change (j, m') ∈ (lock.request i m).holders ↔ (j, m') ∈ lock.holders ∨ j = i ∧ m' = m
      rw [hholders, List.mem_cons, Prod.mk.injEq, or_comm]
    · refine .inr ⟨hqueue, fun j m' ↦ ?_⟩
      change (j, m') ∈ (lock.request i m).holders ↔ (j, m') ∈ lock.holders
      rw [hholders]
  release lock i m h hi := by
    obtain ⟨woken, hqueue, hholders⟩ :=
      @exists_woken _ (lock.holders.filter fun h ↦ h.1 ≠ i) lock.queue
    refine ⟨woken, hqueue, fun j m' ↦ (hholders (j, m')).trans ?_⟩
    rw [List.mem_filter, decide_eq_true_eq]
    rfl
  exclusive lock i j m h hi hj := by
    have hj : (j, m) ∈ lock.holders := hj
    rw [(sound_of_reachable h).exclusive i hi] at hj
    exact (Prod.mk.inj (List.mem_singleton.mp hj)).1
  blocked lock h hne := by
    obtain ⟨first, queue, hqueue⟩ := List.exists_cons_of_ne_nil hne
    have hblocked := (sound_of_reachable h).blocked first queue hqueue
    cases hholders : lock.holders with
    | nil =>
      rw [hholders] at hblocked
      cases hmode : first.2 <;> simp [admits, hmode] at hblocked
    | cons holder holders =>
      refine ⟨holder.1, holder.2, ?_⟩
      change holder ∈ lock.holders
      rw [hholders]
      exact List.mem_cons_self

end Foundation
