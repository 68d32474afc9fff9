import Wireplug.Foundation.Program
import Wireplug.Foundation.Clock
import Mathlib.Order.Monotone.Basic

namespace Foundation

variable {Λ : Type} {marked : Λ → Bool} {pauses : Λ → Prop} {l u v : List Λ} {a b : Λ}

def Rested (marked : Λ → Bool) (pauses : Λ → Prop) (l : List Λ) : Prop :=
  ∀ (m : ℕ) a, l[m]? = some a → marked a = true →
    ∃ (n : ℕ) (b : Λ), m < n ∧ l[n]? = some b ∧ pauses b

theorem rested_nil : Rested marked pauses [] := by
  intro m a h
  cases h

theorem Rested.snoc (h : Rested marked pauses l) (ha : marked a = false) :
    Rested marked pauses (l ++ [a]) := by
  intro m b hb hmarked
  rcases getElem?_snoc hb with ⟨hb, -⟩ | ⟨-, rfl⟩
  · obtain ⟨n, c, hn, hc, hpause⟩ := h m b hb hmarked
    have hlen : n < l.length := (List.getElem?_eq_some_iff.mp hc).1
    exact ⟨n, c, hn, by rw [List.getElem?_append_left hlen, hc], hpause⟩
  · rw [ha] at hmarked
    cases hmarked

theorem Rested.append (h : Rested marked pauses l) (hu : ∀ a ∈ u, marked a = false) :
    Rested marked pauses (l ++ u) := by
  induction u generalizing l with
  | nil =>
    rw [List.append_nil]
    exact h
  | cons a u ih =>
    rw [List.append_cons]
    exact ih (h.snoc (hu a List.mem_cons_self)) fun b hb ↦ hu b (List.mem_cons_of_mem _ hb)

theorem rested_pause (ha : marked a = false) (hpause : pauses a) :
    Rested marked pauses (l ++ [a]) := by
  intro m b hb hmarked
  rcases getElem?_snoc hb with ⟨-, hm⟩ | ⟨-, rfl⟩
  · exact ⟨l.length, a, hm, by simp, hpause⟩
  · rw [ha] at hmarked
    cases hmarked

variable {time : ℕ → ℕ} {d : ℕ}

/-- The `n`-th event begins at `time n`. Two marked events are at least `d` apart. -/
def Spaced (time : ℕ → ℕ) (d : ℕ) (marked : Λ → Bool) (l : List Λ) : Prop :=
  ∀ (m n : ℕ) a b, m < n → l[m]? = some a → l[n]? = some b → marked a = true → marked b = true →
    time m + d ≤ time n

theorem spaced_of_rested (hmono : Monotone time)
    (hrested : ∀ (n : ℕ) b, l[n]? = some b → marked b = true → Rested marked pauses (l.take n))
    (hpause : ∀ (n : ℕ) b, l[n]? = some b → pauses b → time n + d ≤ time (n + 1)) :
    Spaced time d marked l := by
  intro m n a b hmn ha hb hma hmb
  have htake : (l.take n)[m]? = some a := by rw [List.getElem?_take_of_lt hmn, ha]
  obtain ⟨k, c, hmk, hc, hpauses⟩ := hrested n b hb hmb m a htake hma
  have hkn : k < n := by
    have hlen := (List.getElem?_eq_some_iff.mp hc).1
    rw [List.length_take] at hlen
    omega
  rw [List.getElem?_take_of_lt hkn] at hc
  calc time m + d ≤ time k + d := Nat.add_le_add_right (hmono hmk.le) d
    _ ≤ time (k + 1) := hpause k c hc hpauses
    _ ≤ time n := hmono hkn

theorem Spaced.left (h : Spaced time d marked (u ++ v)) : Spaced time d marked u := by
  have hget {n : ℕ} {a : Λ} (ha : u[n]? = some a) : (u ++ v)[n]? = some a := by
    rw [List.getElem?_append_left (List.getElem?_eq_some_iff.mp ha).1, ha]
  exact fun m n a b hmn ha hb ↦ h m n a b hmn (hget ha) (hget hb)

theorem Spaced.last_marked (hmono : Monotone time) (h : Spaced time d marked (u ++ v)) :
    v.countP marked = 0 ∨ ∃ (n : ℕ) (a : Λ), (u ++ v)[n]? = some a ∧ marked a = true ∧
      time u.length + v.countP marked * d ≤ time n + d := by
  induction v using List.reverseRecOn with
  | nil => exact .inl rfl
  | append_singleton v a ih =>
    rw [← List.append_assoc] at h ⊢
    rw [List.countP_append, List.countP_singleton]
    have hkeep {n : ℕ} {b : Λ} (hb : (u ++ v)[n]? = some b) : (u ++ v ++ [a])[n]? = some b := by
      rw [List.getElem?_append_left (List.getElem?_eq_some_iff.mp hb).1, hb]
    cases ha : marked a with
    | false =>
      refine (ih h.left).imp (fun hnone ↦ by simpa using hnone) fun hsome ↦ ?_
      obtain ⟨n, b, hb, hmarked, hle⟩ := hsome
      exact ⟨n, b, hkeep hb, hmarked, by simpa using hle⟩
    | true =>
      have hlast : (u ++ v ++ [a])[(u ++ v).length]? = some a := by simp
      refine .inr ⟨(u ++ v).length, a, hlast, ha, ?_⟩
      rw [if_pos rfl, Nat.add_mul, Nat.one_mul, ← Nat.add_assoc]
      apply Nat.add_le_add_right
      rcases ih h.left with hnone | ⟨n, b, hb, hmarked, hle⟩
      · rw [hnone, Nat.zero_mul, Nat.add_zero]
        exact hmono (by simp)
      · have hn : n < (u ++ v).length := (List.getElem?_eq_some_iff.mp hb).1
        exact hle.trans (h n _ b a hn (hkeep hb) hlast hmarked ha)

/-- The rate of marked events in any window. -/
theorem Spaced.countP_le (hmono : Monotone time) (h : Spaced time d marked (u ++ v)) :
    v.countP marked * d ≤ time (u ++ v).length - time u.length + d := by
  rcases h.last_marked hmono with hnone | ⟨n, a, ha, -, hle⟩
  · rw [hnone, Nat.zero_mul]
    exact Nat.zero_le _
  · have hn : time n ≤ time (u ++ v).length :=
      hmono (List.getElem?_eq_some_iff.mp ha).1.le
    omega

end Foundation
