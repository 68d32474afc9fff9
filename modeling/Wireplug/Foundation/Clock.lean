import Wireplug.Foundation.Interleaving

namespace Foundation

section Timed

variable {Λ T : Type} {time : ℕ → T} {ok : T → T → Λ → Prop} {ls ms : List Λ} {l : Λ}

/-- The `n`-th step of a run lasts from `time n` to `time (n + 1)`; `ok` says
what a step may have read from the clock in between. -/
def Timed (time : ℕ → T) (ok : T → T → Λ → Prop) (ls : List Λ) : Prop :=
  ∀ n l, ls[n]? = some l → ok (time n) (time (n + 1)) l

theorem Timed.left (h : Timed time ok (ls ++ ms)) : Timed time ok ls := by
  intro n l hl
  have hn : n < ls.length := (List.getElem?_eq_some_iff.mp hl).1
  exact h n l (by rw [List.getElem?_append_left hn, hl])

theorem Timed.step (h : Timed time ok (ls ++ l :: ms)) :
    ok (time ls.length) (time (ls.length + 1)) l :=
  h ls.length l (by simp)

theorem getElem?_snoc {n : ℕ} {l' : Λ} (h : (ls ++ [l])[n]? = some l') :
    ls[n]? = some l' ∧ n < ls.length ∨ n = ls.length ∧ l' = l := by
  rcases Nat.lt_or_ge n ls.length with hn | hn
  · rw [List.getElem?_append_left hn] at h
    exact .inl ⟨h, hn⟩
  · obtain ⟨hlen, rfl⟩ := List.getElem?_eq_some_iff.mp h
    rw [List.length_append, List.length_singleton] at hlen
    obtain rfl : n = ls.length := by omega
    exact .inr ⟨rfl, by simp⟩

theorem Timed.snoc (h : Timed time ok ls) (hl : ok (time ls.length) (time (ls.length + 1)) l) :
    Timed time ok (ls ++ [l]) := by
  intro n l' hl'
  rcases getElem?_snoc hl' with ⟨hl', -⟩ | ⟨rfl, rfl⟩
  · exact h n l' hl'
  · exact hl

theorem Timed.append (h : Timed time ok ls) (hms : ∀ l ∈ ms, ∀ t t', ok t t' l) :
    Timed time ok (ls ++ ms) := by
  intro n l hl
  rw [List.getElem?_append] at hl
  split at hl
  · exact h n l hl
  · exact hms l (List.mem_of_getElem? hl) _ _

theorem timed_of_forall (h : ∀ l ∈ ls, ∀ t t', ok t t' l) : Timed time ok ls :=
  fun _ l hl ↦ h l (List.mem_of_getElem? hl) _ _

end Timed

namespace System

variable {ι δ E α σ β T : Type} {R : E → Type} [DecidableEq ι] {S : System ι δ R α σ β}
  {a c : Config ι R α σ} {time : ℕ → T} {ok : T → T → Label ι δ R β → Prop}
  {ls : List (Label ι δ R β)}

/-- The invariant rule for runs under a clock. -/
theorem Run.timed (h : S.Run a ls c) (hclock : Timed time ok ls)
    (I : List (Label ι δ R β) → Config ι R α σ → Prop) (hnil : I [] a)
    (hsnoc : ∀ ls l b b', S.Run a ls b → Timed time ok (ls ++ [l]) → I ls b → S.Step b l b' →
      I (ls ++ [l]) b') : I ls c := by
  induction h with
  | nil => exact hnil
  | snoc hrun hs ih => exact hsnoc _ _ _ _ hrun hclock (ih hclock.left) hs

end System

end Foundation
