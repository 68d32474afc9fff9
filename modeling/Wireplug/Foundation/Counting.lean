import Mathlib.Data.Set.Card
import Wireplug.Foundation.Interleaving

namespace Foundation

open Program

section Sets

variable {ι : Type} [DecidableEq ι] {s s' : Set ι} {i : ι}

theorem ncard_replace (hs : s.Finite) {p : Prop} [Decidable p] [Decidable (i ∈ s)]
    (h : ∀ j, j ∈ s' ↔ if j = i then p else j ∈ s) :
    s'.Finite ∧ s'.ncard + (if i ∈ s then 1 else 0) = s.ncard + (if p then 1 else 0) := by
  have hremoved : (s \ {i}).ncard + (if i ∈ s then 1 else 0) = s.ncard := by
    split
    · next hi => exact Set.ncard_sdiff_singleton_add_one hi hs
    · next hi => rw [Set.sdiff_singleton_eq_self hi, Nat.add_zero]
  by_cases hp : p
  · have hs' : s' = insert i (s \ {i}) := by
      ext j
      by_cases hj : j = i <;> simp [h, hj, hp]
    have hnot : i ∉ s \ {i} := fun hi ↦ hi.2 rfl
    rw [hs', Set.ncard_insert_of_notMem hnot hs.sdiff, if_pos hp]
    exact ⟨hs.sdiff.insert i, by omega⟩
  · have hs' : s' = s \ {i} := by
      ext j
      by_cases hj : j = i <;> simp [h, hj, hp]
    rw [hs', if_neg hp]
    exact ⟨hs.sdiff, hremoved⟩

end Sets

namespace System

variable {ι δ E α σ β : Type} {R : E → Type} [DecidableEq ι] {S : System ι δ R α σ β}
  {a c : Config ι R α σ} {ls ms : List (Label ι δ R β)} {l : Label ι δ R β} {i : ι}

section Tally

variable (cause : Event R → Bool) (target : E → Prop)

def CountsNext (p : Program R α) : Prop :=
  p.Ensures (fun _ _ _ ↦ True) (fun t e ↦ target e ↔ EndsIn cause t) (fun _ t ↦ ¬ EndsIn cause t) []

def owing (ls : List (Label ι δ R β)) : Set ι := {i | EndsIn cause (calls i ls)}

def causes : Label ι δ R β → Bool
  | .called _ e r => cause ⟨e, r⟩
  | _ => false

def targets [DecidablePred target] : Label ι δ R β → Bool
  | .called _ e _ => target e
  | _ => false

variable {cause target}

theorem counts_of_only {P : E → Prop} {Q : α → Prop} {p : Program R α} (h : p.Only P Q)
    (hP : ∀ e, P e → ¬ target e ∧ ∀ r, cause ⟨e, r⟩ = false) {t : Trace R} (ht : ¬ EndsIn cause t) :
    p.Ensures (fun _ _ _ ↦ True) (fun t e ↦ target e ↔ EndsIn cause t)
      (fun _ t ↦ ¬ EndsIn cause t) t := by
  have howes (u : Trace R) (hu : ∀ ev ∈ u, P ev.1) : ¬ EndsIn cause (t ++ u) :=
    not_endsIn_append ht fun ev hev ↦ (hP ev.1 (hu ev hev)).2 ev.2
  exact h.ensures (fun u hu e he ↦ iff_of_false (hP e he).1 (howes u hu))
    fun u hu _ _ ↦ howes u hu

theorem mem_owing : i ∈ owing cause ls ↔ EndsIn cause (calls i ls) := Iff.rfl

theorem owes_iff (hprog : ∀ i p, S.Started a ls i p → CountsNext cause target p)
    (h : S.Run a ls c) (i : ι) :
    EndsIn cause (calls i ls) ↔ ∃ e k, c.threads i = some (.call e k) ∧ target e := by
  rcases h.path i with ⟨hnone, -, hcalls⟩ | ⟨p, q, hq, hpath, hstart⟩
  · rw [hcalls, hnone]
    exact iff_of_false not_endsIn_nil fun ⟨_, _, heq, _⟩ ↦ by cases heq
  · have hensures := (hprog i p hstart).follow hpath (answered_of_forall (fun _ _ _ ↦ trivial) _ _)
    rw [hq]
    cases q with
    | done x => exact iff_of_false hensures fun ⟨_, _, heq, _⟩ ↦ by cases heq
    | call e k =>
      have htarget : target e ↔ EndsIn cause (calls i ls) := hensures.1
      rw [← htarget]
      constructor
      · exact fun he ↦ ⟨e, k, rfl, he⟩
      · rintro ⟨_, _, heq, he⟩
        cases heq
        exact he

/-- Whatever is to be counted has been counted, or its thread is about to. -/
theorem count_owed [DecidablePred target]
    (hprog : ∀ i p, S.Started a ls i p → CountsNext cause target p) (h : S.Run a ls c) :
    (owing cause ls).Finite ∧
      ls.countP (causes cause) = ls.countP (targets target) + (owing cause ls).ncard := by
  induction h with
  | nil =>
    have hnone : owing cause ([] : List (Label ι δ R β)) = ∅ :=
      Set.eq_empty_of_forall_notMem fun i hi ↦ not_endsIn_nil hi
    rw [hnone]
    exact ⟨Set.finite_empty, by simp⟩
  | @snoc b c ls l hrun hs ih =>
    obtain ⟨hfinite, hcount⟩ := ih fun i p hstart ↦ hprog i p hstart.left
    have hstill (hl : ∀ i, calls i [l] = []) (hcause : causes cause l = false)
        (htarget : targets target l = false) : (owing cause (ls ++ [l])).Finite ∧
          (ls ++ [l]).countP (causes cause) =
            (ls ++ [l]).countP (targets target) + (owing cause (ls ++ [l])).ncard := by
      have hsame : owing cause (ls ++ [l]) = owing cause ls := by
        ext i
        rw [mem_owing, calls_append, hl, List.append_nil, mem_owing]
      rw [hsame, List.countP_append, List.countP_append, List.countP_singleton,
        List.countP_singleton, hcause, htarget]
      exact ⟨hfinite, hcount⟩
    cases hs with
    | opened => exact hstill (fun _ ↦ rfl) rfl rfl
    | happened => exact hstill (fun _ ↦ rfl) rfl rfl
    | @called i e k r s hi ha =>
      have htarget : i ∈ owing cause ls ↔ target e := by
        rw [mem_owing, owes_iff (fun i p hstart ↦ hprog i p hstart.left) hrun i, hi]
        constructor
        · rintro ⟨_, _, heq, he⟩
          cases heq
          exact he
        · exact fun he ↦ ⟨e, k, rfl, he⟩
      have hreplaced : ∀ j, j ∈ owing cause (ls ++ [.called i e r]) ↔
          if j = i then cause ⟨e, r⟩ = true else j ∈ owing cause ls := by
        intro j
        rw [mem_owing, calls_append]
        split
        · next hj =>
          subst hj
          rw [calls_self, endsIn_snoc]
        · next hj => rw [calls_other (Ne.symm hj), List.append_nil, mem_owing]
      have := decidable_of_iff _ htarget.symm
      obtain ⟨hfinite', hsum⟩ := ncard_replace hfinite hreplaced
      refine ⟨hfinite', ?_⟩
      have hcalled : causes cause (.called i e r : Label ι δ R β) = cause ⟨e, r⟩ := rfl
      simp only [htarget] at hsum
      rw [List.countP_append, List.countP_append, List.countP_singleton, List.countP_singleton,
        hcalled]
      simp only [targets, decide_eq_true_eq]
      omega

end Tally

end System

end Foundation
