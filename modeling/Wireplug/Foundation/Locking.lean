import Wireplug.Foundation.Interleaving
import Wireplug.Foundation.RwLock
import Mathlib.Algebra.Order.BigOperators.Group.Finset
import Mathlib.Data.Set.Finite.Basic
import Mathlib.Order.WellFounded

namespace Foundation

/-- How far a thread has come with the locks for its next call. -/
inductive Stage where
  | running (acquired : ℕ)
  | waiting (acquired : ℕ)

namespace Stage

def acquired : Stage → ℕ
  | running n => n
  | waiting n => n

def claimed : Stage → ℕ
  | running n => n
  | waiting n => n + 1

end Stage

structure LockedConfig (ι : Type) {E : Type} (R : E → Type) (α σ Λ K : Type) where
  config : Config ι R α σ
  stage : ι → Stage
  locks : Λ → K

def LockedConfig.start {ι E α σ Λ K : Type} {R : E → Type} (L : RwLock ι K)
    (config : Config ι R α σ) : LockedConfig ι R α σ Λ K :=
  ⟨config, fun _ ↦ .running 0, fun _ ↦ L.free⟩

inductive LockedLabel (ι δ : Type) {E : Type} (R : E → Type) (β : Type) where
  | requests (i : ι)
  | enters (i : ι)
  | steps (l : Label ι δ R β)

namespace LockedLabel

variable {ι δ E β : Type} {R : E → Type}

def thread : LockedLabel ι δ R β → Option ι
  | requests i => some i
  | enters i => some i
  | steps (.called i _ _) => some i
  | steps _ => none

def base : LockedLabel ι δ R β → Option (Label ι δ R β)
  | steps l => some l
  | _ => none

end LockedLabel

namespace System

variable {ι δ E α σ β Λ K : Type} {R : E → Type} {needs : E → List (Λ × LockMode)}
  {L : RwLock ι K} {a c c' : LockedConfig ι R α σ Λ K} {i j : ι} {l : Λ} {m : LockMode}

section Claims

variable (needs L)

def Reached (count : Stage → ℕ) (thread : Option (Program R α)) (stage : Stage) (l : Λ)
    (m : LockMode) : Prop :=
  ∃ e k n, thread = some (.call e k) ∧ (needs e)[n]? = some (l, m) ∧ n < count stage

def Claims (c : LockedConfig ι R α σ Λ K) (i : ι) : Λ → LockMode → Prop :=
  Reached needs Stage.claimed (c.config.threads i) (c.stage i)

def Owns (c : LockedConfig ι R α σ Λ K) (i : ι) : Λ → LockMode → Prop :=
  Reached needs Stage.acquired (c.config.threads i) (c.stage i)

/-- The locks know exactly those that have claimed them. -/
structure Consistent (c : LockedConfig ι R α σ Λ K) : Prop where
  reachable : ∀ l, L.Reachable (c.locks l)
  members : ∀ l i m, L.Member (c.locks l) i m ↔ Claims needs c i l m
  held : ∀ l i m, Owns needs c i l m → L.Holds (c.locks l) i m
  called : ∀ i, c.stage i ≠ .running 0 → ∃ e k, c.config.threads i = some (.call e k) ∧
    (c.stage i).claimed ≤ (needs e).length

def Ordered [LT Λ] : Prop := ∀ e, (needs e).Pairwise fun a b ↦ a.1 < b.1

end Claims

theorem not_reached {count : Stage → ℕ} {thread : Option (Program R α)} {stage : Stage}
    (h : count stage = 0) : ¬ Reached needs count thread stage l m := by
  rintro ⟨e, k, n, -, -, hn⟩
  rw [h] at hn
  exact Nat.not_lt_zero n hn

theorem reached_iff {count : Stage → ℕ} {stage : Stage} {e : E} {k : R e → Program R α} :
    Reached needs count (some (.call e k)) stage l m ↔
      ∃ n, (needs e)[n]? = some (l, m) ∧ n < count stage := by
  constructor
  · rintro ⟨e', k', n, heq, hn⟩
    cases heq
    exact ⟨n, hn⟩
  · rintro ⟨n, hn⟩
    exact ⟨e, k, n, rfl, hn⟩

theorem Ordered.eq_of_lock [Preorder Λ] (h : Ordered needs) {e : E} {n n' : ℕ} {m' : LockMode}
    (hn : (needs e)[n]? = some (l, m)) (hn' : (needs e)[n']? = some (l, m')) : n = n' := by
  obtain ⟨hlt, hget⟩ := List.getElem?_eq_some_iff.mp hn
  obtain ⟨hlt', hget'⟩ := List.getElem?_eq_some_iff.mp hn'
  have hpairwise := List.pairwise_iff_getElem.mp (h e)
  rcases Nat.lt_trichotomy n n' with hlt'' | heq | hlt''
  · have hless := hpairwise n n' hlt hlt' hlt''
    rw [hget, hget'] at hless
    exact (lt_irrefl l hless).elim
  · exact heq
  · have hless := hpairwise n' n hlt' hlt hlt''
    rw [hget, hget'] at hless
    exact (lt_irrefl l hless).elim

theorem consistent_start (hL : L.Fair) {config : Config ι R α σ} :
    Consistent needs L (.start L config : LockedConfig ι R α σ Λ K) where
  reachable _ := .free
  members _ i m := iff_of_false (hL.not_member_free i m) (not_reached (by rfl))
  held _ _ _ h := (not_reached (by rfl) h).elim
  called _ h := (h rfl).elim

variable [DecidableEq ι] [DecidableEq Λ]

def releaseAll (L : RwLock ι K) (needed : List (Λ × LockMode)) (i : ι) (locks : Λ → K) (l : Λ) :
    K :=
  if l ∈ needed.map Prod.fst then L.release (locks l) i else locks l

variable (S : System ι δ R α σ β) (needs L)

/-- A thread takes the locks for a call one after another, makes the call under all of them, and
then gives them back. -/
inductive LockedStep : LockedConfig ι R α σ Λ K → LockedLabel ι δ R β →
    LockedConfig ι R α σ Λ K → Prop
  | requests {c : LockedConfig ι R α σ Λ K} {i : ι} {e : E} {k : R e → Program R α} {n : ℕ} {l : Λ}
      {m : LockMode} (hi : c.config.threads i = some (.call e k))
      (hstage : c.stage i = .running n) (hn : (needs e)[n]? = some (l, m)) :
      LockedStep c (.requests i)
        { c with
          stage := Function.update c.stage i (.waiting n)
          locks := Function.update c.locks l (L.request (c.locks l) i m) }
  | enters {c : LockedConfig ι R α σ Λ K} {i : ι} {e : E} {k : R e → Program R α} {n : ℕ} {l : Λ}
      {m : LockMode} (hi : c.config.threads i = some (.call e k))
      (hstage : c.stage i = .waiting n) (hn : (needs e)[n]? = some (l, m))
      (hholds : L.Holds (c.locks l) i m) :
      LockedStep c (.enters i) { c with stage := Function.update c.stage i (.running (n + 1)) }
  | called {c : LockedConfig ι R α σ Λ K} {i : ι} {e : E} {k : R e → Program R α} {r : R e} {s : σ}
      (hi : c.config.threads i = some (.call e k))
      (hstage : c.stage i = .running (needs e).length)
      (hs : S.answers c.config.shared i e r s) :
      LockedStep c (.steps (.called i e r))
        ⟨⟨s, Function.update c.config.threads i (some (k r))⟩,
          Function.update c.stage i (.running 0), releaseAll L (needs e) i c.locks⟩
  | others {c : LockedConfig ι R α σ Λ K} {l : Label ι δ R β} {config : Config ι R α σ}
      (hs : S.Step c.config l config) (hl : ∀ i e r, l ≠ .called i e r) :
      LockedStep c (.steps l) { c with config }

inductive LockedRun (a : LockedConfig ι R α σ Λ K) : List (LockedLabel ι δ R β) →
    LockedConfig ι R α σ Λ K → Prop
  | nil : LockedRun a [] a
  | snoc {b c : LockedConfig ι R α σ Λ K} {ls : List (LockedLabel ι δ R β)}
      {l : LockedLabel ι δ R β} :
      LockedRun a ls b → S.LockedStep needs L b l c → LockedRun a (ls ++ [l]) c

variable {S needs L} {ls : List (LockedLabel ι δ R β)} {label : LockedLabel ι δ R β}

theorem LockedStep.base (h : S.LockedStep needs L c label c') :
    S.Run c.config label.base.toList c'.config := by
  cases h with
  | requests | enters => exact .nil
  | called hi _ hs => exact .one (.called hi hs)
  | others hs => exact .one hs

/-- With its locks left out, a run is one of the system without locks. -/
theorem LockedRun.base (h : S.LockedRun needs L a ls c) :
    S.Run a.config (ls.filterMap LockedLabel.base) c.config := by
  induction h with
  | nil => exact .nil
  | @snoc _ _ _ l _ hs ih =>
    have hlast : [l].filterMap LockedLabel.base = l.base.toList := by
      cases hl : l.base <;> simp [hl]
    rw [List.filterMap_append, hlast]
    exact ih.trans hs.base

theorem LockedRun.trans {ms : List (LockedLabel ι δ R β)} (h : S.LockedRun needs L a ls c)
    (h' : S.LockedRun needs L c ms c') : S.LockedRun needs L a (ls ++ ms) c' := by
  induction h' with
  | nil => simpa only [List.append_nil] using h
  | snoc _ hs ih =>
    rw [← List.append_assoc]
    exact ih.snoc hs

theorem LockedRun.last (h : S.LockedRun needs L a (ls ++ [label]) c) :
    ∃ b, S.LockedRun needs L a ls b ∧ S.LockedStep needs L b label c := by
  generalize hl : ls ++ [label] = ls' at h
  cases h with
  | nil => simp at hl
  | snoc h hs =>
    obtain ⟨rfl, heq⟩ := List.append_inj' hl rfl
    cases heq
    exact ⟨_, h, hs⟩

theorem LockedRun.split {ms : List (LockedLabel ι δ R β)}
    (h : S.LockedRun needs L a (ls ++ ms) c) :
    ∃ b, S.LockedRun needs L a ls b ∧ S.LockedRun needs L b ms c := by
  induction ms using List.reverseRecOn generalizing c with
  | nil => exact ⟨c, by simpa only [List.append_nil] using h, .nil⟩
  | append_singleton ms m ih =>
    rw [← List.append_assoc] at h
    obtain ⟨c', h, hs⟩ := h.last
    obtain ⟨b, hab, hbc⟩ := ih h
    exact ⟨b, hab, hbc.snoc hs⟩

theorem LockedRun.split_at {ms : List (LockedLabel ι δ R β)}
    (h : S.LockedRun needs L a (ls ++ label :: ms) c) :
    ∃ b b', S.LockedRun needs L a ls b ∧ S.LockedStep needs L b label b' ∧
      S.LockedRun needs L b' ms c := by
  rw [List.append_cons] at h
  obtain ⟨b', hb', hc⟩ := h.split
  obtain ⟨b, hb, hs⟩ := hb'.last
  exact ⟨b, b', hb, hs, hc⟩

section Consistent

omit [DecidableEq ι] [DecidableEq Λ] in
theorem Consistent.fresh [Preorder Λ] (hneeds : Ordered needs) (h : Consistent needs L c) {e : E}
    {k : R e → Program R α} {n : ℕ} (hi : c.config.threads i = some (.call e k))
    (hstage : c.stage i = .running n) (hn : (needs e)[n]? = some (l, m)) (m' : LockMode) :
    ¬ L.Member (c.locks l) i m' := by
  rw [h.members, Claims, hi, hstage, reached_iff]
  rintro ⟨n', hn', hlt⟩
  exact hlt.ne (hneeds.eq_of_lock hn' hn)

omit [DecidableEq ι] [DecidableEq Λ] in
theorem Consistent.holds_needed (h : Consistent needs L c) {e : E} {k : R e → Program R α}
    (hi : c.config.threads i = some (.call e k)) (hstage : c.stage i = .running (needs e).length)
    (hl : (l, m) ∈ needs e) : L.Holds (c.locks l) i m := by
  obtain ⟨n, hn⟩ := List.mem_iff_getElem?.mp hl
  apply h.held
  rw [Owns, hi, hstage, reached_iff]
  exact ⟨n, hn, (List.getElem?_eq_some_iff.mp hn).1⟩

omit [DecidableEq Λ] in
theorem Consistent.called_update (h : Consistent needs L c) {e : E} {k : R e → Program R α}
    (hi : c.config.threads i = some (.call e k)) {stage : Stage}
    (hstage : stage.claimed ≤ (needs e).length) (j : ι)
    (hj : Function.update c.stage i stage j ≠ .running 0) :
    ∃ e k, c.config.threads j = some (.call e k) ∧
      (Function.update c.stage i stage j).claimed ≤ (needs e).length := by
  by_cases heq : j = i
  · subst heq
    exact ⟨e, k, hi, by rwa [Function.update_self]⟩
  · simp only [Function.update_of_ne heq] at hj ⊢
    exact h.called j hj

omit [DecidableEq ι] in
theorem Consistent.member_request [Preorder Λ] (hL : L.Fair) (hneeds : Ordered needs)
    (h : Consistent needs L c) {e : E} {k : R e → Program R α} {n : ℕ}
    (hi : c.config.threads i = some (.call e k)) (hstage : c.stage i = .running n)
    (hn : (needs e)[n]? = some (l, m)) (l' : Λ) (j : ι) (m' : LockMode) :
    L.Member (Function.update c.locks l (L.request (c.locks l) i m) l') j m' ↔
      L.Member (c.locks l') j m' ∨ (j = i ∧ (l', m') = (l, m)) := by
  by_cases hl : l' = l
  · subst hl
    rw [Function.update_self, hL.member_request (h.reachable l') (h.fresh hneeds hi hstage hn)]
    simp
  · rw [Function.update_of_ne hl]
    simp [hl]

theorem Consistent.requests [Preorder Λ] (hL : L.Fair) (hneeds : Ordered needs)
    (h : Consistent needs L c) {e : E} {k : R e → Program R α} {n : ℕ}
    (hi : c.config.threads i = some (.call e k)) (hstage : c.stage i = .running n)
    (hn : (needs e)[n]? = some (l, m)) :
    Consistent needs L { c with
      stage := Function.update c.stage i (.waiting n)
      locks := Function.update c.locks l (L.request (c.locks l) i m) } := by
  have hfresh := h.fresh hneeds hi hstage hn
  refine ⟨fun l' ↦ ?_, fun l' j m' ↦ ?_, fun l' j m' howns ↦ ?_,
    h.called_update hi (List.getElem?_eq_some_iff.mp hn).1⟩
  · by_cases hl : l' = l
    · subst hl
      simpa only [Function.update_self] using (h.reachable l').request hfresh m
    · simpa only [Function.update_of_ne hl] using h.reachable l'
  · rw [h.member_request hL hneeds hi hstage hn, h.members, Claims, Claims]
    by_cases hj : j = i
    · subst hj
      simp only [Function.update_self, hi, hstage, reached_iff, Stage.claimed, true_and]
      constructor
      · rintro (⟨n', hn', hlt⟩ | heq)
        · exact ⟨n', hn', Nat.lt_succ_of_lt hlt⟩
        · exact ⟨n, hn.trans (congrArg some heq.symm), Nat.lt_succ_self n⟩
      · rintro ⟨n', hn', hlt⟩
        rcases Nat.lt_succ_iff_lt_or_eq.mp hlt with hlt | rfl
        · exact .inl ⟨n', hn', hlt⟩
        · exact .inr (Option.some.inj (hn'.symm.trans hn))
    · rw [or_iff_left fun heq ↦ hj heq.1]
      simp only [Function.update_of_ne hj]
  · have hheld : L.Holds (c.locks l') j m' := by
      apply h.held
      by_cases hj : j = i
      · subst hj
        rw [Owns] at howns ⊢
        simp only [Function.update_self] at howns
        rw [hstage]
        exact howns
      · simpa only [Owns, Function.update_of_ne hj] using howns
    by_cases hl : l' = l
    · subst hl
      simp only [Function.update_self]
      exact hL.holds_request (h.reachable l') hfresh hheld
    · simpa only [Function.update_of_ne hl] using hheld

omit [DecidableEq Λ] in
theorem Consistent.enters (h : Consistent needs L c) {e : E}
    {k : R e → Program R α} {n : ℕ} (hi : c.config.threads i = some (.call e k))
    (hstage : c.stage i = .waiting n) (hn : (needs e)[n]? = some (l, m))
    (hholds : L.Holds (c.locks l) i m) :
    Consistent needs L { c with stage := Function.update c.stage i (.running (n + 1)) } := by
  refine ⟨h.reachable, fun l' j m' ↦ ?_, fun l' j m' howns ↦ ?_,
    h.called_update hi (List.getElem?_eq_some_iff.mp hn).1⟩
  · rw [h.members, Claims, Claims]
    by_cases hj : j = i
    · subst hj
      rw [hstage]
      simp only [Function.update_self]
      rfl
    · simp only [Function.update_of_ne hj]
  · by_cases hj : j = i
    · subst hj
      rw [Owns] at howns
      simp only [Function.update_self, hi, reached_iff, Stage.acquired] at howns
      obtain ⟨n', hn', hlt⟩ := howns
      rcases Nat.lt_succ_iff_lt_or_eq.mp hlt with hlt | rfl
      · apply h.held
        rw [Owns, hi, hstage, reached_iff]
        exact ⟨n', hn', hlt⟩
      · cases hn'.symm.trans hn
        exact hholds
    · apply h.held
      simpa only [Owns, Function.update_of_ne hj] using howns

section Release

variable {e : E} {k : R e → Program R α}

omit [DecidableEq ι] [DecidableEq Λ] in
theorem Consistent.holds_released (h : Consistent needs L c)
    (hi : c.config.threads i = some (.call e k)) (hstage : c.stage i = .running (needs e).length)
    (hl : l ∈ (needs e).map Prod.fst) : ∃ m, L.Holds (c.locks l) i m := by
  obtain ⟨⟨l, m⟩, hmem, rfl⟩ := List.mem_map.mp hl
  exact ⟨m, h.holds_needed hi hstage hmem⟩

omit [DecidableEq ι] in
theorem Consistent.member_releaseAll (hL : L.Fair) (h : Consistent needs L c)
    (hi : c.config.threads i = some (.call e k)) (hstage : c.stage i = .running (needs e).length)
    (l : Λ) (j : ι) (m : LockMode) : L.Member (releaseAll L (needs e) i c.locks l) j m ↔
      L.Member (c.locks l) j m ∧ j ≠ i := by
  rw [releaseAll]
  split
  · next hl =>
    obtain ⟨m', hm'⟩ := h.holds_released hi hstage hl
    exact hL.member_release (h.reachable l) hm'
  · next hl =>
    refine (and_iff_left_of_imp ?_).symm
    rintro hmem rfl
    rw [h.members, Claims, hi, hstage, reached_iff] at hmem
    obtain ⟨n, hn, -⟩ := hmem
    exact hl (List.mem_map_of_mem (f := Prod.fst) (List.mem_of_getElem? hn))

omit [DecidableEq ι] in
theorem Consistent.holds_releaseAll (hL : L.Fair) (h : Consistent needs L c)
    (hi : c.config.threads i = some (.call e k)) (hstage : c.stage i = .running (needs e).length)
    (hj : j ≠ i) (hholds : L.Holds (c.locks l) j m) :
    L.Holds (releaseAll L (needs e) i c.locks l) j m := by
  rw [releaseAll]
  split
  · next hl =>
    obtain ⟨m', hm'⟩ := h.holds_released hi hstage hl
    exact hL.holds_release (h.reachable l) hm' hholds hj
  · exact hholds

omit [DecidableEq ι] in
theorem Consistent.reachable_releaseAll (h : Consistent needs L c)
    (hi : c.config.threads i = some (.call e k)) (hstage : c.stage i = .running (needs e).length)
    (l : Λ) : L.Reachable (releaseAll L (needs e) i c.locks l) := by
  rw [releaseAll]
  split
  · next hl =>
    obtain ⟨m, hm⟩ := h.holds_released hi hstage hl
    exact (h.reachable l).release hm
  · exact h.reachable l

theorem Consistent.called_step (hL : L.Fair) (h : Consistent needs L c) {r : R e} {s : σ}
    (hi : c.config.threads i = some (.call e k)) (hstage : c.stage i = .running (needs e).length) :
    Consistent needs L ⟨⟨s, Function.update c.config.threads i (some (k r))⟩,
      Function.update c.stage i (.running 0), releaseAll L (needs e) i c.locks⟩ := by
  refine ⟨h.reachable_releaseAll hi hstage, fun l j m ↦ ?_, fun l j m howns ↦ ?_, fun j hj ↦ ?_⟩
  · rw [h.member_releaseAll hL hi hstage, Claims]
    by_cases hj : j = i
    · subst hj
      simp only [Function.update_self, ne_eq, not_true_eq_false, and_false, false_iff]
      exact not_reached rfl
    · simp only [Function.update_of_ne hj]
      rw [and_iff_left hj]
      exact h.members l j m
  · by_cases hj : j = i
    · subst hj
      simp only [Owns, Function.update_self] at howns
      exact (not_reached rfl howns).elim
    · refine h.holds_releaseAll hL hi hstage hj (h.held l j m ?_)
      simpa only [Owns, Function.update_of_ne hj] using howns
  · by_cases hj' : j = i
    · subst hj'
      simp only [Function.update_self, ne_eq, not_true_eq_false] at hj
    · simp only [Function.update_of_ne hj'] at hj ⊢
      exact h.called j hj

end Release

omit [DecidableEq Λ] in
theorem Consistent.opened (h : Consistent needs L c) {s : σ} {p : Program R α}
    (hi : c.config.threads i = none) :
    Consistent needs L { c with config := ⟨s, Function.update c.config.threads i (some p)⟩ } := by
  have hstage : c.stage i = .running 0 := by
    by_contra hne
    obtain ⟨e, k, hcall, -⟩ := h.called i hne
    rw [hi] at hcall
    cases hcall
  have hreached : ∀ count : Stage → ℕ, count (.running 0) = 0 → ∀ j l m,
      Reached needs count (Function.update c.config.threads i (some p) j) (c.stage j) l m ↔
        Reached needs count (c.config.threads j) (c.stage j) l m := by
    intro count hzero j l m
    by_cases hj : j = i
    · subst hj
      rw [hstage]
      exact iff_of_false (not_reached hzero) (not_reached hzero)
    · rw [Function.update_of_ne hj]
  refine ⟨h.reachable, fun l j m ↦ ?_, fun l j m howns ↦ ?_, fun j hj ↦ ?_⟩
  · rw [h.members, Claims, Claims]
    exact (hreached _ rfl j l m).symm
  · exact h.held l j m ((hreached _ rfl j l m).mp howns)
  · have hne : j ≠ i := fun heq ↦ hj (heq ▸ hstage)
    simp only [Function.update_of_ne hne]
    exact h.called j hj

theorem LockedStep.consistent [Preorder Λ] (hL : L.Fair) (hneeds : Ordered needs)
    (hs : S.LockedStep needs L c label c') (h : Consistent needs L c) : Consistent needs L c' := by
  cases hs with
  | requests hi hstage hn => exact h.requests hL hneeds hi hstage hn
  | enters hi hstage hn hholds => exact h.enters hi hstage hn hholds
  | called hi hstage _ => exact h.called_step hL hi hstage
  | others hs hl =>
    cases hs with
    | opened d hfree => exact h.opened hfree
    | called => exact (hl _ _ _ rfl).elim
    | happened => exact ⟨h.reachable, h.members, h.held, h.called⟩

theorem LockedRun.consistent [Preorder Λ] (hL : L.Fair) (hneeds : Ordered needs)
    (h : S.LockedRun needs L a ls c) (ha : Consistent needs L a) : Consistent needs L c := by
  induction h with
  | nil => exact ha
  | snoc _ hs ih => exact hs.consistent hL hneeds ih

theorem Consistent.acquires [Preorder Λ] (hL : L.Fair) (hneeds : Ordered needs)
    {config : Config ι R α σ} {locks : Λ → K}
    (h : Consistent needs L ⟨config, fun _ ↦ .running 0, locks⟩) {e : E} {k : R e → Program R α}
    (hi : config.threads i = some (.call e k)) {n : ℕ} (hn : n ≤ (needs e).length) :
    ∃ ls locks', S.LockedRun needs L ⟨config, fun _ ↦ .running 0, locks⟩ ls
        ⟨config, Function.update (fun _ ↦ .running 0) i (.running n), locks'⟩ ∧
      ls.filterMap LockedLabel.base = [] := by
  induction n with
  | zero =>
    refine ⟨[], locks, ?_, rfl⟩
    rw [Function.update_eq_self_iff.mpr rfl]
    exact .nil
  | succ n ih =>
    obtain ⟨ls, locks', hrun, hbase⟩ := ih (Nat.le_of_succ_le hn)
    have hb := hrun.consistent hL hneeds h
    obtain ⟨⟨l, m⟩, hget⟩ : ∃ p, (needs e)[n]? = some p := ⟨_, List.getElem?_eq_getElem hn⟩
    let stage : ι → Stage := Function.update (fun _ ↦ .running 0) i (.running n)
    have hstage : stage i = .running n := Function.update_self i _ _
    have hwaiting : Function.update stage i (.waiting n) i = .waiting n :=
      Function.update_self i _ _
    have hidle : ∀ j m', ¬ L.Member (locks' l) j m' := by
      intro j m'
      by_cases hj : j = i
      · subst hj
        exact hb.fresh hneeds hi hstage hget m'
      · rw [hb.members, Claims]
        dsimp only
        rw [Function.update_of_ne hj]
        exact not_reached rfl
    have hholds : L.Holds (Function.update locks' l (L.request (locks' l) i m) l) i m := by
      rw [Function.update_self]
      exact hL.holds_of_idle (hb.reachable l) hidle
    have hrequests : S.LockedStep needs L ⟨config, stage, locks'⟩ (.requests i)
        ⟨config, Function.update stage i (.waiting n),
          Function.update locks' l (L.request (locks' l) i m)⟩ := .requests hi hstage hget
    have hall := (hrun.snoc hrequests).snoc (.enters hi hwaiting hget hholds)
    simp only [stage, Function.update_idem] at hall
    refine ⟨_, _, hall, ?_⟩
    rw [List.filterMap_append, List.filterMap_append, hbase]
    rfl

/-- The locks forbid nothing: a run without them is possible with them as well. -/
theorem Run.locked [Preorder Λ] (hL : L.Fair) (hneeds : Ordered needs) {a c : Config ι R α σ}
    {ls : List (Label ι δ R β)} (h : S.Run a ls c) {locks : Λ → K}
    (ha : Consistent needs L ⟨a, fun _ ↦ .running 0, locks⟩) :
    ∃ ls' locks', S.LockedRun needs L ⟨a, fun _ ↦ .running 0, locks⟩ ls'
        ⟨c, fun _ ↦ .running 0, locks'⟩ ∧ ls'.filterMap LockedLabel.base = ls := by
  induction h with
  | nil => exact ⟨[], locks, .nil, rfl⟩
  | @snoc b c ls l _ hs ih =>
    obtain ⟨ls', locks', hrun, rfl⟩ := ih
    have hothers (hl : ∀ i e r, l ≠ .called i e r) : ∃ ls'' locks'',
        S.LockedRun needs L ⟨a, fun _ ↦ .running 0, locks⟩ ls''
          ⟨c, fun _ ↦ .running 0, locks''⟩ ∧
        ls''.filterMap LockedLabel.base = ls'.filterMap LockedLabel.base ++ [l] := by
      refine ⟨ls' ++ [.steps l], locks', hrun.snoc (.others hs hl), ?_⟩
      rw [List.filterMap_append]
      rfl
    cases hs with
    | opened => exact hothers fun _ _ _ h ↦ by cases h
    | happened => exact hothers fun _ _ _ h ↦ by cases h
    | @called i e k r s hi ha' =>
      obtain ⟨ms, locks'', hacquires, hbase⟩ :=
        (hrun.consistent hL hneeds ha).acquires (S := S) hL hneeds hi (Nat.le_refl _)
      have hstage : Function.update (fun _ ↦ Stage.running 0) i (.running (needs e).length) i =
          .running (needs e).length := Function.update_self i _ _
      have hall := (hrun.trans hacquires).snoc (.called hi hstage ha')
      simp only [Function.update_idem] at hall
      rw [Function.update_eq_self_iff.mpr rfl] at hall
      refine ⟨_, _, hall, ?_⟩
      rw [List.filterMap_append, List.filterMap_append, hbase, List.append_nil]
      rfl

def Inside (c : LockedConfig ι R α σ Λ K) (i : ι) : Prop := c.stage i ≠ .running 0

omit [DecidableEq ι] [DecidableEq Λ] in
theorem Consistent.inside_iff (h : Consistent needs L c) :
    Inside c i ↔ ∃ l m, L.Member (c.locks l) i m := by
  constructor
  · intro hi
    obtain ⟨e, k, hcall, hle⟩ := h.called i hi
    have hpos : 0 < (c.stage i).claimed := by
      rw [Inside] at hi
      cases hstage : c.stage i with
      | running n =>
        rw [hstage] at hi
        exact Nat.pos_of_ne_zero fun hzero ↦ hi (congrArg Stage.running hzero)
      | waiting n => exact Nat.succ_pos n
    have hlen := hpos.trans_le hle
    refine ⟨(needs e)[0].1, (needs e)[0].2, ?_⟩
    rw [h.members, Claims, hcall, reached_iff]
    exact ⟨0, List.getElem?_eq_getElem hlen, hpos⟩
  · rintro ⟨l, m, hmem⟩ hstage
    rw [h.members, Claims, hstage] at hmem
    exact not_reached rfl hmem

inductive Queued (needs : E → List (Λ × LockMode)) (L : RwLock ι K)
    (c : LockedConfig ι R α σ Λ K) (i : ι) : Λ → Prop
  | mk {e : E} {k : R e → Program R α} {n : ℕ} {l : Λ} {m : LockMode}
      (hi : c.config.threads i = some (.call e k)) (hstage : c.stage i = .waiting n)
      (hn : (needs e)[n]? = some (l, m)) (hqueue : (i, m) ∈ L.queue (c.locks l)) :
      Queued needs L c i l

theorem Consistent.goes_on (h : Consistent needs L c) (hi : Inside c i)
    (htotal : ∀ s i e, needs e ≠ [] → ∃ r s', S.answers s i e r s') :
    (∃ l, Queued needs L c i l) ∨
      ∃ label c', S.LockedStep needs L c label c' ∧ label.thread = some i := by
  obtain ⟨e, k, hcall, hle⟩ := h.called i hi
  cases hstage : c.stage i with
  | running n =>
    rw [hstage] at hle
    rcases Nat.lt_or_eq_of_le hle with hlt | heq
    · have hn : (needs e)[n]? = some (needs e)[n] := List.getElem?_eq_getElem hlt
      exact .inr ⟨.requests i, _, .requests hcall hstage hn, rfl⟩
    · have hne : needs e ≠ [] := by
        intro hnil
        apply hi
        rw [hstage, show n = 0 from heq.trans (congrArg List.length hnil)]
      obtain ⟨r, s', hs⟩ := htotal c.config.shared i e hne
      rw [show n = (needs e).length from heq] at hstage
      exact .inr ⟨.steps (.called i e r), _, .called hcall hstage hs, rfl⟩
  | waiting n =>
    rw [hstage] at hle
    have hn : (needs e)[n]? = some (needs e)[n] := List.getElem?_eq_getElem hle
    have hclaims : Claims needs c i (needs e)[n].1 (needs e)[n].2 := by
      rw [Claims, hcall, hstage, reached_iff]
      exact ⟨n, hn, Nat.lt_succ_self n⟩
    rcases (h.members _ i _).mpr hclaims with hholds | hqueue
    · exact .inr ⟨.enters i, _, .enters hcall hstage hn hholds, rfl⟩
    · exact .inl ⟨_, .mk hcall hstage hn hqueue⟩

omit [DecidableEq ι] [DecidableEq Λ] in
/-- Whoever holds a lock and stands in a queue waits for a later lock. -/
theorem Queued.lt [Preorder Λ] (hL : L.Fair) (hneeds : Ordered needs) (h : Consistent needs L c)
    {l' : Λ} (hqueued : Queued needs L c i l') (hholds : L.Holds (c.locks l) i m) : l < l' := by
  cases hqueued with
  | @mk e k n _ m' hi hstage hn hqueue =>
    have hmem : L.Member (c.locks l) i m := .inl hholds
    rw [h.members, Claims, hi, hstage, reached_iff] at hmem
    obtain ⟨n', hn', hlt⟩ := hmem
    rcases Nat.lt_succ_iff_lt_or_eq.mp hlt with hlt | rfl
    · obtain ⟨hlen, hget⟩ := List.getElem?_eq_some_iff.mp hn
      obtain ⟨hlen', hget'⟩ := List.getElem?_eq_some_iff.mp hn'
      have hless := List.pairwise_iff_getElem.mp (hneeds e) n' n hlen' hlen hlt
      rwa [hget, hget'] at hless
    · cases hn'.symm.trans hn
      exact ((hL.one_place (h.reachable l)).2 i m m hholds hqueue).elim

/-- As locks are taken in their order, of all those who have begun to take locks one can go on. -/
theorem Consistent.progress [Preorder Λ] [WellFoundedGT Λ] (hL : L.Fair) (hneeds : Ordered needs)
    (h : Consistent needs L c)
    (htotal : ∀ s i e, needs e ≠ [] → ∃ r s', S.answers s i e r s') (hi : Inside c i) :
    ∃ j label c', Inside c j ∧ S.LockedStep needs L c label c' ∧ label.thread = some j := by
  rcases h.goes_on hi htotal with ⟨l₀, hl₀⟩ | hstep
  · -- the last lock that anybody waits for is held by somebody who waits for none
    obtain ⟨l, ⟨i, hqueued⟩, hlast⟩ :=
      (wellFounded_gt (α := Λ)).has_min {l | ∃ i, Queued needs L c i l} ⟨l₀, i, hl₀⟩
    obtain ⟨j, m, hholds⟩ : ∃ j m, L.Holds (c.locks l) j m := by
      cases hqueued with
      | mk _ _ _ hqueue => exact hL.blocked _ (h.reachable l) (List.ne_nil_of_mem hqueue)
    have hj : Inside c j := h.inside_iff.mpr ⟨l, m, .inl hholds⟩
    rcases h.goes_on hj htotal with ⟨l', hl'⟩ | ⟨label, c', hs, hthread⟩
    · exact (hlast l' ⟨j, hl'⟩ (hl'.lt hL hneeds h hholds)).elim
    · exact ⟨j, label, c', hj, hs, hthread⟩
  · obtain ⟨label, c', hs, hthread⟩ := hstep
    exact ⟨i, label, c', hi, hs, hthread⟩

def todo (needs : E → List (Λ × LockMode)) (c : LockedConfig ι R α σ Λ K) (i : ι) : ℕ :=
  match c.config.threads i, c.stage i with
  | some (.call _ _), .running 0 => 0
  | some (.call e _), .running (n + 1) => 2 * ((needs e).length - (n + 1)) + 1
  | some (.call e _), .waiting n => 2 * ((needs e).length - n)
  | _, _ => 0

omit [DecidableEq ι] [DecidableEq Λ] in
theorem todo_le {b : ℕ} (hb : ∀ e, (needs e).length ≤ b) (c : LockedConfig ι R α σ Λ K) (i : ι)
    (h : Consistent needs L c) : todo needs c i ≤ 2 * b := by
  by_cases hi : c.stage i = .running 0
  · rw [todo, hi]
    split <;> first | omega | simp_all
  · obtain ⟨e, k, hcall, hle⟩ := h.called i hi
    have hlen := hb e
    rw [todo, hcall]
    cases hstage : c.stage i with
    | running n =>
      rw [hstage] at hi hle
      cases n with
      | zero => exact (hi rfl).elim
      | succ n =>
        have hle' : n + 1 ≤ (needs e).length := hle
        dsimp only
        omega
    | waiting n =>
      dsimp only
      omega

theorem LockedStep.todo_lt (h : S.LockedStep needs L c label c') (hthread : label.thread = some i)
    (hi : Inside c i) : todo needs c' i < todo needs c i := by
  cases h with
  | @requests i' e k n l m hcall hstage hn =>
    obtain rfl := Option.some.inj hthread
    have hlt : n < (needs e).length := (List.getElem?_eq_some_iff.mp hn).1
    rw [todo, todo]
    simp only [Function.update_self, hcall, hstage]
    cases n with
    | zero => exact (hi hstage).elim
    | succ n => dsimp only; omega
  | @enters i' e k n l m hcall hstage hn _ =>
    obtain rfl := Option.some.inj hthread
    have hlt : n < (needs e).length := (List.getElem?_eq_some_iff.mp hn).1
    rw [todo, todo]
    simp only [Function.update_self, hcall, hstage]
    omega
  | @called i' e k r s hcall hstage _ =>
    obtain rfl := Option.some.inj hthread
    rw [todo, todo]
    simp only [Function.update_self, hcall]
    cases hlen : (needs e).length with
    | zero =>
      rw [hlen] at hstage
      exact (hi hstage).elim
    | succ n =>
      rw [hlen] at hstage
      rw [hstage]
      cases k r <;> simp
  | others hs hl =>
    cases hs with
    | opened | happened => cases hthread
    | called => exact (hl _ _ _ rfl).elim

theorem LockedStep.of_ne (h : S.LockedStep needs L c label c') (hthread : label.thread = some i)
    (hj : j ≠ i) : c'.config.threads j = c.config.threads j ∧ c'.stage j = c.stage j := by
  cases h with
  | requests | enters =>
    obtain rfl := Option.some.inj hthread
    exact ⟨rfl, Function.update_of_ne hj _ _⟩
  | called =>
    obtain rfl := Option.some.inj hthread
    exact ⟨Function.update_of_ne hj _ _, Function.update_of_ne hj _ _⟩
  | others hs hl =>
    cases hs with
    | opened | happened => cases hthread
    | called => exact (hl _ _ _ rfl).elim

variable (S needs L) in
/-- Only threads that have begun to take locks take steps, the threads `js` one after another. -/
inductive Drains : LockedConfig ι R α σ Λ K → List ι → LockedConfig ι R α σ Λ K → Prop
  | done (c : LockedConfig ι R α σ Λ K) : Drains c [] c
  | next {c c' c'' : LockedConfig ι R α σ Λ K} {i : ι} {label : LockedLabel ι δ R β}
      {js : List ι} (hi : Inside c i) (hs : S.LockedStep needs L c label c')
      (hthread : label.thread = some i) (h : Drains c' js c'') : Drains c (i :: js) c''

variable {js : List ι} {T : Finset ι}

theorem LockedStep.inside (h : S.LockedStep needs L c label c') (hthread : label.thread = some i)
    (hi : Inside c i) (hT : ∀ j, Inside c j → j ∈ T) : ∀ j, Inside c' j → j ∈ T := by
  intro j hj
  by_cases hne : j = i
  · subst hne
    exact hT j hi
  · apply hT
    rw [Inside, (h.of_ne hthread hne).2] at hj
    exact hj

theorem LockedStep.todo_of_ne (h : S.LockedStep needs L c label c')
    (hthread : label.thread = some i) (hj : j ≠ i) : todo needs c' j = todo needs c j := by
  rw [todo, todo, (h.of_ne hthread hj).1, (h.of_ne hthread hj).2]

theorem LockedStep.sum_lt (h : S.LockedStep needs L c label c') (hthread : label.thread = some i)
    (hi : Inside c i) (hT : ∀ j, Inside c j → j ∈ T) :
    ∑ j ∈ T, todo needs c' j < ∑ j ∈ T, todo needs c j := by
  refine Finset.sum_lt_sum (fun j _ ↦ ?_) ⟨i, hT i hi, h.todo_lt hthread hi⟩
  by_cases hne : j = i
  · subst hne
    exact (h.todo_lt hthread hi).le
  · exact (h.todo_of_ne hthread hne).le

theorem Drains.count_le (h : S.Drains needs L c js c') (i : ι) :
    js.count i + todo needs c' i ≤ todo needs c i := by
  induction h with
  | done => exact (Nat.zero_add _).le
  | @next _ _ _ j _ js hj hs hthread _ ih =>
    by_cases hne : i = j
    · subst hne
      have hlt := hs.todo_lt hthread hj
      rw [List.count_cons_self]
      omega
    · rw [List.count_cons_of_ne (Ne.symm hne), ← hs.todo_of_ne hthread hne]
      exact ih

theorem Drains.consistent [Preorder Λ] (hL : L.Fair) (hneeds : Ordered needs)
    (h : S.Drains needs L c js c') (hc : Consistent needs L c) : Consistent needs L c' := by
  induction h with
  | done => exact hc
  | next _ hs _ _ ih => exact ih (hs.consistent hL hneeds hc)

theorem Consistent.drains [Preorder Λ] [WellFoundedGT Λ] (hL : L.Fair) (hneeds : Ordered needs)
    (h : Consistent needs L c) (htotal : ∀ s i e, needs e ≠ [] → ∃ r s', S.answers s i e r s')
    (hT : ∀ j, Inside c j → j ∈ T) : ∃ js c', S.Drains needs L c js c' ∧ ∀ i, ¬ Inside c' i := by
  generalize hsum : ∑ j ∈ T, todo needs c j = sum
  induction sum using Nat.strong_induction_on generalizing c with
  | _ sum ih =>
    by_cases hidle : ∃ i, Inside c i
    · obtain ⟨i, hi⟩ := hidle
      obtain ⟨j, label, c', hj, hs, hthread⟩ := h.progress hL hneeds htotal hi
      have hlt := hs.sum_lt hthread hj hT
      rw [hsum] at hlt
      obtain ⟨js, c'', hdrains, hend⟩ :=
        ih _ hlt (hs.consistent hL hneeds h) (hs.inside hthread hj hT) rfl
      exact ⟨j :: js, c'', .next hj hs hthread hdrains, hend⟩
    · exact ⟨[], c, .done c, fun i hi ↦ hidle ⟨i, hi⟩⟩

theorem LockedStep.inside_subset (h : S.LockedStep needs L c label c') :
    {j | Inside c' j} ⊆ {j | Inside c j} ∪ {j | label.thread = some j} := by
  intro j hj
  by_cases hthread : label.thread = some j
  · exact .inr hthread
  · refine .inl ?_
    have hinside : Inside c' j := hj
    change Inside c j
    cases h with
    | requests | enters | called =>
      have hne : j ≠ _ := fun heq ↦ hthread (congrArg some heq.symm)
      simpa only [Inside, Function.update_of_ne hne] using hinside
    | others => exact hinside

theorem LockedRun.finite_inside (h : S.LockedRun needs L a ls c) (ha : {j | Inside a j}.Finite) :
    {j | Inside c j}.Finite := by
  induction h with
  | nil => exact ha
  | @snoc _ _ _ l _ hs ih =>
    refine (ih.union ?_).subset hs.inside_subset
    refine Set.Subsingleton.finite fun j hj k hk ↦ ?_
    exact Option.some.inj (hj.symm.trans hk)

theorem Consistent.ahead [Preorder Λ] (hL : L.Fair) (hneeds : Ordered needs)
    (h : Consistent needs L c) (hs : S.LockedStep needs L c label c')
    (hahead : L.Ahead (c.locks l) i j m) :
    L.Holds (c'.locks l) i m ∨ L.Ahead (c'.locks l) i j m := by
  cases hs with
  | @requests k e _ n l' m' hcall hstage hn =>
    dsimp only
    by_cases hl : l = l'
    · subst hl
      rw [Function.update_self]
      exact .inr (hahead.request hL (h.reachable l) (h.fresh hneeds hcall hstage hn))
    · rw [Function.update_of_ne hl]
      exact .inr hahead
  | enters => exact .inr hahead
  | called hcall hstage _ =>
    dsimp only
    rw [releaseAll]
    split
    · next hl =>
      obtain ⟨⟨l, m'⟩, hmem, rfl⟩ := List.mem_map.mp hl
      exact hahead.release hL (h.reachable l) (h.holds_needed hcall hstage hmem)
    · exact .inr hahead
  | others => exact .inr hahead

/-- Who waits for a lock gets it before those who have not asked for it yet. -/
theorem LockedRun.no_overtaking [Preorder Λ] (hL : L.Fair) (hneeds : Ordered needs)
    (ha : Consistent needs L a) (h : S.LockedRun needs L a ls c) (hi : (i, m) ∈ L.queue (a.locks l))
    (hj : ∀ m', ¬ L.Member (a.locks l) j m') :
    (∃ b ls₁ ls₂, ls = ls₁ ++ ls₂ ∧ S.LockedRun needs L a ls₁ b ∧ S.LockedRun needs L b ls₂ c ∧
      L.Holds (b.locks l) i m) ∨ ∀ m', ¬ L.Holds (c.locks l) j m' := by
  have hahead : (∃ b ls₁ ls₂, ls = ls₁ ++ ls₂ ∧ S.LockedRun needs L a ls₁ b ∧
      S.LockedRun needs L b ls₂ c ∧ L.Holds (b.locks l) i m) ∨ L.Ahead (c.locks l) i j m := by
    induction h with
    | nil => exact .inr (RwLock.ahead_of_not_member hi hj)
    | @snoc b c ls label hrun hs ih =>
      rcases ih with ⟨b', ls₁, ls₂, rfl, hb', hrest, hholds⟩ | hahead
      · exact .inl ⟨b', ls₁, _, List.append_assoc _ _ _, hb', hrest.snoc hs, hholds⟩
      · refine ((hrun.consistent hL hneeds ha).ahead hL hneeds hs hahead).imp_left fun hholds ↦ ?_
        exact ⟨c, _, [], (List.append_nil _).symm, hrun.snoc hs, .nil, hholds⟩
  exact hahead.imp_right fun hahead m' ↦ hahead.not_holder m'

theorem LockedStep.thread_kept {e : E} {k : R e → Program R α}
    (h : S.LockedStep needs L c label c') (hi : c.config.threads i = some (.call e k))
    (hcall : ∀ r, label ≠ .steps (.called i e r)) : c'.config.threads i = some (.call e k) := by
  cases h with
  | requests | enters => exact hi
  | @called j e' k' r s hj _ _ =>
    have hne : i ≠ j := by
      rintro rfl
      rw [hi] at hj
      cases hj
      exact hcall r rfl
    dsimp only
    rw [Function.update_of_ne hne]
    exact hi
  | others hs hl =>
    cases hs with
    | @opened j d hfree =>
      have hne : i ≠ j := by
        rintro rfl
        rw [hi] at hfree
        cases hfree
      dsimp only
      rw [Function.update_of_ne hne]
      exact hi
    | called => exact (hl _ _ _ rfl).elim
    | happened => exact hi

theorem LockedRun.not_called {e : E} {k : R e → Program R α} (h : S.LockedRun needs L a ls c)
    (hi : a.config.threads i = some (.call e k)) (hcall : ∀ r, .steps (.called i e r) ∉ ls) :
    c.config.threads i = some (.call e k) ∧ ∀ e' r, .steps (.called i e' r) ∉ ls := by
  induction h with
  | nil => exact ⟨hi, fun _ _ hmem ↦ by cases hmem⟩
  | @snoc b c ls label _ hs ih =>
    obtain ⟨hthread, hnone⟩ := ih fun r hmem ↦ hcall r (List.mem_append_left _ hmem)
    have hlabel : ∀ r, label ≠ .steps (.called i e r) := by
      rintro r rfl
      exact hcall r (List.mem_append_right _ List.mem_cons_self)
    refine ⟨hs.thread_kept hthread hlabel, fun e' r hmem ↦ ?_⟩
    rcases List.mem_append.mp hmem with hmem | hmem
    · exact hnone e' r hmem
    · obtain rfl := List.mem_singleton.mp hmem
      cases hs with
      | called hcalled _ _ =>
        rw [hthread] at hcalled
        cases hcalled
        exact hlabel r rfl
      | others _ hl => exact hl _ _ _ rfl

theorem Consistent.isolated [Preorder Λ] {γ : Type} {view : σ → γ} (hL : L.Fair)
    (hneeds : Ordered needs)
    (hwrites : ∀ s i e r s', S.answers s i e r s' → (l, .write) ∉ needs e → view s' = view s)
    (hopens : ∀ s i d, view (S.opens s i d) = view s)
    (hbackground : ∀ s b s', S.background s b s' → view s' = view s) (h : Consistent needs L c)
    (hs : S.LockedStep needs L c label c') (hholds : L.Holds (c.locks l) i m)
    (hother : ∀ e r, label ≠ .steps (.called i e r)) :
    view c'.config.shared = view c.config.shared ∧ L.Holds (c'.locks l) i m := by
  cases hs with
  | @requests j e k n l' m' hcall hstage hn =>
    refine ⟨rfl, ?_⟩
    dsimp only
    by_cases hl : l = l'
    · subst hl
      rw [Function.update_self]
      exact hL.holds_request (h.reachable l) (h.fresh hneeds hcall hstage hn) hholds
    · rwa [Function.update_of_ne hl]
  | enters => exact ⟨rfl, hholds⟩
  | @called j e k r s hcall hstage hs =>
    have hne : i ≠ j := by
      rintro rfl
      exact hother e r rfl
    refine ⟨hwrites _ _ _ _ _ hs fun hmem ↦ ?_, ?_⟩
    · have hwriter := h.holds_needed hcall hstage hmem
      exact hne (hL.exclusive _ _ _ _ (h.reachable l) hwriter hholds)
    · dsimp only
      rw [releaseAll]
      split
      · next hl =>
        obtain ⟨⟨l, m'⟩, hmem, rfl⟩ := List.mem_map.mp hl
        exact hL.holds_release (h.reachable l) (h.holds_needed hcall hstage hmem) hholds hne
      · exact hholds
  | others hs hl =>
    refine ⟨?_, hholds⟩
    cases hs with
    | opened => exact hopens _ _ _
    | called => exact (hl _ _ _ rfl).elim
    | happened hs => exact hbackground _ _ _ hs

/-- What a lock guards stays as it is for a thread that holds the lock, until its call. -/
theorem LockedRun.isolated [Preorder Λ] {γ : Type} {view : σ → γ} (hL : L.Fair)
    (hneeds : Ordered needs)
    (hwrites : ∀ s i e r s', S.answers s i e r s' → (l, .write) ∉ needs e → view s' = view s)
    (hopens : ∀ s i d, view (S.opens s i d) = view s)
    (hbackground : ∀ s b s', S.background s b s' → view s' = view s) (ha : Consistent needs L a)
    (h : S.LockedRun needs L a ls c) (hholds : L.Holds (a.locks l) i m)
    (hother : ∀ e r, .steps (.called i e r) ∉ ls) :
    view c.config.shared = view a.config.shared ∧ L.Holds (c.locks l) i m := by
  induction h with
  | nil => exact ⟨rfl, hholds⟩
  | snoc hrun hs ih =>
    obtain ⟨hview, hholds'⟩ := ih fun e r hmem ↦ hother e r (List.mem_append_left _ hmem)
    obtain ⟨hview', hholds''⟩ := (hrun.consistent hL hneeds ha).isolated hL hneeds hwrites hopens
      hbackground hs hholds' fun e r heq ↦ hother e r (by simp [heq])
    exact ⟨hview'.trans hview, hholds''⟩

theorem LockedRun.writes_first [Preorder Λ] (hL : L.Fair) (hneeds : Ordered needs)
    (ha : Consistent needs L a)
    {e e' : E} {k : R e → Program R α} {r' : R e'} {ms : List (LockedLabel ι δ R β)}
    (h : S.LockedRun needs L a (ls ++ .steps (.called j e' r') :: ms) c)
    (hcall : a.config.threads i = some (.call e k)) (hi : (i, .write) ∈ L.queue (a.locks l))
    (hj : ∀ m, ¬ L.Member (a.locks l) j m) (he' : (l, m) ∈ needs e') :
    ∃ r, .steps (.called i e r) ∈ ls := by
  by_contra hnone
  obtain ⟨b, b', hb, hs, -⟩ := h.split_at
  have hconsistent := hb.consistent hL hneeds ha
  have hother := (hb.not_called hcall fun r hmem ↦ hnone ⟨r, hmem⟩).2
  have hholds : L.Holds (b.locks l) j m := by
    cases hs with
    | called hthread hstage _ => exact hconsistent.holds_needed hthread hstage he'
    | others _ hl => exact (hl _ _ _ rfl).elim
  rcases hb.no_overtaking hL hneeds ha hi hj with ⟨d, ls₁, ls₂, rfl, hd, hrest, hwriter⟩ | hnever
  · -- the writer keeps the lock, so the other one cannot have it
    have hwriter' := (hrest.isolated hL hneeds (fun _ _ _ _ _ _ _ ↦ Eq.refl ()) (fun _ _ _ ↦ rfl)
      (fun _ _ _ _ ↦ rfl) (hd.consistent hL hneeds ha) hwriter fun e r hmem ↦
        hother e r (List.mem_append_right _ hmem)).2
    obtain rfl := hL.exclusive _ _ _ _ (hconsistent.reachable l) hwriter' hholds
    exact hj .write (.inr hi)
  · exact hnever m hholds

end Consistent

end System

end Foundation
