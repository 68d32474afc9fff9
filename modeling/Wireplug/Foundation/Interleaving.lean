import Mathlib.Data.List.Induction
import Mathlib.Logic.Function.Basic
import Wireplug.Foundation.Program

namespace Foundation

/-- Threads of one program over shared state. A thread runs between two of its
calls without interruption; at a call any other thread may go first. `δ` is what
a thread is started with, `β` names what happens outside all threads. -/
structure System (ι δ : Type) {E : Type} (R : E → Type) (α σ β : Type) where
  program : δ → Program R α
  opens : σ → ι → δ → σ
  answers : σ → ι → (e : E) → R e → σ → Prop
  background : σ → β → σ → Prop

structure Config (ι : Type) {E : Type} (R : E → Type) (α σ : Type) where
  shared : σ
  threads : ι → Option (Program R α)

inductive Label (ι δ : Type) {E : Type} (R : E → Type) (β : Type) where
  | opened (i : ι) (d : δ)
  | called (i : ι) (e : E) (r : R e)
  | happened (b : β)

namespace System

variable {ι δ E α σ β : Type} {R : E → Type} [DecidableEq ι] (S : System ι δ R α σ β)

inductive Step : Config ι R α σ → Label ι δ R β → Config ι R α σ → Prop
  | opened {c : Config ι R α σ} {i : ι} (d : δ) (hfree : c.threads i = none) :
      Step c (.opened i d)
        ⟨S.opens c.shared i d, Function.update c.threads i (some (S.program d))⟩
  | called {c : Config ι R α σ} {i : ι} {e : E} {k : R e → Program R α} {r : R e} {s : σ}
      (hi : c.threads i = some (.call e k)) (hs : S.answers c.shared i e r s) :
      Step c (.called i e r) ⟨s, Function.update c.threads i (some (k r))⟩
  | happened {c : Config ι R α σ} {b : β} {s : σ} (hs : S.background c.shared b s) :
      Step c (.happened b) ⟨s, c.threads⟩

inductive Run (a : Config ι R α σ) : List (Label ι δ R β) → Config ι R α σ → Prop
  | nil : Run a [] a
  | snoc {b c : Config ι R α σ} {ls : List (Label ι δ R β)} {l : Label ι δ R β} :
      Run a ls b → Step S b l c → Run a (ls ++ [l]) c

variable {S} {a b c : Config ι R α σ} {ls ms : List (Label ι δ R β)} {l : Label ι δ R β}

theorem Run.one (h : S.Step a l b) : S.Run a [l] b := .snoc .nil h

theorem Run.nil_eq (h : S.Run a [] b) : b = a := by
  generalize hl : ([] : List (Label ι δ R β)) = l at h
  cases h with
  | nil => rfl
  | snoc => simp at hl

theorem Run.trans (h : S.Run a ls b) (h' : S.Run b ms c) : S.Run a (ls ++ ms) c := by
  induction h' with
  | nil => simpa only [List.append_nil] using h
  | snoc _ hs ih => rw [← List.append_assoc]; exact .snoc ih hs

theorem Run.last (h : S.Run a (ls ++ [l]) c) : ∃ b, S.Run a ls b ∧ S.Step b l c := by
  generalize hl : ls ++ [l] = ls' at h
  cases h with
  | nil => simp at hl
  | snoc h hs =>
    obtain ⟨rfl, heq⟩ := List.append_inj' hl rfl
    cases heq
    exact ⟨_, h, hs⟩

theorem Run.split (h : S.Run a (ls ++ ms) c) : ∃ b, S.Run a ls b ∧ S.Run b ms c := by
  induction ms using List.reverseRecOn generalizing c with
  | nil => exact ⟨c, by simpa only [List.append_nil] using h, .nil⟩
  | append_singleton ms m ih =>
    rw [← List.append_assoc] at h
    obtain ⟨c', h, hs⟩ := h.last
    obtain ⟨b, hab, hbc⟩ := ih h
    exact ⟨b, hab, .snoc hbc hs⟩

theorem Run.split_at (h : S.Run a (ls ++ l :: ms) c) :
    ∃ b b', S.Run a ls b ∧ S.Step b l b' ∧ S.Run b' ms c := by
  rw [List.append_cons] at h
  obtain ⟨b', hb', hc⟩ := h.split
  obtain ⟨b, hb, hs⟩ := hb'.last
  exact ⟨b, b', hb, hs, hc⟩

variable (S) in
/-- The calls of one thread, with the shared state before and after. -/
inductive Moves (i : ι) : σ → Trace R → σ → Prop
  | nil (s : σ) : Moves i s [] s
  | cons {s s' s'' : σ} {e : E} {r : R e} {t : Trace R} :
      S.answers s i e r s' → Moves i s' t s'' → Moves i s (⟨e, r⟩ :: t) s''

omit [DecidableEq ι] in
theorem Moves.still {i : ι} {s : σ} {t : Trace R} (h : ∀ ev ∈ t, S.answers s i ev.1 ev.2 s) :
    S.Moves i s t s := by
  induction t with
  | nil => exact .nil s
  | cons ev t ih =>
    exact .cons (h ev List.mem_cons_self) (ih fun ev' hev' ↦ h ev' (List.mem_cons_of_mem _ hev'))

omit [DecidableEq ι] in
theorem Moves.trans {i : ι} {s s' s'' : σ} {t u : Trace R} (h : S.Moves i s t s')
    (h' : S.Moves i s' u s'') : S.Moves i s (t ++ u) s'' := by
  induction h with
  | nil => exact h'
  | cons hs _ ih => exact .cons hs (ih h')

/-- While nobody else moves, a thread goes along any path of its program. -/
theorem Run.along {i : ι} {p q : Program R α} {t : Trace R} (hpath : p.Path t q) {s s' : σ}
    (hmoves : S.Moves i s t s') (threads : ι → Option (Program R α)) :
    S.Run ⟨s, Function.update threads i (some p)⟩ (t.map fun ev ↦ .called i ev.1 ev.2)
      ⟨s', Function.update threads i (some q)⟩ := by
  induction hpath generalizing s with
  | nil p =>
    cases hmoves
    exact .nil
  | @cons e k r t q _ ih =>
    cases hmoves with
    | @cons _ s₁ _ _ _ _ hs hmoves =>
      have hstep : S.Step ⟨s, Function.update threads i (some (.call e k))⟩ (.called i e r)
          ⟨s₁, Function.update (Function.update threads i (some (.call e k))) i (some (k r))⟩ :=
        .called (Function.update_self i _ _) hs
      rw [Function.update_idem] at hstep
      exact (Run.one hstep).trans (ih hmoves)

theorem Run.solo {i : ι} {p q : Program R α} {t : Trace R} (hi : c.threads i = some p)
    (hpath : p.Path t q) (ht : ∀ ev ∈ t, S.answers c.shared i ev.1 ev.2 c.shared) :
    S.Run c (t.map fun ev ↦ .called i ev.1 ev.2)
      ⟨c.shared, Function.update c.threads i (some q)⟩ := by
  have h := Run.along hpath (Moves.still ht) c.threads
  rwa [Function.update_eq_self_iff.mpr hi.symm] at h

def calls (i : ι) (ls : List (Label ι δ R β)) : Trace R :=
  ls.filterMap fun
    | .called j e r => if j = i then some ⟨e, r⟩ else none
    | _ => none

theorem calls_append (i : ι) (ls ms : List (Label ι δ R β)) :
    calls i (ls ++ ms) = calls i ls ++ calls i ms := List.filterMap_append

theorem calls_self (i : ι) (e : E) (r : R e) :
    calls i [(.called i e r : Label ι δ R β)] = [⟨e, r⟩] := by
  simp [calls]

theorem calls_other {i j : ι} (h : j ≠ i) (e : E) (r : R e) :
    calls i [(.called j e r : Label ι δ R β)] = [] := by
  simp [calls, h]

theorem calls_map_self (i : ι) (t : Trace R) :
    calls i (t.map fun ev ↦ (.called i ev.1 ev.2 : Label ι δ R β)) = t := by
  induction t with
  | nil => rfl
  | cons ev t ih =>
    rw [List.map_cons, ← List.singleton_append, calls_append, calls_self, ih]
    rfl

theorem mem_calls {i : ι} {e : E} {r : R e} :
    ⟨e, r⟩ ∈ calls i ls ↔ .called i e r ∈ ls := by
  simp only [calls, List.mem_filterMap]
  constructor
  · intro h
    obtain ⟨l, hl, h⟩ := h
    cases l with
    | called j e' r' =>
      by_cases hj : j = i
      · subst hj
        simp only [if_true, Option.some.injEq] at h
        cases h
        exact hl
      · simp [hj] at h
    | opened j d | happened b => simp at h
  · intro h
    exact ⟨_, h, by simp⟩

theorem calls_eq_append_cons {i : ι} {e : E} {r : R e} {t u : Trace R}
    (h : calls i ls = t ++ ⟨e, r⟩ :: u) :
    ∃ before after, ls = before ++ .called i e r :: after ∧ calls i before = t := by
  obtain ⟨before, rest, rfl, hbefore, hrest⟩ := List.filterMap_eq_append_iff.mp h
  obtain ⟨skipped, l, after, rfl, hskipped, hl, -⟩ := List.filterMap_eq_cons_iff.mp hrest
  have hcalls : calls i (before ++ skipped) = t := by
    rw [calls_append, show calls i skipped = [] from List.filterMap_eq_nil_iff.mpr hskipped,
      List.append_nil]
    exact hbefore
  refine ⟨before ++ skipped, after, ?_, hcalls⟩
  cases l with
  | called j e' r' =>
    by_cases hj : j = i
    · subst hj
      simp only [if_true, Option.some.injEq] at hl
      cases hl
      rw [List.append_assoc]
    · simp [hj] at hl
  | opened j d | happened b => cases hl

variable (assumes : δ → Trace R → (e : E) → R e → Prop) (requires : δ → Trace R → E → Prop)
  (post : δ → α → Trace R → Prop)

def Verified (i : ι) (ls : List (Label ι δ R β)) : Option (Program R α) → Prop
  | none => calls i ls = [] ∧ ∀ d, .opened i d ∉ ls
  | some p => ∃ d, (∀ d', .opened i d' ∈ ls ↔ d' = d) ∧
      p.Ensures (assumes d) (requires d) (post d) (calls i ls)

variable {assumes requires post}

theorem Verified.weaken {i : ι} {o : Option (Program R α)} (hl : calls i [l] = [])
    (hd : ∀ d, l ≠ .opened i d) (h : Verified assumes requires post i ls o) :
    Verified assumes requires post i (ls ++ [l]) o := by
  have hcalls : calls i (ls ++ [l]) = calls i ls := by
    rw [calls_append, hl, List.append_nil]
  have hopened : ∀ d, .opened i d ∈ ls ++ [l] ↔ .opened i d ∈ ls := by
    intro d
    rw [List.mem_append, List.mem_singleton, or_iff_left (Ne.symm (hd d))]
  cases o with
  | none => exact ⟨hcalls.trans h.1, fun d hmem ↦ h.2 d ((hopened d).mp hmem)⟩
  | some p =>
    obtain ⟨d, hd, he⟩ := h
    exact ⟨d, fun d' ↦ (hopened d').trans (hd d'), by rwa [hcalls]⟩

/-- A property of one thread alone holds in every interleaving, whatever the
other threads do. -/
theorem Run.verified (hthreads : ∀ i, a.threads i = none)
    (hstart : ∀ d, (S.program d).Ensures (assumes d) (requires d) (post d) [])
    (hanswers : ∀ s i e r s', S.answers s i e r s' → ∀ d t, assumes d t e r)
    (h : S.Run a ls c) (i : ι) : Verified assumes requires post i ls (c.threads i) := by
  induction h with
  | nil => rw [hthreads]; exact ⟨rfl, fun d ↦ List.not_mem_nil⟩
  | @snoc b c ls l _ hs ih =>
    -- only a step of thread `i` itself touches what it has called or has left to do
    cases hs with
    | @opened j d hfree =>
      by_cases hj : i = j
      · subst hj
        rw [hfree] at ih
        obtain ⟨hcalls, hopened⟩ := ih
        dsimp only
        rw [Function.update_self]
        refine ⟨d, fun d' ↦ ?_, ?_⟩
        · rw [List.mem_append, List.mem_singleton, or_iff_right (hopened d'), Label.opened.injEq]
          exact and_iff_right rfl
        · rw [calls_append, hcalls]
          exact hstart d
      · dsimp only
        rw [Function.update_of_ne hj]
        exact ih.weaken rfl fun d' heq ↦ hj (Label.opened.inj heq).1.symm
    | @called j e k r s' hi ha =>
      dsimp only
      by_cases hj : j = i
      · subst hj
        rw [hi] at ih
        rw [Function.update_self]
        obtain ⟨d, hd, he⟩ := ih
        refine ⟨d, fun d' ↦ ?_, ?_⟩
        · rw [List.mem_append, List.mem_singleton, or_iff_left (by simp), hd]
        · rw [calls_append, calls_self]
          exact he.2 r (hanswers _ _ _ _ _ ha d _)
      · rw [Function.update_of_ne (Ne.symm hj)]
        exact ih.weaken (calls_other hj e r) fun d' ↦ by simp
    | happened _ => exact ih.weaken rfl fun d' ↦ by simp

theorem Run.requires_called (hthreads : ∀ i, a.threads i = none)
    (hstart : ∀ d, (S.program d).Ensures (assumes d) (requires d) (post d) [])
    (hanswers : ∀ s i e r s', S.answers s i e r s' → ∀ d t, assumes d t e r)
    {i : ι} {e : E} {r : R e} (h : S.Run a (ls ++ .called i e r :: ms) c) :
    ∃ d, .opened i d ∈ ls ∧ requires d (calls i ls) e := by
  obtain ⟨b, b', hb, hs, _⟩ := h.split_at
  cases hs with
  | called hi ha =>
    have hv := hb.verified hthreads hstart hanswers i
    rw [hi] at hv
    obtain ⟨d, hd, he⟩ := hv
    exact ⟨d, (hd d).mpr rfl, he.1⟩

variable (S) in
def Started (a : Config ι R α σ) (ls : List (Label ι δ R β)) (i : ι) (p : Program R α) : Prop :=
  a.threads i = some p ∨ a.threads i = none ∧ ∃ d, .opened i d ∈ ls ∧ p = S.program d

omit [DecidableEq ι] in
theorem Started.left {i : ι} {p : Program R α} (h : S.Started a ls i p) :
    S.Started a (ls ++ ms) i p :=
  h.imp id fun ⟨hnone, d, hd, hp⟩ ↦ ⟨hnone, d, List.mem_append_left _ hd, hp⟩

/-- Every thread goes along a path of the program that it was started with. -/
theorem Run.path (h : S.Run a ls c) (i : ι) :
    (c.threads i = none ∧ a.threads i = none ∧ calls i ls = []) ∨
      ∃ p q, c.threads i = some q ∧ p.Path (calls i ls) q ∧ S.Started a ls i p := by
  induction h with
  | nil =>
    cases hi : a.threads i with
    | none => exact .inl ⟨rfl, rfl, rfl⟩
    | some p => exact .inr ⟨p, p, rfl, .nil p, .inl hi⟩
  | @snoc b c ls l _ hs ih =>
    have hstill (hl : calls i [l] = []) {o : Option (Program R α)} (hi : o = b.threads i) :
        (o = none ∧ a.threads i = none ∧ calls i (ls ++ [l]) = []) ∨
          ∃ p q, o = some q ∧ p.Path (calls i (ls ++ [l])) q ∧ S.Started a (ls ++ [l]) i p := by
      rw [calls_append, hl, List.append_nil, hi]
      refine ih.imp id fun hpath ↦ ?_
      obtain ⟨p, q, hq, hpath, hstart⟩ := hpath
      exact ⟨p, q, hq, hpath, hstart.left⟩
    cases hs with
    | @opened j d hfree =>
      by_cases hj : i = j
      · subst hj
        rcases ih with ⟨-, hnone, hcalls⟩ | ⟨p, q, hq, -⟩
        · refine .inr ⟨_, _, Function.update_self i _ _, ?_, .inr ⟨hnone, d, by simp, rfl⟩⟩
          rw [calls_append, hcalls]
          exact .nil _
        · rw [hfree] at hq
          cases hq
      · exact hstill rfl (Function.update_of_ne hj _ _)
    | @called j e k r s' hi _ =>
      by_cases hj : i = j
      · subst hj
        rcases ih with ⟨hnone, -⟩ | ⟨p, q, hq, hpath, hstart⟩
        · rw [hi] at hnone
          cases hnone
        · rw [hi] at hq
          cases hq
          refine .inr ⟨p, k r, Function.update_self i _ _, ?_, hstart.left⟩
          rw [calls_append, calls_self]
          exact hpath.trans (.cons (.nil _))
      · exact hstill (calls_other (Ne.symm hj) e r) (Function.update_of_ne hj _ _)
    | happened _ => exact hstill rfl rfl

theorem Run.result (hthreads : ∀ i, a.threads i = none) {i : ι} {d : δ} {x : α}
    (h : S.Run a ls c) (hopened : .opened i d ∈ ls)
    (hpath : (S.program d).Path (calls i ls) (.done x)) : c.threads i = some (.done x) := by
  have hverified := h.verified hthreads (fun d ↦ (Program.Path.nil (S.program d)).ensures)
    (fun _ _ _ _ _ _ _ _ ↦ trivial) i
  cases hthread : c.threads i with
  | none =>
    rw [hthread] at hverified
    exact (hverified.2 d hopened).elim
  | some p =>
    rw [hthread] at hverified
    obtain ⟨d', huniq, hensures⟩ := hverified
    obtain rfl := (huniq d).mp hopened
    cases p with
    | done y =>
      have hpath' : (S.program d).Path (calls i ls) (.done y) := hensures
      rw [hpath'.unique hpath]
    | call e k =>
      obtain ⟨k', hpath'⟩ := hensures.1
      cases hpath'.unique hpath

end System

end Foundation
