import Wireplug.Foundation.Interleaving

namespace Foundation

namespace Program

variable {E : Type} {R : E → Type} {α β : Type}

/-- Two programs call in step, with calls in `C` as long as the answers are in
`A`, and end together with results in `Q`. -/
def Related (C : E → E → Prop) (A : Event R → Event R → Prop) (Q : α → β → Prop) :
    Program R α → Program R β → Prop
  | .done a, .done b => Q a b
  | .call e k, .call e' k' =>
    C e e' ∧ ∀ r r', A ⟨e, r⟩ ⟨e', r'⟩ → (k r).Related C A Q (k' r')
  | .done _, .call _ _ => False
  | .call _ _, .done _ => False

variable {C : E → E → Prop} {A : Event R → Event R → Prop} {Q : α → β → Prop}

theorem Related.call {e e' : E} {k : R e → Program R α} {k' : R e' → Program R β}
    (he : C e e') (hk : ∀ r r', A ⟨e, r⟩ ⟨e', r'⟩ → (k r).Related C A Q (k' r')) :
    (Program.call e k).Related C A Q (.call e' k') := ⟨he, hk⟩

/-- Whatever it is answered, the program calls nothing outside `P` before its
rest is in `T`. -/
def Leads (P : E → Prop) (T : Program R α → Prop) : Program R α → Prop
  | .done a => T (.done a)
  | .call e k => T (.call e k) ∨ P e ∧ ∀ r, (k r).Leads P T

variable {P : E → Prop} {T : Program R α → Prop}

theorem Leads.here {p : Program R α} (h : T p) : p.Leads P T := by
  cases p with
  | done a => exact h
  | call e k => exact .inl h

theorem Only.leads {p : Program R β} {F : β → Prop} (h : p.Only P F) {f : β → Program R α}
    (hf : ∀ b, F b → (f b).Leads P T) : (p >>= f).Leads P T := by
  induction p with
  | done b => exact hf b h
  | call e k ih => exact .inr ⟨h.1, fun r ↦ ih r (h.2 r)⟩

end Program

/-- Two schedules of steps that go in pairs, but for steps in `free` that are
taken on one side only. -/
inductive Twins {L : Type} (free : L → Prop) (pair : L → L → Prop) : List L → List L → Prop
  | nil : Twins free pair [] []
  | left {ls ls' : List L} {l : L} :
      Twins free pair ls ls' → free l → Twins free pair (ls ++ [l]) ls'
  | right {ls ls' : List L} {l : L} :
      Twins free pair ls ls' → free l → Twins free pair ls (ls' ++ [l])
  | both {ls ls' : List L} {l l' : L} :
      Twins free pair ls ls' → pair l l' → Twins free pair (ls ++ [l]) (ls' ++ [l'])

namespace Twins

variable {L : Type} {free : L → Prop} {pair pair' : L → L → Prop} {ls ls' : List L}

theorem append (h : Twins free pair ls ls') (ms : List L) (hms : ∀ l ∈ ms, pair l l) :
    Twins free pair (ls ++ ms) (ls' ++ ms) := by
  induction ms using List.reverseRecOn with
  | nil => rwa [List.append_nil, List.append_nil]
  | append_singleton ms l ih =>
    rw [← List.append_assoc, ← List.append_assoc]
    exact .both (ih fun l' hl' ↦ hms l' (List.mem_append_left _ hl'))
      (hms l (List.mem_append_right _ (List.mem_singleton_self l)))

theorem right_append (h : Twins free pair ls ls') (ms : List L) (hms : ∀ l ∈ ms, free l) :
    Twins free pair ls (ls' ++ ms) := by
  induction ms using List.reverseRecOn with
  | nil => rwa [List.append_nil]
  | append_singleton ms l ih =>
    rw [← List.append_assoc]
    exact .right (ih fun l' hl' ↦ hms l' (List.mem_append_left _ hl'))
      (hms l (List.mem_append_right _ (List.mem_singleton_self l)))

theorem mono (h : Twins free pair ls ls') (hpair : ∀ l ∈ ls, ∀ l', pair l l' → pair' l l') :
    Twins free pair' ls ls' := by
  induction h with
  | nil => exact .nil
  | left _ hl ih => exact .left (ih fun l hmem ↦ hpair l (List.mem_append_left _ hmem)) hl
  | right _ hl ih => exact .right (ih hpair) hl
  | both _ hl ih =>
    exact .both (ih fun l hmem ↦ hpair l (List.mem_append_left _ hmem))
      (hpair _ (List.mem_append_right _ (List.mem_singleton_self _)) _ hl)

theorem of_mem_left (h : Twins free pair ls ls') {l : L} (hl : l ∈ ls) :
    free l ∨ ∃ l', pair l l' := by
  induction h with
  | nil => cases hl
  | left _ hfree ih =>
    rcases List.mem_append.mp hl with hl | hl
    · exact ih hl
    · exact .inl (List.mem_singleton.mp hl ▸ hfree)
  | right _ _ ih => exact ih hl
  | both _ hpair ih =>
    rcases List.mem_append.mp hl with hl | hl
    · exact ih hl
    · exact .inr ⟨_, List.mem_singleton.mp hl ▸ hpair⟩

theorem of_mem_right (h : Twins free pair ls ls') {l : L} (hl : l ∈ ls') :
    free l ∨ ∃ l', pair l' l := by
  induction h with
  | nil => cases hl
  | left _ _ ih => exact ih hl
  | right _ hfree ih =>
    rcases List.mem_append.mp hl with hl | hl
    · exact ih hl
    · exact .inl (List.mem_singleton.mp hl ▸ hfree)
  | both _ hpair ih =>
    rcases List.mem_append.mp hl with hl | hl
    · exact ih hl
    · exact .inr ⟨_, List.mem_singleton.mp hl ▸ hpair⟩

section Runs

variable {ι δ E α σ β : Type} {R : E → Type} [DecidableEq ι] {S : System ι δ R α σ β}
  {a a' : Config ι R α σ} {free : Label ι δ R β → Prop} {pair : Label ι δ R β → Label ι δ R β → Prop}
  {I : List (Label ι δ R β) → Config ι R α σ → List (Label ι δ R β) → Config ι R α σ → Prop}

/-- The unwinding rule: a relation between two runs holds at their ends if a
step on one side, and a pair of steps, preserve it. -/
theorem unwind (hstart : I [] a [] a')
    (hleft : ∀ ls b l c ls' b', Twins free pair ls ls' → S.Run a ls b → S.Run a' ls' b' →
      I ls b ls' b' → free l → S.Step b l c → I (ls ++ [l]) c ls' b')
    (hright : ∀ ls b ls' b' l' c', Twins free pair ls ls' → S.Run a ls b → S.Run a' ls' b' →
      I ls b ls' b' → free l' → S.Step b' l' c' → I ls b (ls' ++ [l']) c')
    (hboth : ∀ ls b l c ls' b' l' c', Twins free pair ls ls' → S.Run a ls b → S.Run a' ls' b' →
      I ls b ls' b' → pair l l' → S.Step b l c → S.Step b' l' c' →
      I (ls ++ [l]) c (ls' ++ [l']) c')
    {ls ls' : List (Label ι δ R β)} {c c' : Config ι R α σ} (h : Twins free pair ls ls')
    (hrun : S.Run a ls c) (hrun' : S.Run a' ls' c') : I ls c ls' c' := by
  induction h generalizing c c' with
  | nil =>
    cases hrun.nil_eq
    cases hrun'.nil_eq
    exact hstart
  | left h hfree ih =>
    obtain ⟨b, hb, hs⟩ := hrun.last
    exact hleft _ _ _ _ _ _ h hb hrun' (ih hb hrun') hfree hs
  | right h hfree ih =>
    obtain ⟨b', hb', hs⟩ := hrun'.last
    exact hright _ _ _ _ _ _ h hrun hb' (ih hrun hb') hfree hs
  | both h hpair ih =>
    obtain ⟨b, hb, hs⟩ := hrun.last
    obtain ⟨b', hb', hs'⟩ := hrun'.last
    exact hboth _ _ _ _ _ _ _ _ h hb hb' (ih hb hb') hpair hs hs'

end Runs

end Twins

end Foundation
