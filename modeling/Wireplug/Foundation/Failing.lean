import Wireplug.Foundation.Program

namespace Foundation.Program

section Failing

variable {E ε α β γ : Type} {R : E → Type} {assumes : Trace R → (e : E) → R e → Prop}
  {cause : Event R → Bool} {F : ε → Prop} {P : α → Prop} {Q : β → Prop}

/-- The program fails at once when a call is answered in the way of `cause`, and otherwise at
most with a failure in `F`. -/
def FailsOn (assumes : Trace R → (e : E) → R e → Prop) (cause : Event R → Bool) (F : ε → Prop)
    (Q : α → Prop) (x : ExceptT ε (Program R) α) : Prop :=
  ∀ t, ¬ EndsIn cause t → x.run.Ensures assumes (fun u _ ↦ ¬ EndsIn cause u)
    (fun r u ↦ Ends (fun a ↦ Q a ∧ ¬ EndsIn cause u) (fun e ↦ EndsIn cause u ∨ F e) r) t

theorem FailsOn.try {x : ExceptT ε (Program R) α} {f : α → ExceptT ε (Program R) β}
    (hx : FailsOn assumes cause F P x) (hf : ∀ a, P a → FailsOn assumes cause F Q (f a)) :
    FailsOn assumes cause F Q (x >>= f) := by
  intro t ht
  refine (ensures_try x f t).mpr ((hx t ht).mono fun r u hr ↦ ?_)
  cases r with
  | error e => exact hr
  | ok a => exact hf a hr.1 u hr.2

end Failing

end Foundation.Program
