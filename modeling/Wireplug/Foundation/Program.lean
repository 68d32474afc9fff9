import Mathlib.Data.List.Basic

namespace Foundation

/-- A sequential program that talks to its surroundings: each call names an
effect, and the rest of the program depends on the answer. -/
inductive Program {E : Type} (R : E → Type) (α : Type) where
  | done (a : α)
  | call (e : E) (k : R e → Program R α)

abbrev Event {E : Type} (R : E → Type) := (e : E) × R e

abbrev Trace {E : Type} (R : E → Type) := List (Event R)

namespace Program

variable {E : Type} {R : E → Type} {α β ε : Type}

protected def bind : Program R α → (α → Program R β) → Program R β
  | .done a, f => f a
  | .call e k, f => .call e fun r ↦ (k r).bind f

instance : Monad (Program R) where
  pure := .done
  bind := Program.bind

instance : LawfulMonad (Program R) := by
  refine .mk' (Program R) (fun p ↦ ?_) (fun _ _ ↦ rfl) fun p f g ↦ ?_
  · induction p with
    | done a => rfl
    | call e k ih => exact congrArg (call e) (funext ih)
  · induction p with
    | done a => rfl
    | call e k ih => exact congrArg (call e) (funext ih)

@[simp] theorem call_bind (e : E) (k : R e → Program R α) (f : α → Program R β) :
    (.call e k >>= f) = .call e fun r ↦ k r >>= f := rfl

variable (assumes : Trace R → (e : E) → R e → Prop) (requires : Trace R → E → Prop)

/-- Started after the trace `t`, the program only makes calls that meet
`requires`, as long as every answer meets `assumes`, and it ends in `post`. -/
def Ensures (post : α → Trace R → Prop) : Program R α → Trace R → Prop
  | .done a, t => post a t
  | .call e k, t =>
    requires t e ∧ ∀ r, assumes t e r → (k r).Ensures post (t ++ [⟨e, r⟩])

variable {assumes requires} {post post' : α → Trace R → Prop}

@[simp] theorem ensures_call (e : E) (k : R e → Program R α) (t : Trace R) :
    (call e k).Ensures assumes requires post t ↔
      requires t e ∧ ∀ r, assumes t e r → (k r).Ensures assumes requires post (t ++ [⟨e, r⟩]) :=
  Iff.rfl

theorem Ensures.call {e : E} {k : R e → Program R α} {t : Trace R} (he : requires t e)
    (hk : ∀ r, assumes t e r → (k r).Ensures assumes requires post (t ++ [⟨e, r⟩])) :
    (call e k).Ensures assumes requires post t := ⟨he, hk⟩

theorem Ensures.mono {p : Program R α} {t : Trace R} (h : p.Ensures assumes requires post t)
    (hpost : ∀ a u, post a u → post' a u) : p.Ensures assumes requires post' t := by
  induction p generalizing t with
  | done a => exact hpost a t h
  | call e k ih => exact ⟨h.1, fun r hr ↦ ih r (h.2 r hr)⟩

theorem Ensures.and {requires' : Trace R → E → Prop} {p : Program R α} {t : Trace R}
    (h : p.Ensures assumes requires post t) (h' : p.Ensures assumes requires' post' t) :
    p.Ensures assumes requires' (fun a u ↦ post a u ∧ post' a u) t := by
  induction p generalizing t with
  | done a => exact ⟨h, h'⟩
  | call e k ih => exact ⟨h'.1, fun r hr ↦ ih r (h.2 r hr) (h'.2 r hr)⟩

theorem ensures_bind (p : Program R α) (f : α → Program R β) {post : β → Trace R → Prop}
    (t : Trace R) : (p >>= f).Ensures assumes requires post t ↔
      p.Ensures assumes requires (fun a u ↦ (f a).Ensures assumes requires post u) t := by
  induction p generalizing t with
  | done a => rfl
  | call e k ih => simp only [call_bind, ensures_call, ih]

theorem ensures_try (x : ExceptT ε (Program R) α) (f : α → ExceptT ε (Program R) β)
    {post : Except ε β → Trace R → Prop} (t : Trace R) :
    (x >>= f).run.Ensures assumes requires post t ↔
      x.run.Ensures assumes requires (fun r u ↦ match r with
        | .ok a => (f a).run.Ensures assumes requires post u
        | .error e => post (.error e) u) t := by
  refine (ensures_bind x.run (ExceptT.bindCont f) t).trans (iff_of_eq ?_)
  congr 1
  funext r u
  cases r <;> rfl

/-- The program makes no call outside `P`, and all its results are in `Q`. -/
def Only (P : E → Prop) (Q : α → Prop) : Program R α → Prop
  | .done a => Q a
  | .call e k => P e ∧ ∀ r, (k r).Only P Q

variable {P P' : E → Prop} {Q Q' : α → Prop}

@[simp] theorem only_call (e : E) (k : R e → Program R α) :
    (call e k).Only P Q ↔ P e ∧ ∀ r, (k r).Only P Q := Iff.rfl

theorem Only.mono {p : Program R α} (h : p.Only P Q) (hP : ∀ e, P e → P' e)
    (hQ : ∀ a, Q a → Q' a) : p.Only P' Q' := by
  induction p with
  | done a => exact hQ a h
  | call e k ih => exact ⟨hP e h.1, fun r ↦ ih r (h.2 r)⟩

theorem only_bind (p : Program R α) (f : α → Program R β) {Q : β → Prop} :
    (p >>= f).Only P Q ↔ p.Only P fun a ↦ (f a).Only P Q := by
  induction p with
  | done a => rfl
  | call e k ih => simp only [call_bind, only_call, ih]

def Ends (Q : α → Prop) (F : ε → Prop) : Except ε α → Prop
  | .ok a => Q a
  | .error e => F e

theorem Ends.mono {F F' : ε → Prop} (hQ : ∀ a, Q a → Q' a) (hF : ∀ e, F e → F' e)
    (r : Except ε α) (h : Ends Q F r) : Ends Q' F' r := by
  cases r with
  | ok a => exact hQ a h
  | error e => exact hF e h

theorem only_try (x : ExceptT ε (Program R) α) (f : α → ExceptT ε (Program R) β)
    {Q : β → Prop} {F : ε → Prop} : (x >>= f).run.Only P (Ends Q F) ↔
      x.run.Only P (Ends (fun a ↦ (f a).run.Only P (Ends Q F)) F) := by
  refine (only_bind x.run (ExceptT.bindCont f)).trans (iff_of_eq ?_)
  congr 1
  funext r
  cases r <;> rfl

theorem Only.try {x : ExceptT ε (Program R) α} {f : α → ExceptT ε (Program R) β} {Q : β → Prop}
    {F : ε → Prop} (hx : x.run.Only P (Ends Q' F))
    (hf : ∀ a, Q' a → (f a).run.Only P (Ends Q F)) : (x >>= f).run.Only P (Ends Q F) := by
  refine (only_try x f).mpr (hx.mono (fun _ he ↦ he) fun r hr ↦ ?_)
  cases r with
  | ok a => exact hf a hr
  | error e => exact hr

/-- The invariant rule for a loop over a list; an error leaves the loop. -/
theorem only_foldlM {γ : Type} {f : β → γ → ExceptT ε (Program R) β} {I : β → Prop} {F : ε → Prop}
    (l : List γ) (hf : ∀ b, I b → ∀ x ∈ l, (f b x).run.Only P (Ends I F)) {b : β} (hb : I b) :
    (l.foldlM f b).run.Only P (Ends I F) := by
  induction l generalizing b with
  | nil => exact hb
  | cons x l ih =>
    rw [List.foldlM_cons]
    refine (hf b hb x List.mem_cons_self).try fun b' hb' ↦ ?_
    exact ih (fun b hb y hy ↦ hf b hb y (List.mem_cons_of_mem _ hy)) hb'

theorem ensures_foldlM {γ : Type} {f : β → γ → ExceptT ε (Program R) β} {I : β → Trace R → Prop}
    {F : ε → Prop} (l : List γ) (hf : ∀ b t, I b t → ∀ x ∈ l, (f b x).run.Ensures assumes requires
      (fun r u ↦ Ends (fun b' ↦ I b' u) F r) t) {b : β} {t : Trace R} (hb : I b t) :
    (l.foldlM f b).run.Ensures assumes requires (fun r u ↦ Ends (fun b' ↦ I b' u) F r) t := by
  induction l generalizing b t with
  | nil => exact hb
  | cons x l ih =>
    rw [List.foldlM_cons]
    refine (ensures_try _ _ _).mpr ((hf b t hb x List.mem_cons_self).mono fun r u hr ↦ ?_)
    cases r with
    | error e => exact hr
    | ok b' => exact ih (fun b t hb y hy ↦ hf b t hb y (List.mem_cons_of_mem _ hy)) hr

theorem Only.ensures {p : Program R α} (h : p.Only P Q) {t : Trace R}
    (hreq : ∀ u, (∀ ev ∈ u, P ev.1) → ∀ e, P e → requires (t ++ u) e)
    (hpost : ∀ u, (∀ ev ∈ u, P ev.1) → ∀ a, Q a → post a (t ++ u)) :
    p.Ensures assumes requires post t := by
  induction p generalizing t with
  | done a =>
    have h' := hpost [] (by simp) a h
    rwa [List.append_nil] at h'
  | call e k ih =>
    have hcons (r : R e) {u : Trace R} (hu : ∀ ev ∈ u, P ev.1) :
        ∀ ev ∈ (⟨e, r⟩ : Event R) :: u, P ev.1 := by
      intro ev hev
      rcases List.mem_cons.mp hev with rfl | hev
      · exact h.1
      · exact hu ev hev
    refine .call ?_ fun r _ ↦ ih r (h.2 r) (fun u hu e' he' ↦ ?_) fun u hu a ha ↦ ?_
    · have h' := hreq [] (by simp) e h.1
      rwa [List.append_nil] at h'
    · rw [List.append_assoc]
      exact hreq _ (hcons r hu) e' he'
    · rw [List.append_assoc]
      exact hpost _ (hcons r hu) a ha

def embed {F : Type} {Q : F → Type} (f : E → F) (answer : ∀ e, Q (f e) → R e) :
    Program R α → Program Q α
  | .done a => .done a
  | .call e k => .call (f e) fun r ↦ (k (answer e r)).embed f answer

theorem only_embed {F : Type} {Q : F → Type} (f : E → F) (answer : ∀ e, Q (f e) → R e)
    (p : Program R α) : (p.embed f answer).Only (fun e ↦ ∃ e', e = f e') fun _ ↦ True := by
  induction p with
  | done a => exact trivial
  | call e k ih => exact ⟨⟨e, rfl⟩, fun r ↦ ih (answer e r)⟩

/-- A part written for some of the effects is verified against what it sees of the
trace. Meanwhile `I` holds of the whole. -/
theorem Ensures.embed {F : Type} {Q : F → Type} {f : E → F} {answer : ∀ e, Q (f e) → R e}
    {view : Trace Q → Trace R} {I : Trace Q → Prop} {assumes' : Trace Q → (e : F) → Q e → Prop}
    {requires' : Trace Q → F → Prop} {post' : α → Trace Q → Prop}
    (hview : ∀ t e r, view (t ++ [⟨f e, r⟩]) = view t ++ [⟨e, answer e r⟩])
    (hI : ∀ t e r, I t → I (t ++ [⟨f e, r⟩]))
    (hassumes : ∀ t e r, assumes' t (f e) r → assumes (view t) e (answer e r))
    (hrequires : ∀ t e, I t → requires (view t) e → requires' t (f e))
    (hpost : ∀ t a, I t → post a (view t) → post' a t) {p : Program R α} {t : Trace Q}
    (h : p.Ensures assumes requires post (view t)) (ht : I t) :
    (p.embed f answer).Ensures assumes' requires' post' t := by
  induction p generalizing t with
  | done a => exact hpost t a ht h
  | call e k ih =>
    refine .call (hrequires t e ht h.1) fun r hr ↦ ih _ ?_ (hI t e r ht)
    rw [hview]
    exact h.2 _ (hassumes t e r hr)

/-- The program makes the calls `t`, and `q` is left of it. -/
inductive Path : Program R α → Trace R → Program R α → Prop
  | nil (p : Program R α) : Path p [] p
  | cons {e : E} {k : R e → Program R α} {r : R e} {t : Trace R} {q : Program R α} :
      Path (k r) t q → Path (.call e k) (⟨e, r⟩ :: t) q

theorem Path.trans {p q q' : Program R α} {t u : Trace R} (h : Path p t q) (h' : Path q u q') :
    Path p (t ++ u) q' := by
  induction h with
  | nil => exact h'
  | cons _ ih => exact .cons (ih h')

theorem Path.unique {p q q' : Program R α} {t : Trace R} (h : Path p t q) (h' : Path p t q') :
    q = q' := by
  induction h with
  | nil =>
    cases h'
    rfl
  | cons _ ih =>
    cases h' with
    | cons h' => exact ih h'

theorem Path.of_done {a : α} {t : Trace R} {q : Program R α} (h : Path (.done a) t q) :
    t = [] ∧ q = .done a := by
  cases h
  exact ⟨rfl, rfl⟩

theorem Path.embed {F : Type} {Q : F → Type} {f : E → F} {answer : ∀ e, Q (f e) → R e}
    {lift : ∀ e, R e → Q (f e)} (hlift : ∀ e r, answer e (lift e r) = r) {p q : Program R α}
    {t : Trace R} (h : Path p t q) : Path (p.embed f answer)
      (t.map fun ev ↦ ⟨f ev.1, lift ev.1 ev.2⟩) (q.embed f answer) := by
  induction h with
  | nil p => exact .nil _
  | @cons e k r t q _ ih =>
    refine Path.cons (k := fun r ↦ (k (answer e r)).embed f answer) ?_
    rw [hlift]
    exact ih

theorem Path.ensures {p q : Program R α} {t : Trace R} (h : Path p t q) :
    q.Ensures (fun _ _ _ ↦ True) (fun u e ↦ ∃ k, Path p u (.call e k))
      (fun a u ↦ Path p u (.done a)) t := by
  induction q generalizing t with
  | done a => exact h
  | call e k ih => exact .call ⟨k, h⟩ fun r _ ↦ ih r (h.trans (.cons (.nil _)))

theorem Only.of_path {p q : Program R α} {t : Trace R} (h : p.Only P Q) (hp : Path p t q) :
    ∀ ev ∈ t, P ev.1 := by
  induction hp with
  | nil => exact fun ev hev ↦ by cases hev
  | cons _ ih =>
    intro ev hev
    rcases List.mem_cons.mp hev with rfl | hev
    · exact h.1
    · exact ih (h.2 _) ev hev

theorem Only.at_path {p q : Program R α} {t : Trace R} (h : p.Only P Q) (hp : Path p t q) :
    q.Only P Q := by
  induction hp with
  | nil => exact h
  | cons _ ih => exact ih (h.2 _)

theorem Only.result {p : Program R α} {t : Trace R} {a : α} (h : p.Only P Q)
    (hp : Path p t (.done a)) : Q a := by
  generalize hq : (done a : Program R α) = q at hp
  induction hp with
  | nil =>
    subst hq
    exact h
  | cons _ ih => exact ih (h.2 _) hq

theorem Ensures.result {p : Program R α} {t u : Trace R} {a : α}
    (h : p.Ensures (fun _ _ _ ↦ True) requires post t) (hp : Path p u (.done a)) :
    post a (t ++ u) := by
  generalize hq : (done a : Program R α) = q at hp
  induction hp generalizing t with
  | nil =>
    subst hq
    rw [List.append_nil]
    exact h
  | cons _ ih =>
    rw [List.append_cons]
    exact ih (h.2 _ trivial) hq

theorem ensures_of_path {p : Program R α} {t : Trace R}
    (hreq : ∀ u e k, Path p u (.call e k) → requires (t ++ u) e)
    (hpost : ∀ u a, Path p u (.done a) → post a (t ++ u)) : p.Ensures assumes requires post t := by
  induction p generalizing t with
  | done a =>
    have h := hpost [] a (.nil _)
    rwa [List.append_nil] at h
  | call e k ih =>
    refine .call ?_ fun r _ ↦ ih r (fun u e' k' hpath ↦ ?_) fun u a hpath ↦ ?_
    · have h := hreq [] e k (.nil _)
      rwa [List.append_nil] at h
    · rw [← List.append_cons]
      exact hreq _ e' k' (.cons hpath)
    · rw [← List.append_cons]
      exact hpost _ a (.cons hpath)

theorem Path.bind {p q : Program R α} {t : Trace R} (h : Path p t q) (f : α → Program R β) :
    Path (p >>= f) t (q >>= f) := by
  induction h with
  | nil => exact .nil _
  | cons _ ih => exact .cons ih

theorem Path.try (x : ExceptT ε (Program R) α) (f : α → ExceptT ε (Program R) β) {t : Trace R}
    {a : α} (h : Path x.run t (.done (.ok a))) : Path (x >>= f).run t (f a).run :=
  h.bind (ExceptT.bindCont f)

theorem Path.bind_done {p : Program R α} {f : α → Program R β} {t : Trace R} {b : β}
    (h : Path (p >>= f) t (.done b)) :
    ∃ a u v, t = u ++ v ∧ Path p u (.done a) ∧ Path (f a) v (.done b) := by
  induction p generalizing t with
  | done a => exact ⟨a, [], t, rfl, .nil _, h⟩
  | call e k ih =>
    cases h with
    | @cons _ _ r t _ h =>
      obtain ⟨a, u, v, rfl, hp, hf⟩ := ih r h
      exact ⟨a, ⟨e, r⟩ :: u, v, rfl, .cons hp, hf⟩

theorem Path.try_done {x : ExceptT ε (Program R) α} {f : α → ExceptT ε (Program R) β}
    {t : Trace R} {b : β} (h : Path (x >>= f).run t (.done (.ok b))) :
    ∃ a u v, t = u ++ v ∧ Path x.run u (.done (.ok a)) ∧ Path (f a).run v (.done (.ok b)) := by
  obtain ⟨r, u, v, rfl, hx, hf⟩ := Path.bind_done h
  cases r with
  | ok a => exact ⟨a, u, v, rfl, hx, hf⟩
  | error e => cases hf

theorem Path.bind_call {p : Program R α} {f : α → Program R β} {t : Trace R} {e : E}
    {c : R e → Program R β} (h : Path (p >>= f) t (.call e c)) :
    (∃ c', Path p t (.call e c')) ∨
      ∃ a u v, t = u ++ v ∧ Path p u (.done a) ∧ Path (f a) v (.call e c) := by
  induction p generalizing t with
  | done a => exact .inr ⟨a, [], t, rfl, .nil _, h⟩
  | call e' k ih =>
    cases h with
    | nil => exact .inl ⟨k, .nil _⟩
    | @cons _ _ r t _ h =>
      rcases ih r h with ⟨c', hp⟩ | ⟨a, u, v, rfl, hp, hf⟩
      · exact .inl ⟨c', .cons hp⟩
      · exact .inr ⟨a, ⟨e', r⟩ :: u, v, rfl, .cons hp, hf⟩

theorem Path.try_call {x : ExceptT ε (Program R) α} {f : α → ExceptT ε (Program R) β}
    {t : Trace R} {e : E} {c : R e → Program R (Except ε β)}
    (h : Path (x >>= f).run t (.call e c)) : (∃ c', Path x.run t (.call e c')) ∨
      ∃ a u v, t = u ++ v ∧ Path x.run u (.done (.ok a)) ∧ Path (f a).run v (.call e c) := by
  rcases Path.bind_call h with hx | ⟨r, u, v, rfl, hx, hf⟩
  · exact .inl hx
  · cases r with
    | ok a => exact .inr ⟨a, u, v, rfl, hx, hf⟩
    | error e => cases hf

theorem Path.foldlM_call_inv {γ : Type} {f : β → γ → ExceptT ε (Program R) β} {l : List γ} {b : β}
    {t : Trace R} {e : E} {c : R e → Program R (Except ε β)}
    (h : Path (l.foldlM f b).run t (.call e c)) :
    ∃ before x after b' u v c', l = before ++ x :: after ∧ t = u ++ v ∧
      Path (before.foldlM f b).run u (.done (.ok b')) ∧ Path (f b' x).run v (.call e c') := by
  induction l generalizing b t with
  | nil => cases h
  | cons x l ih =>
    rw [List.foldlM_cons] at h
    rcases h.try_call with ⟨c', hx⟩ | ⟨b', u, v, rfl, hx, hl⟩
    · exact ⟨[], x, l, b, [], t, c', rfl, rfl, .nil _, hx⟩
    · obtain ⟨before, y, after, b'', v, w, c', rfl, rfl, hbefore, hy⟩ := ih hl
      refine ⟨x :: before, y, after, b'', u ++ v, w, c', rfl, (List.append_assoc ..).symm, ?_, hy⟩
      rw [List.foldlM_cons]
      exact (hx.try _ _).trans hbefore

theorem Path.foldlM_call {γ : Type} {f : β → γ → ExceptT ε (Program R) β} {before : List γ}
    {x : γ} {b b' : β} {u v : Trace R} {e : E} {c : R e → Program R (Except ε β)}
    (hbefore : Path (before.foldlM f b).run u (.done (.ok b')))
    (hx : Path (f b' x).run v (.call e c)) (after : List γ) :
    ∃ c', Path ((before ++ x :: after).foldlM f b).run (u ++ v) (.call e c') := by
  have hrest : ∃ c', Path ((x :: after).foldlM f b').run v (.call e c') := by
    rw [List.foldlM_cons]
    exact ⟨_, hx.bind _⟩
  obtain ⟨c', hrest⟩ := hrest
  rw [List.foldlM_append]
  exact ⟨c', (Path.try _ _ hbefore).trans hrest⟩

section Last

variable {cause : Event R → Bool} {t u : Trace R} {ev : Event R}

def EndsIn (cause : Event R → Bool) (t : Trace R) : Prop := ∃ u ev, t = u ++ [ev] ∧ cause ev = true

theorem not_endsIn_nil : ¬ EndsIn cause [] := fun ⟨u, ev, heq, _⟩ ↦ by simp at heq

theorem endsIn_snoc : EndsIn cause (t ++ [ev]) ↔ cause ev = true := by
  constructor
  · rintro ⟨u, ev', heq, hcause⟩
    rw [List.singleton_inj.mp (List.append_inj' heq rfl).2]
    exact hcause
  · exact fun hcause ↦ ⟨t, ev, rfl, hcause⟩

theorem not_endsIn_snoc (h : cause ev = false) : ¬ EndsIn cause (t ++ [ev]) := by
  rw [endsIn_snoc, h]
  exact Bool.false_ne_true

theorem not_endsIn_append (ht : ¬ EndsIn cause t) (hu : ∀ ev ∈ u, cause ev = false) :
    ¬ EndsIn cause (t ++ u) := by
  rcases List.eq_nil_or_concat u with rfl | ⟨u, last, rfl⟩
  · rwa [List.append_nil]
  · rw [List.concat_eq_append, ← List.append_assoc]
    exact not_endsIn_snoc (hu last (by simp))

end Last

section Eval

variable (answer : (e : E) → R e)

def eval : Program R α → Trace R × α
  | .done a => ([], a)
  | .call e k => (⟨e, answer e⟩ :: ((k (answer e)).eval).1, ((k (answer e)).eval).2)

variable {answer}

theorem eval_bind (p : Program R α) (f : α → Program R β) : (p >>= f).eval answer =
    ((p.eval answer).1 ++ ((f (p.eval answer).2).eval answer).1,
      ((f (p.eval answer).2).eval answer).2) := by
  induction p with
  | done a => rfl
  | call e k ih => simp only [call_bind, eval, ih, List.cons_append]

theorem eval_try_ok {x : ExceptT ε (Program R) α} {t : Trace R} {a : α}
    (h : x.run.eval answer = (t, .ok a)) (f : α → ExceptT ε (Program R) β) :
    (x >>= f).run.eval answer =
      (t ++ ((f a).run.eval answer).1, ((f a).run.eval answer).2) := by
  refine (eval_bind x.run (ExceptT.bindCont f)).trans ?_
  rw [h]
  rfl

theorem eval_try_error {x : ExceptT ε (Program R) α} {t : Trace R} {e : ε}
    (h : x.run.eval answer = (t, .error e)) (f : α → ExceptT ε (Program R) β) :
    (x >>= f).run.eval answer = (t, .error e) := by
  refine (eval_bind x.run (ExceptT.bindCont f)).trans ?_
  rw [h, ExceptT.bindCont]
  simp only [pure, eval, List.append_nil]

end Eval

end Program

theorem last_or_before {α : Type} {l u v : List α} {a b : α} (h : l ++ [a] = u ++ b :: v) :
    (l = u ∧ a = b ∧ v = []) ∨ ∃ w, v = w ++ [a] ∧ l = u ++ b :: w := by
  rcases List.eq_nil_or_concat v with rfl | ⟨w, last, rfl⟩
  · obtain ⟨hl, ha⟩ := List.append_inj' h rfl
    exact .inl ⟨hl, List.singleton_inj.mp ha, rfl⟩
  · rw [List.concat_eq_append, ← List.cons_append, ← List.append_assoc] at h
    obtain ⟨hl, ha⟩ := List.append_inj' h rfl
    rw [List.concat_eq_append, List.singleton_inj.mp ha]
    exact .inr ⟨w, rfl, hl⟩

theorem last_unique {α : Type} {P : α → Prop} {l l' u v : List α} {a b : α}
    (h : l ++ a :: u = l' ++ b :: v) (ha : ¬ P a) (hb : ¬ P b) (hu : ∀ c ∈ u, P c)
    (hv : ∀ c ∈ v, P c) : l = l' ∧ a = b ∧ u = v := by
  rcases List.append_eq_append_iff.mp h with ⟨w, rfl, hw⟩ | ⟨w, rfl, hw⟩
  · cases w with
    | nil => exact ⟨(List.append_nil l).symm, List.cons.inj hw⟩
    | cons c w =>
      obtain ⟨-, rfl⟩ := List.cons.inj hw
      exact (hb (hu b (by simp))).elim
  · cases w with
    | nil =>
      obtain ⟨rfl, rfl⟩ := List.cons.inj hw
      exact ⟨List.append_nil l', rfl, rfl⟩
    | cons c w =>
      obtain ⟨-, rfl⟩ := List.cons.inj hw
      exact (ha (hv a (by simp))).elim

section Loop

open Program

variable {E S ε : Type} {R : E → Type}

/-- A loop that starts with `init` and repeats `body` on the state of the last
round. The run is seen after any call, with the rest of the current round. -/
inductive LoopRun (assumes : Trace R → (e : E) → R e → Prop) (init : Program R (Except ε S))
    (body : S → Program R (Except ε S)) : Trace R → Program R (Except ε S) → Prop
  | start : LoopRun assumes init body [] init
  | answer {t : Trace R} {e : E} {k : R e → Program R (Except ε S)} {r : R e} :
      LoopRun assumes init body t (.call e k) → assumes t e r →
      LoopRun assumes init body (t ++ [⟨e, r⟩]) (k r)
  | again {t : Trace R} {s : S} :
      LoopRun assumes init body t (.done (.ok s)) → LoopRun assumes init body t (body s)

def Answered (assumes : Trace R → (e : E) → R e → Prop) : Trace R → Trace R → Prop
  | _, [] => True
  | t, ⟨e, r⟩ :: u => assumes t e r ∧ Answered assumes (t ++ [⟨e, r⟩]) u

theorem Answered.at {assumes : Trace R → (e : E) → R e → Prop} {t u v : Trace R} {e : E} {r : R e}
    (h : Answered assumes t (u ++ ⟨e, r⟩ :: v)) : assumes (t ++ u) e r := by
  induction u generalizing t with
  | nil =>
    rw [List.append_nil]
    exact h.1
  | cons ev u ih =>
    rw [List.append_cons]
    exact ih h.2

theorem Answered.get {assumes : Trace R → (e : E) → R e → Prop} {t : Trace R} {m : ℕ} {e : E}
    {r : R e} (h : Answered assumes [] t) (hm : t[m]? = some ⟨e, r⟩) :
    assumes (t.take m) e r := by
  obtain ⟨hlt, hget⟩ := List.getElem?_eq_some_iff.mp hm
  have hsplit : t.take m ++ ⟨e, r⟩ :: t.drop (m + 1) = t := by
    rw [← hget, ← List.drop_eq_getElem_cons hlt, List.take_append_drop]
  rw [← hsplit] at h
  exact h.at

theorem Answered.snoc {assumes : Trace R → (e : E) → R e → Prop} {t u : Trace R} {e : E} {r : R e}
    (h : Answered assumes t u) (hr : assumes (t ++ u) e r) :
    Answered assumes t (u ++ [⟨e, r⟩]) := by
  induction u generalizing t with
  | nil =>
    rw [List.append_nil] at hr
    exact ⟨hr, trivial⟩
  | cons ev u ih =>
    rw [List.append_cons] at hr
    exact ⟨h.1, ih h.2 hr⟩

theorem Answered.left {assumes : Trace R → (e : E) → R e → Prop} {t u v : Trace R}
    (h : Answered assumes t (u ++ v)) : Answered assumes t u := by
  induction u generalizing t with
  | nil => trivial
  | cons ev u ih => exact ⟨h.1, ih h.2⟩

theorem Answered.right {assumes : Trace R → (e : E) → R e → Prop} {t u v : Trace R}
    (h : Answered assumes t (u ++ v)) : Answered assumes (t ++ u) v := by
  induction u generalizing t with
  | nil => rwa [List.append_nil]
  | cons ev u ih =>
    rw [List.append_cons]
    exact ih h.2

theorem answered_of_forall {assumes : Trace R → (e : E) → R e → Prop}
    (h : ∀ t e r, assumes t e r) (t u : Trace R) : Answered assumes t u := by
  induction u generalizing t with
  | nil => trivial
  | cons ev u ih => exact ⟨h t ev.1 ev.2, ih _⟩

theorem answered_of_mem {P : (e : E) → R e → Prop} {u : Trace R} (h : ∀ ev ∈ u, P ev.1 ev.2)
    (t : Trace R) : Answered (fun _ e r ↦ P e r) t u := by
  induction u generalizing t with
  | nil => trivial
  | cons ev u ih =>
    exact ⟨h ev List.mem_cons_self, ih (fun ev' hev' ↦ h ev' (List.mem_cons_of_mem _ hev')) _⟩

namespace Program

variable {α : Type} {assumes : Trace R → (e : E) → R e → Prop} {requires : Trace R → E → Prop}
  {post : α → Trace R → Prop} {p q : Program R α} {t u v : Trace R}

theorem Ensures.follow (h : p.Ensures assumes requires post t) (hp : Path p u q)
    (hu : Answered assumes t u) : q.Ensures assumes requires post (t ++ u) := by
  induction hp generalizing t with
  | nil =>
    rw [List.append_nil]
    exact h
  | cons _ ih =>
    rw [List.append_cons]
    exact ih (h.2 _ hu.1) hu.2

theorem Ensures.requires_of_mem (h : p.Ensures assumes requires post t) (hp : Path p u q)
    (hu : Answered assumes t u) {e : E} {r : R e} {w : Trace R} (hmem : u = v ++ ⟨e, r⟩ :: w) :
    requires (t ++ v) e := by
  induction hp generalizing t v with
  | nil => simp at hmem
  | cons _ ih =>
    cases v with
    | nil =>
      cases hmem
      rw [List.append_nil]
      exact h.1
    | cons ev v =>
      cases hmem
      rw [List.append_cons]
      exact ih (h.2 _ hu.1) hu.2 rfl

end Program

namespace LoopRun

variable {assumes : Trace R → (e : E) → R e → Prop} {requires : Trace R → E → Prop}
  {init : Program R (Except ε S)} {body : S → Program R (Except ε S)}
  {post : Except ε S → Trace R → Prop} {t : Trace R} {p : Program R (Except ε S)}

/-- The invariant rule: `post` relates the state between two rounds to the
whole trace before, and every round preserves it. -/
theorem ensures (hinit : init.Ensures assumes requires post [])
    (hbody : ∀ s t, post (.ok s) t → (body s).Ensures assumes requires post t)
    (h : LoopRun assumes init body t p) : p.Ensures assumes requires post t := by
  induction h with
  | start => exact hinit
  | answer _ hr ih => exact ih.2 _ hr
  | again _ ih => exact hbody _ _ ih

theorem requires_of_mem (hinit : init.Ensures assumes requires post [])
    (hbody : ∀ s t, post (.ok s) t → (body s).Ensures assumes requires post t)
    (h : LoopRun assumes init body t p) {u v : Trace R} {e : E} {r : R e}
    (ht : t = u ++ ⟨e, r⟩ :: v) : requires u e := by
  induction h generalizing v with
  | start => simp at ht
  | @answer t e' k r' h _ ih =>
    rcases last_or_before ht with ⟨rfl, heq, -⟩ | ⟨w, -, hw⟩
    · cases heq
      exact (h.ensures hinit hbody).1
    · exact ih hw
  | again _ ih => exact ih ht

theorem follow (h : LoopRun assumes init body t p) {u : Trace R} {q : Program R (Except ε S)}
    (hp : Path p u q) (hu : Answered assumes t u) : LoopRun assumes init body (t ++ u) q := by
  induction hp generalizing t with
  | nil p =>
    rw [List.append_nil]
    exact h
  | cons _ ih =>
    rw [List.append_cons]
    exact ih (h.answer hu.1) hu.2

theorem mono {assumes' : Trace R → (e : E) → R e → Prop} (h : LoopRun assumes init body t p)
    (hassumes : ∀ t e r, assumes t e r → assumes' t e r) : LoopRun assumes' init body t p := by
  induction h with
  | start => exact .start
  | answer _ hr ih => exact ih.answer (hassumes _ _ _ hr)
  | again _ ih => exact ih.again

theorem answered (h : LoopRun assumes init body t p) : Answered assumes [] t := by
  induction h with
  | start => trivial
  | answer _ hr ih => exact ih.snoc hr
  | again _ ih => exact ih

end LoopRun

inductive Rounds (init : Program R (Except ε S)) (body : S → Program R (Except ε S)) :
    Trace R → S → Prop
  | start {t : Trace R} {s : S} : Path init t (.done (.ok s)) → Rounds init body t s
  | round {t u : Trace R} {s s' : S} :
      Rounds init body t s → Path (body s) u (.done (.ok s')) → Rounds init body (t ++ u) s'

theorem LoopRun.rounds {assumes : Trace R → (e : E) → R e → Prop} {init : Program R (Except ε S)}
    {body : S → Program R (Except ε S)} {t : Trace R} {s : S}
    (h : LoopRun assumes init body t (.done (.ok s))) : Rounds init body t s := by
  have hround {t : Trace R} {p : Program R (Except ε S)} (h : LoopRun assumes init body t p) :
      Path init t p ∨ ∃ t₀ s₀ u, t = t₀ ++ u ∧ Rounds init body t₀ s₀ ∧ Path (body s₀) u p := by
    induction h with
    | start => exact .inl (.nil _)
    | answer _ _ ih =>
      refine ih.imp (fun hp ↦ hp.trans (.cons (.nil _))) fun hp ↦ ?_
      obtain ⟨t₀, s₀, u, rfl, hrounds, hp⟩ := hp
      exact ⟨t₀, s₀, _, List.append_assoc _ _ _, hrounds, hp.trans (.cons (.nil _))⟩
    | again _ ih =>
      refine .inr ⟨_, _, [], (List.append_nil _).symm, ?_, .nil _⟩
      rcases ih with hp | ⟨t₀, s₀, u, rfl, hrounds, hp⟩
      · exact .start hp
      · exact .round hrounds hp
  rcases hround h with hp | ⟨t₀, s₀, u, rfl, hrounds, hp⟩
  · exact .start hp
  · exact .round hrounds hp

theorem Rounds.run {assumes : Trace R → (e : E) → R e → Prop} {init : Program R (Except ε S)}
    {body : S → Program R (Except ε S)} {t : Trace R} {s : S} (h : Rounds init body t s)
    (ht : Answered assumes [] t) : LoopRun assumes init body t (.done (.ok s)) := by
  induction h with
  | start hp => exact LoopRun.start.follow hp ht
  | round _ hp ih => exact (ih ht.left).again.follow hp ht.right

end Loop

end Foundation
