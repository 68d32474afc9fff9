import Mathlib.Algebra.Ring.Nat
import Mathlib.Data.List.Basic

namespace Foundation

abbrev Bytes := List UInt8

/-- A decoder consumes a prefix of its input, and its answer depends on nothing
but that prefix: the same bytes are read in the same way whatever follows. -/
structure Decoder (α : Type) where
  run : Bytes → Option (α × Bytes)
  local_read : ∀ {input : Bytes} {a : α} {rest : Bytes}, run input = some (a, rest) →
    ∃ used, input = used ++ rest ∧ ∀ tail, run (used ++ tail) = some (a, tail)

namespace Decoder

variable {α β : Type}

/-- `bytes` is a complete encoding of `a`, to the last byte and no further. -/
def Decodes (d : Decoder α) (bytes : Bytes) (a : α) : Prop :=
  ∀ tail, d.run (bytes ++ tail) = some (a, tail)

theorem run_prefix {d : Decoder α} {input rest : Bytes} {a : α}
    (h : d.run input = some (a, rest)) : ∃ used, input = used ++ rest ∧ d.Decodes used a :=
  d.local_read h

theorem Decodes.run {d : Decoder α} {bytes : Bytes} {a : α} (h : d.Decodes bytes a) :
    d.run bytes = some (a, []) := by
  simpa only [List.append_nil] using h []

theorem run_append {d : Decoder α} {input rest : Bytes} {a : α}
    (h : d.run input = some (a, rest)) (tail : Bytes) :
    d.run (input ++ tail) = some (a, rest ++ tail) := by
  obtain ⟨used, rfl, hused⟩ := d.run_prefix h
  simpa only [List.append_assoc] using hused (rest ++ tail)

/-- An input and its continuation disagree exactly when decoding needs the
continuation: some nonempty part of it completes an encoding. -/
theorem run_append_of_cut {d : Decoder α} {input tail rest : Bytes} {a : α}
    (h : d.run (input ++ tail) = some (a, rest)) :
    (∃ rest', d.run input = some (a, rest')) ∨
      ∃ missing, missing ≠ [] ∧ missing ++ rest = tail ∧ d.Decodes (input ++ missing) a := by
  obtain ⟨used, hsplit, hused⟩ := d.run_prefix h
  rcases List.append_eq_append_iff.mp hsplit with ⟨missing, rfl, rfl⟩ | ⟨left, rfl, rfl⟩
  · by_cases hm : missing = []
    · subst hm
      exact .inl ⟨[], by simpa only [List.append_nil] using hused []⟩
    · exact .inr ⟨missing, hm, rfl, hused⟩
  · exact .inl ⟨left, hused left⟩

theorem run_of_proper_prefix {d : Decoder α} {u v : Bytes} {a : α} (h : d.Decodes (u ++ v) a)
    (hv : v ≠ []) : d.run u = none := by
  cases hu : d.run u with
  | none => rfl
  | some p =>
    have heq := run_append hu v
    rw [h.run] at heq
    have hrest := (Prod.mk.inj (Option.some.inj heq)).2
    exact (hv (List.append_eq_nil_iff.mp hrest.symm).2).elim

protected def pure (a : α) : Decoder α where
  run input := some (a, input)
  local_read h := by cases h; exact ⟨[], rfl, fun _ ↦ rfl⟩

def fail : Decoder α where
  run _ := none
  local_read h := by cases h

protected def bind (d : Decoder α) (f : α → Decoder β) : Decoder β where
  run input := (d.run input).bind fun p ↦ (f p.1).run p.2
  local_read {input b rest} h := by
    obtain ⟨⟨a, mid⟩, hd, hf⟩ := Option.bind_eq_some_iff.mp h
    obtain ⟨used₁, rfl, h₁⟩ := d.local_read hd
    obtain ⟨used₂, rfl, h₂⟩ := (f a).local_read hf
    refine ⟨used₁ ++ used₂, by rw [List.append_assoc], fun tail ↦ ?_⟩
    rw [List.append_assoc, h₁, Option.bind_some]
    exact h₂ tail

instance : Monad Decoder where
  pure := Decoder.pure
  bind := Decoder.bind

@[simp] theorem run_pure (a : α) (input : Bytes) :
    (Pure.pure a : Decoder α).run input = some (a, input) := rfl

@[simp] theorem run_bind (d : Decoder α) (f : α → Decoder β) (input : Bytes) :
    (d >>= f).run input = (d.run input).bind fun p ↦ (f p.1).run p.2 := rfl

theorem Decodes.pure (a : α) : (Pure.pure a : Decoder α).Decodes [] a := fun _ ↦ rfl

theorem Decodes.bind {d : Decoder α} {f : α → Decoder β} {u v : Bytes} {a : α} {b : β}
    (hd : d.Decodes u a) (hf : (f a).Decodes v b) : (d >>= f).Decodes (u ++ v) b := by
  intro tail
  rw [List.append_assoc, run_bind, hd, Option.bind_some]
  exact hf tail

theorem Decodes.finish {d : Decoder α} {f : α → Decoder β} {u : Bytes} {a : α} {b : β}
    (hd : d.Decodes u a) (hf : (f a).Decodes [] b) : (d >>= f).Decodes u b := by
  simpa only [List.append_nil] using hd.bind hf

theorem Decodes.map {d : Decoder α} {u : Bytes} {a : α} (hd : d.Decodes u a) (g : α → β) :
    (d >>= fun x ↦ Pure.pure (g x)).Decodes u (g a) :=
  hd.finish (Decodes.pure (g a))

def byte : Decoder UInt8 where
  run
    | [] => none
    | b :: rest => some (b, rest)
  local_read {input _ _} h := by
    cases input with
    | nil => cases h
    | cons b bs => cases h; exact ⟨[_], rfl, fun _ ↦ rfl⟩

theorem Decodes.byte (b : UInt8) : Decodes Decoder.byte [b] b := fun _ ↦ rfl

def take (n : ℕ) : Decoder Bytes where
  run input := if n ≤ input.length then some (input.take n, input.drop n) else none
  local_read {input a rest} h := by
    split at h
    · next hn =>
      cases h
      refine ⟨input.take n, (List.take_append_drop n input).symm, fun tail ↦ ?_⟩
      have hlen : (input.take n).length = n := by rw [List.length_take, Nat.min_eq_left hn]
      rw [if_pos (by rw [List.length_append, hlen]; omega), List.take_left' hlen,
        List.drop_left' hlen]
    · cases h

theorem Decodes.take (bytes : Bytes) : (Decoder.take bytes.length).Decodes bytes bytes := by
  intro tail
  simp [Decoder.take]

def ofOption : Option α → Decoder α
  | some a => Pure.pure a
  | none => fail

theorem run_take {n : ℕ} {input bytes rest : Bytes} : (take n).run input = some (bytes, rest) ↔
    n ≤ input.length ∧ bytes = input.take n ∧ rest = input.drop n := by
  rw [take]
  by_cases hn : n ≤ input.length
  · simp [hn, eq_comm]
  · simp [hn]

theorem run_ofOption {o : Option α} {a : α} {input rest : Bytes} :
    (ofOption o).run input = some (a, rest) ↔ o = some a ∧ rest = input := by
  cases o with
  | none => exact iff_of_false (fun h ↦ by cases h) fun h ↦ by cases h.1
  | some b => simp [ofOption, eq_comm]

theorem Decodes.check {d : Decoder α} {u : Bytes} {a : α} {b : β} (hd : d.Decodes u a)
    {g : α → Option β} (hg : g a = some b) :
    (d >>= fun x ↦ Decoder.ofOption (g x)).Decodes u b := by
  intro tail
  rw [run_bind, hd, Option.bind_some, hg]
  rfl

def replicate (d : Decoder α) : ℕ → Decoder (List α)
  | 0 => Pure.pure []
  | n + 1 => do
    let a ← d
    let as ← replicate d n
    Pure.pure (a :: as)

theorem Decodes.replicate {d : Decoder α} {e : α → Bytes} (as : List α)
    (h : ∀ a ∈ as, d.Decodes (e a) a) :
    (d.replicate as.length).Decodes (as.flatMap e) as := by
  induction as with
  | nil => exact .pure []
  | cons a as ih =>
    have ha := h a List.mem_cons_self
    have has := ih (fun b hb ↦ h b (List.mem_cons_of_mem a hb))
    rw [List.flatMap_cons]
    exact ha.bind (has.map (a :: ·))

theorem length_rest_le {d : Decoder α} {input rest : Bytes} {a : α}
    (h : d.run input = some (a, rest)) : rest.length ≤ input.length := by
  obtain ⟨used, rfl, -⟩ := d.run_prefix h
  exact (List.suffix_append used rest).length_le

def Consumes (d : Decoder α) : Prop :=
  ∀ input a rest, d.run input = some (a, rest) → rest.length < input.length

theorem Consumes.fail : (Decoder.fail : Decoder α).Consumes := by
  intro input a rest h
  cases h

theorem Consumes.byte : Decoder.byte.Consumes := by
  intro input b rest h
  cases input with
  | nil => cases h
  | cons b bs =>
    cases h
    exact Nat.lt_succ_self _

theorem Consumes.bind {d : Decoder α} (h : d.Consumes) (f : α → Decoder β) :
    (d >>= f).Consumes := by
  intro input b rest hrun
  obtain ⟨⟨a, mid⟩, hd, hf⟩ := Option.bind_eq_some_iff.mp hrun
  exact Nat.lt_of_le_of_lt (length_rest_le hf) (h input a mid hd)

theorem Consumes.length_replicate {d : Decoder α} (h : d.Consumes) {n : ℕ} {input rest : Bytes}
    {as : List α} (hrun : (d.replicate n).run input = some (as, rest)) :
    as.length + rest.length ≤ input.length := by
  induction n generalizing input as with
  | zero =>
    cases hrun
    simp
  | succ n ih =>
    obtain ⟨⟨a, mid⟩, hd, hrest⟩ := Option.bind_eq_some_iff.mp hrun
    obtain ⟨⟨as, mid'⟩, has, hdone⟩ := Option.bind_eq_some_iff.mp hrest
    cases hdone
    have hfirst : mid.length < input.length := h input a mid hd
    have hothers : as.length + mid'.length ≤ mid.length := ih has
    change as.length + 1 + mid'.length ≤ input.length
    omega

/-- What is decoded has taken `cost` bytes of the input at least. -/
def Costs (d : Decoder α) (cost : α → ℕ) : Prop :=
  ∀ input a rest, d.run input = some (a, rest) → rest.length + cost a ≤ input.length

theorem Costs.replicate {d : Decoder α} {cost : α → ℕ} (h : d.Costs cost) (n : ℕ) :
    (d.replicate n).Costs fun as ↦ (as.map cost).sum := by
  induction n with
  | zero =>
    intro input as rest hrun
    cases hrun
    exact Nat.le_refl _
  | succ n ih =>
    intro input as rest hrun
    obtain ⟨⟨a, mid⟩, hd, hrest⟩ := Option.bind_eq_some_iff.mp hrun
    obtain ⟨⟨as, mid'⟩, has, hdone⟩ := Option.bind_eq_some_iff.mp hrest
    cases hdone
    have hfirst : mid.length + cost a ≤ input.length := h input a mid hd
    have hothers : mid'.length + (as.map cost).sum ≤ mid.length := ih mid as mid' has
    simp only [List.map_cons, List.sum_cons]
    omega

end Decoder

end Foundation
