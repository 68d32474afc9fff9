import Mathlib.Data.List.Basic

namespace Foundation.Base64

def digit (n : ℕ) : Char :=
  if n < 26 then Char.ofNat (65 + n)
  else if n < 52 then Char.ofNat (97 + (n - 26))
  else if n < 62 then Char.ofNat (48 + (n - 52))
  else if n = 62 then '+'
  else '/'

def value (c : Char) : Option ℕ :=
  let n := c.toNat
  if 65 ≤ n ∧ n < 91 then some (n - 65)
  else if 97 ≤ n ∧ n < 123 then some (n - 97 + 26)
  else if 48 ≤ n ∧ n < 58 then some (n - 48 + 52)
  else if n = 43 then some 62
  else if n = 47 then some 63
  else none

/-- Standard base64 with padding. -/
def encode : List UInt8 → List Char
  | [] => []
  | [a] => [digit (a.toNat / 4), digit (a.toNat % 4 * 16), '=', '=']
  | [a, b] => [digit (a.toNat / 4), digit (a.toNat % 4 * 16 + b.toNat / 16),
      digit (b.toNat % 16 * 4), '=']
  | a :: b :: c :: rest => digit (a.toNat / 4) :: digit (a.toNat % 4 * 16 + b.toNat / 16) ::
      digit (b.toNat % 16 * 4 + c.toNat / 64) :: digit (c.toNat % 64) :: encode rest

/-- Strict decoding: padding only at the end, no stray bits under it. -/
def decode : List Char → Option (List UInt8)
  | [] => some []
  | [c₁, c₂, '=', '='] => do
    let d₁ ← value c₁
    let d₂ ← value c₂
    if d₂ % 16 = 0 then some [UInt8.ofNat (d₁ * 4 + d₂ / 16)] else none
  | [c₁, c₂, c₃, '='] => do
    let d₁ ← value c₁
    let d₂ ← value c₂
    let d₃ ← value c₃
    if d₃ % 4 = 0 then
      some [UInt8.ofNat (d₁ * 4 + d₂ / 16), UInt8.ofNat (d₂ % 16 * 16 + d₃ / 4)]
    else none
  | c₁ :: c₂ :: c₃ :: c₄ :: rest => do
    let d₁ ← value c₁
    let d₂ ← value c₂
    let d₃ ← value c₃
    let d₄ ← value c₄
    let bytes ← decode rest
    some (UInt8.ofNat (d₁ * 4 + d₂ / 16) :: UInt8.ofNat (d₂ % 16 * 16 + d₃ / 4) ::
      UInt8.ofNat (d₃ % 4 * 64 + d₄) :: bytes)
  | _ => none

theorem value_digit {n : ℕ} (hn : n < 64) : value (digit n) = some n := by
  have h : ∀ i : Fin 64, value (digit i) = some i.val := by decide
  exact h ⟨n, hn⟩

theorem digit_ne_pad {n : ℕ} (hn : n < 64) : digit n ≠ '=' := by
  have h : ∀ i : Fin 64, digit i ≠ '=' := by decide
  exact h ⟨n, hn⟩

theorem decode_encode (bytes : List UInt8) : decode (encode bytes) = some bytes := by
  induction bytes using encode.induct with
  | case1 => rfl
  | case2 a =>
    have ha := a.toNat_lt
    have h₁ : a.toNat / 4 * 4 + a.toNat % 4 * 16 / 16 = a.toNat := by omega
    have h₂ : a.toNat % 4 * 16 % 16 = 0 := by omega
    simp only [encode, decode, value_digit (show a.toNat / 4 < 64 by omega),
      value_digit (show a.toNat % 4 * 16 < 64 by omega), Option.bind_eq_bind, Option.bind_some,
      h₁, h₂, if_true, UInt8.ofNat_toNat]
  | case3 a b =>
    have ha := a.toNat_lt
    have hb := b.toNat_lt
    have h₁ : a.toNat / 4 * 4 + (a.toNat % 4 * 16 + b.toNat / 16) / 16 = a.toNat := by omega
    have h₂ : (a.toNat % 4 * 16 + b.toNat / 16) % 16 * 16 + b.toNat % 16 * 4 / 4 = b.toNat := by
      omega
    have h₃ : b.toNat % 16 * 4 % 4 = 0 := by omega
    have hpad := digit_ne_pad (show b.toNat % 16 * 4 < 64 by omega)
    simp only [encode, decode, value_digit (show a.toNat / 4 < 64 by omega),
      value_digit (show a.toNat % 4 * 16 + b.toNat / 16 < 64 by omega),
      value_digit (show b.toNat % 16 * 4 < 64 by omega), Option.bind_eq_bind, Option.bind_some,
      h₁, h₂, h₃, if_true, UInt8.ofNat_toNat]
  | case4 a b c rest ih =>
    have ha := a.toNat_lt
    have hb := b.toNat_lt
    have hc := c.toNat_lt
    have h₁ : a.toNat / 4 * 4 + (a.toNat % 4 * 16 + b.toNat / 16) / 16 = a.toNat := by omega
    have h₂ : (a.toNat % 4 * 16 + b.toNat / 16) % 16 * 16 + (b.toNat % 16 * 4 + c.toNat / 64) / 4
        = b.toNat := by omega
    have h₃ : (b.toNat % 16 * 4 + c.toNat / 64) % 4 * 64 + c.toNat % 64 = c.toNat := by omega
    have hpad := digit_ne_pad (show c.toNat % 64 < 64 by omega)
    rw [encode, decode]
    · simp only [value_digit (show a.toNat / 4 < 64 by omega),
        value_digit (show a.toNat % 4 * 16 + b.toNat / 16 < 64 by omega),
        value_digit (show b.toNat % 16 * 4 + c.toNat / 64 < 64 by omega),
        value_digit (show c.toNat % 64 < 64 by omega), Option.bind_eq_bind, Option.bind_some,
        ih, h₁, h₂, h₃, UInt8.ofNat_toNat]
    · exact fun _ h _ ↦ hpad h
    · exact fun h _ ↦ hpad h

theorem encode_length (bytes : List UInt8) :
    (encode bytes).length = (bytes.length + 2) / 3 * 4 := by
  induction bytes using encode.induct with
  | case1 | case2 | case3 => simp [encode]
  | case4 a b c rest ih =>
    simp only [encode, List.length_cons, ih]
    omega

theorem forall_mem_encode {P : Char → Prop} (hdigit : ∀ n < 64, P (digit n)) (hpad : P '=')
    (bytes : List UInt8) : ∀ c ∈ encode bytes, P c := by
  induction bytes using encode.induct with
  | case1 => simp [encode]
  | case2 a =>
    have ha := a.toNat_lt
    simp only [encode, List.forall_mem_cons]
    exact ⟨hdigit _ (by omega), hdigit _ (by omega), hpad, hpad, by simp⟩
  | case3 a b =>
    have ha := a.toNat_lt
    have hb := b.toNat_lt
    simp only [encode, List.forall_mem_cons]
    exact ⟨hdigit _ (by omega), hdigit _ (by omega), hdigit _ (by omega), hpad, by simp⟩
  | case4 a b c rest ih =>
    have ha := a.toNat_lt
    have hb := b.toNat_lt
    have hc := c.toNat_lt
    simp only [encode, List.forall_mem_cons]
    exact ⟨hdigit _ (by omega), hdigit _ (by omega), hdigit _ (by omega), hdigit _ (by omega), ih⟩

theorem digit_ascii {n : ℕ} (hn : n < 64) : (digit n).utf8Size = 1 := by
  have h : ∀ i : Fin 64, (digit i).utf8Size = 1 := by decide
  exact h ⟨n, hn⟩

theorem utf8ByteSize_of_ascii {cs : List Char} (h : ∀ c ∈ cs, c.utf8Size = 1) :
    (String.ofList cs).utf8ByteSize = cs.length := by
  induction cs with
  | nil => rfl
  | cons c cs ih =>
    rw [String.ofList_cons, String.utf8ByteSize_append, String.utf8ByteSize_singleton,
      h c List.mem_cons_self, ih fun d hd ↦ h d (List.mem_cons_of_mem c hd), List.length_cons]
    omega

theorem utf8ByteSize_encode (bytes : List UInt8) :
    (String.ofList (encode bytes)).utf8ByteSize = (bytes.length + 2) / 3 * 4 := by
  rw [utf8ByteSize_of_ascii (forall_mem_encode (fun _ ↦ digit_ascii) (by decide) bytes),
    encode_length]

theorem digit_of_value {c : Char} {n : ℕ} (h : value c = some n) : digit n = c ∧ n < 64 := by
  have hc := Char.ofNat_toNat c
  rw [value] at h
  split_ifs at h with hupper hlower hdigit hplus hslash
  · cases h
    refine ⟨?_, by omega⟩
    rw [digit, if_pos (by omega), Nat.add_sub_cancel' (by omega), hc]
  · cases h
    refine ⟨?_, by omega⟩
    rw [digit, if_neg (by omega), if_pos (by omega), Nat.add_sub_cancel,
      Nat.add_sub_cancel' (by omega), hc]
  · cases h
    refine ⟨?_, by omega⟩
    rw [digit, if_neg (by omega), if_neg (by omega), if_pos (by omega), Nat.add_sub_cancel,
      Nat.add_sub_cancel' (by omega), hc]
  · cases h
    rw [hplus] at hc
    exact ⟨hc, by decide⟩
  · cases h
    rw [hslash] at hc
    exact ⟨hc, by decide⟩

theorem value_pad : value '=' = none := by decide

theorem encode_decode {cs : List Char} {bytes : List UInt8} (h : decode cs = some bytes) :
    encode bytes = cs := by
  induction cs using decode.induct generalizing bytes with
  | case1 =>
    cases h
    rfl
  | case2 c₁ c₂ =>
    simp only [decode, Option.bind_eq_bind, Option.bind_eq_some_iff,
      Option.ite_none_right_eq_some] at h
    obtain ⟨d₁, h₁, d₂, h₂, hstray, hbytes⟩ := h
    obtain ⟨rfl, hd₁⟩ := digit_of_value h₁
    obtain ⟨rfl, hd₂⟩ := digit_of_value h₂
    cases hbytes
    have h₁ : (d₁ * 4 + d₂ / 16) / 4 = d₁ := by omega
    have h₂ : (d₁ * 4 + d₂ / 16) % 4 * 16 = d₂ := by omega
    have hb₁ : d₁ * 4 + d₂ / 16 < 256 := by omega
    rw [encode, UInt8.toNat_ofNat_of_lt' hb₁, h₁, h₂]
  | case3 c₁ c₂ c₃ hne =>
    simp only [decode, Option.bind_eq_bind, Option.bind_eq_some_iff,
      Option.ite_none_right_eq_some] at h
    obtain ⟨d₁, h₁, d₂, h₂, d₃, h₃, hstray, hbytes⟩ := h
    obtain ⟨rfl, hd₁⟩ := digit_of_value h₁
    obtain ⟨rfl, hd₂⟩ := digit_of_value h₂
    obtain ⟨rfl, hd₃⟩ := digit_of_value h₃
    cases hbytes
    have h₁ : (d₁ * 4 + d₂ / 16) / 4 = d₁ := by omega
    have h₂ : (d₁ * 4 + d₂ / 16) % 4 * 16 + (d₂ % 16 * 16 + d₃ / 4) / 16 = d₂ := by omega
    have h₃ : (d₂ % 16 * 16 + d₃ / 4) % 16 * 4 = d₃ := by omega
    have hb₁ : d₁ * 4 + d₂ / 16 < 256 := by omega
    have hb₂ : d₂ % 16 * 16 + d₃ / 4 < 256 := by omega
    rw [encode, UInt8.toNat_ofNat_of_lt' hb₁, UInt8.toNat_ofNat_of_lt' hb₂, h₁, h₂, h₃]
  | case4 c₁ c₂ c₃ c₄ rest hne hne' ih =>
    rw [decode] at h
    · simp only [Option.bind_eq_bind, Option.bind_eq_some_iff] at h
      obtain ⟨d₁, h₁, d₂, h₂, d₃, h₃, d₄, h₄, bytes', hrest, hbytes⟩ := h
      obtain ⟨rfl, hd₁⟩ := digit_of_value h₁
      obtain ⟨rfl, hd₂⟩ := digit_of_value h₂
      obtain ⟨rfl, hd₃⟩ := digit_of_value h₃
      obtain ⟨rfl, hd₄⟩ := digit_of_value h₄
      cases hbytes
      have h₁ : (d₁ * 4 + d₂ / 16) / 4 = d₁ := by omega
      have h₂ : (d₁ * 4 + d₂ / 16) % 4 * 16 + (d₂ % 16 * 16 + d₃ / 4) / 16 = d₂ := by omega
      have h₃ : (d₂ % 16 * 16 + d₃ / 4) % 16 * 4 + (d₃ % 4 * 64 + d₄) / 64 = d₃ := by omega
      have h₄ : (d₃ % 4 * 64 + d₄) % 64 = d₄ := by omega
      have hb₁ : d₁ * 4 + d₂ / 16 < 256 := by omega
      have hb₂ : d₂ % 16 * 16 + d₃ / 4 < 256 := by omega
      have hb₃ : d₃ % 4 * 64 + d₄ < 256 := by omega
      rw [encode, UInt8.toNat_ofNat_of_lt' hb₁, UInt8.toNat_ofNat_of_lt' hb₂,
        UInt8.toNat_ofNat_of_lt' hb₃, h₁, h₂, h₃, h₄, ih hrest]
    · exact hne
    · exact hne'
  | case5 cs h₁ h₂ h₃ h₄ =>
    rw [decode] at h
    · cases h
    all_goals assumption

theorem ne_pad_of_value {c : Char} (h : (value c).isSome = true) : c ≠ '=' := by
  rintro rfl
  rw [value_pad] at h
  cases h

theorem decode_quad {c₁ c₂ c₃ c₄ : Char} (rest : List Char) (h : c₄ ≠ '=') :
    decode (c₁ :: c₂ :: c₃ :: c₄ :: rest) = (do
      let d₁ ← value c₁
      let d₂ ← value c₂
      let d₃ ← value c₃
      let d₄ ← value c₄
      let bytes ← decode rest
      some (UInt8.ofNat (d₁ * 4 + d₂ / 16) :: UInt8.ofNat (d₂ % 16 * 16 + d₃ / 4) ::
        UInt8.ofNat (d₃ % 4 * 64 + d₄) :: bytes)) := by
  rw [decode]
  · exact fun _ heq _ ↦ h heq
  · exact fun heq _ ↦ h heq

theorem decode_padded {m : ℕ} {body : List Char} (hlen : body.length = 4 * m + 2)
    (hbody : ∀ c ∈ body, (value c).isSome = true) {c : Char} {d : ℕ} (hc : value c = some d)
    (hstray : d % 4 = 0) :
    ∃ bytes, decode (body ++ [c, '=']) = some bytes ∧ bytes.length = 3 * m + 2 := by
  induction m generalizing body with
  | zero =>
    obtain ⟨c₁, c₂, rfl⟩ := List.length_eq_two.mp hlen
    obtain ⟨d₁, h₁⟩ := Option.isSome_iff_exists.mp (hbody c₁ (by simp))
    obtain ⟨d₂, h₂⟩ := Option.isSome_iff_exists.mp (hbody c₂ (by simp))
    refine ⟨[UInt8.ofNat (d₁ * 4 + d₂ / 16), UInt8.ofNat (d₂ % 16 * 16 + d / 4)], ?_, rfl⟩
    rw [List.cons_append, List.cons_append, List.nil_append, decode]
    · simp [h₁, h₂, hc, hstray]
    · exact ne_pad_of_value (by rw [hc]; rfl)
  | succ m ih =>
    obtain ⟨c₁, body, rfl⟩ := List.exists_cons_of_length_eq_add_one hlen
    obtain ⟨c₂, body, rfl⟩ := List.exists_cons_of_length_eq_add_one (Nat.succ.inj hlen)
    obtain ⟨c₃, body, rfl⟩ := List.exists_cons_of_length_eq_add_one
      (Nat.succ.inj (Nat.succ.inj hlen))
    obtain ⟨c₄, body, rfl⟩ := List.exists_cons_of_length_eq_add_one
      (Nat.succ.inj (Nat.succ.inj (Nat.succ.inj hlen)))
    simp only [List.length_cons, List.forall_mem_cons] at hlen hbody
    obtain ⟨hc₁, hc₂, hc₃, hc₄, hbody⟩ := hbody
    obtain ⟨bytes, hbytes, hsize⟩ := ih (show body.length = 4 * m + 2 by omega) hbody
    obtain ⟨d₁, h₁⟩ := Option.isSome_iff_exists.mp hc₁
    obtain ⟨d₂, h₂⟩ := Option.isSome_iff_exists.mp hc₂
    obtain ⟨d₃, h₃⟩ := Option.isSome_iff_exists.mp hc₃
    obtain ⟨d₄, h₄⟩ := Option.isSome_iff_exists.mp hc₄
    simp only [List.cons_append]
    rw [decode_quad _ (ne_pad_of_value hc₄), h₁, h₂, h₃, h₄, hbytes]
    exact ⟨_, rfl, by simp only [List.length_cons]; omega⟩

theorem encode_padded {m : ℕ} {bytes : List UInt8} (hlen : bytes.length = 3 * m + 2) :
    ∃ body d, encode bytes = body ++ [digit d, '='] ∧ body.length = 4 * m + 2 ∧ d < 64 ∧ d % 4 = 0 ∧
      ∀ c ∈ body, (value c).isSome = true := by
  have hdigit {n : ℕ} (hn : n < 64) : (value (digit n)).isSome = true := by
    rw [value_digit hn]
    rfl
  induction m generalizing bytes with
  | zero =>
    obtain ⟨a, b, rfl⟩ := List.length_eq_two.mp hlen
    have ha := a.toNat_lt
    have hb := b.toNat_lt
    refine ⟨[digit (a.toNat / 4), digit (a.toNat % 4 * 16 + b.toNat / 16)], b.toNat % 16 * 4, rfl,
      rfl, by omega, by omega, ?_⟩
    simp only [List.forall_mem_cons]
    exact ⟨hdigit (by omega), hdigit (by omega), by simp⟩
  | succ m ih =>
    obtain ⟨a, bytes, rfl⟩ := List.exists_cons_of_length_eq_add_one hlen
    obtain ⟨b, bytes, rfl⟩ := List.exists_cons_of_length_eq_add_one (Nat.succ.inj hlen)
    obtain ⟨c, bytes, rfl⟩ := List.exists_cons_of_length_eq_add_one
      (Nat.succ.inj (Nat.succ.inj hlen))
    have ha := a.toNat_lt
    have hb := b.toNat_lt
    have hc := c.toNat_lt
    simp only [List.length_cons] at hlen
    obtain ⟨body, d, heq, hsize, hd, hstray, hbody⟩ := ih (show bytes.length = 3 * m + 2 by omega)
    refine ⟨_ :: _ :: _ :: _ :: body, d, by rw [encode, heq]; rfl, ?_, hd, hstray, ?_⟩
    · simp only [List.length_cons]
      omega
    · simp only [List.forall_mem_cons]
      exact ⟨hdigit (by omega), hdigit (by omega), hdigit (by omega), hdigit (by omega), hbody⟩

end Foundation.Base64
