import Wireplug.Key

namespace Wireplug

open Foundation

def IsBase64Char (c : Char) : Prop := (Base64.value c).isSome = true ∨ c = '='

/-- One pad, at the very end, and no bit set under it. -/
def PaddedOnce (s : String) : Prop :=
  ∃ body c d, s.toList = body ++ [c, '='] ∧ '=' ∉ body ∧ Base64.value c = some d ∧ d % 4 = 0

theorem value_isSome_iff (c : Char) :
    (Base64.value c).isSome = true ↔ (c.isAlphanum || c = '+' || c = '/') = true := by
  have hplus : c = '+' ↔ c.toNat = 43 := Char.toNat_inj.symm
  have hslash : c = '/' ↔ c.toNat = 47 := Char.toNat_inj.symm
  have halphanum : c.isAlphanum = ((decide (65 ≤ c.val ∧ c.val ≤ 90) ||
      decide (97 ≤ c.val) && decide (c.val ≤ 122)) ||
      decide (48 ≤ c.val) && decide (c.val ≤ 57)) := rfl
  simp only [Base64.value, Bool.or_eq_true, decide_eq_true_eq, hplus, hslash, halphanum,
    Bool.and_eq_true, UInt32.le_iff_toNat_le]
  change _ ↔ ((((65 ≤ c.toNat ∧ c.toNat ≤ 90) ∨ 97 ≤ c.toNat ∧ c.toNat ≤ 122) ∨
    48 ≤ c.toNat ∧ c.toNat ≤ 57) ∨ c.toNat = 43) ∨ c.toNat = 47
  split_ifs <;> simp <;> omega

theorem isValidWgkey_iff (s : String) :
    isValidWgkey s = true ↔ s.utf8ByteSize = 44 ∧ ∀ c ∈ s.toList, IsBase64Char c := by
  have hchar (c : Char) : (c.isAlphanum || c = '+' || c = '/' || c = '=') = true ↔
      IsBase64Char c := by
    rw [IsBase64Char, value_isSome_iff, Bool.or_eq_true, decide_eq_true_eq]
  rw [isValidWgkey]
  split_ifs with hsize
  · simp [hsize]
  · simp [not_not.mp hsize, ← hchar]

theorem utf8Size_of_isBase64Char {c : Char} (h : IsBase64Char c) : c.utf8Size = 1 := by
  obtain hvalue | rfl := h
  · obtain ⟨n, hn⟩ := Option.isSome_iff_exists.mp hvalue
    obtain ⟨rfl, hlt⟩ := Base64.digit_of_value hn
    exact Base64.digit_ascii hlt
  · rfl

theorem length_of_isValidWgkey {s : String} (h : isValidWgkey s = true) :
    s.toList.length = 44 := by
  obtain ⟨hsize, hchars⟩ := (isValidWgkey_iff s).mp h
  rw [← Base64.utf8ByteSize_of_ascii fun c hc ↦ utf8Size_of_isBase64Char (hchars c hc),
    String.ofList_toList, hsize]

theorem paddedOnce_toBase64 (k : Key) : PaddedOnce k.toBase64 := by
  have hlen : k.bytes.toList.length = 3 * 10 + 2 := Vector.length_toList
  obtain ⟨body, d, heq, -, hd, hstray, hbody⟩ := Base64.encode_padded hlen
  refine ⟨body, _, d, by rw [Key.toBase64, String.toList_ofList, heq], ?_,
    Base64.value_digit hd, hstray⟩
  intro hmem
  exact Base64.ne_pad_of_value (hbody _ hmem) rfl

theorem exists_key_of_paddedOnce {s : String} (hvalid : isValidWgkey s = true)
    (hpad : PaddedOnce s) : ∃ k : Key, s = k.toBase64 := by
  obtain ⟨body, c, d, heq, hbody, hc, hstray⟩ := hpad
  have hlen := length_of_isValidWgkey hvalid
  have hchars := ((isValidWgkey_iff s).mp hvalid).2
  rw [heq] at hlen hchars
  have hdigits (x : Char) (hx : x ∈ body) : (Base64.value x).isSome = true := by
    apply (hchars x (List.mem_append_left _ hx)).resolve_right
    rintro rfl
    exact hbody hx
  have hsize : body.length = 4 * 10 + 2 := by
    simp only [List.length_append, List.length_cons, List.length_nil] at hlen
    omega
  obtain ⟨bytes, hdecode, hbytes⟩ := Base64.decode_padded hsize hdigits hc hstray
  refine ⟨⟨⟨bytes.toArray, hbytes⟩⟩, ?_⟩
  apply String.toList_injective
  rw [Key.toBase64, String.toList_ofList, heq]
  exact (Base64.encode_decode hdecode).symm

theorem exists_key_iff (s : String) :
    (∃ k : Key, s = k.toBase64) ↔ isValidWgkey s = true ∧ PaddedOnce s := by
  constructor
  · rintro ⟨k, rfl⟩
    exact ⟨isValidWgkey_toBase64 k, paddedOnce_toBase64 k⟩
  · rintro ⟨hvalid, hpad⟩
    exact exists_key_of_paddedOnce hvalid hpad

theorem strictBase64_eq_some_iff {s : String} {k : Key} :
    strictBase64 s = some k ↔ s = k.toBase64 := by
  constructor
  · intro h
    simp only [strictBase64, Option.bind_eq_bind, Option.bind_eq_some_iff] at h
    obtain ⟨bytes, hdecode, key, hkey, heq⟩ := h
    cases heq
    rw [Postcard.toVector, Option.dite_none_right_eq_some] at hkey
    obtain ⟨hsize, hkey⟩ := hkey
    cases hkey
    apply String.toList_injective
    rw [Key.toBase64, String.toList_ofList]
    exact (Base64.encode_decode hdecode).symm
  · rintro rfl
    exact strictBase64_toBase64 k

/-- What is known of `from_base64`: it reads back what `to_base64` writes, and of the strings that
the server lets through it reads no others. -/
structure DecodesKeys (fromBase64 : String → Option Key) : Prop where
  toBase64 : ∀ k, fromBase64 k.toBase64 = some k
  strict : ∀ s k, isValidWgkey s = true → fromBase64 s = some k → s = k.toBase64

theorem strictBase64_decodesKeys : DecodesKeys strictBase64 :=
  ⟨strictBase64_toBase64, fun _ _ _ ↦ strictBase64_eq_some_iff.mp⟩

section Decoding

variable {fromBase64 : String → Option Key}

theorem DecodesKeys.isSome_iff (h : DecodesKeys fromBase64) {s : String}
    (hs : isValidWgkey s = true) : (fromBase64 s).isSome = true ↔ PaddedOnce s := by
  constructor
  · intro hsome
    obtain ⟨k, hk⟩ := Option.isSome_iff_exists.mp hsome
    obtain rfl := h.strict s k hs hk
    exact paddedOnce_toBase64 k
  · intro hpad
    obtain ⟨k, rfl⟩ := exists_key_of_paddedOnce hs hpad
    rw [h.toBase64]
    rfl

theorem isSome_iff_of_strict (hkeys : ∀ k, fromBase64 k.toBase64 = some k)
    (hstrict : ∀ s k, fromBase64 s = some k → s = k.toBase64) (s : String) :
    (fromBase64 s).isSome = true ↔ isValidWgkey s = true ∧ PaddedOnce s := by
  rw [← exists_key_iff, Option.isSome_iff_exists]
  refine exists_congr fun k ↦ ⟨hstrict s k, ?_⟩
  rintro rfl
  exact hkeys k

end Decoding

def WireplugAnnouncement.pubkeys (a : WireplugAnnouncement) : List String :=
  a.initiatorPubkey :: a.peerPubkeys

theorem valid_iff (a : WireplugAnnouncement) :
    a.valid = true ↔ (∀ s ∈ a.pubkeys, isValidWgkey s = true) ∧ 1024 ≤ a.wgPort := by
  simp only [WireplugAnnouncement.valid, WireplugAnnouncement.pubkeys, Bool.and_eq_true,
    List.all_eq_true, List.forall_mem_cons, decide_eq_true_eq]

/-- The filter accepts the 44 byte strings over the characters of padded base64. A string it
accepts is a key exactly where it is well padded, and so for the keys of an announcement. -/
theorem isValidWgkey_key {fromBase64 : String → Option Key} (h : DecodesKeys fromBase64)
    (s : String) (a : WireplugAnnouncement) :
    (isValidWgkey s = true ↔ s.utf8ByteSize = 44 ∧ ∀ c ∈ s.toList, IsBase64Char c) ∧
      ((∃ k : Key, s = k.toBase64) ↔ isValidWgkey s = true ∧ PaddedOnce s) ∧
      (a.valid = true ↔ (∀ p ∈ a.pubkeys, isValidWgkey p = true) ∧ 1024 ≤ a.wgPort) ∧
      (a.valid = true → ((∀ p ∈ a.pubkeys, (fromBase64 p).isSome = true) ↔
        ∀ p ∈ a.pubkeys, PaddedOnce p)) ∧
      ((∀ s k, fromBase64 s = some k → s = k.toBase64) →
        ((∀ p ∈ a.pubkeys, (fromBase64 p).isSome = true) ∧ 1024 ≤ a.wgPort ↔
          a.valid = true ∧ ∀ p ∈ a.pubkeys, PaddedOnce p)) ∧
      ∀ k : Key, isValidWgkey k.toBase64 = true := by
  refine ⟨isValidWgkey_iff s, exists_key_iff s, valid_iff a, fun hvalid ↦ ?_, fun hstrict ↦ ?_,
    isValidWgkey_toBase64⟩
  · exact forall₂_congr fun p hp ↦ h.isSome_iff (((valid_iff a).mp hvalid).1 p hp)
  · rw [valid_iff]
    simp only [isSome_iff_of_strict h.toBase64 hstrict]
    constructor
    · rintro ⟨hkeys, hport⟩
      exact ⟨⟨fun p hp ↦ (hkeys p hp).1, hport⟩, fun p hp ↦ (hkeys p hp).2⟩
    · rintro ⟨⟨hkeys, hport⟩, hpad⟩
      exact ⟨fun p hp ↦ ⟨hkeys p hp, hpad p hp⟩, hport⟩

theorem isValidWgkey_key_filled :
    (strictBase64 (Key.filled 1).toBase64).isSome = true ∧ PaddedOnce (Key.filled 2).toBase64 := by
  let a := bareAnnouncement (.filled 1) (.filled 2)
  have hvalid : a.valid = true := bareAnnouncement_valid _ _
  obtain ⟨-, -, -, hdecoded, hexactly, -⟩ :=
    isValidWgkey_key strictBase64_decodesKeys (Key.filled 1).toBase64 a
  have hpads : ∀ p ∈ a.pubkeys, PaddedOnce p := by
    intro p hp
    rcases List.mem_cons.mp hp with rfl | hp
    · exact paddedOnce_toBase64 _
    · rw [List.mem_singleton.mp hp]
      exact paddedOnce_toBase64 _
  have hexactly := (hexactly fun s k ↦ strictBase64_eq_some_iff.mp).mpr ⟨hvalid, hpads⟩
  exact ⟨(hdecoded hvalid).mpr hpads _ List.mem_cons_self,
    (hdecoded hvalid).mp hexactly.1 _ (List.mem_cons_of_mem _ List.mem_cons_self)⟩

def pads (n : ℕ) : String := String.ofList (List.replicate n '=')

theorem isValidWgkey_pads (n : ℕ) : isValidWgkey (pads n) = true ↔ n = 44 := by
  have hascii (c : Char) (hc : c ∈ List.replicate n '=') : c.utf8Size = 1 := by
    rw [List.eq_of_mem_replicate hc]
    rfl
  rw [isValidWgkey_iff, pads, Base64.utf8ByteSize_of_ascii hascii, List.length_replicate,
    String.toList_ofList, and_iff_left]
  intro c hc
  exact .inr (List.eq_of_mem_replicate hc)

theorem not_paddedOnce_pads (n : ℕ) : ¬PaddedOnce (pads n) := by
  rintro ⟨body, c, d, heq, -, hc, -⟩
  rw [pads, String.toList_ofList] at heq
  have hmem : c ∈ List.replicate n '=' := by simp [heq]
  rw [List.eq_of_mem_replicate hmem] at hc
  cases hc

def padsAnnouncement : WireplugAnnouncement where
  initiatorPubkey := pads 44
  peerPubkeys := []
  ipv6 := none
  wgPort := 51820
  lanAddrs := []
  needsRelay := false

/-- Forty-four pads pass the filter, but no key is encoded so. -/
theorem pads_accepted : isValidWgkey (pads 44) = true ∧ (¬∃ k : Key, pads 44 = k.toBase64) ∧
    padsAnnouncement.valid = true ∧
      strictBase64 padsAnnouncement.initiatorPubkey = none := by
  have hvalid : isValidWgkey (pads 44) = true := (isValidWgkey_pads 44).mpr rfl
  refine ⟨hvalid, ?_, ?_, ?_⟩
  · rw [exists_key_iff]
    exact fun h ↦ not_paddedOnce_pads 44 h.2
  · apply (valid_iff _).mpr
    refine ⟨?_, by decide⟩
    intro p hp
    rw [List.eq_of_mem_singleton hp]
    exact hvalid
  · rw [← Option.not_isSome_iff_eq_none, isSome_iff_of_strict strictBase64_toBase64
      fun s k ↦ strictBase64_eq_some_iff.mp]
    exact fun h ↦ not_paddedOnce_pads 44 h.2

end Wireplug
