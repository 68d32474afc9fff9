import Mathlib.Data.Nat.Log
import Wireplug.Foundation.ByteDecoder

namespace Foundation.Postcard

open Decoder

def varintMax (bits : ℕ) : ℕ := (bits + 6) / 7

/-- The largest last byte of a varint that uses all its bytes. -/
def maxOfLastByte (bits : ℕ) : ℕ := 2 ^ (bits % 7) - 1

def encodeVarintLoop : ℕ → ℕ → Bytes
  | 0, _ => []
  | k + 1, n =>
    if n < 128 then [UInt8.ofNat n]
    else UInt8.ofNat (n % 128 + 128) :: encodeVarintLoop k (n / 128)

def encodeVarint (bits n : ℕ) : Bytes := encodeVarintLoop (varintMax bits) n

def varintLoop (last : ℕ) : ℕ → Decoder ℕ
  | 0 => fail
  | k + 1 => do
    let b ← byte
    if b.toNat < 128 then
      if k = 0 ∧ last < b.toNat then fail else Pure.pure b.toNat
    else do
      let n ← varintLoop last k
      Pure.pure (b.toNat - 128 + 128 * n)

def varint (bits : ℕ) : Decoder ℕ := varintLoop (maxOfLastByte bits) (varintMax bits)

theorem decodes_varintLoop {last : ℕ} (hlast : last < 128) (k n : ℕ)
    (hn : n < 128 ^ k * (last + 1)) :
    (varintLoop last (k + 1)).Decodes (encodeVarintLoop (k + 1) n) n := by
  induction k generalizing n with
  | zero =>
    have h : n < 128 := by omega
    have hb : (UInt8.ofNat n).toNat = n := by rw [UInt8.toNat_ofNat']; omega
    intro tail
    simp only [encodeVarintLoop, if_pos h, varintLoop, run_bind]
    rw [Decodes.byte, Option.bind_some]
    simp only [hb, if_pos h, if_neg (show ¬(True ∧ last < n) by omega), run_pure]
  | succ k ih =>
    by_cases h : n < 128
    · have hb : (UInt8.ofNat n).toNat = n := by rw [UInt8.toNat_ofNat']; omega
      intro tail
      rw [varintLoop, encodeVarintLoop, if_pos h, run_bind, Decodes.byte, Option.bind_some]
      simp only [hb, if_pos h, if_neg (show ¬(k + 1 = 0 ∧ last < n) by omega), run_pure]
    · have hb : (UInt8.ofNat (n % 128 + 128)).toNat = n % 128 + 128 := by
        rw [UInt8.toNat_ofNat']; omega
      have hdiv : n / 128 < 128 ^ k * (last + 1) := by
        rw [Nat.div_lt_iff_lt_mul (by omega)]
        calc n < 128 ^ (k + 1) * (last + 1) := hn
          _ = 128 ^ k * (last + 1) * 128 := by rw [Nat.pow_succ]; ac_rfl
      have hrest := ih (n / 128) hdiv
      intro tail
      rw [varintLoop, encodeVarintLoop, if_neg h, List.cons_append, run_bind,
        ← List.singleton_append, Decodes.byte, Option.bind_some]
      simp only [hb, if_neg (show ¬n % 128 + 128 < 128 by omega), run_bind]
      rw [hrest, Option.bind_some, run_pure]
      simp only [Option.some.injEq, Prod.mk.injEq, and_true]
      omega

theorem varint_capacity {bits : ℕ} (hb : bits % 7 ≠ 0) :
    varintMax bits = bits / 7 + 1 ∧ 128 ^ (bits / 7) * (maxOfLastByte bits + 1) = 2 ^ bits := by
  refine ⟨by unfold varintMax; omega, ?_⟩
  have hpos : 0 < 2 ^ (bits % 7) := Nat.two_pow_pos _
  have hsucc : maxOfLastByte bits + 1 = 2 ^ (bits % 7) := by unfold maxOfLastByte; omega
  calc 128 ^ (bits / 7) * (maxOfLastByte bits + 1)
      = 2 ^ (7 * (bits / 7)) * 2 ^ (bits % 7) := by rw [hsucc, Nat.pow_mul]
    _ = 2 ^ bits := by rw [← Nat.pow_add, Nat.div_add_mod]

theorem decodes_varint {bits n : ℕ} (hb : bits % 7 ≠ 0) (hn : n < 2 ^ bits) :
    (varint bits).Decodes (encodeVarint bits n) n := by
  obtain ⟨hmax, hcap⟩ := varint_capacity hb
  have hlast : maxOfLastByte bits < 128 := by
    have hmod : bits % 7 < 7 := Nat.mod_lt _ (by omega)
    have hpow : 2 ^ (bits % 7) ≤ 2 ^ 7 := Nat.pow_le_pow_right (by omega) (by omega)
    unfold maxOfLastByte
    omega
  rw [varint, encodeVarint, hmax]
  exact decodes_varintLoop hlast _ n (by rw [hcap]; exact hn)

theorem encodeVarintLoop_length (k n : ℕ) :
    (encodeVarintLoop k n).length = min k (Nat.log 128 n + 1) := by
  induction k generalizing n with
  | zero => rw [encodeVarintLoop, List.length_nil, Nat.zero_min]
  | succ k ih =>
    by_cases h : n < 128
    · rw [encodeVarintLoop, if_pos h, List.length_singleton, Nat.log_of_lt h]
      omega
    · have hlog : Nat.log 128 n = Nat.log 128 (n / 128) + 1 :=
        Nat.log_of_one_lt_of_le (by omega) (by omega)
      rw [encodeVarintLoop, if_neg h, List.length_cons, ih, hlog]
      omega

def varintSize (bits n : ℕ) : ℕ := min (varintMax bits) (Nat.log 128 n + 1)

theorem encodeVarint_length (bits n : ℕ) : (encodeVarint bits n).length = varintSize bits n :=
  encodeVarintLoop_length _ n

theorem encodeVarint_ne_nil {bits : ℕ} (hb : bits % 7 ≠ 0) (n : ℕ) :
    encodeVarint bits n ≠ [] := by
  rw [encodeVarint, (varint_capacity hb).1, encodeVarintLoop]
  split <;> exact List.cons_ne_nil _ _

def RoundTrips {α : Type} (d : Decoder α) (e : α → Bytes) : Prop :=
  ∀ a, (e a).length < 2 ^ 64 → d.Decodes (e a) a

def encodeU8 (b : UInt8) : Bytes := [b]

theorem roundTrips_u8 : RoundTrips byte encodeU8 := fun b _ ↦ Decodes.byte b

def encodeU16 (n : UInt16) : Bytes := encodeVarint 16 n.toNat

def u16 : Decoder UInt16 := do
  let n ← varint 16
  Pure.pure (UInt16.ofNat n)

theorem roundTrips_u16 : RoundTrips u16 encodeU16 := by
  intro n _
  have h := (decodes_varint (by omega) n.toNat_lt).map UInt16.ofNat
  rwa [UInt16.ofNat_toNat] at h

/-- Lengths travel as `usize`, 64 bits wide on the targets considered. -/
def encodeLength (n : ℕ) : Bytes := encodeVarint 64 n

def length : Decoder ℕ := varint 64

theorem decodes_length {n : ℕ} (hn : n < 2 ^ 64) : length.Decodes (encodeLength n) n :=
  decodes_varint (by omega) hn

def encodeUsize (n : UInt64) : Bytes := encodeVarint 64 n.toNat

def usize : Decoder UInt64 := do
  let n ← varint 64
  Pure.pure (UInt64.ofNat n)

theorem roundTrips_usize : RoundTrips usize encodeUsize := by
  intro n _
  have h := (decodes_varint (by omega) n.toNat_lt).map UInt64.ofNat
  rwa [UInt64.ofNat_toNat] at h

def encodeVariant (n : ℕ) : Bytes := encodeVarint 32 n

def variant : Decoder ℕ := varint 32

theorem decodes_variant {n : ℕ} (hn : n < 2 ^ 32) : variant.Decodes (encodeVariant n) n :=
  decodes_varint (by omega) hn

def encodeBool (b : Bool) : Bytes := [if b then 1 else 0]

def bool : Decoder Bool := do
  let b ← byte
  if b = 0 then Pure.pure false
  else if b = 1 then Pure.pure true
  else fail

theorem roundTrips_bool : RoundTrips bool encodeBool := by
  intro b _
  cases b <;> exact fun tail ↦ rfl

variable {α β : Type}

def encodeOption (e : α → Bytes) : Option α → Bytes
  | none => [0]
  | some a => 1 :: e a

def option (d : Decoder α) : Decoder (Option α) := do
  let b ← byte
  if b = 0 then Pure.pure none
  else if b = 1 then do
    let a ← d
    Pure.pure (some a)
  else fail

theorem RoundTrips.option {d : Decoder α} {e : α → Bytes} (h : RoundTrips d e) :
    RoundTrips (option d) (encodeOption e) := by
  intro o hlen
  cases o with
  | none => exact fun tail ↦ rfl
  | some a =>
    rw [encodeOption, List.length_cons] at hlen
    exact (Decodes.byte 1).bind ((h a (by omega)).map some)

theorem encodeOption_length {e : α → Bytes} {size : ℕ} (h : ∀ a, (e a).length = size)
    (o : Option α) : (encodeOption e o).length = if o.isSome then size + 1 else 1 := by
  cases o with
  | none => rfl
  | some a => rw [encodeOption, List.length_cons, h, Option.isSome_some, if_pos rfl]

def encodePair (e : α → Bytes) (f : β → Bytes) (p : α × β) : Bytes := e p.1 ++ f p.2

def pair (d : Decoder α) (c : Decoder β) : Decoder (α × β) := do
  let a ← d
  let b ← c
  Pure.pure (a, b)

theorem encodePair_ne_nil {e : α → Bytes} {f : β → Bytes} (he : ∀ a, e a ≠ []) (p : α × β) :
    encodePair e f p ≠ [] := List.append_ne_nil_of_left_ne_nil (he p.1) _

theorem RoundTrips.pair {d : Decoder α} {c : Decoder β} {e : α → Bytes} {f : β → Bytes}
    (hd : RoundTrips d e) (hc : RoundTrips c f) : RoundTrips (pair d c) (encodePair e f) := by
  intro p hlen
  rw [encodePair, List.length_append] at hlen
  exact (hd p.1 (by omega)).bind ((hc p.2 (by omega)).map (Prod.mk p.1))

def encodeSeq (e : α → Bytes) (as : List α) : Bytes :=
  encodeLength as.length ++ as.flatMap e

def seq (d : Decoder α) : Decoder (List α) := do
  let n ← length
  d.replicate n

theorem length_le_flatMap {e : α → Bytes} (he : ∀ a, e a ≠ []) (as : List α) :
    as.length ≤ (as.flatMap e).length := by
  induction as with
  | nil => simp
  | cons a as ih =>
    have ha := List.length_pos_iff.mpr (he a)
    rw [List.flatMap_cons, List.length_append, List.length_cons]
    omega

theorem length_le_of_mem {e : α → Bytes} {a : α} {as : List α} (ha : a ∈ as) :
    (e a).length ≤ (as.flatMap e).length := by
  obtain ⟨l, r, rfl⟩ := List.append_of_mem ha
  rw [List.flatMap_append, List.flatMap_cons, List.length_append, List.length_append]
  omega

theorem encodeSeq_length (e : α → Bytes) (as : List α) : (encodeSeq e as).length =
    varintSize 64 as.length + (as.map fun a ↦ (e a).length).sum := by
  rw [encodeSeq, List.length_append, encodeLength, encodeVarint_length, List.length_flatMap]

theorem RoundTrips.seq {d : Decoder α} {e : α → Bytes} (h : RoundTrips d e)
    (he : ∀ a, e a ≠ []) : RoundTrips (seq d) (encodeSeq e) := by
  intro as hlen
  rw [encodeSeq, List.length_append] at hlen
  have hcount := length_le_flatMap he as
  refine (decodes_length (by omega)).bind (Decodes.replicate as fun a ha ↦ h a ?_)
  have hmem : (e a).length ≤ (as.flatMap e).length := length_le_of_mem ha
  omega

def utf8Bytes (s : String) : Bytes := s.toByteArray.data.toList

theorem utf8Bytes_length (s : String) : (utf8Bytes s).length = s.utf8ByteSize := rfl

def encodeString (s : String) : Bytes := encodeLength s.utf8ByteSize ++ utf8Bytes s

def string : Decoder String := do
  let n ← length
  let bytes ← take n
  ofOption (String.fromUTF8? ⟨bytes.toArray⟩)

theorem fromUTF8?_utf8Bytes (s : String) :
    String.fromUTF8? ⟨(utf8Bytes s).toArray⟩ = some s := by
  have h : (⟨(utf8Bytes s).toArray⟩ : ByteArray) = s.toByteArray := by simp [utf8Bytes]
  rw [h, String.fromUTF8?, dif_pos s.isValidUTF8]
  rfl

theorem encodeString_length (s : String) :
    (encodeString s).length = varintSize 64 s.utf8ByteSize + s.utf8ByteSize := by
  rw [encodeString, List.length_append, encodeLength, encodeVarint_length, utf8Bytes_length]

theorem encodeString_ne_nil (s : String) : encodeString s ≠ [] :=
  List.append_ne_nil_of_left_ne_nil (encodeVarint_ne_nil (by omega) _) _

theorem roundTrips_string : RoundTrips string encodeString := by
  intro s hlen
  rw [encodeString, List.length_append, utf8Bytes_length] at hlen
  exact (decodes_length (by omega)).bind
    ((Decodes.take (utf8Bytes s)).check (fromUTF8?_utf8Bytes s))

def encodeArray {n : ℕ} (v : Vector UInt8 n) : Bytes := v.toList

def toVector (n : ℕ) (bytes : Bytes) : Option (Vector UInt8 n) :=
  if h : bytes.toArray.size = n then some ⟨bytes.toArray, h⟩ else none

def array (n : ℕ) : Decoder (Vector UInt8 n) := do
  let bytes ← take n
  ofOption (toVector n bytes)

theorem encodeArray_length {n : ℕ} (v : Vector UInt8 n) : (encodeArray v).length = n := by
  simp [encodeArray]

theorem roundTrips_array (n : ℕ) : RoundTrips (array n) encodeArray := by
  intro v _
  have hread : toVector n (encodeArray v) = some v := by
    rw [toVector, dif_pos (by simp [encodeArray])]
    cases v
    simp [encodeArray, Vector.toList]
  have h := (Decodes.take (encodeArray v)).check hread
  rwa [encodeArray_length] at h

/-- A value at the start of the bytes; what follows it is ignored. -/
def fromBytes (d : Decoder α) (bytes : Bytes) : Option α := (d.run bytes).map Prod.fst

theorem fromBytes_of_decodes {d : Decoder α} {bytes : Bytes} {a : α} (h : d.Decodes bytes a) :
    fromBytes d bytes = some a := by
  rw [fromBytes, h.run, Option.map_some]

theorem fromBytes_append {d : Decoder α} {bytes : Bytes} {a : α} (h : d.Decodes bytes a)
    (tail : Bytes) : fromBytes d (bytes ++ tail) = some a := by
  rw [fromBytes, h, Option.map_some]

theorem fromBytes_map (d : Decoder α) (g : α → β) (bytes : Bytes) :
    fromBytes (d >>= fun a ↦ Pure.pure (g a)) bytes = (fromBytes d bytes).map g := by
  rw [fromBytes, fromBytes, run_bind]
  cases d.run bytes <;> rfl

theorem consumes_varint (bits : ℕ) : (varint bits).Consumes := by
  rw [varint]
  cases varintMax bits with
  | zero => exact Consumes.fail
  | succ k => exact Consumes.byte.bind _

theorem consumes_string : string.Consumes := (consumes_varint 64).bind _

theorem length_seq {d : Decoder α} (h : d.Consumes) {input rest : Bytes} {as : List α}
    (hrun : (seq d).run input = some (as, rest)) : as.length ≤ input.length := by
  obtain ⟨⟨n, mid⟩, hlength, hrest⟩ := Option.bind_eq_some_iff.mp hrun
  have hcount : as.length + rest.length ≤ mid.length := h.length_replicate hrest
  have hmid := consumes_varint 64 input n mid hlength
  omega

theorem utf8ByteSize_of_fromUTF8? {bytes : ByteArray} {s : String}
    (h : String.fromUTF8? bytes = some s) : s.utf8ByteSize = bytes.size := by
  rw [String.fromUTF8?] at h
  split at h
  · cases h
    rfl
  · cases h

theorem costs_string : string.Costs fun s ↦ s.utf8ByteSize + 1 := by
  intro input s rest hrun
  obtain ⟨⟨n, mid⟩, hlength, hrun⟩ := Option.bind_eq_some_iff.mp hrun
  obtain ⟨⟨bytes, mid'⟩, htake, hrun⟩ := Option.bind_eq_some_iff.mp hrun
  have hmid := consumes_varint 64 input n mid hlength
  obtain ⟨hn, rfl, rfl⟩ := run_take.mp htake
  obtain ⟨hs, rfl⟩ := run_ofOption.mp hrun
  have hsize : s.utf8ByteSize = n := by
    rw [utf8ByteSize_of_fromUTF8? hs]
    change (mid.take n).toArray.size = n
    rw [List.size_toArray, List.length_take, Nat.min_eq_left hn]
  dsimp only at hn ⊢
  rw [List.length_drop]
  omega

theorem costs_seq {d : Decoder α} {cost : α → ℕ} (h : d.Costs cost) :
    (seq d).Costs fun as ↦ (as.map cost).sum + 1 := by
  intro input as rest hrun
  obtain ⟨⟨n, mid⟩, hlength, hrest⟩ := Option.bind_eq_some_iff.mp hrun
  have hsum : rest.length + (as.map cost).sum ≤ mid.length := h.replicate n mid as rest hrest
  have hmid := consumes_varint 64 input n mid hlength
  dsimp only
  omega

def Unfinished (k : ℕ) (bytes : Bytes) : Prop :=
  bytes.length < k ∧ ∀ b ∈ bytes, 128 ≤ b.toNat

theorem unfinished_cons {k : ℕ} {b : UInt8} {bytes : Bytes} (hb : 128 ≤ b.toNat) :
    Unfinished (k + 1) (b :: bytes) ↔ Unfinished k bytes := by
  simp [Unfinished, hb]

theorem fromBytes_varintLoop_cons (last k : ℕ) (b : UInt8) (bytes : Bytes) :
    fromBytes (varintLoop last (k + 1)) (b :: bytes) =
      if b.toNat < 128 then (if k = 0 ∧ last < b.toNat then none else some b.toNat)
      else (fromBytes (varintLoop last k) bytes).map (b.toNat - 128 + 128 * ·) := by
  rw [← fromBytes_map, fromBytes, varintLoop, run_bind, byte, Option.bind_some]
  split
  · split <;> rfl
  · rfl

theorem fromBytes_varintLoop_append {last k : ℕ} {bytes : Bytes} (h : ¬ Unfinished k bytes)
    (tail tail' : Bytes) : fromBytes (varintLoop last k) (bytes ++ tail) =
      fromBytes (varintLoop last k) (bytes ++ tail') := by
  induction k generalizing bytes with
  | zero => rfl
  | succ k ih =>
    cases bytes with
    | nil => exact (h ⟨Nat.succ_pos k, fun b hb ↦ by cases hb⟩).elim
    | cons b bytes =>
      rw [List.cons_append, List.cons_append, fromBytes_varintLoop_cons,
        fromBytes_varintLoop_cons]
      split
      · rfl
      · next hb =>
        rw [unfinished_cons (Nat.le_of_not_lt hb)] at h
        rw [ih h]

theorem fromBytes_varintLoop_zero {last k : ℕ} {bytes : Bytes} (h : Unfinished k bytes)
    (tail : Bytes) : (fromBytes (varintLoop last k) (bytes ++ 0 :: tail)).isSome = true := by
  induction k generalizing bytes with
  | zero => exact (Nat.not_lt_zero _ h.1).elim
  | succ k ih =>
    cases bytes with
    | nil =>
      have hzero : ¬ (k = 0 ∧ last < (0 : UInt8).toNat) := fun h ↦ Nat.not_lt_zero _ h.2
      rw [List.nil_append, fromBytes_varintLoop_cons, if_pos (by decide), if_neg hzero]
      rfl
    | cons b bytes =>
      have hb : 128 ≤ b.toNat := h.2 b List.mem_cons_self
      rw [List.cons_append, fromBytes_varintLoop_cons, if_neg (Nat.not_lt.mpr hb),
        Option.isSome_map]
      exact ih ((unfinished_cons hb).mp h)

theorem fromBytes_varintLoop_open {last k : ℕ} {bytes : Bytes} (hlen : bytes.length = k)
    (h : ∀ b ∈ bytes, 128 ≤ b.toNat) (tail : Bytes) :
    fromBytes (varintLoop last k) (bytes ++ tail) = none := by
  induction k generalizing bytes with
  | zero => rfl
  | succ k ih =>
    cases bytes with
    | nil => cases hlen
    | cons b bytes =>
      have hb : 128 ≤ b.toNat := h b List.mem_cons_self
      rw [List.cons_append, fromBytes_varintLoop_cons, if_neg (Nat.not_lt.mpr hb),
        ih (Nat.succ.inj hlen) fun b' hb' ↦ h b' (List.mem_cons_of_mem _ hb')]
      rfl

theorem run_varintLoop_cons (last k : ℕ) (b : UInt8) (bytes : Bytes) :
    (varintLoop last (k + 1)).run (b :: bytes) =
      if b.toNat < 128 then (if k = 0 ∧ last < b.toNat then none else some (b.toNat, bytes))
      else ((varintLoop last k).run bytes).map fun p ↦ (b.toNat - 128 + 128 * p.1, p.2) := by
  rw [varintLoop, run_bind, byte, Option.bind_some]
  split
  · split <;> rfl
  · cases h : (varintLoop last k).run bytes <;> simp [h]

theorem length_le_of_decodes_varintLoop {last k n : ℕ} {bytes : Bytes}
    (h : (varintLoop last k).Decodes bytes n) : bytes.length ≤ k := by
  induction k generalizing bytes n with
  | zero => cases h.run
  | succ k ih =>
    cases bytes with
    | nil => exact Nat.zero_le _
    | cons b bytes =>
      apply Nat.succ_le_succ
      have hrun := h.run
      rw [run_varintLoop_cons] at hrun
      by_cases hb : b.toNat < 128
      · rw [if_pos hb] at hrun
        split at hrun
        · cases hrun
        · cases hrun
          exact Nat.zero_le _
      · rw [if_neg hb, Option.map_eq_some_iff] at hrun
        obtain ⟨⟨m, rest⟩, hrest, heq⟩ := hrun
        cases heq
        obtain ⟨used, hused, hdec⟩ := run_prefix hrest
        rw [List.append_nil] at hused
        subst hused
        exact ih hdec

theorem unfinished_of_cut {last k n : ℕ} {bytes missing : Bytes}
    (h : (varintLoop last k).Decodes (bytes ++ missing) n) (hmissing : missing ≠ []) :
    Unfinished k bytes := by
  by_contra hopen
  have heq := @fromBytes_varintLoop_append last k bytes hopen missing []
  rw [fromBytes_of_decodes h, List.append_nil, fromBytes, run_of_proper_prefix h hmissing] at heq
  cases heq

theorem decodes_varintLoop_zero {last k : ℕ} {bytes : Bytes} (h : Unfinished k bytes) :
    ∃ n, (varintLoop last k).Decodes (bytes ++ [0]) n ∧
      ∀ missing m, (varintLoop last k).Decodes (bytes ++ missing) m → n ≤ m := by
  induction k generalizing bytes with
  | zero => exact (Nat.not_lt_zero _ h.1).elim
  | succ k ih =>
    cases bytes with
    | nil =>
      refine ⟨0, fun tail ↦ ?_, fun _ _ _ ↦ Nat.zero_le _⟩
      rw [List.nil_append, List.singleton_append, run_varintLoop_cons]
      simp
    | cons b bytes =>
      have hb : 128 ≤ b.toNat := h.2 b List.mem_cons_self
      obtain ⟨n, hdec, hleast⟩ := ih ((unfinished_cons hb).mp h)
      refine ⟨b.toNat - 128 + 128 * n, fun tail ↦ ?_, fun missing m hm ↦ ?_⟩
      · rw [List.cons_append, List.cons_append, run_varintLoop_cons,
          if_neg (Nat.not_lt.mpr hb), hdec]
        rfl
      · have hrun := hm.run
        rw [List.cons_append, run_varintLoop_cons, if_neg (Nat.not_lt.mpr hb),
          Option.map_eq_some_iff] at hrun
        obtain ⟨⟨m', rest⟩, hrest, heq⟩ := hrun
        cases heq
        obtain ⟨used, hused, hdec'⟩ := run_prefix hrest
        rw [List.append_nil] at hused
        subst hused
        have hle := hleast missing m' hdec'
        dsimp only
        omega

end Foundation.Postcard
