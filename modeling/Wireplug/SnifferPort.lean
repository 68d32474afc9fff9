import Wireplug.Sniffer
import Mathlib.Data.List.Induction

namespace Wireplug

open Foundation Program

namespace Bpf

variable {hdr : BpfHdr} {filter : Filter}

structure Seen (hdr : BpfHdr) (filter : Filter) where
  buf : Bytes
  current : Option (Capture hdr filter)
  written : List Bytes

def Seen.step (s : Seen hdr filter) : Event (BpfEffect.Answer hdr filter) → Seen hdr filter
  | ⟨.read, none⟩ => { s with current := none }
  | ⟨.read, some c⟩ => { s with buf := receiveInto s.buf c.bytes, current := some c }
  | ⟨.write bytes, n⟩ => if n = (2 : ℤ) then { s with written := s.written ++ [bytes] } else s
  | _ => s

/-- The buffer before anything is read, and the result of a `write`. -/
structure Surroundings where
  buf : Bytes
  length_buf : buf.length = bufLen
  stdout : ℤ

namespace Surroundings

variable (S : Surroundings)

def seen (t : SnifferTrace hdr filter) : Seen hdr filter := t.foldl Seen.step ⟨S.buf, none, []⟩

def Answers (t : SnifferTrace hdr filter) : (e : BpfEffect) → e.Answer hdr filter → Prop
  | .load offset size, r => r = field (S.seen t).buf offset size
  | .write _, r => r = S.stdout
  | _, _ => True

def InBounds (t : SnifferTrace hdr filter) : BpfEffect → Prop
  | .load offset size => ∃ c, (S.seen t).current = some c ∧ offset + size ≤ c.bytes.length
  | _ => True

theorem seen_snoc (t : SnifferTrace hdr filter) (ev : Event (BpfEffect.Answer hdr filter)) :
    S.seen (t ++ [ev]) = (S.seen t).step ev := List.foldl_concat _ _ _ _

theorem seen_load (t : SnifferTrace hdr filter) (offset size : ℕ) (r : Bytes) :
    S.seen (t ++ [⟨.load offset size, r⟩]) = S.seen t := S.seen_snoc _ _

theorem length_buf_seen (t : SnifferTrace hdr filter) : (S.seen t).buf.length = bufLen := by
  induction t using List.reverseRecOn with
  | nil => exact S.length_buf
  | append_singleton t ev ih =>
    rw [seen_snoc]
    obtain ⟨e, r⟩ := ev
    cases e with
    | read =>
      cases r with
      | none => exact ih
      | some c => exact (length_receiveInto _ _).trans ih
    | write bytes =>
      rw [Seen.step]
      split
      · exact ih
      · exact ih
    | unveil path permissions => exact ih
    | pcapCompile snapshot filter => exact ih
    | getBpfSock ifName => exact ih
    | pledge promises => exact ih
    | load offset size => exact ih

end Surroundings

theorem toSize_natCast {n : ℕ} (h : n < 2 ^ 64) : toSize n = n := by
  rw [toSize]
  omega

theorem field_receiveInto {buf datagram : Bytes} {offset size : ℕ}
    (h : datagram.length ≤ buf.length) (hin : offset + size ≤ datagram.length) :
    field (receiveInto buf datagram) offset size = field datagram offset size := by
  rw [receiveInto_of_fits h, field, field, List.drop_append_of_le_length (by omega),
    List.take_append_of_le_length (by rw [List.length_drop]; omega)]

namespace Capture

variable (c : Capture hdr filter)

theorem toSize_length : toSize (c.bytes.length : ℤ) = c.bytes.length :=
  toSize_natCast (Nat.lt_of_le_of_lt c.bounded (by decide))

def ipDataOffset : ℕ := hdr.hdrlen c.bytes + sizeofEtherHeader + sizeofIp

structure LetThrough : Prop where
  header : hdr.size ≤ c.bytes.length
  caplen : hdr.caplen c.bytes = snaplen
  udp : c.ipDataOffset + sizeofUdphdr + 4 ≤ c.bytes.length
  ulen : toNumber (field c.bytes (c.ipDataOffset + 4) 2) = 156

end Capture

section Round

variable (S : Surroundings) {α : Type} {s s' : Seen hdr filter} {c : Capture hdr filter}
  {post : α → SnifferTrace hdr filter → Prop}

def Seen.reads (s : Seen hdr filter) (c : Capture hdr filter) : Seen hdr filter :=
  ⟨receiveInto s.buf c.bytes, some c, s.written⟩

theorem Seen.field_reads {offset size : ℕ} (hs : s.buf.length = bufLen)
    (hin : offset + size ≤ c.bytes.length) :
    field (s.reads c).buf offset size = field c.bytes offset size := by
  have hfits : c.bytes.length ≤ s.buf.length := by
    rw [hs]
    exact c.bounded
  exact field_receiveInto hfits hin

theorem ensures_perform {e : BpfEffect} {f : e.Answer hdr filter → Sniffer hdr filter α}
    {t : SnifferTrace hdr filter} (he : S.InBounds t e)
    (hf : ∀ r, S.Answers t e r → (f r).Ensures S.Answers S.InBounds post (t ++ [⟨e, r⟩])) :
    (perform e >>= f).Ensures S.Answers S.InBounds post t := ⟨he, hf⟩

theorem ensures_load {t : SnifferTrace hdr filter} {offset size : ℕ}
    {f : Bytes → Sniffer hdr filter α} (hs : s.buf.length = bufLen) (ht : S.seen t = s.reads c)
    (hin : offset + size ≤ c.bytes.length)
    (hf : ∀ u, S.seen u = s.reads c →
      (f (field c.bytes offset size)).Ensures S.Answers S.InBounds post u) :
    (perform (.load offset size) >>= f).Ensures S.Answers S.InBounds post t := by
  have hcurrent : (S.seen t).current = some c := by
    rw [ht]
    rfl
  refine ensures_perform S ⟨c, hcurrent, hin⟩ fun r hr ↦ ?_
  rw [Surroundings.Answers, ht, Seen.field_reads hs hin] at hr
  subst hr
  exact hf _ ((S.seen_load _ _ _ _).trans ht)

/-- How a round ends: with a read that the checks do not let through, or with a port. -/
inductive RoundEnds (s s' : Seen hdr filter) : Option ℕ → Prop
  | goOn : s'.written = s.written → (∀ c, s'.current = some c → ¬c.LetThrough) →
      RoundEnds s s' none
  | leave {c : Capture hdr filter} : s'.current = some c → c.LetThrough →
      s'.written = s.written ++ (if S.stdout = 2 then [field c.bytes c.ipDataOffset 2] else []) →
      RoundEnds s s' (some (if S.stdout = 2 then 0 else 1))

theorem roundEnds_reads (hs' : s' = s.reads c) (hnot : ¬c.LetThrough) : RoundEnds S s s' none := by
  subst hs'
  refine .goOn rfl ?_
  intro c' hc'
  cases hc'
  exact hnot

theorem roundEnds_write {u : SnifferTrace hdr filter} {n : ℤ} (hu : S.seen u = s.reads c)
    (hthrough : c.LetThrough) (hn : n = S.stdout) :
    RoundEnds S s (S.seen (u ++ [⟨.write (field c.bytes c.ipDataOffset 2), n⟩]))
      (some (if n ≠ 2 then 1 else 0)) := by
  subst hn
  have hwrite := S.seen_snoc u ⟨.write (field c.bytes c.ipDataOffset 2), S.stdout⟩
  rw [hu, Seen.step] at hwrite
  rw [ite_not]
  refine .leave (c := c) ?_ hthrough ?_
  · rw [hwrite]
    split <;> rfl
  · rw [hwrite]
    split
    · rfl
    · exact (List.append_nil _).symm

theorem round_ensures (t : SnifferTrace hdr filter) :
    (round hdr filter).Ensures S.Answers S.InBounds
      (fun result u ↦ RoundEnds S (S.seen t) (S.seen u) result) t := by
  have hs := S.length_buf_seen t
  refine ensures_perform S trivial fun r _ ↦ ?_
  cases r with
  | none =>
    have hread : S.seen (t ++ [⟨.read, none⟩]) = { S.seen t with current := none } :=
      S.seen_snoc _ _
    refine .goOn ?_ fun c hc ↦ ?_
    · rw [hread]
    · rw [hread] at hc
      cases hc
  | some c =>
    have hread : S.seen (t ++ [⟨.read, some c⟩]) = (S.seen t).reads c := S.seen_snoc _ _
    dsimp only
    rw [if_neg (by omega), c.toSize_length]
    split
    · next hheader =>
      exact roundEnds_reads S hread fun h ↦ by have hle := h.header; omega
    · next hheader =>
      have hcaplenAt := hdr.caplenAt_le
      have hhdrlenAt := hdr.hdrlenAt_le
      refine ensures_load S hs hread (by omega) fun u hu ↦ ?_
      split
      · next hcaplen => exact roundEnds_reads S hu fun h ↦ hcaplen h.caplen
      · next hcaplen =>
        refine ensures_load S hs hu (by omega) fun u hu ↦ ?_
        split
        · next hudp => exact roundEnds_reads S hu fun h ↦ Nat.not_le.mpr hudp h.udp
        · next hudp =>
          have hin : c.ipDataOffset + 8 + 4 ≤ c.bytes.length := Nat.not_lt.mp hudp
          have hulenIn : c.ipDataOffset + 4 + 2 ≤ c.bytes.length := by omega
          have hsportIn : c.ipDataOffset + 2 ≤ c.bytes.length := by omega
          refine ensures_load S hs hu hulenIn fun u hu ↦ ?_
          split
          · next hulen => exact roundEnds_reads S hu fun h ↦ hulen h.ulen
          · next hulen =>
            have hthrough : c.LetThrough :=
              ⟨Nat.not_lt.mp hheader, not_not.mp hcaplen, hin, not_not.mp hulen⟩
            refine ensures_load S hs hu hsportIn fun u hu ↦ ?_
            exact ensures_perform S trivial fun n hn ↦ roundEnds_write S hu hthrough hn

inductive Exits (s s' : Seen hdr filter) : ℕ → Prop
  | without : s'.written = s.written → (∀ c, s'.current = some c → ¬c.LetThrough) → Exits s s' 1
  | leave {c : Capture hdr filter} : s'.current = some c → c.LetThrough →
      s'.written = s.written ++ (if S.stdout = 2 then [field c.bytes c.ipDataOffset 2] else []) →
      Exits s s' (if S.stdout = 2 then 0 else 1)

theorem Exits.of_written {s₀ : Seen hdr filter} {status : ℕ} (h : Exits S s s' status)
    (hs : s.written = s₀.written) : Exits S s₀ s' status := by
  cases h with
  | without hwritten hnot => exact .without (hwritten.trans hs) hnot
  | leave hcurrent hthrough hwritten => exact .leave hcurrent hthrough (hs ▸ hwritten)

theorem loop_ensures (retries : ℕ) {t : SnifferTrace hdr filter}
    (ht : ∀ c, (S.seen t).current = some c → ¬c.LetThrough) :
    (loop hdr filter retries).Ensures S.Answers S.InBounds
      (fun status u ↦ Exits S (S.seen t) (S.seen u) status) t := by
  induction retries generalizing t with
  | zero => exact .without rfl ht
  | succ retries ih =>
    refine (ensures_bind _ _ t).mpr ((round_ensures S t).mono fun result u hround ↦ ?_)
    cases hround with
    | goOn hwritten hnot => exact (ih hnot).mono fun _ _ h ↦ h.of_written S hwritten
    | leave hcurrent hthrough hwritten => exact .leave hcurrent hthrough hwritten

theorem exits_unread {t : SnifferTrace hdr filter} (ht : S.seen t = S.seen []) :
    Exits S (S.seen []) (S.seen t) 1 := by
  rw [ht]
  refine .without rfl ?_
  intro c hc
  cases hc

theorem ensures_guard {e : BpfEffect} {ok : e.Answer hdr filter → Bool}
    {rest : Sniffer hdr filter ℕ} {t : SnifferTrace hdr filter} (he : S.InBounds t e)
    (hstep : ∀ r, (S.seen t).step ⟨e, r⟩ = S.seen t) (ht : S.seen t = S.seen [])
    (hrest : ∀ u, S.seen u = S.seen [] → rest.Ensures S.Answers S.InBounds
      (fun status v ↦ Exits S (S.seen []) (S.seen v) status) u) :
    (perform e >>= fun r ↦ if !ok r then pure 1 else rest).Ensures S.Answers S.InBounds
      (fun status u ↦ Exits S (S.seen []) (S.seen u) status) t := by
  apply ensures_perform S he
  intro r _
  have hseen : S.seen (t ++ [⟨e, r⟩]) = S.seen [] := by rw [S.seen_snoc, hstep, ht]
  split
  · exact exits_unread S hseen
  · exact hrest _ hseen

theorem main_ensures (argv : List String) : (main hdr filter argv).Ensures S.Answers S.InBounds
    (fun status u ↦ Exits S (S.seen []) (S.seen u) status) [] := by
  rw [main.eq_def]
  split
  · refine ensures_guard S trivial (fun _ ↦ rfl) rfl fun t ht ↦ ?_
    refine ensures_guard S trivial (fun _ ↦ rfl) ht fun t ht ↦ ?_
    split
    · exact exits_unread S ht
    · refine ensures_guard S trivial (fun _ ↦ rfl) ht fun t ht ↦ ?_
      refine ensures_guard S trivial (fun _ ↦ rfl) ht fun t ht ↦ ?_
      refine ensures_guard S trivial (fun _ ↦ rfl) ht fun t ht ↦ ?_
      have hunread (c : Capture hdr filter) (hc : (S.seen t).current = some c) :
          ¬c.LetThrough := by
        rw [ht] at hc
        cases hc
      rw [← ht]
      exact loop_ensures S 3 hunread
  · exact exits_unread S rfl

end Round

theorem field_field {bytes : Bytes} {offset size offset' size' : ℕ} (h : offset' + size' ≤ size) :
    field (field bytes offset size) offset' size' = field bytes (offset + offset') size' := by
  rw [field, field, field, List.drop_take, List.drop_drop, List.take_take,
    Nat.min_eq_left (by omega)]

/-- The port and the length that lie where the program looks are those behind the IP header. -/
def WaysAgree (frame : Bytes) : Prop :=
  field frame (sizeofEtherHeader + sizeofIp) 2 = sourcePort frame ∧
    field frame (sizeofEtherHeader + sizeofIp + 4) 2 = field frame (udpAt frame + 4) 2

instance (frame : Bytes) : Decidable (WaysAgree frame) := inferInstanceAs (Decidable (_ ∧ _))

def Passes (frame : Bytes) : Prop :=
  snaplen ≤ frame.length ∧ toNumber (field frame (sizeofEtherHeader + sizeofIp + 4) 2) = 156

instance (frame : Bytes) : Decidable (Passes frame) := inferInstanceAs (Decidable (_ ∧ _))

theorem protocol_of_accepts {frame : Bytes} (h : filter.accepts frame = true) :
    field frame 23 1 = [17] := by
  simp only [Filter.accepts, Bool.and_eq_true, decide_eq_true_eq] at h
  exact h.1.1.1.1.1.2

theorem payload_of_accepts {frame : Bytes} (h : filter.accepts frame = true) :
    field frame (udpAt frame + 8) 4 = [0x01, 0x00, 0x00, 0x00] := by
  simp only [Filter.accepts, Bool.and_eq_true, decide_eq_true_eq] at h
  exact h.2

theorem length_field {bytes : Bytes} {offset size : ℕ} (h : offset + size ≤ bytes.length) :
    (field bytes offset size).length = size := by
  rw [field, List.length_take, List.length_drop]
  omega

theorem udp_in_frame {frame : Bytes} (h : filter.accepts frame = true) :
    udpAt frame + 12 ≤ frame.length := by
  have hlength := congrArg List.length (payload_of_accepts h)
  rw [field, List.length_take, List.length_drop] at hlength
  simp only [List.length_cons, List.length_nil] at hlength
  omega

namespace Capture

variable {c : Capture hdr filter}

theorem snaplen_le (h : c.LetThrough) : snaplen ≤ c.frame.length := by
  have hcaplen := c.caplen_eq h.header
  rw [h.caplen] at hcaplen
  omega

theorem field_frame (h : c.LetThrough) (offset size : ℕ) (hin : offset + size ≤ snaplen) :
    field c.bytes (hdr.hdrlen c.bytes + offset) size = field c.frame offset size := by
  have hlength := snaplen_le h
  have hudp : hdr.hdrlen c.bytes + snaplen ≤ c.bytes.length := h.udp
  refine List.ext_getElem? fun i ↦ ?_
  rw [field, field, List.getElem?_take, List.getElem?_take, List.getElem?_drop, List.getElem?_drop]
  split
  · rw [Nat.add_assoc]
    exact c.captured h.header _ (by omega) (by omega)
  · rfl

theorem passes_frame (h : c.LetThrough) : Passes c.frame := by
  have hulen : field c.bytes (c.ipDataOffset + 4) 2 =
      field c.frame (sizeofEtherHeader + sizeofIp + 4) 2 :=
    field_frame h (sizeofEtherHeader + sizeofIp + 4) 2 (by decide)
  exact ⟨snaplen_le h, hulen ▸ h.ulen⟩

theorem port_right_iff (h : c.LetThrough) :
    (field c.bytes c.ipDataOffset 2 = sourcePort c.frame ∧ udpLength c.frame = 156) ↔
      WaysAgree c.frame := by
  have hsport : field c.bytes c.ipDataOffset 2 =
      field c.frame (sizeofEtherHeader + sizeofIp) 2 :=
    field_frame h (sizeofEtherHeader + sizeofIp) 2 (by decide)
  have hpasses := passes_frame h
  rw [hsport, WaysAgree, udpLength]
  apply and_congr_right
  intro _
  constructor
  · intro hlength
    have hfixed : sizeofEtherHeader + sizeofIp + 4 + 2 ≤ c.frame.length :=
      Nat.le_trans (by decide) hpasses.1
    have hlocated := udp_in_frame c.accepted
    apply toNumber_injective _ (hpasses.2.trans hlength.symm)
    rw [length_field hfixed, length_field (by omega)]
  · intro hlength
    rw [← hlength]
    exact hpasses.2

end Capture

/-- With no header the payload would lie on the protocol, and with four words on the length
that is checked. With five the program looks where the header is. -/
theorem waysAgree_of_headerLength {frame : Bytes} (haccepts : filter.accepts frame = true)
    (hpasses : Passes frame) (h : headerLength frame = 0 ∨ headerLength frame = 4 ∨
      headerLength frame = 5) : WaysAgree frame := by
  have hpayload := payload_of_accepts haccepts
  rw [udpAt] at hpayload
  rcases h with h | h | h
  · rw [h] at hpayload
    have hprotocol : field (field frame 22 4) 1 1 = field frame 23 1 := field_field (by decide)
    rw [protocol_of_accepts haccepts] at hprotocol
    rw [show field frame 22 4 = _ from hpayload] at hprotocol
    cases hprotocol
  · rw [h] at hpayload
    have hulen : field (field frame 38 4) 0 2 = field frame 38 2 := field_field (by decide)
    rw [show field frame 38 4 = _ from hpayload] at hulen
    have hpassed : toNumber (field frame 38 2) = 156 := hpasses.2
    rw [← hulen] at hpassed
    exact absurd hpassed (by decide)
  · rw [WaysAgree, sourcePort, udpAt, h]
    exact ⟨rfl, rfl⟩

def overlay (base : Bytes) (offset : ℕ) (bytes : Bytes) : Bytes :=
  base.take offset ++ bytes ++ base.drop (offset + bytes.length)

/-- A frame with `words` words of IP header, and 156 where the program looks for the length. -/
def misleadingFrame (words : ℕ) : Bytes :=
  [(12, [0x08, 0x00]), (14, [UInt8.ofNat (0x40 + words)]), (20, [0x40, 0x00]), (22, [64, 17]),
    (26, [203, 0, 113, 7]), (30, [198, 51, 100, 7]), (38, [0, 156]),
    (14 + 4 * words + 2, [0x40, 0x00]), (14 + 4 * words + 8, [0x01, 0x00, 0x00, 0x00])].foldl
    (fun frame p ↦ overlay frame p.1 p.2) (List.replicate 90 0)

def ipAt (frame : Bytes) (offset : ℕ) : Ipv4Addr :=
  .new (frame.getD offset 0) (frame.getD (offset + 1) 0) (frame.getD (offset + 2) 0)
    (frame.getD (offset + 3) 0)

def misleadingFilter (words : ℕ) : Filter :=
  ⟨[ipAt (misleadingFrame words) 26], [ipAt (misleadingFrame words) 30], 0x4000⟩

theorem misleading (words : Fin 16) (h : ¬(words = 0 ∨ words = 4 ∨ words = 5)) :
    (misleadingFilter words).accepts (misleadingFrame words) = true ∧
      headerLength (misleadingFrame words) = words ∧ Passes (misleadingFrame words) ∧
      ¬WaysAgree (misleadingFrame words) := by
  revert words
  decide

theorem waysAgree_iff_headerLength {words : ℕ} (hwords : words < 16) :
    (∀ (filter : Filter) (frame : Bytes), filter.accepts frame = true →
      headerLength frame = words → Passes frame → WaysAgree frame) ↔
      words = 0 ∨ words = 4 ∨ words = 5 := by
  constructor
  · intro hall
    by_contra hnot
    have hnot' : ¬((⟨words, hwords⟩ : Fin 16) = 0 ∨ (⟨words, hwords⟩ : Fin 16) = 4 ∨
        (⟨words, hwords⟩ : Fin 16) = 5) := fun h ↦
      hnot (h.imp (congrArg Fin.val) (Or.imp (congrArg Fin.val) (congrArg Fin.val)))
    obtain ⟨haccepts, hlength, hpasses, hways⟩ := misleading ⟨words, hwords⟩ hnot'
    exact hways (hall _ _ haccepts hlength hpasses)
  · intro h filter frame haccepts hlength hpasses
    subst hlength
    exact waysAgree_of_headerLength haccepts hpasses h

section Runs

variable {S : Surroundings} {argv : List String} {t : SnifferTrace hdr filter} {status : ℕ}

def RightPorts (s : Seen hdr filter) : Prop :=
  ∀ port ∈ s.written, ∃ c, s.current = some c ∧ port = sourcePort c.frame ∧
    udpLength c.frame = 156

theorem Exits.rightPorts_iff {s s' : Seen hdr filter} (h : Exits S s s' status)
    (hs : s.written = []) : s'.written.length ≤ 1 ∧ (status = 0 ↔ s'.written.length = 1) ∧
      (RightPorts s' ↔
        (S.stdout = 2 → ∀ c, s'.current = some c → c.LetThrough → WaysAgree c.frame)) := by
  cases h with
  | without hwritten hnot =>
    rw [RightPorts, hwritten, hs]
    exact ⟨Nat.zero_le _, by simp, iff_of_true (by simp)
      fun _ c hc hthrough ↦ (hnot c hc hthrough).elim⟩
  | @leave c hcurrent hthrough hwritten =>
    rw [hs, List.nil_append] at hwritten
    rw [RightPorts, hwritten, hcurrent]
    by_cases hstdout : S.stdout = 2
    · rw [if_pos hstdout, if_pos hstdout, List.forall_mem_singleton]
      refine ⟨Nat.le_refl _, iff_of_true rfl rfl, ?_⟩
      have hright := Capture.port_right_iff hthrough
      constructor
      · rintro ⟨c', hc', hport⟩ - c'' hc'' -
        cases hc'
        cases hc''
        exact hright.mp hport
      · intro hways
        exact ⟨c, rfl, hright.mpr (hways hstdout c rfl hthrough)⟩
    · rw [if_neg hstdout, if_neg hstdout]
      exact ⟨Nat.zero_le _, by simp, iff_of_true (by simp) fun h ↦ (hstdout h).elim⟩

/-- In every run, all that is looked at has been read, at most one port is written, and the
exit status tells whether. The port is right where the two ways to the UDP header agree, and
they do for all frames with an IP header of a length where that is five words, or no frame
gets through. -/
theorem sniffed_port_iff (hrun : (main hdr filter argv).Path t (.done status))
    (hanswers : Answered S.Answers [] t) :
    (∀ u offset size r v, t = u ++ ⟨.load offset size, r⟩ :: v →
        ∃ c, (S.seen u).current = some c ∧ offset + size ≤ c.bytes.length) ∧
      (S.seen t).written.length ≤ 1 ∧ (status = 0 ↔ (S.seen t).written.length = 1) ∧
      (RightPorts (S.seen t) ↔
        (S.stdout = 2 → ∀ c, (S.seen t).current = some c → c.LetThrough → WaysAgree c.frame)) ∧
      ∀ words < 16, (∀ (filter : Filter) (frame : Bytes), filter.accepts frame = true →
          headerLength frame = words → Passes frame → WaysAgree frame) ↔
        words = 0 ∨ words = 4 ∨ words = 5 := by
  have hexits : Exits S (S.seen []) (S.seen t) status := (main_ensures S argv).follow hrun hanswers
  have hbounds (u : SnifferTrace hdr filter) (offset size : ℕ) (r : Bytes)
      (v : SnifferTrace hdr filter) (ht : t = u ++ ⟨.load offset size, r⟩ :: v) :
      S.InBounds u (.load offset size) :=
    (main_ensures S argv).requires_of_mem hrun hanswers ht
  obtain ⟨hone, hstatus, hright⟩ := hexits.rightPorts_iff rfl
  exact ⟨hbounds, hone, hstatus, hright, fun words hwords ↦ waysAgree_iff_headerLength hwords⟩

def roundTrace (c : Capture hdr filter) (n : ℤ) : SnifferTrace hdr filter :=
  [⟨.read, some c⟩, ⟨.load hdr.caplenAt 4, field c.bytes hdr.caplenAt 4⟩,
    ⟨.load hdr.hdrlenAt 2, field c.bytes hdr.hdrlenAt 2⟩,
    ⟨.load (c.ipDataOffset + 4) 2, field c.bytes (c.ipDataOffset + 4) 2⟩,
    ⟨.load c.ipDataOffset 2, field c.bytes c.ipDataOffset 2⟩,
    ⟨.write (field c.bytes c.ipDataOffset 2), n⟩]

def snifferTrace (ifName rlyIp srcIp port : String) (c : Capture hdr filter) (n : ℤ) :
    SnifferTrace hdr filter :=
  ⟨.unveil (some "/dev/bpf") (some "r"), true⟩ :: ⟨.unveil none none, true⟩ ::
    ⟨.pcapCompile snaplen (filterText rlyIp srcIp port), true⟩ :: ⟨.getBpfSock ifName, true⟩ ::
    ⟨.pledge "stdio", true⟩ :: roundTrace c n

theorem path_perform {α : Type} {e : BpfEffect} {f : e.Answer hdr filter → Sniffer hdr filter α}
    {r : e.Answer hdr filter} {q : Sniffer hdr filter α} (h : (f r).Path t q) :
    (perform e >>= f).Path (⟨e, r⟩ :: t) q := .cons h

theorem round_path {c : Capture hdr filter} (hthrough : c.LetThrough) :
    (round hdr filter).Path (roundTrace c 2) (.done (some 0)) := by
  have hcaplen : ¬hdr.number (field c.bytes hdr.caplenAt 4) ≠ snaplen :=
    not_not.mpr hthrough.caplen
  have hudp : ¬c.bytes.length < hdr.number (field c.bytes hdr.hdrlenAt 2) + sizeofEtherHeader +
      sizeofIp + sizeofUdphdr + 4 := Nat.not_lt.mpr hthrough.udp
  have hulen : ¬toNumber (field c.bytes (c.ipDataOffset + 4) 2) ≠ 156 :=
    not_not.mpr hthrough.ulen
  refine path_perform ?_
  dsimp only
  rw [if_neg (by omega), c.toSize_length, if_neg (Nat.not_lt.mpr hthrough.header)]
  refine path_perform ?_
  rw [if_neg hcaplen]
  refine path_perform ?_
  rw [if_neg hudp]
  refine path_perform ?_
  rw [if_neg hulen]
  exact path_perform (path_perform (.nil _))

theorem snifferTrace_path {name ifName rlyIp srcIp port : String} {c : Capture hdr filter}
    (hport : strtonum port 1024 65535 ≠ 0) (hthrough : c.LetThrough) :
    (main hdr filter [name, ifName, rlyIp, srcIp, port]).Path
      (snifferTrace ifName rlyIp srcIp port c 2) (.done 0) := by
  rw [main]
  have hloop : (loop hdr filter 3).Path (roundTrace c 2) (.done 0) :=
    (round_path hthrough).bind _
  refine path_perform (path_perform ?_)
  rw [if_neg (by decide), if_neg hport]
  exact path_perform (path_perform (path_perform hloop))

theorem answers_load {s : Seen hdr filter} {c : Capture hdr filter} {offset size : ℕ}
    (hs : s.buf.length = bufLen) (ht : S.seen t = s.reads c)
    (hin : offset + size ≤ c.bytes.length) :
    S.Answers t (.load offset size) (field c.bytes offset size) := by
  rw [Surroundings.Answers, ht]
  exact (Seen.field_reads hs hin).symm

theorem roundTrace_answers {c : Capture hdr filter} (hthrough : c.LetThrough)
    (t : SnifferTrace hdr filter) : Answered S.Answers t (roundTrace c S.stdout) := by
  have hs := S.length_buf_seen t
  have hread : S.seen (t ++ [⟨.read, some c⟩]) = (S.seen t).reads c := S.seen_snoc _ _
  have hheader := hthrough.header
  have hcaplenAt := hdr.caplenAt_le
  have hhdrlenAt := hdr.hdrlenAt_le
  have hudp : c.ipDataOffset + 8 + 4 ≤ c.bytes.length := hthrough.udp
  refine ⟨trivial, answers_load hs hread (by omega), answers_load hs ?_ (by omega),
    answers_load hs ?_ (by omega), answers_load hs ?_ (by omega), rfl, trivial⟩
  · rw [S.seen_load, hread]
  · rw [S.seen_load, S.seen_load, hread]
  · rw [S.seen_load, S.seen_load, S.seen_load, hread]

theorem snifferTrace_answers {ifName rlyIp srcIp port : String} {c : Capture hdr filter}
    (hthrough : c.LetThrough) :
    Answered S.Answers [] (snifferTrace ifName rlyIp srcIp port c S.stdout) :=
  ⟨trivial, trivial, trivial, trivial, trivial, roundTrace_answers hthrough _⟩

end Runs

def littleEndianHdr : BpfHdr := ⟨24, 8, 16, by decide, by decide, false⟩

/-- What `read` delivers of a frame: the header, padded to 26 bytes, and the start of it. -/
def captureBytes (frame : Bytes) : Bytes :=
  [0, 0, 0, 0, 0, 0, 0, 0, 46, 0, 0, 0, UInt8.ofNat frame.length, 0, 0, 0, 26, 0, 1, 0, 0, 0, 0, 0,
    0, 0] ++ frame.take 46

def capture (frame : Bytes) (haccepted : filter.accepts frame = true)
    (hlength : 46 ≤ frame.length) : Capture littleEndianHdr filter where
  bytes := captureBytes frame
  bounded := by
    have hfits : 26 + 46 ≤ bufLen := by decide
    rw [captureBytes, List.length_append, List.length_take, Nat.min_eq_left hlength]
    exact hfits
  frame := frame
  accepted := haccepted
  caplen_eq := fun _ ↦ (Nat.min_eq_left hlength).symm
  captured := by
    intro _ i hi _
    have hhdrlen : littleEndianHdr.hdrlen (captureBytes frame) = 26 := rfl
    have hi' : i < 46 := Nat.lt_of_lt_of_le hi (Nat.min_le_left _ _)
    rw [hhdrlen, captureBytes, List.getElem?_append_right (by simp), List.getElem?_take]
    simp [hi']

def wgFilter : Filter := ⟨[.new 203 0 113 7], [.new 198 51 100 7], 51820⟩

def handshakeFrame (options sport : Bytes) : Bytes :=
  List.replicate 12 0 ++ [0x08, 0x00] ++
    [UInt8.ofNat (0x45 + options.length / 4), 0, 0, UInt8.ofNat (176 + options.length), 0, 0, 0x40,
      0, 64, 17, 0, 0, 203, 0, 113, 7, 198, 51, 100, 7] ++ options ++
    sport ++ [0xca, 0x6c, 0, 156, 0, 0, 0x01, 0x00, 0x00, 0x00] ++ List.replicate 144 0

theorem length_handshakeFrame (options sport : Bytes) :
    46 ≤ (handshakeFrame options sport).length := by
  rw [handshakeFrame, List.length_append, List.length_replicate]
  omega

def quietSurroundings : Surroundings := ⟨List.replicate bufLen 0, List.length_replicate, 2⟩

def handshakeTrace (c : Capture hdr filter) : SnifferTrace hdr filter :=
  snifferTrace "vio0" "198.51.100.7" "203.0.113.7" "51820" c 2

theorem handshakeTrace_path {c : Capture hdr filter} (hthrough : c.LetThrough) :
    (main hdr filter ["bpf", "vio0", "198.51.100.7", "203.0.113.7", "51820"]).Path
      (handshakeTrace c) (.done 0) := snifferTrace_path (by decide) hthrough

theorem handshakeTrace_answers {c : Capture hdr filter} (hthrough : c.LetThrough) :
    Answered quietSurroundings.Answers [] (handshakeTrace c) :=
  snifferTrace_answers (S := quietSurroundings) hthrough

def plainCapture : Capture littleEndianHdr wgFilter :=
  capture (handshakeFrame [] [0xca, 0x6c]) rfl (length_handshakeFrame _ _)

def optionsCapture : Capture littleEndianHdr wgFilter :=
  capture (handshakeFrame [1, 1, 1, 1] [0, 156]) rfl (length_handshakeFrame _ _)

theorem plain_port_right : RightPorts (quietSurroundings.seen (handshakeTrace plainCapture)) := by
  have hthrough : plainCapture.LetThrough := ⟨by decide, by decide, by decide, by decide⟩
  have hcurrent : (quietSurroundings.seen (handshakeTrace plainCapture)).current =
      some plainCapture := rfl
  apply (sniffed_port_iff (handshakeTrace_path hthrough)
    (handshakeTrace_answers hthrough)).2.2.2.1.mpr
  intro _ c hc _
  cases hcurrent.symm.trans hc
  decide

/-- Behind an IP header with options the source port is 156, the length that is checked. What
is written are the first two of the options. -/
theorem options_written :
    (main littleEndianHdr wgFilter
        ["bpf", "vio0", "198.51.100.7", "203.0.113.7", "51820"]).Path
      (handshakeTrace optionsCapture) (.done 0) ∧
    Answered quietSurroundings.Answers [] (handshakeTrace optionsCapture) ∧
    (quietSurroundings.seen (handshakeTrace optionsCapture)).written = [[1, 1]] ∧
    sourcePort optionsCapture.frame = [0, 156] ∧
    ¬RightPorts (quietSurroundings.seen (handshakeTrace optionsCapture)) := by
  have hthrough : optionsCapture.LetThrough := ⟨by decide, by decide, by decide, by decide⟩
  have hcurrent : (quietSurroundings.seen (handshakeTrace optionsCapture)).current =
      some optionsCapture := rfl
  have hwritten : (quietSurroundings.seen (handshakeTrace optionsCapture)).written = [[1, 1]] :=
    rfl
  have hport : sourcePort optionsCapture.frame = [0, 156] := by decide
  refine ⟨handshakeTrace_path hthrough, handshakeTrace_answers hthrough, hwritten, hport, ?_⟩
  intro hright
  have hmem : [1, 1] ∈ (quietSurroundings.seen (handshakeTrace optionsCapture)).written := by
    rw [hwritten]
    exact List.mem_cons_self
  obtain ⟨c, hc, heq, -⟩ := hright [1, 1] hmem
  cases hcurrent.symm.trans hc
  rw [hport] at heq
  cases heq

end Bpf

end Wireplug
