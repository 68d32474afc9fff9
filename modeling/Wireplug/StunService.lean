import Wireplug.Foundation.ByteStream
import Wireplug.Stun

namespace Wireplug

open Foundation Postcard ByteStream

abbrev Received := Except IoError (Bytes × SocketAddr)

/-- One round of the loop of `start_serving`: the buffer for the next round, and
what the spawned task sends, on a copy of the buffer of its own. -/
def serveDatagram (buf : Bytes) : Received → Bytes × Option (Bytes × SocketAddr)
  | .error _ => (buf, none)
  | .ok (datagram, addr) =>
    let buf := receiveInto buf datagram
    (buf, (stunReply buf addr.port).map fun data ↦ (data, addr))

def startServing (buf : Bytes) : List Received → List (Option (Bytes × SocketAddr))
  | [] => []
  | r :: rs => (serveDatagram buf r).2 :: startServing (serveDatagram buf r).1 rs

def emptyBuffer : Bytes := List.replicate stunBufferSize 0

def bufferAfter (buf : Bytes) (history : List Received) : Bytes :=
  history.foldl (fun buf r ↦ (serveDatagram buf r).1) buf

theorem length_bufferAfter (buf : Bytes) (history : List Received) :
    (bufferAfter buf history).length = buf.length := by
  induction history generalizing buf with
  | nil => rfl
  | cons r history ih =>
    rw [bufferAfter, List.foldl_cons, ← bufferAfter, ih]
    cases r with
    | error e => rfl
    | ok d => exact length_receiveInto buf d.1

theorem startServing_nth (buf : Bytes) (history later : List Received) (r : Received) :
    (startServing buf (history ++ r :: later))[history.length]? =
      some (serveDatagram (bufferAfter buf history) r).2 := by
  induction history generalizing buf with
  | nil => rfl
  | cons r' history ih => exact ih _

theorem startServing_alone (buf datagram : Bytes) (addr : SocketAddr) :
    (startServing buf [.ok (datagram, addr)])[0]? =
      some ((stunReply (receiveInto buf datagram) addr.port).map fun data ↦ (data, addr)) := rfl

def stunHeader : Bytes := wireplugProtocolMagic ++ wireplugProtocolVersion

/-- The datagram ends before the request that it begins does. -/
def CutOff (datagram : Bytes) : Prop :=
  (datagram <+: stunHeader ∧ datagram ≠ stunHeader) ∨
    ∃ port, datagram = stunHeader ++ port ∧ Unfinished 3 port

theorem readStunRequest_header (rest : Bytes) :
    readStunRequest (stunHeader ++ rest) = (fromBytes u16 rest).map WireplugStunRequest.mk := by
  rw [← fromBytes_map]
  rfl

theorem readStunRequest_without_header {buf : Bytes} (h : ¬ stunHeader <+: buf) :
    readStunRequest buf = none := by
  rw [readStunRequest]
  split
  · rfl
  · next hheader =>
    rw [not_or, not_not, not_not] at hheader
    refine (h ⟨(buf.drop 3).drop 1, ?_⟩).elim
    rw [stunHeader, ← hheader.1, ← hheader.2, List.append_assoc, List.take_append_drop,
      List.take_append_drop]

theorem fromBytes_u16 (bytes : Bytes) :
    fromBytes u16 bytes = (fromBytes (varintLoop 3 3) bytes).map UInt16.ofNat :=
  fromBytes_map (varint 16) UInt16.ofNat bytes

theorem receiveInto_of_long {buf datagram : Bytes} (h : buf.length < datagram.length) :
    receiveInto buf datagram = datagram.take buf.length := by
  rw [receiveInto, List.drop_eq_nil_of_le (Nat.le_of_lt h), List.append_nil]

theorem receiveInto_beginning {buf datagram : Bytes} (h : datagram <+: buf) :
    receiveInto buf datagram = buf := by
  rw [receiveInto_of_fits h.length_le]
  exact (List.prefix_iff_eq_append.mp h)

theorem readStunRequest_eq_of_not_cutOff {datagram : Bytes} (h : ¬ CutOff datagram)
    {buf buf' : Bytes} (hlen : buf.length = buf'.length) :
    readStunRequest (receiveInto buf datagram) = readStunRequest (receiveInto buf' datagram) := by
  by_cases hfits : datagram.length ≤ buf.length
  · rw [receiveInto_of_fits hfits, receiveInto_of_fits (hlen ▸ hfits)]
    by_cases hheader : stunHeader <+: datagram
    · obtain ⟨port, rfl⟩ := hheader
      have hport : ¬ Unfinished 3 port := fun hport ↦ h (.inr ⟨port, rfl, hport⟩)
      rw [List.append_assoc, List.append_assoc, readStunRequest_header, readStunRequest_header,
        fromBytes_u16, fromBytes_u16, fromBytes_varintLoop_append hport]
    · have hnone (tail : Bytes) : readStunRequest (datagram ++ tail) = none := by
        refine readStunRequest_without_header fun hbegins ↦ ?_
        rcases List.prefix_or_prefix_of_prefix hbegins (List.prefix_append datagram tail) with
          hlong | hshort
        · exact hheader hlong
        · exact h (.inl ⟨hshort, fun heq ↦ hheader (heq ▸ List.prefix_refl _)⟩)
      rw [hnone, hnone]
  · rw [receiveInto_of_long (Nat.lt_of_not_le hfits),
      receiveInto_of_long (hlen ▸ Nat.lt_of_not_le hfits), hlen]

theorem length_emptyBuffer : emptyBuffer.length = stunBufferSize := List.length_replicate

theorem readStunRequest_cut_header {datagram : Bytes} (h : datagram <+: stunHeader)
    (hne : datagram ≠ stunHeader) :
    readStunRequest (receiveInto emptyBuffer datagram) = none := by
  have hfits : datagram.length ≤ emptyBuffer.length := by
    rw [length_emptyBuffer]
    exact Nat.le_trans h.length_le (by decide)
  rw [receiveInto_of_fits hfits]
  refine readStunRequest_without_header fun hbegins ↦ ?_
  obtain ⟨missing, hmissing⟩ := h
  rw [← hmissing, List.prefix_append_right_inj] at hbegins
  cases missing with
  | nil => exact hne (by rw [← hmissing, List.append_nil])
  | cons b missing =>
    have hzero : b = 0 := by
      refine List.eq_of_mem_replicate (List.mem_of_mem_drop (hbegins.subset ?_))
      exact List.mem_cons_self
    have hheader : (0 : UInt8) ∈ stunHeader := by
      rw [← hmissing, hzero]
      exact List.mem_append_right _ List.mem_cons_self
    exact absurd hheader (by decide)

def openRequest : Bytes := stunHeader ++ [0x80, 0x80, 0xFF]

theorem readStunRequest_cut_port {port : Bytes} (h : Unfinished 3 port) :
    (readStunRequest (receiveInto emptyBuffer (stunHeader ++ port))).isSome = true := by
  have hlen : (stunHeader ++ port).length < emptyBuffer.length := by
    rw [List.length_append, length_emptyBuffer]
    exact Nat.lt_trans (Nat.add_lt_add_left h.1 _) (by decide)
  obtain ⟨n, hn⟩ := Nat.exists_eq_succ_of_ne_zero (Nat.sub_ne_zero_of_lt hlen)
  rw [receiveInto_of_fits (Nat.le_of_lt hlen), List.append_assoc, readStunRequest_header,
    Option.isSome_map, fromBytes_u16, Option.isSome_map]
  have hzeros : emptyBuffer.drop (stunHeader ++ port).length = 0 :: List.replicate n 0 := by
    rw [length_emptyBuffer] at hn
    rw [emptyBuffer, List.drop_replicate, hn, Nat.succ_eq_add_one, List.replicate_succ]
  rw [hzeros]
  exact fromBytes_varintLoop_zero h _

theorem readStunRequest_cut_port_after {port : Bytes} (h : Unfinished 3 port) :
    readStunRequest (receiveInto (receiveInto emptyBuffer openRequest) (stunHeader ++ port)) =
      none := by
  have hlen : (stunHeader ++ port).length ≤ (receiveInto emptyBuffer openRequest).length := by
    rw [length_receiveInto, List.length_append, length_emptyBuffer]
    exact Nat.le_of_lt (Nat.lt_trans (Nat.add_lt_add_left h.1 _) (by decide))
  have hopen : openRequest.length ≤ emptyBuffer.length := by
    rw [length_emptyBuffer]
    decide
  have hport : port.length ≤ ([0x80, 0x80, 0xFF] : Bytes).length := Nat.le_of_lt h.1
  rw [receiveInto_of_fits hlen, receiveInto_of_fits hopen, openRequest, List.append_assoc,
    List.append_assoc, readStunRequest_header, List.length_append, ← List.drop_drop,
    List.drop_left, List.drop_append_of_le_length hport, ← List.append_assoc, fromBytes_u16,
    fromBytes_varintLoop_open]
  · rfl
  · rw [List.length_append, List.length_drop]
    exact Nat.add_sub_of_le hport
  · intro b hb
    rcases List.mem_append.mp hb with hb | hb
    · exact h.2 b hb
    · have hall : ∀ b ∈ ([0x80, 0x80, 0xFF] : Bytes), 128 ≤ b.toNat := by simp
      exact hall b (List.mem_of_mem_drop hb)

theorem readStunRequest_cut_header_after {datagram : Bytes} (h : datagram <+: stunHeader)
    (port : UInt16) :
    readStunRequest (receiveInto (receiveInto emptyBuffer (stunRequestDatagram port)) datagram) =
      some ⟨port⟩ := by
  have hfits : (stunRequestDatagram port).length ≤ emptyBuffer.length := by
    rw [length_emptyBuffer, stunRequestDatagram, List.length_append]
    exact Nat.le_trans (Nat.add_le_add_left (encodeU16_length_le port) _) (by decide)
  have hbegins : datagram <+: receiveInto emptyBuffer (stunRequestDatagram port) := by
    rw [receiveInto_of_fits hfits, stunRequestDatagram, List.append_assoc]
    exact h.trans (List.prefix_append _ _)
  rw [receiveInto_beginning hbegins]
  exact readStunRequest_receiveInto length_emptyBuffer port

theorem stunReply_isSome (buf : Bytes) (observedPort : UInt16) :
    (stunReply buf observedPort).isSome = (readStunRequest buf).isSome := by
  rw [stunReply]
  cases readStunRequest buf <;> rfl

/-- The reply to a datagram is its own, after every history, exactly when it
does not end inside the request that it begins. -/
theorem stun_isolated_iff (datagram : Bytes) (addr : SocketAddr) :
    (∀ history later,
      (startServing emptyBuffer (history ++ .ok (datagram, addr) :: later))[history.length]? =
        (startServing emptyBuffer [.ok (datagram, addr)])[0]?) ↔ ¬ CutOff datagram := by
  constructor
  · intro h hcut
    have hsome (first : Bytes) :
        (readStunRequest (receiveInto (receiveInto emptyBuffer first) datagram)).isSome =
          (readStunRequest (receiveInto emptyBuffer datagram)).isSome := by
      have heq := h [.ok (first, addr)] []
      rw [startServing_nth, startServing_alone, Option.some.injEq] at heq
      have hisSome := congrArg Option.isSome heq
      simpa only [bufferAfter, List.foldl_cons, List.foldl_nil, serveDatagram, Option.isSome_map,
        stunReply_isSome] using hisSome
    rcases hcut with ⟨hbegins, hne⟩ | ⟨port, rfl, hport⟩
    · have hfirst := hsome (stunRequestDatagram 0)
      rw [readStunRequest_cut_header hbegins hne,
        readStunRequest_cut_header_after hbegins 0] at hfirst
      cases hfirst
    · have hfirst := hsome openRequest
      rw [readStunRequest_cut_port_after hport, readStunRequest_cut_port hport] at hfirst
      cases hfirst
  · intro hcut history later
    rw [startServing_nth, startServing_alone, serveDatagram, stunReply, stunReply,
      readStunRequest_eq_of_not_cutOff hcut (length_bufferAfter emptyBuffer history)]

/-- The header alone is answered when it comes first, and not after a request
whose port is not a port. -/
theorem stun_not_isolated :
    let addr : SocketAddr := .v4 (.new 203 0 113 5) 40000
    let other : SocketAddr := .v4 (.new 198 51 100 7) 50000
    startServing emptyBuffer [.ok (stunHeader, addr)] =
        [some ([1, 0xC0, 0xB8, 2], addr)] ∧
      startServing emptyBuffer [.ok (openRequest, other), .ok (stunHeader, addr)] =
        [none, none] := by
  decide +kernel

end Wireplug
