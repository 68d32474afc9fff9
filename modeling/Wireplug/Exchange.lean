import Wireplug.Announce
import Wireplug.MessageSize
import Wireplug.Server
import Wireplug.Stun

namespace Wireplug

open Foundation Postcard ByteStream

/-- How both sides put a message on the stream. -/
def frame (payload : Bytes) : Bytes :=
  wireplugProtocolMagic ++ (wireplugProtocolVersion ++ (toLE 4 payload.length ++ payload))

theorem run_writeAnnouncement {a : WireplugAnnouncement}
    (h : (encodeAnnouncement a).length < 2 ^ 32) (input : Bytes) :
    run (writeAnnouncement a).run input = ⟨.ok (), input, frame (encodeAnnouncement a)⟩ := by
  simp only [writeAnnouncement, if_pos h, run_writeAll, run_writeAll_last, frame]

theorem run_writeResponse {response : WireplugResponse}
    (h : (encodeResponse response).length < 2 ^ 32) (input : Bytes) :
    run (writeResponse response).run input = ⟨.ok (), input, frame (encodeResponse response)⟩ := by
  simp only [writeResponse, if_pos h, run_writeAll, run_writeAll_last, frame]

theorem written_readResponse (input : Bytes) : (run readResponse.run input).written = [] := by
  refine written_readExact _ _ fun header input ↦ ?_
  split
  · rfl
  · split
    · rfl
    · refine written_readExact _ _ fun lengthBytes input ↦ ?_
      dsimp only
      split
      · rfl
      · refine written_readExact _ _ fun body input ↦ ?_
        split <;> rfl

theorem written_sendAnnouncement {a : WireplugAnnouncement}
    (h : (encodeAnnouncement a).length < 2 ^ 32) (reply : Bytes) :
    (run (sendAnnouncement a).run reply).written = frame (encodeAnnouncement a) := by
  rw [sendAnnouncement, run_ok (run_writeAnnouncement h reply), written_readResponse,
    List.append_nil]

def paddedPayload (payload : Bytes) : Bytes :=
  payload ++ List.replicate (maxMessageSize - payload.length) 0

def announcementHeader (n : ℕ) : Bytes :=
  wireplugProtocolMagic ++ (wireplugProtocolVersion ++ toLE 4 n)

theorem frame_eq (payload : Bytes) :
    frame payload = announcementHeader payload.length ++ payload := by
  rw [frame, announcementHeader, List.append_assoc, List.append_assoc]

theorem run_announcementHeader {n : ℕ} (hn : n < 2 ^ 32) (rest : Bytes) :
    run readAnnouncement.run (announcementHeader n ++ rest) =
      if n > maxMessageSize then
        ⟨.error (.message s!"Message size {n} exceeds maximum allowed size of {maxMessageSize}"),
          rest, []⟩
      else if n ≤ rest.length then
        ⟨match fromBytes decodeAnnouncement (paddedPayload (rest.take n)) with
          | some a => .ok (some a)
          | none => .error .postcard, rest.drop n, []⟩
      else ⟨.error (.io .unexpectedEof), [], []⟩ := by
  have hlen : fromLE (toLE 4 n) = n := fromLE_toLE hn
  have hheader : (wireplugProtocolMagic ++ wireplugProtocolVersion).length = 4 := rfl
  rw [announcementHeader, ← List.append_assoc, List.append_assoc, readAnnouncement,
    run_readExact _ hheader]
  simp only [wireplugProtocolMagic, wireplugProtocolVersion, List.cons_append, List.nil_append,
    List.take, List.drop, ne_eq, not_true_eq_false, if_false]
  rw [run_readExact _ (toLE_length 4 n)]
  simp only [hlen]
  split
  · rw [run_throw]
  · split
    · next hrest =>
      conv_lhs => rw [← List.take_append_drop n rest]
      rw [run_readExact _ (List.length_take_of_le hrest), paddedPayload]
      cases fromBytes decodeAnnouncement _ <;> rfl
    · next hrest => rw [run_readExact_short _ _ (Nat.not_le.mp hrest)]; rfl

theorem run_readResponse {payload : Bytes} (hlen : payload.length < 2 ^ 32) (tail : Bytes) :
    run readResponse.run (frame payload ++ tail) =
      if payload.length > maxMessageSize then
        ⟨.error (.io (.other
          s!"Message size {payload.length} exceeds maximum allowed size of {maxMessageSize}")),
          payload ++ tail, []⟩
      else ⟨match fromBytes decodeResponse payload with
        | some response => .ok response
        | none => .error .encoding, tail, []⟩ := by
  have hsize : fromLE (toLE 4 payload.length) = payload.length := fromLE_toLE hlen
  have hheader : (wireplugProtocolMagic ++ wireplugProtocolVersion).length = 4 := rfl
  have hsplit : frame payload ++ tail = (wireplugProtocolMagic ++ wireplugProtocolVersion) ++
      (toLE 4 payload.length ++ (payload ++ tail)) := by
    simp only [frame, List.append_assoc]
  rw [hsplit, readResponse, run_readExact _ hheader]
  simp only [wireplugProtocolMagic, wireplugProtocolVersion, List.cons_append, List.nil_append,
    List.take, List.drop, ne_eq, not_true_eq_false, if_false]
  rw [run_readExact _ (toLE_length 4 payload.length)]
  simp only [hsize]
  split
  · rw [run_throw]
  · rw [run_readExact _ rfl]
    cases fromBytes decodeResponse payload <;> rfl

/-- Some zero bytes of the padding complete the payload to a whole encoding. -/
def CutAtZeros (payload : Bytes) : Prop :=
  ∃ k a, 0 < k ∧ payload.length + k ≤ maxMessageSize ∧
    decodeAnnouncement.Decodes (payload ++ List.replicate k 0) a

theorem paddedPayload_eq {payload : Bytes} {k : ℕ} (hk : payload.length + k ≤ maxMessageSize) :
    paddedPayload payload = payload ++ List.replicate k 0 ++
      List.replicate (maxMessageSize - payload.length - k) 0 := by
  rw [paddedPayload, List.append_assoc, ← List.replicate_add]
  congr 2
  omega

theorem fromBytes_paddedPayload {payload : Bytes} {a : WireplugAnnouncement}
    (h : fromBytes decodeAnnouncement payload = some a) :
    fromBytes decodeAnnouncement (paddedPayload payload) = some a := by
  obtain ⟨⟨a', rest⟩, hrun, rfl⟩ := Option.map_eq_some_iff.mp h
  rw [fromBytes, paddedPayload, Decoder.run_append hrun, Option.map_some]

theorem fromBytes_of_cutAtZeros {payload : Bytes} (h : CutAtZeros payload) :
    fromBytes decodeAnnouncement payload = none ∧
      ∃ a, fromBytes decodeAnnouncement (paddedPayload payload) = some a := by
  obtain ⟨k, a, hpos, hk, hdec⟩ := h
  have hne : List.replicate k (0 : UInt8) ≠ [] := by
    rw [ne_eq, List.replicate_eq_nil_iff]
    omega
  refine ⟨?_, a, ?_⟩
  · rw [fromBytes, Decoder.run_of_proper_prefix hdec hne, Option.map_none]
  · rw [paddedPayload_eq hk]
    exact fromBytes_append hdec _

theorem fromBytes_of_paddedPayload {payload : Bytes} {a : WireplugAnnouncement}
    (h : fromBytes decodeAnnouncement (paddedPayload payload) = some a)
    (hcut : ¬ CutAtZeros payload) : fromBytes decodeAnnouncement payload = some a := by
  obtain ⟨⟨a', rest⟩, hrun, rfl⟩ := Option.map_eq_some_iff.mp h
  -- either the payload was enough, or the decoder has gone on into the zeros
  rcases Decoder.run_append_of_cut hrun with ⟨rest', halone⟩ | ⟨missing, hne, happ, hdec⟩
  · rw [fromBytes, halone, Option.map_some]
  · have hzeros : missing = List.replicate missing.length 0 := by
      refine List.eq_replicate_of_mem fun b hb ↦ ?_
      exact List.eq_of_mem_replicate (happ ▸ List.mem_append_left rest hb)
    have hlen : missing.length + rest.length = maxMessageSize - payload.length := by
      rw [← List.length_append, happ, List.length_replicate]
    have hpos : 0 < missing.length := List.length_pos_iff.mpr hne
    rw [hzeros] at hdec
    exact (hcut ⟨missing.length, a', hpos, by omega, hdec⟩).elim

theorem result_announcementHeader {n : ℕ} (hn : n ≤ maxMessageSize) (rest : Bytes)
    (a : WireplugAnnouncement) :
    (run readAnnouncement.run (announcementHeader n ++ rest)).result = .ok (some a) ↔
      n ≤ rest.length ∧ fromBytes decodeAnnouncement (paddedPayload (rest.take n)) = some a := by
  rw [run_announcementHeader (Nat.lt_of_le_of_lt hn (by decide)), if_neg (Nat.not_lt.mpr hn)]
  by_cases hrest : n ≤ rest.length
  · rw [if_pos hrest, and_iff_right hrest]
    cases fromBytes decodeAnnouncement (paddedPayload (rest.take n)) <;> simp
  · simp [hrest]

/-- The server decodes the declared payload and nothing else, except where the
padding completes it. -/
theorem declared_payload_iff {n : ℕ} (hn : n ≤ maxMessageSize) (rest : Bytes) :
    (∀ a, (run readAnnouncement.run (announcementHeader n ++ rest)).result = .ok (some a) ↔
        n ≤ rest.length ∧ fromBytes decodeAnnouncement (rest.take n) = some a) ↔
      ¬ (n ≤ rest.length ∧ CutAtZeros (rest.take n)) := by
  simp only [result_announcementHeader hn]
  constructor
  · intro h hpat
    obtain ⟨hrest, hcut⟩ := hpat
    obtain ⟨hnone, a, hsome⟩ := fromBytes_of_cutAtZeros hcut
    have ha := ((h a).mp ⟨hrest, hsome⟩).2
    rw [hnone] at ha
    cases ha
  · intro hcut a
    refine and_congr_right fun hrest ↦ ⟨fun h ↦ ?_, fromBytes_paddedPayload⟩
    exact fromBytes_of_paddedPayload h fun hc ↦ hcut ⟨hrest, hc⟩

theorem encodeAnnouncement_eq_dropLast {a : WireplugAnnouncement} (hrelay : a.needsRelay = false) :
    encodeAnnouncement a = (encodeAnnouncement a).dropLast ++ List.replicate 1 0 := by
  simp [encodeAnnouncement, encodeBool, hrelay]

theorem cutAtZeros_dropLast {a : WireplugAnnouncement} (hrelay : a.needsRelay = false)
    (hlen : (encodeAnnouncement a).length ≤ maxMessageSize) :
    CutAtZeros (encodeAnnouncement a).dropLast := by
  have hsplit := encodeAnnouncement_eq_dropLast hrelay
  have hdec := roundTrips_announcement a (Nat.lt_of_le_of_lt hlen (by decide))
  refine ⟨1, a, Nat.one_pos, ?_, ?_⟩
  · rw [hsplit, List.length_append, List.length_replicate] at hlen
    exact hlen
  · rwa [← hsplit]

/-- A valid announcement that lost its last byte is accepted all the same. -/
theorem truncated_payload_accepted :
    let a := bareAnnouncement (.filled 0) (.filled 1)
    let payload := (encodeAnnouncement a).dropLast
    (run readAnnouncement.run (announcementHeader payload.length ++ payload)).result =
        .ok (some a) ∧
      fromBytes decodeAnnouncement payload = none := by
  intro a payload
  have hlen : (encodeAnnouncement a).length = 97 := bareAnnouncement_length _ _
  have hcut : CutAtZeros payload := cutAtZeros_dropLast rfl (by rw [hlen]; decide)
  have hn : payload.length + 1 ≤ maxMessageSize := by
    rw [List.length_dropLast, hlen]
    decide
  refine ⟨(result_announcementHeader (by omega) payload a).mpr ⟨le_rfl, ?_⟩,
    (fromBytes_of_cutAtZeros hcut).1⟩
  rw [List.take_length, paddedPayload_eq hn, ← encodeAnnouncement_eq_dropLast rfl]
  exact fromBytes_append (roundTrips_announcement a (by rw [hlen]; decide)) _

theorem declared_payload_iff_bare :
    let payload := encodeAnnouncement (bareAnnouncement (.filled 0) (.filled 1))
    97 ≤ maxMessageSize ∧
      ((∀ a, (run readAnnouncement.run (announcementHeader 97 ++ payload)).result = .ok (some a) ↔
          97 ≤ payload.length ∧ fromBytes decodeAnnouncement (payload.take 97) = some a) ↔
        ¬ (97 ≤ payload.length ∧ CutAtZeros (payload.take 97))) :=
  ⟨by decide, declared_payload_iff (by decide) _⟩

theorem readAnnouncement_sendAnnouncement {a : WireplugAnnouncement}
    (hlen : (encodeAnnouncement a).length ≤ maxMessageSize) (reply tail : Bytes) :
    run readAnnouncement.run ((run (sendAnnouncement a).run reply).written ++ tail) =
      ⟨.ok (some a), tail, []⟩ := by
  have hlt : (encodeAnnouncement a).length < 2 ^ 32 := Nat.lt_of_le_of_lt hlen (by decide)
  have hdec := roundTrips_announcement a (Nat.lt_of_le_of_lt hlen (by decide))
  rw [written_sendAnnouncement hlt, frame_eq, List.append_assoc, run_announcementHeader hlt,
    if_neg (Nat.not_lt.mpr hlen), if_pos (by rw [List.length_append]; omega), List.take_left,
    List.drop_left, fromBytes_paddedPayload (fromBytes_of_decodes hdec)]

theorem readResponse_writeResponse {m m' : HashMap String WireplugEndpoint}
    (hperm : m'.entries.Perm m.entries) (hlen : (encodeResponse ⟨m'⟩).length ≤ maxMessageSize)
    (input tail : Bytes) : ∃ read : HashMap String WireplugEndpoint,
      run readResponse.run ((run (writeResponse ⟨m'⟩).run input).written ++ tail) =
        ⟨.ok ⟨read⟩, tail, []⟩ ∧ read.Equiv m := by
  have hlt : (encodeResponse ⟨m'⟩).length < 2 ^ 32 := Nat.lt_of_le_of_lt hlen (by decide)
  obtain ⟨read, hread, hdec⟩ :=
    decodes_response m hperm (Nat.lt_of_le_of_lt hlen (by decide))
  have hfrom : fromBytes decodeResponse (encodeResponse ⟨m'⟩) = some ⟨read⟩ :=
    fromBytes_of_decodes hdec
  refine ⟨read, ?_, hread⟩
  rw [run_writeResponse hlt, run_readResponse hlt, if_neg (Nat.not_lt.mpr hlen), hfrom]

/-- Every message that fits is read as it was written, up to the order in which
a map is iterated. -/
theorem wire_round_trip :
    (∀ a : WireplugAnnouncement, (encodeAnnouncement a).length ≤ maxMessageSize →
      ∀ reply tail, run readAnnouncement.run ((run (sendAnnouncement a).run reply).written ++ tail) =
        ⟨.ok (some a), tail, []⟩) ∧
    (∀ m m' : HashMap String WireplugEndpoint, m'.entries.Perm m.entries →
      (encodeResponse ⟨m'⟩).length ≤ maxMessageSize →
      ∀ input tail, ∃ read : HashMap String WireplugEndpoint,
        run readResponse.run ((run (writeResponse ⟨m'⟩).run input).written ++ tail) =
          ⟨.ok ⟨read⟩, tail, []⟩ ∧ read.Equiv m) ∧
    (∀ buf : Bytes, buf.length = stunBufferSize → ∀ port,
      readStunRequest (receiveInto buf (stunRequestDatagram port)) = some ⟨port⟩) ∧
    ∀ buf : Bytes, buf.length = stunBufferSize → ∀ port observedPort,
      (stunReply (receiveInto buf (stunRequestDatagram port)) observedPort).bind readStunResponse =
        some (answerStunRequest observedPort ⟨port⟩) := by
  refine ⟨fun a ↦ readAnnouncement_sendAnnouncement, fun m m' ↦ readResponse_writeResponse,
    fun buf ↦ readStunRequest_receiveInto, fun buf hbuf port observedPort ↦ ?_⟩
  rw [stunReply, readStunRequest_receiveInto hbuf, Option.bind_eq_bind, Option.bind_some,
    Option.bind_some, readStunResponse_encode]

theorem wire_round_trip_bare :
    let a := bareAnnouncement (.filled 0) (.filled 1)
    run readAnnouncement.run ((run (sendAnnouncement a).run []).written ++ []) =
      ⟨.ok (some a), [], []⟩ :=
  wire_round_trip.1 _ (by rw [bareAnnouncement_length]; decide) [] []

end Wireplug
