import Wireplug.NatSoundness

namespace Wireplug

open Foundation Decoder Postcard Program Probe

def BeginsWith (bytes : Bytes) (response : WireplugStunResponse) : Prop :=
  ∃ used, used <+: bytes ∧ decodeStunResponse.Decodes used response

/-- The bytes break off within an encoding of some reply, possibly before it. -/
def CutShort (bytes : Bytes) : Prop :=
  ∃ missing response, missing ≠ [] ∧ decodeStunResponse.Decodes (bytes ++ missing) response

theorem run_decodeStunResponse_iff {input rest : Bytes} {response : WireplugStunResponse} :
    decodeStunResponse.run input = some (response, rest) ↔
      (variant.run input = some (0, rest) ∧ response = ⟨.samePort⟩) ∨
        ∃ mid port, variant.run input = some (1, mid) ∧ u16.run mid = some (port, rest) ∧
          response = ⟨.differentPort port⟩ := by
  rw [decodeStunResponse, run_bind]
  constructor
  · intro h
    obtain ⟨⟨n, mid⟩, hvariant, hrest⟩ := Option.bind_eq_some_iff.mp h
    rcases n with _ | _ | n
    · cases hrest
      exact .inl ⟨hvariant, rfl⟩
    · obtain ⟨⟨port, rest'⟩, hport, heq⟩ := Option.bind_eq_some_iff.mp hrest
      cases heq
      exact .inr ⟨mid, port, hvariant, hport, rfl⟩
    · cases hrest
  · rintro (⟨hvariant, rfl⟩ | ⟨mid, port, hvariant, hport, rfl⟩)
    · rw [hvariant]
      rfl
    · rw [hvariant, Option.bind_some]
      simp only [run_bind, hport, Option.bind_some, run_pure]

theorem run_u16_iff {input rest : Bytes} {port : UInt16} : u16.run input = some (port, rest) ↔
    ∃ n, (varint 16).run input = some (n, rest) ∧ port = UInt16.ofNat n := by
  rw [u16, run_bind, Option.bind_eq_some_iff]
  constructor
  · rintro ⟨⟨n, rest'⟩, hrun, heq⟩
    cases heq
    exact ⟨n, hrun, rfl⟩
  · rintro ⟨n, hrun, rfl⟩
    exact ⟨(n, rest), hrun, rfl⟩

theorem CutShort.cases {bytes : Bytes} (h : CutShort bytes) :
    (Unfinished 5 bytes ∧ ∃ missing n, n ≤ 1 ∧ variant.Decodes (bytes ++ missing) n) ∨
      ∃ tag rest, bytes = tag ++ rest ∧ variant.Decodes tag 1 ∧ Unfinished 3 rest := by
  obtain ⟨missing, response, hmissing, hdec⟩ := h
  have htag : ∃ n mid, n ≤ 1 ∧ variant.run (bytes ++ missing) = some (n, mid) ∧
      (n = 1 → ∃ m, (varint 16).run mid = some (m, [])) ∧ (n = 0 → mid = []) := by
    rcases run_decodeStunResponse_iff.mp hdec.run with ⟨hvariant, -⟩ | ⟨mid, port, hvariant, hport, -⟩
    · exact ⟨0, [], by omega, hvariant, by simp, by simp⟩
    · obtain ⟨m, hrun, -⟩ := run_u16_iff.mp hport
      exact ⟨1, mid, by omega, hvariant, fun _ ↦ ⟨m, hrun⟩, by simp⟩
  obtain ⟨n, mid, hn, hvariant, hone, hzero⟩ := htag
  rcases run_append_of_cut hvariant with ⟨rest, hcut⟩ | ⟨missing', hmissing', -, hdec'⟩
  · -- the tag is there, so the port is not
    right
    have happend := run_append hcut missing
    rw [hvariant] at happend
    cases happend
    obtain ⟨tag, rfl, htag⟩ := run_prefix hcut
    obtain rfl : n = 1 := by
      by_contra hne
      exact hmissing (List.append_eq_nil_iff.mp (hzero (by omega))).2
    obtain ⟨m, hport⟩ := hone rfl
    obtain ⟨used, hused, hdecport⟩ := run_prefix hport
    rw [List.append_nil] at hused
    rw [← hused] at hdecport
    exact ⟨tag, rest, rfl, htag, unfinished_of_cut hdecport hmissing⟩
  · exact .inl ⟨unfinished_of_cut hdec' hmissing', missing', n, hn, hdec'⟩

theorem CutShort.length_lt {bytes : Bytes} (h : CutShort bytes) : bytes.length < 8 := by
  rcases h.cases with ⟨hopen, -⟩ | ⟨tag, rest, rfl, htag, hopen⟩
  · have hlen := hopen.1
    omega
  · have htaglen : tag.length ≤ 5 := length_le_of_decodes_varintLoop htag
    have hlen := hopen.1
    rw [List.length_append]
    omega

theorem isSome_u16_zero {bytes : Bytes} (h : Unfinished 3 bytes) (tail : Bytes) :
    ∃ port rest, u16.run (bytes ++ 0 :: tail) = some (port, rest) := by
  obtain ⟨n, hdec, -⟩ := @decodes_varintLoop_zero (maxOfLastByte 16) _ _ h
  have hrun : (varint 16).run (bytes ++ 0 :: tail) = some (n, tail) := by
    rw [List.append_cons]
    exact hdec tail
  exact ⟨_, _, run_u16_iff.mpr ⟨n, hrun, rfl⟩⟩

theorem CutShort.zero_filled {bytes : Bytes} (h : CutShort bytes) (tail : Bytes) :
    ∃ response, fromBytes decodeStunResponse (bytes ++ 0 :: 0 :: tail) = some response := by
  suffices hrun : ∃ response rest,
      decodeStunResponse.run (bytes ++ 0 :: 0 :: tail) = some (response, rest) by
    obtain ⟨response, rest, hrun⟩ := hrun
    exact ⟨response, by rw [fromBytes, hrun, Option.map_some]⟩
  rcases h.cases with ⟨hopen, missing, n, hn, hdec⟩ | ⟨tag, rest, rfl, htag, hopen⟩
  · obtain ⟨n', hdec', hleast⟩ := @decodes_varintLoop_zero (maxOfLastByte 32) _ _ hopen
    have hle := hleast missing n hdec
    have hvariant : variant.run (bytes ++ 0 :: 0 :: tail) = some (n', 0 :: tail) := by
      rw [List.append_cons]
      exact hdec' (0 :: tail)
    have hn' : n' = 0 ∨ n' = 1 := by omega
    rcases hn' with rfl | rfl
    · exact ⟨_, _, run_decodeStunResponse_iff.mpr (.inl ⟨hvariant, rfl⟩)⟩
    · have hempty : Unfinished 3 [] := ⟨by simp, by simp⟩
      obtain ⟨port, rest, hport⟩ := isSome_u16_zero hempty tail
      exact ⟨_, _, run_decodeStunResponse_iff.mpr (.inr ⟨_, port, hvariant, hport, rfl⟩)⟩
  · have hvariant : variant.run (tag ++ rest ++ 0 :: 0 :: tail) =
        some (1, rest ++ 0 :: 0 :: tail) := by
      rw [List.append_assoc]
      exact htag _
    obtain ⟨port, rest', hport⟩ := isSome_u16_zero hopen (0 :: tail)
    exact ⟨_, _, run_decodeStunResponse_iff.mpr (.inr ⟨_, port, hvariant, hport, rfl⟩)⟩

theorem receiveInto_zeros (datagram : Bytes) :
    receiveInto (List.replicate stunBufferSize 0) datagram =
      datagram.take stunBufferSize ++ List.replicate (stunBufferSize - datagram.length) 0 := by
  rw [receiveInto, List.length_replicate, List.drop_replicate]

theorem beginsWith_iff (datagram : Bytes) :
    (∀ response, readStunResponse datagram = some response →
      BeginsWith (datagram.take stunBufferSize) response) ↔ ¬CutShort datagram := by
  constructor
  · intro h hcut
    have hlen := hcut.length_lt
    have htake : datagram.take stunBufferSize = datagram :=
      List.take_of_length_le (Nat.le_trans hlen.le (by decide))
    have hzeros : ∃ tail, List.replicate (stunBufferSize - datagram.length) (0 : UInt8) =
        0 :: 0 :: tail := by
      obtain ⟨n, hn⟩ := Nat.exists_eq_add_of_le
        (show 2 ≤ stunBufferSize - datagram.length by simp only [stunBufferSize]; omega)
      exact ⟨List.replicate n 0, by rw [hn, Nat.add_comm]; rfl⟩
    obtain ⟨tail, htail⟩ := hzeros
    obtain ⟨response, hread⟩ := hcut.zero_filled tail
    have hread' : readStunResponse datagram = some response := by
      rw [readStunResponse, receiveInto_zeros, htake, htail]
      exact hread
    obtain ⟨used, hused, hdec⟩ := h response hread'
    rw [htake] at hused
    obtain ⟨rest, rfl⟩ := hused
    obtain ⟨missing, response', hmissing, hdec'⟩ := hcut
    have hnone := run_of_proper_prefix hdec' hmissing
    rw [hdec rest] at hnone
    cases hnone
  · intro hcut response hread
    rw [readStunResponse, receiveInto_zeros] at hread
    obtain ⟨⟨response', rest⟩, hrun, rfl⟩ := Option.map_eq_some_iff.mp hread
    rcases run_append_of_cut hrun with ⟨rest', hrun'⟩ | ⟨missing, hmissing, heq, hdec⟩
    · obtain ⟨used, hused, hdec⟩ := run_prefix hrun'
      exact ⟨used, ⟨rest', hused.symm⟩, hdec⟩
    · -- zeros complete the reply only where the whole datagram is before them
      have hfits : datagram.length ≤ stunBufferSize := by
        by_contra hlong
        rw [Nat.sub_eq_zero_of_le (by omega), List.replicate_zero, List.append_eq_nil_iff] at heq
        exact hmissing heq.1
      rw [List.take_of_length_le hfits] at hdec
      exact (hcut ⟨missing, _, hmissing, hdec⟩).elim

theorem sendStunRequest_ensures (dst : SocketAddr) (localPort : UInt16) :
    (sendStunRequest dst localPort).run.Ensures (fun _ _ _ ↦ True) (fun _ _ ↦ True)
      (fun r t ↦ ∀ response, r = .ok response → ∃ reply, t = asked localPort dst reply ∧
        readStunResponse reply.data = some response) [] := by
  rw [← bind_pure (sendStunRequest dst localPort)]
  refine ensures_sendStunRequest (fun _ _ _ ↦ trivial) (fun e u response h ↦ by cases h) ?_
  intro reply response hread response' heq
  cases heq
  exact ⟨reply, rfl, hread⟩

theorem path_sendStunRequest {dst : SocketAddr} {localPort : UInt16} {reply : SentReply}
    {response : WireplugStunResponse} (hread : readStunResponse reply.data = some response) :
    (sendStunRequest dst localPort).run.Path (asked localPort dst reply)
      (.done (.ok response)) := by
  rw [← bind_pure (sendStunRequest dst localPort)]
  exact path_asked hread pure

/-- What is returned after a datagram is a reply that the datagram begins with, unless the
datagram is cut short. -/
theorem sendStunRequest_believes_iff (dst : SocketAddr) (localPort : UInt16) (reply : SentReply) :
    (∀ t response, (sendStunRequest dst localPort).run.Path t (.done (.ok response)) →
      ⟨.recv localPort, .ok reply⟩ ∈ t →
        BeginsWith (reply.data.take stunBufferSize) response) ↔ ¬CutShort reply.data := by
  rw [← beginsWith_iff]
  constructor
  · intro h response hread
    apply h _ response (path_sendStunRequest hread)
    simp [asked]
  · intro h t response hpath hmem
    obtain ⟨reply', rfl, hread⟩ := (sendStunRequest_ensures dst localPort).result hpath response rfl
    obtain rfl : reply = reply' := by simpa [asked] using hmem
    exact h response hread

def emptyReply : SentReply where
  server := .stun1
  request := requestTo exampleHosts 51820 .stun1
  source := .v4 (.new 203 0 113 5) 51820
  data := []

/-- An empty datagram is believed to say that the port is the same. -/
theorem empty_reply_believed : ∃ t,
    (sendStunRequest (exampleHosts.addr .stun1) 51820).run.Path t (.done (.ok ⟨.samePort⟩)) ∧
      ⟨.recv 51820, .ok emptyReply⟩ ∈ t ∧ emptyReply.data = [] ∧
      ¬BeginsWith (emptyReply.data.take stunBufferSize) ⟨.samePort⟩ := by
  have hread : readStunResponse emptyReply.data = some ⟨.samePort⟩ := by
    rw [readStunResponse, receiveInto_zeros]
    rfl
  refine ⟨_, path_sendStunRequest hread, by simp [asked], rfl, ?_⟩
  rintro ⟨used, hused, hdec⟩
  rw [List.prefix_nil.mp hused] at hdec
  cases hdec.run

end Wireplug
