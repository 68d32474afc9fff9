import Wireplug.Foundation.ByteStream
import Wireplug.Protocol

namespace Wireplug

open Foundation Postcard ByteStream

def stunBufferSize : ℕ := 1024

/-- A datagram lands at the start of the buffer; the rest keeps what it held. -/
def receiveInto (buf datagram : Bytes) : Bytes :=
  datagram.take buf.length ++ buf.drop datagram.length

theorem receiveInto_of_fits {buf datagram : Bytes} (h : datagram.length ≤ buf.length) :
    receiveInto buf datagram = datagram ++ buf.drop datagram.length := by
  rw [receiveInto, List.take_of_length_le h]

theorem length_receiveInto (buf datagram : Bytes) : (receiveInto buf datagram).length = buf.length := by
  rw [receiveInto, List.length_append, List.length_take, List.length_drop]
  omega

/-- The request that the task spawned by `start_serving` finds in its buffer. -/
def readStunRequest (buf : Bytes) : Option WireplugStunRequest :=
  if buf.take 3 ≠ wireplugProtocolMagic ∨ (buf.drop 3).take 1 ≠ wireplugProtocolVersion then none
  else fromBytes decodeStunRequest (buf.drop 4)

def answerStunRequest (observedPort : UInt16) (request : WireplugStunRequest) :
    WireplugStunResponse :=
  if observedPort = request.port then .new none else .new (some observedPort)

/-- The task's reply to a datagram from `observedPort`, if it sends one. -/
def stunReply (buf : Bytes) (observedPort : UInt16) : Option Bytes := do
  let request ← readStunRequest buf
  some (encodeStunResponse (answerStunRequest observedPort request))

def stunRequestDatagram (localPort : UInt16) : Bytes :=
  wireplugProtocolMagic ++ wireplugProtocolVersion ++ encodeStunRequest ⟨localPort⟩

def readStunResponse (datagram : Bytes) : Option WireplugStunResponse :=
  fromBytes decodeStunResponse (receiveInto (List.replicate stunBufferSize 0) datagram)

structure PortMappingNat where
  listenPort : UInt16
  observedPort : UInt16
  deriving DecidableEq

inductive NatKind where
  | easy
  | fixedPortMapping (nat : PortMappingNat)
  | hard
  deriving DecidableEq

/-- `encoding` is the error of a reply that cannot be decoded, `unresolved` the
panic when a name has no address. -/
inductive StunError where
  | io (e : IoError)
  | encoding
  | unresolved
  deriving DecidableEq

instance : FromIoError StunError := ⟨.io⟩

/-- `detect_kind` once both STUN servers have answered; `none` is the error of
inconsistent answers. -/
def natKind (localPort : UInt16) : WireplugStunResult → WireplugStunResult → Option NatKind
  | .samePort, .samePort => some .easy
  | .differentPort port₁, .differentPort port₂ =>
    if port₁ = port₂ then some (.fixedPortMapping ⟨localPort, port₁⟩) else some .hard
  | .samePort, .differentPort _ => none
  | .differentPort _, .samePort => none

theorem encodeU16_length_le (n : UInt16) : (encodeU16 n).length ≤ 3 := by
  rw [encodeU16, encodeVarint_length]
  exact Nat.min_le_left _ _

theorem readStunRequest_receiveInto {buf : Bytes} (hbuf : buf.length = stunBufferSize)
    (port : UInt16) :
    readStunRequest (receiveInto buf (stunRequestDatagram port)) = some ⟨port⟩ := by
  have hport := encodeU16_length_le port
  have hfits : (stunRequestDatagram port).length ≤ buf.length := by
    rw [hbuf, stunRequestDatagram, List.length_append]
    exact Nat.le_trans (Nat.add_le_add_left hport _) (by decide)
  rw [receiveInto_of_fits hfits]
  exact fromBytes_append (roundTrips_stunRequest ⟨port⟩ (by
    exact Nat.lt_of_le_of_lt hport (by decide))) _

theorem encodeStunResponse_length_le (response : WireplugStunResponse) :
    (encodeStunResponse response).length ≤ 8 := by
  obtain ⟨result⟩ := response
  cases result with
  | samePort => decide
  | differentPort port =>
    have hport := encodeU16_length_le port
    rw [encodeStunResponse, List.length_append, encodeVariant, encodeVarint_length]
    have hvariant : varintSize 32 1 ≤ 5 := Nat.min_le_left _ _
    omega

theorem readStunResponse_encode (response : WireplugStunResponse) :
    readStunResponse (encodeStunResponse response) = some response := by
  have hlen := encodeStunResponse_length_le response
  have hfits : (encodeStunResponse response).length ≤
      (List.replicate stunBufferSize (0 : UInt8)).length := by
    rw [List.length_replicate]
    exact Nat.le_trans hlen (by decide)
  rw [readStunResponse, receiveInto_of_fits hfits]
  exact fromBytes_append (roundTrips_stunResponse response
    (Nat.lt_of_le_of_lt hlen (by decide))) _

end Wireplug
