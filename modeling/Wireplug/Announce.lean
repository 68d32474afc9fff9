import Wireplug.Foundation.ByteStream
import Wireplug.Key
import Wireplug.Netstat

namespace Wireplug

open Foundation Postcard ByteStream

inductive AnnounceError where
  | io (e : IoError)
  | encoding
  /-- The panic of `expect`. -/
  | tooLong
  /-- `process::exit(1)`: the server speaks another version. -/
  | outdated
  deriving DecidableEq, Repr

instance : FromIoError AnnounceError := ⟨.io⟩

/-- The first half of `send_announcement`. -/
def writeAnnouncement (announcement : WireplugAnnouncement) :
    ExceptT AnnounceError (Program Answer) Unit := do
  writeAll wireplugProtocolMagic
  writeAll wireplugProtocolVersion
  let encodedMessage := encodeAnnouncement announcement
  if encodedMessage.length < 2 ^ 32 then do
    let encodedMessageSize := toLE 4 encodedMessage.length
    writeAll encodedMessageSize
    writeAll encodedMessage
  else throw .tooLong

/-- The second half of `send_announcement`. -/
def readResponse : ExceptT AnnounceError (Program Answer) WireplugResponse := do
  let header ← readExact 4
  if header.take 3 ≠ wireplugProtocolMagic then throw (.io (.other "bad message"))
  else if header.drop 3 ≠ wireplugProtocolVersion then throw .outdated
  else do
    let lengthBytes ← readExact 4
    let encodedLength := fromLE lengthBytes
    if encodedLength > maxMessageSize then
      throw (.io (.other
        s!"Message size {encodedLength} exceeds maximum allowed size of {maxMessageSize}"))
    else do
      let encodedMessage ← readExact encodedLength
      match fromBytes decodeResponse encodedMessage with
      | none => throw .encoding
      | some response => pure response

def sendAnnouncement (announcement : WireplugAnnouncement) :
    ExceptT AnnounceError (Program Answer) WireplugResponse := do
  writeAnnouncement announcement
  readResponse

/-- What `announce` sends. -/
def announcement (initiatorPubkey : Key) (peers : List Key) (announcementPort : UInt16)
    (netinfo : NetInfo) (needsRelay : Bool) : WireplugAnnouncement where
  initiatorPubkey := initiatorPubkey.toBase64
  peerPubkeys := peers.map Key.toBase64
  ipv6 := netinfo.wanIpv6
  wgPort := announcementPort
  lanAddrs := netinfo.lanAddrs
  needsRelay := needsRelay

theorem announcement_valid (initiatorPubkey : Key) (peers : List Key) (announcementPort : UInt16)
    (netinfo : NetInfo) (needsRelay : Bool) :
    (announcement initiatorPubkey peers announcementPort netinfo needsRelay).valid =
      decide (1024 ≤ announcementPort) := by
  have hpeers : (peers.map Key.toBase64).all isValidWgkey = true := by
    rw [List.all_map, List.all_eq_true]
    exact fun k _ ↦ isValidWgkey_toBase64 k
  rw [WireplugAnnouncement.valid, announcement, isValidWgkey_toBase64, hpeers, Bool.true_and,
    Bool.true_and]

end Wireplug
