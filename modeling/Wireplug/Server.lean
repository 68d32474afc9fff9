import Wireplug.Foundation.ByteStream
import Wireplug.Foundation.Interleaving
import Wireplug.Peering

namespace Wireplug

open Foundation Postcard ByteStream

inductive ServerError where
  | io (e : IoError)
  | postcard
  | tryFromInt
  | message (text : String)
  deriving DecidableEq, Repr

instance : FromIoError ServerError := ⟨.io⟩

/-- `handle_connection` up to the decoded announcement; `none` is its early `Ok(())`. -/
def readAnnouncement :
    ExceptT ServerError (Program ByteStream.Answer) (Option WireplugAnnouncement) := do
  let header ← readExact 4
  if header.take 3 ≠ wireplugProtocolMagic then do
    shutdown
    pure none
  else if header.drop 3 ≠ wireplugProtocolVersion then do
    writeAll wireplugProtocolMagic
    writeAll wireplugProtocolVersion
    shutdown
    pure none
  else do
    let length ← readExact 4
    let encodedLength := fromLE length
    if encodedLength > maxMessageSize then
      throw (.message s!"Message size {encodedLength} exceeds maximum allowed size of {maxMessageSize}")
    else do
      let payload ← readExact encodedLength
      -- the buffer is read from the start up to `encoded_length`, but decoded whole
      let buffer := payload ++ List.replicate (maxMessageSize - payload.length) 0
      match fromBytes decodeAnnouncement buffer with
      | none => throw .postcard
      | some announcement => pure (some announcement)

def writeResponse (response : WireplugResponse) :
    ExceptT ServerError (Program ByteStream.Answer) Unit := do
  let encodedMessage := encodeResponse response
  if encodedMessage.length < 2 ^ 32 then do
    let encodedSizeBytes := toLE 4 encodedMessage.length
    writeAll wireplugProtocolMagic
    writeAll wireplugProtocolVersion
    writeAll encodedSizeBytes
    writeAll encodedMessage
  else throw .tryFromInt

/-- The points at which a connection may be suspended. -/
inductive ServerEffect where
  | stream (e : ByteStream.Effect)
  | getPeerEndpoints (announcement : WireplugAnnouncement) (announcingPeerAddr : SocketAddr)
  | insertRecords (announcement : WireplugAnnouncement) (ipv4 : Ipv4Addr)
  | incRelaysNeeded
  deriving DecidableEq

@[reducible] def ServerEffect.Answer : ServerEffect → Type
  | .stream e => ByteStream.Answer e
  | .getPeerEndpoints _ _ => HashMap String WireplugEndpoint
  | .insertRecords _ _ => ℕ → SystemTime
  | .incRelaysNeeded => Unit

abbrev Handler (α : Type) := ExceptT ServerError (Program ServerEffect.Answer) α

def onStream {α : Type} (p : ExceptT ServerError (Program ByteStream.Answer) α) : Handler α :=
  ExceptT.mk (p.run.embed .stream fun _ r ↦ r)

def perform (e : ServerEffect) : Handler e.Answer := ExceptT.mk (.call e fun r ↦ .done (.ok r))

/-- The address is checked before the write lock is asked for. -/
def processAnnouncement (announcement : WireplugAnnouncement) (announcingPeerAddr : SocketAddr) :
    Handler Unit :=
  match announcingPeerAddr.ip with
  | .v4 ipv4 => do
    let _ ← perform (.insertRecords announcement ipv4)
    pure ()
  | .v6 _ => throw (.io (.other "bad ip"))

def recordAnnouncement (announcement : WireplugAnnouncement) (announcingPeerAddr : SocketAddr) :
    Handler Unit := do
  processAnnouncement announcement announcingPeerAddr
  if announcement.needsRelay then do
    let _ ← perform .incRelaysNeeded
    pure ()
  else pure ()

/-- `handle_connection` once the announcement is found valid. -/
def answerAnnouncement (announcement : WireplugAnnouncement) (announcingPeerAddr : SocketAddr) :
    Handler Unit := do
  let resPeers ← perform (.getPeerEndpoints announcement announcingPeerAddr)
  onStream (writeResponse (.fromPeerEndpoints resPeers))
  onStream shutdown
  recordAnnouncement announcement announcingPeerAddr

def handleConnection (announcingPeerAddr : SocketAddr) : Handler Unit := do
  match ← onStream readAnnouncement with
  | none => pure ()
  | some announcement =>
    if announcement.valid then answerAnnouncement announcement announcingPeerAddr
    else onStream shutdown

/-- The counters wrap around. -/
structure ServerStats where
  tlsErrros : UInt64
  relaysNeeded : UInt64

def ServerStats.new : ServerStats := ⟨0, 0⟩

def ServerStats.incTlsErrors (stats : ServerStats) : ServerStats :=
  { stats with tlsErrros := stats.tlsErrros + 1 }

def ServerStats.incRelaysNeeded (stats : ServerStats) : ServerStats :=
  { stats with relaysNeeded := stats.relaysNeeded + 1 }

/-- `sweeping` is the time that a running `remove_old_records` has read, while
it waits for the write lock. -/
structure ServerState where
  storage : Storage
  relayManager : RelayManager
  serverStats : ServerStats
  sweeping : Option SystemTime

def ServerState.start (storage : Storage) : ServerState :=
  ⟨storage, .new, .new, none⟩

inductive ServerEvent where
  | tlsError
  | sweepStarts (now : SystemTime)
  | sweeps (now : SystemTime)
  deriving DecidableEq

inductive ServerAnswers : ServerState → ℕ → (e : ServerEffect) → e.Answer → ServerState → Prop
  | readExact (s : ServerState) (i : ℕ) (bytes : Bytes) :
      ServerAnswers s i (.stream (.readExact bytes.length)) (.ok bytes) s
  | readError (s : ServerState) (i n : ℕ) (e : IoError) :
      ServerAnswers s i (.stream (.readExact n)) (.error e) s
  | writeAll (s : ServerState) (i : ℕ) (bytes : Bytes) (r : Except IoError Unit) :
      ServerAnswers s i (.stream (.writeAll bytes)) r s
  | shutdown (s : ServerState) (i : ℕ) (r : Except IoError Unit) :
      ServerAnswers s i (.stream .shutdown) r s
  | getPeerEndpoints (s : ServerState) (i : ℕ) {a : WireplugAnnouncement} {addr : SocketAddr}
      {resPeers : HashMap String WireplugEndpoint} {rm : RelayManager}
      (h : Wireplug.getPeerEndpoints a addr s.storage s.relayManager = some (resPeers, rm))
      (m : HashMap String WireplugEndpoint) (hperm : m.entries.Perm resPeers.entries) :
      ServerAnswers s i (.getPeerEndpoints a addr) m { s with relayManager := rm }
  | insertRecords (s : ServerState) (i : ℕ) (a : WireplugAnnouncement) (ipv4 : Ipv4Addr)
      (now : ℕ → SystemTime) :
      ServerAnswers s i (.insertRecords a ipv4) now
        { s with storage := s.storage.insertRecords a ipv4 now }
  | incRelaysNeeded (s : ServerState) (i : ℕ) :
      ServerAnswers s i .incRelaysNeeded () { s with serverStats := s.serverStats.incRelaysNeeded }

inductive ServerHappens : ServerState → ServerEvent → ServerState → Prop
  | tlsError (s : ServerState) :
      ServerHappens s .tlsError { s with serverStats := s.serverStats.incTlsErrors }
  | sweepStarts (s : ServerState) (h : s.sweeping = none) (now : SystemTime) :
      ServerHappens s (.sweepStarts now) { s with sweeping := some now }
  | sweeps (s : ServerState) (now : SystemTime) (h : s.sweeping = some now) :
      ServerHappens s (.sweeps now)
        { s with storage := s.storage.removeOldRecords now, sweeping := none }

abbrev ServerLabel := Label ℕ SocketAddr ServerEffect.Answer ServerEvent

abbrev ServerConfig := Config ℕ ServerEffect.Answer (Except ServerError Unit) ServerState

/-- Each accepted connection is a task of its own; the sweeper is another. -/
def server : System ℕ SocketAddr ServerEffect.Answer (Except ServerError Unit) ServerState
    ServerEvent where
  program addr := (handleConnection addr).run
  opens s _ _ := s
  answers := ServerAnswers
  background := ServerHappens

def ServerConfig.start (storage : Storage) : ServerConfig :=
  ⟨.start storage, fun _ ↦ none⟩

end Wireplug
