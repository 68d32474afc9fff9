import Wireplug.AddressText
import Wireplug.Client

namespace Wireplug.Configuration

open Foundation Program ByteStream

structure Interface where
  address : String
  privateKey : String

structure Peer where
  publicKey : String
  allowedIps : String

structure Config where
  interface : Interface
  peers : List Peer

structure AllowedIp where
  address : IpAddr
  cidr : UInt8
  deriving DecidableEq

structure PeerConfigBuilder where
  publicKey : Key
  persistentKeepaliveInterval : Option UInt16
  allowedIps : List AllowedIp
  deriving DecidableEq

namespace PeerConfigBuilder

def new (publicKey : Key) : PeerConfigBuilder := ⟨publicKey, none, []⟩

def setPersistentKeepaliveInterval (peer : PeerConfigBuilder) (interval : UInt16) :
    PeerConfigBuilder :=
  { peer with persistentKeepaliveInterval := some interval }

def addAllowedIp (peer : PeerConfigBuilder) (address : IpAddr) (cidr : UInt8) :
    PeerConfigBuilder :=
  { peer with allowedIps := peer.allowedIps ++ [⟨address, cidr⟩] }

end PeerConfigBuilder

/-- A key pair is written as its private key. -/
structure DeviceUpdate where
  keypair : Option Key
  peers : List PeerConfigBuilder
  deriving DecidableEq

namespace DeviceUpdate

def new : DeviceUpdate := ⟨none, []⟩

def setKeypair (update : DeviceUpdate) (privateKey : Key) : DeviceUpdate :=
  { update with keypair := some privateKey }

def addPeers (update : DeviceUpdate) (peers : List PeerConfigBuilder) : DeviceUpdate :=
  { update with peers := update.peers ++ peers }

end DeviceUpdate

inductive Os where
  | linux
  | macos
  | openbsd
  deriving DecidableEq

/-- The name of the interface has been parsed before the first call. -/
inductive ConfigureEffect where
  | apply (update : DeviceUpdate)
  | deviceGet
  | setAddr (addr : IpNet)
  | setUp (mtu : UInt32)
  | addRoute (cidr : IpNet)
  deriving DecidableEq

@[reducible] def ConfigureEffect.Result : ConfigureEffect → Type
  | .apply _ => Unit
  | .deviceGet => Device
  | .setAddr _ => Unit
  | .setUp _ => Unit
  | .addRoute _ => Bool

abbrev ConfigureEffect.Answer (e : ConfigureEffect) : Type := Except IoError e.Result

inductive ConfigureError where
  | io (e : IoError)
  | other (text : String)
  deriving DecidableEq

instance : FromIoError ConfigureError := ⟨.io⟩

abbrev Configure (α : Type) := ExceptT ConfigureError (Program ConfigureEffect.Answer) α

abbrev ConfigureTrace := Trace ConfigureEffect.Answer

namespace Configure

def invoke (e : ConfigureEffect) : Configure e.Result :=
  ExceptT.mk (.call e fun r ↦ .done (raise r))

def ofResult {α : Type} (r : Except ConfigureError α) : Configure α := ExceptT.mk (.done r)

end Configure

open Configure

def commonPka : UInt16 := 25

section Configure

variable (fromBase64 : String → Except String Key) (netFromStr : String → Except String IpNet)
  (os : Os)

def peerConfig (peer : Peer) : Except ConfigureError PeerConfigBuilder := do
  let key ← (fromBase64 peer.publicKey).mapError fun e ↦
    .io (.other s!"Could not parse key: {e}")
  match IpAddr.fromStr peer.allowedIps with
  | none => .error (.other "invalid IP address syntax")
  | some ip =>
    .ok (((PeerConfigBuilder.new key).setPersistentKeepaliveInterval commonPka).addAllowedIp ip 32)

def configureInet (config : Config) : Configure Unit := do
  let addr ← ofResult ((netFromStr config.interface.address).mapError fun e ↦
    .io (.other s!"Parsing Error: {e}"))
  invoke (.setAddr addr)
  if os = .linux then invoke (.setUp 1420)
  if os ≠ .openbsd then do
    let _ ← invoke (.addRoute addr)

def configure : Option Config → Configure Unit
  | some config => do
    let peers ← ofResult (config.peers.mapM (peerConfig fromBase64))
    let privateKey ← ofResult ((fromBase64 config.interface.privateKey).mapError .other)
    invoke (.apply ((DeviceUpdate.new.setKeypair privateKey).addPeers peers))
    configureInet netFromStr os config
  | none => do
    let device ← invoke .deviceGet
    invoke (.apply (DeviceUpdate.new.addPeers (device.peers.map fun p ↦
      (PeerConfigBuilder.new p.publicKey).setPersistentKeepaliveInterval commonPka)))

end Configure

end Wireplug.Configuration
