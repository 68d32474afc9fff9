import Wireplug.Protocol

namespace Wireplug

open Foundation

structure ProtoRelay where
  aIp : IpAddr
  relayPort : UInt16

structure PendingRelay where
  aIp : IpAddr
  aOport : UInt16
  relayPort : UInt16

structure EstablishedRelay where
  aIp : IpAddr
  aOport : UInt16
  bIp : IpAddr
  bOport : UInt16
  relayIp : IpAddr
  relayPort : UInt16

inductive RelayKind where
  | proto (port : UInt16)
  | pending (port : UInt16)
  | established (port : UInt16)

abbrev NormalizedKey := List UInt8

def tmpStringToBytes (_ : String) : List UInt8 := List.replicate 32 0

def getNormalized (a b : String) : NormalizedKey :=
  let a := tmpStringToBytes a
  let b := tmpStringToBytes b
  if a ≤ b then a ++ b else b ++ a

structure RelayManager where
  proto : HashMap (String × String) ProtoRelay
  pending : HashMap (String × String) PendingRelay
  established : HashMap NormalizedKey EstablishedRelay

def RelayManager.new : RelayManager := ⟨.empty, .empty, .empty⟩

/-- Not written yet in the source: `none` is the panic of its `todo!()`. -/
def getFreeRandomPort : Option UInt16 := none

/-- `freePort` is what `get_free_random_port` returns, should it be called. -/
def RelayManager.getRelayPort (rm : RelayManager) (freePort : Option UInt16)
    (peerA peerB : String) (announcingIp : IpAddr) : Option (RelayKind × RelayManager) :=
  match rm.established.get? (getNormalized peerA peerB) with
  | some relay => some (.established relay.relayPort, rm)
  | none =>
    match rm.pending.get? (peerA, peerB) with
    | some relay => some (.pending relay.relayPort, rm)
    | none =>
      match rm.proto.get? (peerA, peerB) with
      | some relay => some (.proto relay.relayPort, rm)
      | none => do
        -- the non-announcing peer is already pending so use the same port
        let port ← match rm.pending.get? (peerB, peerA) with
          | some relay => some relay.relayPort
          | none => freePort
        some (.proto port,
          { rm with proto := rm.proto.insert (peerA, peerB) ⟨announcingIp, port⟩ })

end Wireplug
