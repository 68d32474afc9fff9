import Wireplug.Address

namespace Wireplug

structure NetInfo where
  wanIpv4 : Option Ipv4Addr
  wanIpv6 : Option Ipv6Addr
  lanAddrs : List IpNet
  hardNat : Bool
  deriving DecidableEq

/-- Equality of networks; `hard_nat` is not compared. -/
def NetInfo.eq (a b : NetInfo) : Bool :=
  a.wanIpv4 = b.wanIpv4 && a.wanIpv6 = b.wanIpv6 && a.lanAddrs = b.lanAddrs

def NetInfo.online (n : NetInfo) : Bool := n.wanIpv4.isSome || n.wanIpv6.isSome

def NetInfo.offline (n : NetInfo) : Bool := !n.online

structure NetworkMonitor where
  current : Option NetInfo
  lastOnline : Option NetInfo
  deriving DecidableEq

inductive NetStatus where
  | changedToNew
  | changedToPrev
  | online
  | hardNat
  | offline
  deriving DecidableEq

namespace NetworkMonitor

def new : NetworkMonitor := ⟨none, none⟩

def setHardNat (netmon : NetworkMonitor) (hardNat : Bool) : NetworkMonitor :=
  { netmon with current := netmon.current.map fun c ↦ { c with hardNat } }

def isLastOnline (netmon : NetworkMonitor) (newInfo : NetInfo) : Bool :=
  netmon.lastOnline.any newInfo.eq

/-- `newInfo` is what `NetInfo::detect` has found. -/
def checkStatus (netmon : NetworkMonitor) (newInfo : NetInfo) : NetStatus × NetworkMonitor :=
  match netmon.current with
  | none => (.changedToNew, ⟨some newInfo, some newInfo⟩)
  | some current =>
    if newInfo.offline then (.offline, { netmon with current := some newInfo })
    else if newInfo.eq current then (if current.hardNat then .hardNat else .online, netmon)
    else if current.offline && netmon.isLastOnline newInfo then
      (if netmon.lastOnline.any (·.hardNat) then .hardNat else .changedToPrev,
        { netmon with current := some newInfo })
    else (.changedToNew, ⟨some newInfo, some newInfo⟩)

def getCurrent (netmon : NetworkMonitor) : Option NetInfo := netmon.current

def needsRelay (netmon : NetworkMonitor) : Bool := netmon.current.any (·.hardNat)

end NetworkMonitor

end Wireplug
