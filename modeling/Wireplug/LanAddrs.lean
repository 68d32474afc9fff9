import Wireplug.Daemon
import Mathlib.Data.List.Infix

namespace Wireplug

open Foundation ByteStream

/-- What `get_lan_addrs` calls of the crates getifaddrs and ipnet. An error is its text. -/
structure LanCrates where
  Address : Type
  isIpv4 : Address → Bool
  ipAddr : Address → Option IpAddr
  netmask : Address → Option IpAddr
  withNetmask : IpAddr → IpAddr → Except String IpNet
  newNet : IpAddr → UInt8 → Except String IpNet

/-- A network keeps the address that it is made from. -/
structure LanCrates.KeepAddrs (crates : LanCrates) : Prop where
  withNetmask : ∀ ip mask net, crates.withNetmask ip mask = .ok net → net.addr = ip
  newNet : ∀ ip n net, crates.newNet ip n = .ok net → net.addr = ip

/-- An entry of `getifaddrs`. -/
structure InterfaceAddr (Address : Type) where
  name : String
  up : Bool
  loopback : Bool
  address : Address
  deriving DecidableEq

def IpAddr.isIpv4 : IpAddr → Bool
  | .v4 _ => true
  | .v6 _ => false

def nameContains (text name : String) : Bool := text.toList <:+: name.toList

section Interfaces

variable (crates : LanCrates)

namespace InterfaceAddr

def eligible (ifWg : String) (ifa : InterfaceAddr crates.Address) : Bool :=
  ifa.up && !ifa.loopback && ifa.name ≠ ifWg && crates.isIpv4 ifa.address &&
    !nameContains "wg" ifa.name && !nameContains "utun" ifa.name

/-- What the interface adds to the list: nothing, a network, or a failure. -/
def lanNet (ifa : InterfaceAddr crates.Address) : Option (Except IoError IpNet) :=
  match crates.ipAddr ifa.address, crates.netmask ifa.address with
  | some ip, some netmask => some ((crates.withNetmask ip netmask).mapError .other)
  | some ip, none => some ((crates.newNet ip (if ip.isIpv4 then 32 else 64)).mapError .other)
  | none, _ => none

end InterfaceAddr

/-- The loop of `get_lan_addrs`. -/
def collectLan : List (InterfaceAddr crates.Address) → Except IoError (List IpNet)
  | [] => .ok []
  | ifa :: rest =>
    match ifa.lanNet crates with
    | none => collectLan rest
    | some net => do
      let net ← net
      let lanIps ← collectLan rest
      pure (net :: lanIps)

def getLanAddrs (ifWg : String) (ifaces : Except IoError (List (InterfaceAddr crates.Address))) :
    Except IoError (List IpNet) := do
  let ifaces ← ifaces
  collectLan crates (ifaces.filter (·.eligible crates ifWg))

end Interfaces

section Networks

variable {crates : LanCrates} {ifaces : List (InterfaceAddr crates.Address)} {nets : List IpNet}
  {net : IpNet}

theorem mapError_eq_ok {r : Except String IpNet} (h : r.mapError IoError.other = .ok net) :
    r = .ok net := by
  cases r with
  | error text => cases h
  | ok net' =>
    cases h
    rfl

theorem InterfaceAddr.addr_of_lanNet (hkeep : crates.KeepAddrs)
    {ifa : InterfaceAddr crates.Address}
    (h : ifa.lanNet crates = some (.ok net)) : crates.ipAddr ifa.address = some net.addr := by
  rw [InterfaceAddr.lanNet] at h
  split at h
  · next ip netmask hip _ =>
    rw [hip, hkeep.withNetmask _ _ _ (mapError_eq_ok (Option.some.inj h))]
  · next ip hip _ =>
    rw [hip, hkeep.newNet _ _ _ (mapError_eq_ok (Option.some.inj h))]
  · cases h

theorem of_mem_collectLan (h : collectLan crates ifaces = .ok nets) (hnet : net ∈ nets) :
    ∃ ifa ∈ ifaces, ifa.lanNet crates = some (.ok net) := by
  induction ifaces generalizing nets with
  | nil =>
    cases h
    cases hnet
  | cons ifa rest ih =>
    rw [collectLan] at h
    split at h
    · obtain ⟨ifa', hmem, hlan⟩ := ih h hnet
      exact ⟨ifa', List.mem_cons_of_mem _ hmem, hlan⟩
    · next r hr =>
      cases r with
      | error e => cases h
      | ok first =>
        cases hrest : collectLan crates rest with
        | error e =>
          rw [hrest] at h
          cases h
        | ok later =>
          rw [hrest] at h
          cases h
          rcases List.mem_cons.mp hnet with rfl | hnet
          · exact ⟨ifa, List.mem_cons_self, hr⟩
          · obtain ⟨ifa', hmem, hlan⟩ := ih hrest hnet
            exact ⟨ifa', List.mem_cons_of_mem _ hmem, hlan⟩

theorem of_mem_getLanAddrs (hkeep : crates.KeepAddrs) {ifWg : String}
    (h : getLanAddrs crates ifWg (.ok ifaces) = .ok nets) (hnet : net ∈ nets) :
    ∃ ifa ∈ ifaces, ifa.eligible crates ifWg = true ∧
      crates.ipAddr ifa.address = some net.addr := by
  obtain ⟨ifa, hmem, hlan⟩ := of_mem_collectLan h hnet
  obtain ⟨hmem, heligible⟩ := List.mem_filter.mp hmem
  exact ⟨ifa, hmem, heligible, InterfaceAddr.addr_of_lanNet hkeep hlan⟩

end Networks

def netmask24 : IpAddr := .v4 (.new 255 255 255 0)

def slash24Crates : LanCrates where
  Address := Ipv4Addr
  isIpv4 _ := true
  ipAddr address := some (.v4 address)
  netmask _ := some netmask24
  withNetmask
    | .v4 ip, mask =>
      if mask = netmask24 then .ok (.v4 (.slash24 ip)) else .error "invalid IP prefix length"
    | .v6 _, _ => .error "invalid IP prefix length"
  newNet _ _ := .error "invalid IP prefix length"

theorem slash24Crates_keepAddrs : slash24Crates.KeepAddrs where
  withNetmask ip mask net h := by
    cases ip with
    | v6 ip => cases h
    | v4 ip =>
      rw [slash24Crates] at h
      dsimp only at h
      split at h
      · cases h
        rfl
      · cases h
  newNet ip n net h := by cases h

def wgAddr : InterfaceAddr slash24Crates.Address :=
  ⟨"wg0", true, false, Ipv4Addr.new 10 0 0 1⟩

def lanAddr : InterfaceAddr slash24Crates.Address :=
  ⟨"eth0", true, false, Ipv4Addr.new 192 168 1 2⟩

example : getLanAddrs slash24Crates "wg0" (.ok [wgAddr, lanAddr]) =
    .ok [.v4 (.slash24 (.new 192 168 1 2))] := by decide

end Wireplug
