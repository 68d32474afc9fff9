import Wireplug.Configure
import Mathlib.Data.List.Forall2
import Mathlib.Data.Set.Lattice
import Mathlib.Order.CompletePartialOrder

namespace Wireplug.Configuration

open Foundation Program ByteStream Configure

namespace AllowedIp

def contains : AllowedIp → IpAddr → Bool
  | ⟨.v4 address, cidr⟩, .v4 ip =>
    inNetwork (toNumber address.octets.toList) (32 - cidr.toNat) (toNumber ip.octets.toList)
  | ⟨.v6 address, cidr⟩, .v6 ip =>
    inNetwork (toNumber address.octets.toList) (128 - cidr.toNat) (toNumber ip.octets.toList)
  | _, _ => false

def network (allowedIp : AllowedIp) : Set IpAddr := {ip | allowedIp.contains ip = true}

theorem mem_network_self (ip : IpAddr) (cidr : UInt8) : ip ∈ network ⟨ip, cidr⟩ := by
  cases ip with
  | v4 ip => exact (inNetwork_iff _ _ _).mpr rfl
  | v6 ip => exact (inNetwork_iff _ _ _).mpr rfl

theorem network_ipv4 (ip : Ipv4Addr) : network ⟨.v4 ip, 32⟩ = {.v4 ip} := by
  refine Set.Subset.antisymm (fun other hother ↦ ?_)
    (Set.singleton_subset_iff.mpr (mem_network_self _ _))
  cases other with
  | v6 other => cases hother
  | v4 other =>
    have hnumber := (inNetwork_iff _ _ _).mp hother
    have hbits : 32 - (32 : UInt8).toNat = 0 := rfl
    rw [hbits, Nat.pow_zero, Nat.div_one, Nat.div_one] at hnumber
    have hoctets := toNumber_injective (by simp) hnumber
    obtain ⟨octets⟩ := ip
    obtain ⟨octets'⟩ := other
    obtain rfl : octets' = octets := Vector.toList_inj.mp hoctets
    rfl

theorem mem_network_ipv6 (ip ip' : Ipv6Addr)
    (h : ip'.octets.toList.take 4 = ip.octets.toList.take 4) :
    IpAddr.v6 ip' ∈ network ⟨.v6 ip, 32⟩ := by
  have hdiv (ip : Ipv6Addr) : toNumber ip.octets.toList / 2 ^ 96 =
      toNumber (ip.octets.toList.take 4) := by
    have hlength : 8 * (ip.octets.toList.drop 4).length = 96 := by
      rw [List.length_drop, Vector.length_toList]
    have happend := toNumber_append_div (ip.octets.toList.take 4) (ip.octets.toList.drop 4)
    rwa [List.take_append_drop, hlength] at happend
  refine (inNetwork_iff _ _ _).mpr ?_
  have hbits : 128 - (32 : UInt8).toNat = 96 := rfl
  rw [hbits, hdiv, hdiv, h]

theorem exists_mem_network_ipv6 (ip : Ipv6Addr) :
    ∃ other ∈ network ⟨.v6 ip, 32⟩, other ≠ .v6 ip := by
  refine ⟨.v6 ⟨ip.octets.set 15 (ip.octets[15] + 1)⟩, mem_network_ipv6 _ _ ?_, fun heq ↦ ?_⟩
  · rw [Vector.toList_set, List.take_set_of_le (by omega)]
  · have hset := congrArg Ipv6Addr.octets (IpAddr.v6.inj heq)
    have hlast := congrArg (fun v : Vector UInt8 16 ↦ v[15]) hset
    simp at hlast

end AllowedIp

def installed (t : ConfigureTrace) : List PeerConfigBuilder :=
  t.flatMap fun
    | ⟨.apply update, .ok ()⟩ => update.peers
    | _ => []

theorem installed_append (t u : ConfigureTrace) :
    installed (t ++ u) = installed t ++ installed u := List.flatMap_append

theorem installed_eq_nil {t : ConfigureTrace} (h : ∀ ev ∈ t, ∀ update, ev.1 ≠ .apply update) :
    installed t = [] := by
  rw [installed, List.flatMap_eq_nil_iff]
  rintro ⟨e, r⟩ hev
  cases e with
  | apply update => exact (h _ hev update rfl).elim
  | deviceGet => rfl
  | setAddr addr => rfl
  | setUp mtu => rfl
  | addRoute cidr => rfl

section Configure

variable {fromBase64 : String → Except String Key} {netFromStr : String → Except String IpNet}
  {os : Os} {config : Config} {t : ConfigureTrace}

theorem ofResult_path {α : Type} {r : Except ConfigureError α} {a : α}
    (h : (ofResult r).run.Path t (.done (.ok a))) : t = [] ∧ r = .ok a := by
  obtain ⟨rfl, heq⟩ := Path.of_done h
  exact ⟨rfl, (Program.done.inj heq).symm⟩

theorem invoke_path {e : ConfigureEffect} {a : e.Result}
    (h : (invoke e).run.Path t (.done (.ok a))) : t = [⟨e, .ok a⟩] := by
  cases h with
  | @cons _ _ r _ _ h =>
    obtain ⟨rfl, heq⟩ := Path.of_done h
    have hr : raise r = .ok a := (Program.done.inj heq).symm
    cases r with
    | ok a' =>
      cases hr
      rfl
    | error e => cases hr

theorem only_invoke {P : ConfigureEffect → Prop} {e : ConfigureEffect} (he : P e) :
    (invoke e).run.Only P (Ends (fun _ ↦ True) fun _ ↦ True) := by
  refine ⟨he, fun r ↦ ?_⟩
  cases r <;> trivial

/-- The address and the route of the interface itself change no peer. -/
theorem configureInet_only : (configureInet netFromStr os config).run.Only
    (fun e ↦ ∀ update, e ≠ .apply update) (Ends (fun _ ↦ True) fun _ ↦ True) := by
  have haddr : (ofResult ((netFromStr config.interface.address).mapError fun e ↦
      ConfigureError.io (.other s!"Parsing Error: {e}"))).run.Only
      (fun e ↦ ∀ update, e ≠ .apply update) (Ends (fun _ ↦ True) fun _ ↦ True) := by
    cases netFromStr config.interface.address <;> trivial
  refine haddr.try fun addr _ ↦ (only_invoke (by simp)).try fun _ _ ↦ ?_
  cases os with
  | linux =>
    refine (only_invoke (by simp)).try fun _ _ ↦ ?_
    exact (only_invoke (by simp)).try fun _ _ ↦ trivial
  | macos => exact (only_invoke (by simp)).try fun _ _ ↦ trivial
  | openbsd => trivial

theorem forall₂_of_mapM {α β ε : Type} {f : α → Except ε β} {l : List α} {l' : List β}
    (h : l.mapM f = .ok l') : List.Forall₂ (fun a b ↦ f a = .ok b) l l' := by
  induction l generalizing l' with
  | nil =>
    cases h
    exact .nil
  | cons a l ih =>
    rw [List.mapM_cons] at h
    cases ha : f a with
    | error e =>
      rw [ha] at h
      cases h
    | ok b =>
      cases hl : l.mapM f with
      | error e =>
        rw [ha, hl] at h
        cases h
      | ok bs =>
        rw [ha, hl] at h
        cases h
        exact .cons ha (ih hl)

theorem configure_installs
    (h : (configure fromBase64 netFromStr os (some config)).run.Path t (.done (.ok ()))) :
    List.Forall₂ (fun peer p ↦ peerConfig fromBase64 peer = .ok p) config.peers (installed t) := by
  rw [configure] at h
  obtain ⟨peers, _, _, rfl, hpeers, hkeys⟩ := Path.try_done h
  obtain ⟨rfl, hmap⟩ := ofResult_path hpeers
  obtain ⟨privateKey, _, _, rfl, hkey, hupdate⟩ := Path.try_done hkeys
  obtain ⟨rfl, -⟩ := ofResult_path hkey
  obtain ⟨_, _, t, rfl, happly, hinet⟩ := Path.try_done hupdate
  cases invoke_path happly
  have hrest := installed_eq_nil (configureInet_only.of_path hinet)
  have hall : installed ([] ++ ([] ++ ([⟨.apply ((DeviceUpdate.new.setKeypair privateKey).addPeers
      peers), .ok ()⟩] ++ t))) = peers := by
    rw [List.nil_append, List.nil_append, installed_append, hrest, List.append_nil]
    exact List.append_nil _
  rw [hall]
  exact forall₂_of_mapM hmap

theorem peerConfig_ok {peer : Peer} {p : PeerConfigBuilder}
    (h : peerConfig fromBase64 peer = .ok p) : ∃ key ip, fromBase64 peer.publicKey = .ok key ∧
      IpAddr.fromStr peer.allowedIps = some ip ∧ p = ⟨key, some commonPka, [⟨ip, 32⟩]⟩ := by
  rw [peerConfig] at h
  cases hkey : fromBase64 peer.publicKey with
  | error e =>
    rw [hkey] at h
    cases h
  | ok key =>
    cases hip : IpAddr.fromStr peer.allowedIps with
    | none =>
      rw [hkey, hip] at h
      cases h
    | some ip =>
      rw [hkey, hip] at h
      cases h
      exact ⟨key, ip, rfl, rfl, rfl⟩

/-- What is installed for two peers is disjoint, and for each only the configured address. -/
structure KeepsTrafficApart (peers : List Peer) (installed : List PeerConfigBuilder) : Prop where
  disjoint : installed.Pairwise fun p q ↦
    ∀ n ∈ p.allowedIps, ∀ m ∈ q.allowedIps, Disjoint n.network m.network
  noOther : List.Forall₂ (fun peer p ↦
    ∀ n ∈ p.allowedIps, ∀ ip ∈ n.network, IpAddr.fromStr peer.allowedIps = some ip) peers installed

theorem pairwise_of_forall₂ {α β : Type} {R : α → β → Prop} {P : α → α → Prop}
    {Q : β → β → Prop} {l : List α} {l' : List β} (hR : List.Forall₂ R l l') (hP : l.Pairwise P)
    (h : ∀ a b a' b', R a b → R a' b' → P a a' → Q b b') : l'.Pairwise Q := by
  induction hR with
  | nil => exact .nil
  | @cons a b l l' hab hrest ih =>
    obtain ⟨ha, hP⟩ := List.pairwise_cons.mp hP
    refine List.pairwise_cons.mpr ⟨fun b' hb' ↦ ?_, ih hP⟩
    obtain ⟨i, hi, rfl⟩ := List.getElem_of_mem hb'
    have hi' : i < l.length := by rwa [hrest.length_eq]
    exact h a b _ _ hab (hrest.get hi' hi) (ha _ (List.getElem_mem hi'))

theorem forall₂_iff_of_forall₂ {α β : Type} {R S : α → β → Prop} {Q : α → Prop} {l : List α}
    {l' : List β} (hR : List.Forall₂ R l l') (h : ∀ a b, R a b → (S a b ↔ Q a)) :
    List.Forall₂ S l l' ↔ ∀ a ∈ l, Q a := by
  induction hR with
  | nil => simp
  | cons hab _ ih => rw [List.forall₂_cons, List.forall_mem_cons, h _ _ hab, ih]

theorem network_eq_configured_iff {peer : Peer} {p : PeerConfigBuilder}
    (h : peerConfig fromBase64 peer = .ok p) :
    (∀ n ∈ p.allowedIps, ∀ ip ∈ n.network, IpAddr.fromStr peer.allowedIps = some ip) ↔
      ∃ ip, IpAddr.fromStr peer.allowedIps = some (.v4 ip) := by
  obtain ⟨key, ip, -, hip, rfl⟩ := peerConfig_ok h
  rw [List.forall_mem_singleton, hip]
  constructor
  · intro hnoOther
    cases ip with
    | v4 ip => exact ⟨ip, rfl⟩
    | v6 ip =>
      obtain ⟨other, hother, hne⟩ := AllowedIp.exists_mem_network_ipv6 ip
      exact (hne (Option.some.inj (hnoOther other hother)).symm).elim
  · rintro ⟨ip, hip⟩ other hother
    cases hip
    rw [AllowedIp.network_ipv4] at hother
    rw [hother]

theorem disjoint_of_noOther {peers : List Peer} {ps : List PeerConfigBuilder}
    (hdistinct : peers.Pairwise fun p q ↦
      IpAddr.fromStr p.allowedIps ≠ IpAddr.fromStr q.allowedIps)
    (h : List.Forall₂ (fun peer (p : PeerConfigBuilder) ↦
      ∀ n ∈ p.allowedIps, ∀ ip ∈ n.network, IpAddr.fromStr peer.allowedIps = some ip) peers ps) :
    KeepsTrafficApart peers ps := by
  refine ⟨pairwise_of_forall₂ h hdistinct ?_, h⟩
  intro peer p peer' p' hp hp' hne n hn m hm
  rw [Set.disjoint_left]
  intro ip hip hip'
  apply hne
  rw [hp n hn ip hip, hp' m hm ip hip']

/-- The networks that are installed keep the peers apart if and only if all are IPv4. -/
theorem keepsTrafficApart_iff (hdistinct : config.peers.Pairwise fun p q ↦
      IpAddr.fromStr p.allowedIps ≠ IpAddr.fromStr q.allowedIps)
    (h : (configure fromBase64 netFromStr os (some config)).run.Path t (.done (.ok ()))) :
    KeepsTrafficApart config.peers (installed t) ↔
      ∀ peer ∈ config.peers, ∃ ip, IpAddr.fromStr peer.allowedIps = some (.v4 ip) := by
  have hiff (peer : Peer) (p : PeerConfigBuilder) (hpeer : peerConfig fromBase64 peer = .ok p) :=
    network_eq_configured_iff hpeer
  have hnoOther := forall₂_iff_of_forall₂ (configure_installs h) hiff
  constructor
  · intro hapart
    exact hnoOther.mp hapart.noOther
  · intro hipv4
    exact disjoint_of_noOther hdistinct (hnoOther.mpr hipv4)

def acceptedTrace (privateKey : Key) (peers : List PeerConfigBuilder) (addr : IpNet) :
    ConfigureTrace :=
  [⟨.apply ((DeviceUpdate.new.setKeypair privateKey).addPeers peers), .ok ()⟩,
    ⟨.setAddr addr, .ok ()⟩, ⟨.setUp 1420, .ok ()⟩, ⟨.addRoute addr, .ok true⟩]

theorem acceptedTrace_path {privateKey : Key} {peers : List PeerConfigBuilder} {addr : IpNet}
    (hpeers : config.peers.mapM (peerConfig fromBase64) = .ok peers)
    (hkey : fromBase64 config.interface.privateKey = .ok privateKey)
    (haddr : netFromStr config.interface.address = .ok addr) :
    (configure fromBase64 netFromStr .linux (some config)).run.Path
      (acceptedTrace privateKey peers addr) (.done (.ok ())) := by
  rw [configure, configureInet, hpeers, hkey, haddr]
  exact .cons (.cons (.cons (.cons (.nil _))))

end Configure

def keyFromBase64 (s : String) : Except String Key :=
  match strictBase64 s with
  | some key => .ok key
  | none => .error "invalid key"

def exampleAddr : IpNet := .v4 (.slash24 (.new 10 0 0 1))

def exampleFromStr (s : String) : Except String IpNet :=
  if s = "10.0.0.1/24" then .ok exampleAddr else .error "invalid IP address syntax"

def twoPeers (first second : String) : Config where
  interface := ⟨"10.0.0.1/24", (Key.filled 9).toBase64⟩
  peers := [⟨(Key.filled 1).toBase64, first⟩, ⟨(Key.filled 2).toBase64, second⟩]

def twoPeersTrace (first second : IpAddr) : ConfigureTrace :=
  acceptedTrace (Key.filled 9) [⟨Key.filled 1, some commonPka, [⟨first, 32⟩]⟩,
    ⟨Key.filled 2, some commonPka, [⟨second, 32⟩]⟩] exampleAddr

theorem twoPeers_path {first second : String} {ip ip' : IpAddr}
    (hfirst : IpAddr.fromStr first = some ip) (hsecond : IpAddr.fromStr second = some ip') :
    (configure keyFromBase64 exampleFromStr .linux (some (twoPeers first second))).run.Path
      (twoPeersTrace ip ip') (.done (.ok ())) := by
  have hkey (k : Key) : keyFromBase64 k.toBase64 = .ok k := by
    rw [keyFromBase64, strictBase64_toBase64]
  refine acceptedTrace_path ?_ (hkey _) (if_pos rfl)
  rw [twoPeers, List.mapM_cons, List.mapM_cons, List.mapM_nil, peerConfig, peerConfig, hkey, hkey,
    hfirst, hsecond]
  rfl

theorem ipv4_peers_apart : KeepsTrafficApart (twoPeers "10.0.0.2" "10.0.0.3").peers
    (installed (twoPeersTrace (.v4 (.new 10 0 0 2)) (.v4 (.new 10 0 0 3)))) := by
  have hfirst : IpAddr.fromStr "10.0.0.2" = some (.v4 (.new 10 0 0 2)) := by decide
  have hsecond : IpAddr.fromStr "10.0.0.3" = some (.v4 (.new 10 0 0 3)) := by decide
  refine (keepsTrafficApart_iff ?_ (twoPeers_path hfirst hsecond)).mpr ?_
  · rw [twoPeers, List.pairwise_pair, hfirst, hsecond]
    decide
  · rw [twoPeers, List.forall_mem_cons, List.forall_mem_singleton]
    exact ⟨⟨_, hfirst⟩, _, hsecond⟩

def privateNet (host : UInt8) : Ipv6Addr := ⟨#v[0xfd, 0, 0, 0, 0, 0, 0, 0, 0, 0, 0, 0, 0, 0, 0, host]⟩

/-- Two peers with addresses of one private IPv6 network are given the same network. -/
theorem ipv6_peers_overlap :
    (configure keyFromBase64 exampleFromStr .linux
        (some (twoPeers "fd00::2" "fd00::3"))).run.Path
      (twoPeersTrace (.v6 (privateNet 2)) (.v6 (privateNet 3))) (.done (.ok ())) ∧
    ((twoPeers "fd00::2" "fd00::3").peers.Pairwise fun p q ↦
      IpAddr.fromStr p.allowedIps ≠ IpAddr.fromStr q.allowedIps) ∧
    ¬KeepsTrafficApart (twoPeers "fd00::2" "fd00::3").peers
      (installed (twoPeersTrace (.v6 (privateNet 2)) (.v6 (privateNet 3)))) := by
  have hfirst : IpAddr.fromStr "fd00::2" = some (.v6 (privateNet 2)) := by decide
  have hsecond : IpAddr.fromStr "fd00::3" = some (.v6 (privateNet 3)) := by decide
  refine ⟨twoPeers_path hfirst hsecond, ?_, ?_⟩
  · rw [twoPeers, List.pairwise_pair, hfirst, hsecond]
    decide
  · intro h
    have hdisjoint := List.pairwise_pair.mp h.disjoint
    have hnetworks := hdisjoint _ List.mem_cons_self _ List.mem_cons_self
    exact Set.disjoint_left.mp hnetworks (AllowedIp.mem_network_self _ _)
      (AllowedIp.mem_network_ipv6 _ _ (by decide))

end Wireplug.Configuration
