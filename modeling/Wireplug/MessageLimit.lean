import Wireplug.AnnouncementLog

namespace Wireplug

open Foundation ByteStream

theorem announcement_length (initiatorPubkey : Key) (peers : List Key) (announcementPort : UInt16)
    (netinfo : NetInfo) (needsRelay : Bool) :
    (encodeAnnouncement
        (announcement initiatorPubkey peers announcementPort netinfo needsRelay)).length =
      announcementSize peers.length netinfo.wanIpv6 announcementPort netinfo.lanAddrs := by
  have hlen := @encodeAnnouncement_length
    (announcement initiatorPubkey peers announcementPort netinfo needsRelay)
    (utf8ByteSize_toBase64 initiatorPubkey) fun p hp ↦ by
      obtain ⟨k, -, rfl⟩ := List.mem_map.mp hp
      exact utf8ByteSize_toBase64 k
  rw [hlen, announcement, List.length_map]

theorem readAnnouncement_sent {a : WireplugAnnouncement}
    (hlen : (encodeAnnouncement a).length < 2 ^ 32) (reply : Bytes) :
    (run readAnnouncement.run (run (sendAnnouncement a).run reply).written).result =
      if (encodeAnnouncement a).length ≤ maxMessageSize then .ok (some a)
      else .error (.message
        s!"Message size {(encodeAnnouncement a).length} exceeds maximum allowed size of {maxMessageSize}") := by
  split
  · next hfits =>
    have h := readAnnouncement_sendAnnouncement hfits reply []
    rw [List.append_nil] at h
    rw [h]
  · next hfits =>
    rw [written_sendAnnouncement hlen, frame_eq, run_announcementHeader hlen,
      if_pos (Nat.not_le.mp hfits)]

theorem readResponse_sent {m : HashMap String WireplugEndpoint}
    (hlen : (encodeResponse ⟨m⟩).length < 2 ^ 32) (input : Bytes) :
    if (encodeResponse ⟨m⟩).length ≤ maxMessageSize then
      ∃ read : HashMap String WireplugEndpoint, read.Equiv m ∧
        (run readResponse.run (run (writeResponse ⟨m⟩).run input).written).result = .ok ⟨read⟩
    else (run readResponse.run (run (writeResponse ⟨m⟩).run input).written).result =
      .error (.io (.other
        s!"Message size {(encodeResponse ⟨m⟩).length} exceeds maximum allowed size of {maxMessageSize}")) := by
  split
  · next hfits =>
    obtain ⟨read, h, hread⟩ := readResponse_writeResponse (.refl m.entries) hfits input []
    rw [List.append_nil] at h
    exact ⟨read, hread, by rw [h]⟩
  · next hfits =>
    have h := run_readResponse hlen []
    rw [List.append_nil, if_pos (Nat.not_le.mp hfits)] at h
    rw [run_writeResponse hlen, h]

theorem response_length {ls after : List ServerLabel} {c : ServerConfig} {i : ℕ}
    {a : WireplugAnnouncement} {addr : SocketAddr} {m : HashMap String WireplugEndpoint}
    (h : server.Run (ServerConfig.start .new)
      (ls ++ .called i (.getPeerEndpoints a addr) m :: after) c) :
    (encodeResponse ⟨m⟩).length = responseSize m := by
  obtain ⟨s, s', -, hstep, -⟩ := h.split_at
  obtain ⟨addr', -, hcalls⟩ := connection_calls h
  obtain ⟨-, hvalid⟩ := hcalls.looks_up a addr rfl
  simp only [WireplugAnnouncement.valid, Bool.and_eq_true, List.all_eq_true] at hvalid
  refine encodeResponse_length fun k hk ↦ utf8ByteSize_of_isValidWgkey (hvalid.1.2 k ?_)
  cases hstep with
  | called _ hanswer => exact (mem_keys_lookup hanswer k).mp hk

theorem entries_of_lookup {ls after : List ServerLabel} {c : ServerConfig} {i : ℕ}
    {a : WireplugAnnouncement} {addr : SocketAddr} {m : HashMap String WireplugEndpoint}
    (h : server.Run (ServerConfig.start .new)
      (ls ++ .called i (.getPeerEndpoints a addr) m :: after) c) :
    ∀ p ∈ m.entries, p.2 = .unknown ∨ ∃ b source,
      LastStored ls p.1 a.initiatorPubkey b source ∧ p.2 = directEndpoint b source addr := by
  obtain ⟨s, s', hbefore, hstep, -⟩ := h.split_at
  intro p hp
  cases hstep with
  | called _ hanswer =>
    have hget := HashMap.get?_eq_some.mpr hp
    have hpeer := (mem_keys_lookup hanswer p.1).mp (HashMap.mem_keys.mpr ⟨p.2, hget⟩)
    rw [get?_lookup hanswer, if_pos hpeer, Option.some.injEq] at hget
    rw [← hget]
    rcases lookupEndpoint_eq hbefore addr with ⟨-, hunknown⟩ | hdirect
    · exact .inl hunknown
    · exact .inr hdirect

theorem keys_of_lookup {ls after : List ServerLabel} {c : ServerConfig} {i : ℕ}
    {a : WireplugAnnouncement} {addr : SocketAddr} {m : HashMap String WireplugEndpoint}
    (h : server.Run (ServerConfig.start .new)
      (ls ++ .called i (.getPeerEndpoints a addr) m :: after) c) :
    m.keys.Nodup ∧ ∀ peer, peer ∈ m.keys ↔ peer ∈ a.peerPubkeys := by
  obtain ⟨s, s', -, hstep, -⟩ := h.split_at
  cases hstep with
  | called _ hanswer => exact ⟨m.nodup, mem_keys_lookup hanswer⟩

/-- How long the messages are, and that nothing but their length decides whether
the other side takes them. -/
theorem message_sizes :
    (∀ initiatorPubkey peers announcementPort netinfo needsRelay,
      let a := announcement initiatorPubkey peers announcementPort netinfo needsRelay
      let size :=
        announcementSize peers.length netinfo.wanIpv6 announcementPort netinfo.lanAddrs
      (encodeAnnouncement a).length = size ∧ (size < 2 ^ 32 → ∀ reply,
        (run readAnnouncement.run (run (sendAnnouncement a).run reply).written).result =
          if size ≤ maxMessageSize then .ok (some a)
          else .error (.message
            s!"Message size {size} exceeds maximum allowed size of {maxMessageSize}"))) ∧
    ∀ ls after c i a addr m,
      server.Run (ServerConfig.start .new)
        (ls ++ .called i (.getPeerEndpoints a addr) m :: after) c →
      let size := responseSize m
      (m.keys.Nodup ∧ ∀ peer, peer ∈ m.keys ↔ peer ∈ a.peerPubkeys) ∧
      (∀ p ∈ m.entries, p.2 = .unknown ∨ ∃ b source,
        LastStored ls p.1 a.initiatorPubkey b source ∧ p.2 = directEndpoint b source addr) ∧
      (encodeResponse ⟨m⟩).length = size ∧ (size < 2 ^ 32 → ∀ input,
        if size ≤ maxMessageSize then
          ∃ read : HashMap String WireplugEndpoint, read.Equiv m ∧
            (run readResponse.run (run (writeResponse ⟨m⟩).run input).written).result =
              .ok ⟨read⟩
        else (run readResponse.run (run (writeResponse ⟨m⟩).run input).written).result =
          .error (.io (.other
            s!"Message size {size} exceeds maximum allowed size of {maxMessageSize}"))) := by
  refine ⟨fun initiatorPubkey peers announcementPort netinfo needsRelay ↦ ?_,
    fun ls after c i a addr m h ↦ ?_⟩
  · have hlen := announcement_length initiatorPubkey peers announcementPort netinfo needsRelay
    refine ⟨hlen, fun hsize reply ↦ ?_⟩
    rw [readAnnouncement_sent (by rw [hlen]; exact hsize), hlen]
  · have hlen := response_length h
    refine ⟨keys_of_lookup h, entries_of_lookup h, hlen, fun hsize input ↦ ?_⟩
    have hread := readResponse_sent (by rw [hlen]; exact hsize) input
    rwa [hlen] at hread

theorem message_sizes_met :
    let endpoint := directEndpoint (bareAnnouncement (.filled 1) (.filled 0)) (.new 203 0 113 5)
      (.v4 (.new 203 0 113 7) 51820)
    ∃ m : HashMap String WireplugEndpoint, m.entries = [((Key.filled 1).toBase64, endpoint)] ∧
      (∀ peer, peer ∈ m.keys ↔
        peer ∈ (bareAnnouncement (.filled 0) (.filled 1)).peerPubkeys) ∧
      (encodeResponse ⟨m⟩).length = 56 ∧
      ∃ read : HashMap String WireplugEndpoint, read.Equiv m ∧
        (run readResponse.run (run (writeResponse ⟨m⟩).run []).written).result = .ok ⟨read⟩ := by
  intro endpoint
  obtain ⟨before, m, after, c, hrun, hm⟩ := run_met (.filled 0) (.filled 1) (.new 203 0 113 5)
    (.v4 (.new 203 0 113 7) 51820)
  have hsize : responseSize m = 56 := by
    rw [responseSize, hm]
    change Postcard.varintSize 64 1 + (45 + (1 + 5 + 1 + Postcard.varintSize 16 51820)) = 56
    decide +kernel
  obtain ⟨⟨-, hkeys⟩, -, hlen, hread⟩ := message_sizes.2 _ _ _ _ _ _ _ hrun
  rw [hsize] at hlen hread
  exact ⟨m, hm, hkeys, hlen, hread (by decide) []⟩

def manyInterfaces : NetInfo where
  wanIpv4 := some ⟨Vector.replicate 4 20⟩
  wanIpv6 := none
  lanAddrs := List.replicate 600 (.v4 (.slash24 (.new 10 10 10 10)))
  hardNat := false

theorem size_manyInterfaces :
    (WireplugEndpoint.localNetwork none manyInterfaces.lanAddrs 51820).size = 3607 := by
  rw [WireplugEndpoint.size, manyInterfaces, List.map_replicate, List.sum_replicate_nat,
    List.length_replicate]
  decide +kernel

def wideAnnouncement (initiator peer : Key) : WireplugAnnouncement :=
  announcement initiator [peer] 51820 manyInterfaces false

theorem wideAnnouncement_valid (initiator peer : Key) :
    (wideAnnouncement initiator peer).valid = true := by
  rw [wideAnnouncement, announcement_valid]
  rfl

theorem wideAnnouncement_length (initiator peer : Key) :
    (encodeAnnouncement (wideAnnouncement initiator peer)).length = 3698 := by
  have hsize : announcementSize 1 none 51820 manyInterfaces.lanAddrs = 3698 := by
    rw [announcementSize, manyInterfaces, List.map_replicate, List.sum_replicate_nat,
      List.length_replicate]
    decide +kernel
  rw [wideAnnouncement, announcement_length]
  exact hsize

variable {storage : Storage} {addr : SocketAddr}

theorem responseSize_unknown {initiator peer : Key}
    (h : storage.peeringRecords.get? (peer.toBase64, initiator.toBase64) = none) :
    (encodeResponse ⟨lookedUp storage (wideAnnouncement initiator peer) addr⟩).length = 47 := by
  have hentries : (lookedUp storage (wideAnnouncement initiator peer) addr).entries =
      [(peer.toBase64, .unknown)] := by
    change [(peer.toBase64, lookupEndpoint storage initiator.toBase64 addr peer.toBase64)] = _
    rw [lookupEndpoint, h]
  rw [encodeResponse_length, responseSize, hentries]
  · change Postcard.varintSize 64 1 + 46 = 47
    decide +kernel
  · intro k hk
    rw [HashMap.keys, hentries] at hk
    rw [List.mem_singleton.mp hk]
    exact utf8ByteSize_toBase64 peer

theorem run_two_wide (X Y₁ Y₂ : Key) (hne : Y₁ ≠ Y₂) (hX₁ : X ≠ Y₁) (hX₂ : X ≠ Y₂)
    (source : Ipv4Addr) : ∃ ls c, server.Run (ServerConfig.start .new) ls c ∧
      c.threads 2 = none ∧ ∀ Y, Y = Y₁ ∨ Y = Y₂ → ∃ record,
        c.shared.storage.peeringRecords.get? (Y.toBase64, X.toBase64) = some record ∧
          record.Carries (wideAnnouncement Y X) source := by
  have hkey {k k' : Key} (h : k ≠ k') : k.toBase64 ≠ k'.toBase64 :=
    fun heq ↦ h (toBase64_injective heq)
  have hfits (Y : Key) : (encodeAnnouncement (wideAnnouncement Y X)).length ≤ maxMessageSize := by
    rw [wideAnnouncement_length]
    decide
  have hsmall {storage : Storage} {Y : Key} (hY : storage.peeringRecords.get?
      (X.toBase64, Y.toBase64) = none) : (encodeResponse ⟨lookedUp storage (wideAnnouncement Y X)
        (.v4 source 51820)⟩).length < 2 ^ 32 := by
    rw [responseSize_unknown hY]
    decide
  obtain ⟨ls₁, c₁, hrun₁, -, hother₁, hstorage₁⟩ :=
    @run_complete (wideAnnouncement Y₁ X) (.v4 source 51820) (ServerConfig.start .new) 0 source rfl
      (wideAnnouncement_valid _ _) (hfits Y₁) rfl rfl (hsmall rfl) fun _ ↦ 0
  have hnone : c₁.shared.storage.peeringRecords.get? (X.toBase64, Y₂.toBase64) = none := by
    rw [hstorage₁, get?_insertRecords_of_ne (hkey hX₁.symm)]
    rfl
  obtain ⟨ls₂, c₂, hrun₂, -, hother₂, hstorage₂⟩ :=
    @run_complete (wideAnnouncement Y₂ X) (.v4 source 51820) c₁ 1 source (hother₁ 1 (by decide))
      (wideAnnouncement_valid _ _) (hfits Y₂) rfl rfl (hsmall hnone) fun _ ↦ 0
  refine ⟨_, c₂, hrun₁.trans hrun₂, (hother₂ 2 (by decide)).trans (hother₁ 2 (by decide)), ?_⟩
  rintro Y (rfl | rfl)
  · rw [hstorage₂, get?_insertRecords_of_ne (hkey hne.symm), hstorage₁]
    exact get?_insertRecords List.mem_cons_self _ _ _
  · rw [hstorage₂]
    exact get?_insertRecords List.mem_cons_self _ _ _

def pairAnnouncement (X Y₁ Y₂ : Key) : WireplugAnnouncement :=
  announcement X [Y₁, Y₂] 51820 ⟨none, none, [], false⟩ false

theorem responseSize_two_wide {X Y₁ Y₂ : Key} (hne : Y₁ ≠ Y₂) {source : Ipv4Addr}
    (hip : addr.ip = .v4 source) (h : ∀ Y, Y = Y₁ ∨ Y = Y₂ → ∃ record,
      storage.peeringRecords.get? (Y.toBase64, X.toBase64) = some record ∧
        record.Carries (wideAnnouncement Y X) source) :
    (encodeResponse ⟨lookedUp storage (pairAnnouncement X Y₁ Y₂) addr⟩).length = 7305 := by
  have hlookup (Y : Key) (hY : Y = Y₁ ∨ Y = Y₂) :
      lookupEndpoint storage X.toBase64 addr Y.toBase64 =
        .localNetwork none manyInterfaces.lanAddrs 51820 := by
    obtain ⟨record, hrecord, hcarries⟩ := h Y hY
    rw [lookupEndpoint, hrecord]
    dsimp only
    rw [endpointFor_of_carries hcarries, directEndpoint, if_pos hip]
    rfl
  have hkeys : Y₁.toBase64 ≠ Y₂.toBase64 := fun heq ↦ hne (toBase64_injective heq)
  have hentries : (lookedUp storage (pairAnnouncement X Y₁ Y₂) addr).entries =
      [(Y₂.toBase64, .localNetwork none manyInterfaces.lanAddrs 51820),
        (Y₁.toBase64, .localNetwork none manyInterfaces.lanAddrs 51820)] := by
    simp [lookedUp, pairAnnouncement, announcement, HashMap.ofEntries, HashMap.insert,
      HashMap.empty, hkeys, hlookup Y₁ (.inl rfl), hlookup Y₂ (.inr rfl)]
  rw [encodeResponse_length, responseSize, hentries]
  · simp only [List.map_cons, List.map_nil, List.sum_cons, List.sum_nil, size_manyInterfaces]
    change Postcard.varintSize 64 2 + 7304 = 7305
    decide +kernel
  · intro k hk
    rw [HashMap.keys, hentries] at hk
    simp only [List.map_cons, List.map_nil, List.mem_cons, List.not_mem_nil, or_false] at hk
    rcases hk with rfl | rfl
    · exact utf8ByteSize_toBase64 Y₂
    · exact utf8ByteSize_toBase64 Y₁

/-- Ninety peers are too many for an announcement, and two hosts with many
interfaces too much for a response. -/
theorem messages_too_long :
    (∃ peers : List Key, peers.length = 90 ∧
      let a := announcement (.filled 255) peers 51820 ⟨none, none, [], false⟩ false
      a.valid = true ∧ (run readAnnouncement.run (run (sendAnnouncement a).run []).written).result =
        .error (.message "Message size 4102 exceeds maximum allowed size of 4096")) ∧
    ∃ ls after c a addr m, server.Run (ServerConfig.start .new)
        (ls ++ .called 2 (.getPeerEndpoints a addr) m :: after) c ∧ a.valid = true ∧
      (run readResponse.run (run (writeResponse ⟨m⟩).run []).written).result =
        .error (.io (.other "Message size 7305 exceeds maximum allowed size of 4096")) := by
  constructor
  · let peers := (List.range 90).map fun i ↦ Key.filled (UInt8.ofNat i)
    have hlen : (encodeAnnouncement
        (announcement (.filled 255) peers 51820 ⟨none, none, [], false⟩ false)).length = 4102 := by
      rw [announcement_length, List.length_map, List.length_range]
      decide +kernel
    refine ⟨peers, by simp [peers], ?_, ?_⟩
    · rw [announcement_valid]
      rfl
    · rw [readAnnouncement_sent (by rw [hlen]; decide), hlen]
      rfl
  · let source : Ipv4Addr := ⟨Vector.replicate 4 10⟩
    obtain ⟨ls, c, hrun, hfree, hstored⟩ := run_two_wide (.filled 0) (.filled 1) (.filled 2)
      (by decide) (by decide) (by decide) source
    have hvalid : (pairAnnouncement (.filled 0) (.filled 1) (.filled 2)).valid = true := by
      rw [pairAnnouncement, announcement_valid]
      rfl
    have hlen : (encodeAnnouncement
        (pairAnnouncement (.filled 0) (.filled 1) (.filled 2))).length ≤ maxMessageSize := by
      rw [pairAnnouncement, announcement_length]
      decide +kernel
    have hresponse := @responseSize_two_wide c.shared.storage (.v4 source 51820) (.filled 0)
      (.filled 1) (.filled 2) (by decide) source rfl hstored
    have hend : (finishAnnouncement (pairAnnouncement (.filled 0) (.filled 1) (.filled 2))
        (.v4 source 51820)).run.Path [⟨.stream .shutdown, .error .failed⟩]
        (.done (.error (.io .failed))) := .cons (.nil _)
    obtain ⟨t, -, hlast⟩ := run_answered hfree hvalid hlen (by rw [hresponse]; decide) hend
    rw [List.map_append] at hlast
    have hall := hrun.trans hlast
    rw [← List.append_assoc, ← List.append_assoc] at hall
    refine ⟨_, _, _, _, _, _, hall, hvalid, ?_⟩
    have hread := readResponse_sent (by rw [hresponse]; decide) []
    rw [hresponse, if_neg (by decide)] at hread
    exact hread

end Wireplug
