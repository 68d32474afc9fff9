import Mathlib.Algebra.Order.BigOperators.Group.Finset
import Wireplug.KeyFormat
import Wireplug.ResponseBound
import Wireplug.Staleness

namespace Wireplug

open Foundation Foundation.Program Postcard ByteStream WriteLog

theorem pubkeys_of_decoded {bytes : Bytes} {a : WireplugAnnouncement}
    (h : fromBytes decodeAnnouncement bytes = some a) :
    (a.pubkeys.map fun s ↦ s.utf8ByteSize + 1).sum ≤ bytes.length := by
  obtain ⟨⟨a', rest⟩, hrun, rfl⟩ := Option.map_eq_some_iff.mp h
  obtain ⟨⟨initiatorPubkey, bytes₁⟩, hinitiator, hrun⟩ := Option.bind_eq_some_iff.mp hrun
  obtain ⟨⟨peerPubkeys, bytes₂⟩, hpeers, hrun⟩ := Option.bind_eq_some_iff.mp hrun
  obtain ⟨⟨ipv6, bytes₃⟩, -, hrun⟩ := Option.bind_eq_some_iff.mp hrun
  obtain ⟨⟨wgPort, bytes₄⟩, -, hrun⟩ := Option.bind_eq_some_iff.mp hrun
  obtain ⟨⟨lanAddrs, bytes₅⟩, -, hrun⟩ := Option.bind_eq_some_iff.mp hrun
  obtain ⟨⟨needsRelay, bytes₆⟩, -, hdone⟩ := Option.bind_eq_some_iff.mp hrun
  cases hdone
  have h₁ := costs_string bytes initiatorPubkey bytes₁ hinitiator
  have h₂ := costs_seq costs_string bytes₁ peerPubkeys bytes₂ hpeers
  simp only [WireplugAnnouncement.pubkeys, List.map_cons, List.sum_cons]
  dsimp only at h₁ h₂
  omega

/-- A key takes 45 bytes of a message, and one of the keys is the initiator's. -/
def maxPeers : ℕ := maxMessageSize / 45 - 1

theorem Carried.peers_le {a : WireplugAnnouncement} {length payload : Bytes}
    (h : Carried a length payload) (hpayload : payload.length ≤ maxMessageSize)
    (hvalid : a.valid = true) : a.peerPubkeys.length ≤ maxPeers := by
  have hkey : ∀ size ∈ a.pubkeys.map fun s ↦ s.utf8ByteSize + 1, size = 45 := by
    intro size hsize
    obtain ⟨s, hs, rfl⟩ := List.mem_map.mp hsize
    rw [utf8ByteSize_of_isValidWgkey (((valid_iff a).mp hvalid).1 s hs)]
  have hsum : (a.pubkeys.map fun s ↦ s.utf8ByteSize + 1).sum = (a.peerPubkeys.length + 1) * 45 := by
    rw [List.eq_replicate_of_mem hkey, List.sum_replicate, List.length_map]
    rfl
  have hle := pubkeys_of_decoded h.decoded
  rw [hsum, List.length_append, List.length_replicate, Nat.add_sub_cancel' hpayload] at hle
  rw [maxPeers, maxMessageSize]
  rw [maxMessageSize] at hle
  omega

section Runs

variable {storage : Storage} {ls before after : List ServerLabel} {c : ServerConfig} {i : ℕ}
  {a : WireplugAnnouncement} {time : ℕ → SystemTime} {d : SystemTime}

theorem peers_of_store {ipv4 : Ipv4Addr} {now : ℕ → SystemTime}
    (h : server.Run (ServerConfig.start storage)
      (before ++ .called i (.insertRecords a ipv4) now :: after) c) :
    a.peerPubkeys.length ≤ maxPeers := by
  obtain ⟨addr', -, hstores⟩ := h.requires_called (fun _ ↦ rfl) handleConnection_stores
    fun _ _ _ _ _ _ _ _ ↦ trivial
  obtain ⟨⟨length, payload, m, hcarried, hcalls⟩, hvalid, -⟩ := hstores.stores a ipv4 rfl
  obtain ⟨s, hbefore, -⟩ := h.split
  have hread : ⟨.stream (.readExact (fromLE length)), .ok payload⟩ ∈ System.calls i before := by
    rw [hcalls]
    exact List.mem_append_left _ (by simp [received])
  refine hcarried.peers_le ?_ hvalid
  rw [length_of_read hbefore hread]
  exact hcarried.fits

def writtenKeys : ServerLabel → Finset (String × String)
  | .called _ (.insertRecords b _) _ =>
    (b.peerPubkeys.map fun peer ↦ (b.initiatorPubkey, peer)).toFinset
  | _ => ∅

def stores : ServerLabel → Bool
  | .called _ (.insertRecords _ _) _ => true
  | _ => false

/-- The steps that have stored an announcement no longer than `recordTimeout + d` ago. -/
def recentStores (d : SystemTime) (time : ℕ → SystemTime) (ls : List ServerLabel) : Finset ℕ :=
  (Finset.range ls.length).filter fun n ↦
    ls[n]?.any stores = true ∧ time ls.length < time (n + 1) + recordTimeout + d

theorem Writes.stores {l : ServerLabel} {key : String × String} {record : Record}
    (h : Writes l key record) : stores l = true ∧ key ∈ writtenKeys l := by
  obtain ⟨updates, hop, hlast⟩ := h
  obtain ⟨i, b, source, now, rfl, rfl⟩ := store_of_logOp hop
  obtain ⟨hinitiator, hpeer, -⟩ := mem_announcedRecords (mem_of_lastUpdate hlast)
  refine ⟨rfl, List.mem_toFinset.mpr (List.mem_map.mpr ⟨key.2, hpeer, ?_⟩)⟩
  rw [← hinitiator]

theorem card_writtenKeys (h : server.Run (ServerConfig.start storage) ls c) {n : ℕ}
    {l : ServerLabel} (hl : ls[n]? = some l) : (writtenKeys l).card ≤ maxPeers := by
  obtain ⟨before, after, rfl⟩ := List.append_of_mem (List.mem_of_getElem? hl)
  cases l with
  | opened | happened => exact Nat.zero_le _
  | called i e r =>
    cases e with
    | insertRecords b source =>
      refine (List.toFinset_card_le _).trans ?_
      rw [List.length_map]
      exact peers_of_store h
    | _ => exact Nat.zero_le _

theorem recent_of_record (hmono : Monotone time)
    (h : server.Run (ServerConfig.start .new) ls c) (hclock : Timed time ReadsClock ls)
    (hswept : SweptWithin d time ls) {key : String × String} {record : Record}
    (hget : c.shared.storage.peeringRecords.get? key = some record) :
    ∃ n ∈ recentStores d time ls, ∃ l, ls[n]? = some l ∧ key ∈ writtenKeys l := by
  obtain ⟨hlate, k, l, hk, hl, hwrites⟩ := stored_of_record hmono h hclock key record hget
  obtain ⟨hstores, hkey⟩ := hwrites.stores
  have hstamp := (stamp_of_writes (hclock k l hl) hwrites).2
  have hsince := hswept ls.length (Nat.le_refl _)
  rw [List.take_length] at hsince
  refine ⟨k, Finset.mem_filter.mpr ⟨Finset.mem_range.mpr hk, ?_, ?_⟩, l, hl, hkey⟩
  · rw [hl]
    exact hstores
  · calc time ls.length ≤ lastReading (time 0) ls + d := hsince
      _ < record.timestamp + recordTimeout + d := Int.add_lt_add_right hlate d
      _ ≤ time (k + 1) + recordTimeout + d :=
        Int.add_le_add_right (Int.add_le_add_right hstamp _) d

/-- When each sweep ends within `d` of the clock reading of the one before, the store has no more
records than the announcements of the last `recordTimeout + d` can carry: what clients have sent
before takes no space. -/
theorem storage_bounded (hmono : Monotone time)
    (h : server.Run (ServerConfig.start .new) ls c) (hclock : Timed time ReadsClock ls)
    (hswept : SweptWithin d time ls) : c.shared.storage.peeringRecords.entries.length ≤
      (recentStores d time ls).card * maxPeers := by
  have hsub : c.shared.storage.peeringRecords.keys.toFinset ⊆
      (recentStores d time ls).biUnion fun n ↦ (ls[n]?.map writtenKeys).getD ∅ := by
    intro key hkey
    obtain ⟨record, hget⟩ := HashMap.mem_keys.mp (List.mem_toFinset.mp hkey)
    obtain ⟨n, hn, l, hl, hmem⟩ := recent_of_record hmono h hclock hswept hget
    refine Finset.mem_biUnion.mpr ⟨n, hn, ?_⟩
    rw [hl]
    exact hmem
  have hcard : c.shared.storage.peeringRecords.keys.toFinset.card =
      c.shared.storage.peeringRecords.entries.length := by
    have hnodup : c.shared.storage.peeringRecords.keys.Nodup :=
      c.shared.storage.peeringRecords.nodup
    rw [List.toFinset_card_of_nodup hnodup, HashMap.keys, List.length_map]
  rw [← hcard]
  refine (Finset.card_le_card hsub).trans (Finset.card_biUnion_le_card_mul _ _ _ fun n _ ↦ ?_)
  cases hl : ls[n]? with
  | none => exact Nat.zero_le _
  | some l => exact card_writtenKeys h hl

/-- An announcement is stored, and a sweep has spared it. -/
theorem storage_bounded_spared : ∃ (time : ℕ → SystemTime) (ls : List ServerLabel)
    (c : ServerConfig), time 0 < time ls.length ∧ .happened (.sweeps 2) ∈ ls ∧
      Knows c (Key.filled 0).toBase64 (Key.filled 1).toBase64 ∧
      c.shared.storage.peeringRecords.entries.length ≤
        (recentStores 3 time ls).card * maxPeers := by
  obtain ⟨ls, c, hrun, hcalls, hnone, -, record, -, hget⟩ :=
    run_spared (.filled 0) (.filled 1) (.new 203 0 113 5) 51820
  have hswept : SweptWithin 3 (clockFrom ls.length)
      (storeThenSweep (.filled 0) (.filled 1) (.new 203 0 113 5) ls) := by
    refine sweptWithin_of_le (fun n ↦ ?_) fun now hmem ↦ ?_
    · rw [clockFrom_zero]
      exact clockFrom_le ls.length n
    · rw [clockFrom_zero]
      exact sweeps_nonneg hnone now hmem
  refine ⟨clockFrom ls.length, _, c, ?_, ?_, ?_, storage_bounded (monotone_clockFrom ls.length)
    hrun (timed_storeThenSweep hcalls) hswept⟩
  · rw [clockFrom_zero, length_storeThenSweep, clockFrom_add le_rfl]
    decide
  · simp [storeThenSweep]
  · rw [Knows, hget, Option.isSome_some]

end Runs

end Wireplug
