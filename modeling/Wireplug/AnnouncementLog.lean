import Wireplug.ServerPaths

namespace Wireplug

open Foundation ByteStream WriteLog

structure Record.Carries (record : Record) (b : WireplugAnnouncement) (source : Ipv4Addr) :
    Prop where
  wanIpv4 : record.wanIpv4 = source
  wanIpv6 : record.wanIpv6 = b.ipv6
  lanAddrs : record.lanAddrs = b.lanAddrs
  wgPort : record.wgPort = b.wgPort
  needsRelay : record.needsRelay = b.needsRelay

variable {b : WireplugAnnouncement} {source : Ipv4Addr} {now : ℕ → SystemTime}
  {initiator peer : String} {record : Record}

theorem mem_announcedRecords (h : ((initiator, peer), record) ∈ announcedRecords b source now) :
    initiator = b.initiatorPubkey ∧ peer ∈ b.peerPubkeys ∧ record.Carries b source := by
  obtain ⟨⟨p, i⟩, hp, heq⟩ := List.mem_map.mp h
  cases heq
  exact ⟨rfl, List.fst_mem_of_mem_zipIdx hp, rfl, rfl, rfl, rfl, rfl⟩

theorem exists_mem_announcedRecords (h : peer ∈ b.peerPubkeys) (source : Ipv4Addr)
    (now : ℕ → SystemTime) :
    ∃ record, ((b.initiatorPubkey, peer), record) ∈ announcedRecords b source now := by
  obtain ⟨i, hi, rfl⟩ := List.getElem_of_mem h
  refine ⟨_, List.mem_map.mpr ⟨(b.peerPubkeys[i], i), ?_, rfl⟩⟩
  exact List.mk_mem_zipIdx_iff_getElem?.mpr (List.getElem?_eq_getElem hi)

theorem lastUpdate_announced_isSome :
    (lastUpdate (announcedRecords b source now) (initiator, peer)).isSome ↔
      b.initiatorPubkey = initiator ∧ peer ∈ b.peerPubkeys := by
  rw [lastUpdate_isSome]
  constructor
  · intro h
    obtain ⟨record, h⟩ := h
    obtain ⟨rfl, hpeer, -⟩ := mem_announcedRecords h
    exact ⟨rfl, hpeer⟩
  · intro h
    obtain ⟨rfl, hpeer⟩ := h
    exact exists_mem_announcedRecords hpeer source now

theorem get?_insertRecords (h : peer ∈ b.peerPubkeys) (storage : Storage) (source : Ipv4Addr)
    (now : ℕ → SystemTime) : ∃ record,
      (storage.insertRecords b source now).peeringRecords.get? (b.initiatorPubkey, peer) =
        some record ∧ record.Carries b source := by
  obtain ⟨record, hrecord⟩ :=
    Option.isSome_iff_exists.mp (lastUpdate_announced_isSome.mpr ⟨rfl, h⟩)
  refine ⟨record, ?_, (mem_announcedRecords (mem_of_lastUpdate hrecord)).2.2⟩
  refine (get?_write (announcedRecords b source now) storage.peeringRecords _).trans ?_
  rw [hrecord, Option.some_or]

theorem get?_insertRecords_of_ne (h : b.initiatorPubkey ≠ initiator) (storage : Storage)
    (source : Ipv4Addr) (now : ℕ → SystemTime) (peer : String) :
    (storage.insertRecords b source now).peeringRecords.get? (initiator, peer) =
      storage.peeringRecords.get? (initiator, peer) := by
  have hnone : lastUpdate (announcedRecords b source now) (initiator, peer) = none := by
    rw [← Option.not_isSome_iff_eq_none, lastUpdate_announced_isSome]
    exact fun hb ↦ h hb.1
  refine (get?_write (announcedRecords b source now) storage.peeringRecords _).trans ?_
  rw [hnone, Option.none_or]

def logOp : ServerLabel → Option (Op (String × String) Record)
  | .called _ (.insertRecords b source) now => some (.write (announcedRecords b source now))
  | .happened (.sweeps now) => some (.sweep (fresh now))
  | _ => none

def announcementLog (ls : List ServerLabel) : List (Op (String × String) Record) :=
  ls.filterMap logOp

variable {storage : Storage} {ls : List ServerLabel} {c : ServerConfig}

theorem peeringRecords_step {s s' : ServerConfig} {l : ServerLabel} (h : server.Step s l s') :
    s'.shared.storage.peeringRecords =
      replay (logOp l).toList s.shared.storage.peeringRecords := by
  cases h with
  | opened _ _ => rfl
  | called _ h => cases h <;> rfl
  | happened h => cases h <;> rfl

theorem peeringRecords_eq_replay (h : server.Run (ServerConfig.start storage) ls c) :
    c.shared.storage.peeringRecords = replay (announcementLog ls) storage.peeringRecords := by
  induction h with
  | nil => rfl
  | @snoc s s' ls l _ hs ih =>
    have hlog : announcementLog (ls ++ [l]) = announcementLog ls ++ (logOp l).toList := by
      rw [announcementLog, announcementLog, List.filterMap_append]
      cases hl : logOp l <;> simp [hl]
    rw [hlog, replay_append, ← ih]
    exact peeringRecords_step hs

/-- The announcement `b` from `source` is the last one stored in `ls` that named
`initiator` and listed `peer`, and no sweep has removed it since. -/
def LastStored (ls : List ServerLabel) (initiator peer : String) (b : WireplugAnnouncement)
    (source : Ipv4Addr) : Prop :=
  ∃ before i sourceAddr now after record,
    ls = before ++ .called i (.insertRecords b source) now :: after ∧
    .opened i sourceAddr ∈ before ∧ sourceAddr.ip = .v4 source ∧
    b.valid = true ∧ b.initiatorPubkey = initiator ∧ peer ∈ b.peerPubkeys ∧
    lastUpdate (announcedRecords b source now) (initiator, peer) = some record ∧
    (∀ j b' source' now', .called j (.insertRecords b' source') now' ∈ after →
      ¬ (b'.initiatorPubkey = initiator ∧ peer ∈ b'.peerPubkeys)) ∧
    ∀ t, .happened (.sweeps t) ∈ after → fresh t record = true

def Undisturbed (initiator peer : String) (record : Record) (ls : List ServerLabel) : Prop :=
  (∀ j b source now, .called j (.insertRecords b source) now ∈ ls →
      ¬ (b.initiatorPubkey = initiator ∧ peer ∈ b.peerPubkeys)) ∧
    ∀ t, .happened (.sweeps t) ∈ ls → fresh t record = true

theorem Undisturbed.spares (h : Undisturbed initiator peer record ls)
    {op : Op (String × String) Record} (hop : op ∈ announcementLog ls) :
    op.Spares (initiator, peer) record := by
  obtain ⟨l, hl, hlop⟩ := List.mem_filterMap.mp hop
  cases l with
  | opened j addr => cases hlop
  | called j e r =>
    cases e with
    | insertRecords b' source' =>
      cases hlop
      rw [Op.Spares, ← Option.not_isSome_iff_eq_none, lastUpdate_announced_isSome]
      exact h.1 j b' source' r hl
    | stream | getPeerEndpoints | incRelaysNeeded => cases hlop
  | happened ev =>
    cases ev with
    | sweeps t =>
      cases hlop
      exact h.2 t hl
    | tlsError | sweepStarts => cases hlop

theorem current_of_undisturbed {before after : List ServerLabel} {i : ℕ}
    (hlast : lastUpdate (announcedRecords b source now) (initiator, peer) = some record)
    (hafter : Undisturbed initiator peer record after) :
    Current (announcementLog (before ++ .called i (.insertRecords b source) now :: after))
      (initiator, peer) record := by
  refine ⟨announcementLog before, announcedRecords b source now, announcementLog after, ?_,
    hlast, fun op hop ↦ hafter.spares hop⟩
  rw [announcementLog, List.filterMap_append, List.filterMap_cons]
  rfl

theorem port_of_lastStored (h : LastStored ls initiator peer b source) : 1024 ≤ b.wgPort := by
  obtain ⟨-, -, -, -, -, -, -, -, -, hb, -⟩ := h
  simp only [WireplugAnnouncement.valid, Bool.and_eq_true, decide_eq_true_eq] at hb
  exact hb.2

theorem current_of_lastStored (h : LastStored ls initiator peer b source) :
    ∃ record, Current (announcementLog ls) (initiator, peer) record ∧ record.Carries b source := by
  obtain ⟨before, i, sourceAddr, now, after, record, rfl, -, -, -, -, -, hlast, hafter⟩ := h
  exact ⟨record, current_of_undisturbed hlast hafter,
    (mem_announcedRecords (mem_of_lastUpdate hlast)).2.2⟩

theorem lastStored_of_current (h : server.Run (ServerConfig.start storage) ls c)
    (hcurrent : Current (announcementLog ls) (initiator, peer) record) :
    ∃ b source, LastStored ls initiator peer b source ∧ record.Carries b source := by
  obtain ⟨ops, updates, ops', hops, hlast, hspares⟩ := hcurrent
  obtain ⟨before, rest, rfl, -, hrest⟩ := List.filterMap_eq_append_iff.mp hops
  obtain ⟨skipped, l, after, rfl, -, hlop, rfl⟩ := List.filterMap_eq_cons_iff.mp hrest
  cases l with
  | opened j addr => cases hlop
  | happened ev => cases ev <;> cases hlop
  | called i e r =>
    cases e with
    | stream | getPeerEndpoints | incRelaysNeeded => cases hlop
    | insertRecords b source =>
      cases hlop
      obtain ⟨hinitiator, hpeer, hcarries⟩ := mem_announcedRecords (mem_of_lastUpdate hlast)
      rw [← List.append_assoc] at h
      obtain ⟨sourceAddr, hopened, hcalls⟩ := connection_calls h
      obtain ⟨hsource, hvalid, -⟩ := hcalls.stores b source rfl
      refine ⟨b, source, ⟨before ++ skipped, i, sourceAddr, r, after, record,
        by rw [List.append_assoc], hopened, hsource, hvalid, hinitiator.symm, hpeer, hlast,
        fun j b' source' now' hmem ↦ ?_, fun t hmem ↦ ?_⟩, hcarries⟩
      · have hop : Op.write (announcedRecords b' source' now') ∈ after.filterMap logOp :=
          List.mem_filterMap.mpr ⟨_, hmem, rfl⟩
        have hnone : lastUpdate _ _ = none := hspares _ hop
        rw [← Option.not_isSome_iff_eq_none, lastUpdate_announced_isSome] at hnone
        exact hnone
      · exact hspares (.sweep (fresh t)) (List.mem_filterMap.mpr ⟨_, hmem, rfl⟩)

/-- The store of a run that started empty holds exactly what its log says. -/
theorem get?_peeringRecords (h : server.Run (ServerConfig.start .new) ls c)
    (initiator peer : String) (record : Record) :
    c.shared.storage.peeringRecords.get? (initiator, peer) = some record ↔
      Current (announcementLog ls) (initiator, peer) record := by
  rw [peeringRecords_eq_replay h]
  exact get?_replay _ _ _

/-- The direct endpoint of a peer that announced itself as `b` from `source`, as
given to a client at `addr`. -/
def directEndpoint (b : WireplugAnnouncement) (source : Ipv4Addr) (addr : SocketAddr) :
    WireplugEndpoint :=
  if addr.ip = .v4 source then .localNetwork b.ipv6 b.lanAddrs b.wgPort
  else .remoteNetwork (some source) b.ipv6 b.wgPort

def WireplugEndpoint.port : WireplugEndpoint → Option UInt16
  | .unknown => none
  | .localNetwork _ _ wgPort => some wgPort
  | .remoteNetwork _ _ wgPort => some wgPort
  | .relay _ port => some port

theorem endpointFor_of_carries (h : record.Carries b source) (addr : SocketAddr) :
    record.endpointFor addr = directEndpoint b source addr := by
  rw [Record.endpointFor, directEndpoint, h.wanIpv4, h.wanIpv6, h.lanAddrs, h.wgPort]

theorem port_directEndpoint (b : WireplugAnnouncement) (source : Ipv4Addr) (addr : SocketAddr) :
    (directEndpoint b source addr).port = some b.wgPort := by
  rw [directEndpoint]
  split <;> rfl

theorem lookupEndpoint_eq (h : server.Run (ServerConfig.start .new) ls c) (addr : SocketAddr) :
    ((∀ b source, ¬ LastStored ls peer initiator b source) ∧
        lookupEndpoint c.shared.storage initiator addr peer = .unknown) ∨
      ∃ b source, LastStored ls peer initiator b source ∧
        lookupEndpoint c.shared.storage initiator addr peer = directEndpoint b source addr := by
  rw [lookupEndpoint]
  cases hget : c.shared.storage.peeringRecords.get? (peer, initiator) with
  | none =>
    refine .inl ⟨fun b source hlast ↦ ?_, rfl⟩
    obtain ⟨record, hcurrent, -⟩ := current_of_lastStored hlast
    rw [← get?_peeringRecords h, hget] at hcurrent
    cases hcurrent
  | some record =>
    obtain ⟨b, source, hlast, hcarries⟩ :=
      lastStored_of_current h ((get?_peeringRecords h peer initiator record).mp hget)
    exact .inr ⟨b, source, hlast, endpointFor_of_carries hcarries addr⟩

theorem get?_lookup {s s' : ServerState} {i : ℕ} {a : WireplugAnnouncement} {addr : SocketAddr}
    {m : HashMap String WireplugEndpoint}
    (h : ServerAnswers s i (.getPeerEndpoints a addr) m s') (peer : String) : m.get? peer =
      if peer ∈ a.peerPubkeys then some (lookupEndpoint s.storage a.initiatorPubkey addr peer)
      else none := by
  cases h with
  | getPeerEndpoints h m hperm =>
    rw [getPeerEndpoints_eq] at h
    cases h
    rw [HashMap.get?_perm hperm, get?_lookedUp]

theorem mem_keys_lookup {s s' : ServerState} {i : ℕ} {a : WireplugAnnouncement}
    {addr : SocketAddr} {m : HashMap String WireplugEndpoint}
    (h : ServerAnswers s i (.getPeerEndpoints a addr) m s') (peer : String) :
    peer ∈ m.keys ↔ peer ∈ a.peerPubkeys := by
  rw [HashMap.mem_keys, get?_lookup h]
  by_cases hpeer : peer ∈ a.peerPubkeys <;> simp [hpeer]

theorem mem_responseFrame {after : List ServerLabel} {i : ℕ} {a : WireplugAnnouncement}
    {addr : SocketAddr} {m : HashMap String WireplugEndpoint} {storage : Storage}
    (h : server.Run (ServerConfig.start storage)
      (ls ++ .called i (.getPeerEndpoints a addr) m :: after) c)
    {bytes : Bytes} {r : Except IoError Unit}
    (hwrite : .called i (.stream (.writeAll bytes)) r ∈ after) : bytes ∈ responseFrame m := by
  obtain ⟨u, v, rfl⟩ := List.append_of_mem hwrite
  have hwritten : server.Run (ServerConfig.start storage)
      ((ls ++ .called i (.getPeerEndpoints a addr) m :: u) ++
        .called i (.stream (.writeAll bytes)) r :: v) c := by
    rwa [List.append_assoc]
  obtain ⟨_, -, hwrites⟩ := connection_calls hwritten
  refine hwrites.writes bytes rfl a addr m ?_
  rw [System.mem_calls]
  simp

/-- The server refines its log of announcements. -/
theorem response_refines_log {after : List ServerLabel} {i : ℕ} {a : WireplugAnnouncement}
    {addr : SocketAddr} {m : HashMap String WireplugEndpoint}
    (h : server.Run (ServerConfig.start .new)
      (ls ++ .called i (.getPeerEndpoints a addr) m :: after) c) :
    .opened i addr ∈ ls ∧ a.valid = true ∧
      (m.keys.Nodup ∧ ∀ peer, peer ∈ m.keys ↔ peer ∈ a.peerPubkeys) ∧
      (∀ peer ∈ a.peerPubkeys,
        ((∀ b source, ¬ LastStored ls peer a.initiatorPubkey b source) ∧
            m.get? peer = some .unknown) ∨
          ∃ b source, LastStored ls peer a.initiatorPubkey b source ∧
            m.get? peer = some (directEndpoint b source addr)) ∧
      (∀ peer endpoint port, m.get? peer = some endpoint → endpoint.port = some port →
        1024 ≤ port) ∧
      ∀ bytes r, .called i (.stream (.writeAll bytes)) r ∈ after → bytes ∈ responseFrame m := by
  obtain ⟨s, s', hbefore, hstep, -⟩ := h.split_at
  obtain ⟨addr', hopened, hcalls⟩ := connection_calls h
  obtain ⟨rfl, hvalid⟩ := hcalls.looks_up a addr rfl
  have hlookup : ServerAnswers s.shared i (.getPeerEndpoints a addr) m s'.shared := by
    cases hstep with
    | called _ h => exact h
  have hentry : ∀ peer ∈ a.peerPubkeys,
      ((∀ b source, ¬ LastStored ls peer a.initiatorPubkey b source) ∧
          m.get? peer = some .unknown) ∨
        ∃ b source, LastStored ls peer a.initiatorPubkey b source ∧
          m.get? peer = some (directEndpoint b source addr) := by
    intro peer hpeer
    rw [get?_lookup hlookup, if_pos hpeer]
    simpa only [Option.some.injEq] using lookupEndpoint_eq hbefore addr
  refine ⟨hopened, hvalid, ⟨m.nodup, mem_keys_lookup hlookup⟩, hentry, ?_, ?_⟩
  · intro peer endpoint port hget hport
    have hpeer : peer ∈ a.peerPubkeys :=
      (mem_keys_lookup hlookup peer).mp (HashMap.mem_keys.mpr ⟨endpoint, hget⟩)
    rcases hentry peer hpeer with ⟨-, hunknown⟩ | ⟨b, source, hlast, hdirect⟩
    · rw [hget] at hunknown
      cases hunknown
      cases hport
    · rw [hget] at hdirect
      cases hdirect
      rw [port_directEndpoint] at hport
      cases hport
      exact port_of_lastStored hlast
  · exact fun bytes r hwrite ↦ mem_responseFrame h hwrite

section Found

variable {X Y : Key} {addr : SocketAddr}

theorem lookedUp_bare_found
    (hget : storage.peeringRecords.get? (Y.toBase64, X.toBase64) = some record)
    (hcarries : record.Carries (bareAnnouncement Y X) source) (addr : SocketAddr) :
    (lookedUp storage (bareAnnouncement X Y) addr).entries =
      [(Y.toBase64, directEndpoint (bareAnnouncement Y X) source addr)] := by
  have hlookup : lookupEndpoint storage X.toBase64 addr Y.toBase64 =
      directEndpoint (bareAnnouncement Y X) source addr := by
    rw [lookupEndpoint, hget]
    exact endpointFor_of_carries hcarries addr
  rw [← hlookup]
  rfl

theorem size_bare_found : (directEndpoint (bareAnnouncement Y X) source addr).size ≤ 10 := by
  rw [directEndpoint]
  split
  · change 1 + 1 + (Postcard.varintSize 64 0 + 0) + Postcard.varintSize 16 51820 ≤ 10
    decide +kernel
  · change 1 + 5 + 1 + Postcard.varintSize 16 51820 ≤ 10
    decide +kernel

theorem encodeResponse_bare_found
    (hget : storage.peeringRecords.get? (Y.toBase64, X.toBase64) = some record)
    (hcarries : record.Carries (bareAnnouncement Y X) source) :
    (encodeResponse ⟨lookedUp storage (bareAnnouncement X Y) addr⟩).length < 2 ^ 32 := by
  have hentries := lookedUp_bare_found hget hcarries addr
  rw [encodeResponse_length, responseSize, hentries]
  · have hone : Postcard.varintSize 64 1 = 1 := by decide +kernel
    have hsize := @size_bare_found source X Y addr
    simp only [List.length_singleton, List.map_cons, List.map_nil, List.sum_singleton, hone]
    omega
  · intro k hk
    rw [HashMap.keys, hentries] at hk
    rw [List.mem_singleton.mp hk]
    exact utf8ByteSize_toBase64 Y

theorem run_found {i : ℕ} (hfree : c.threads i = none)
    (hget : c.shared.storage.peeringRecords.get? (Y.toBase64, X.toBase64) = some record)
    (hcarries : record.Carries (bareAnnouncement Y X) source) (addr : SocketAddr) :
    ∃ u v m c', server.Run c
        (.opened i addr :: u ++ .called i (.getPeerEndpoints (bareAnnouncement X Y) addr) m :: v)
        c' ∧
      (∀ l ∈ u ++ .called i (.getPeerEndpoints (bareAnnouncement X Y) addr) m :: v,
        ∃ e r, l = .called i e r ∧ ∀ a source, e ≠ .insertRecords a source) ∧
      m.entries = [(Y.toBase64, directEndpoint (bareAnnouncement Y X) source addr)] := by
  obtain ⟨ls, c', hrun, hcalls, hanswered, -⟩ :=
    run_to_record hfree X Y addr (encodeResponse_bare_found hget hcarries)
  obtain ⟨u, v, rfl⟩ := List.append_of_mem (lookup_of_answered hanswered)
  exact ⟨u, v, _, c', hrun, hcalls, lookedUp_bare_found hget hcarries addr⟩

theorem run_met (X Y : Key) (source : Ipv4Addr) (addr : SocketAddr) : ∃ before m after c,
    server.Run (ServerConfig.start .new)
        (before ++ .called 1 (.getPeerEndpoints (bareAnnouncement X Y) addr) m :: after) c ∧
      m.entries = [(Y.toBase64, directEndpoint (bareAnnouncement Y X) source addr)] := by
  have hresponse : (encodeResponse
      ⟨lookedUp .new (bareAnnouncement Y X) (.v4 source 51820)⟩).length < 2 ^ 32 := by
    rw [encodeResponse_new_bare]
    decide
  obtain ⟨ls, c, hrun, -, -, hthread, hother, -⟩ :=
    @run_to_record (ServerConfig.start .new) 0 rfl Y X (.v4 source 51820) hresponse
  obtain ⟨c', hstore, -, hother', hshared⟩ := run_store hthread fun _ ↦ 0
  obtain ⟨record, hget, hcarries⟩ := get?_insertRecords (mem_peerPubkeys_bare Y X)
    c.shared.storage source fun _ ↦ 0
  have hfree : c'.threads 1 = none := (hother' 1 (by decide)).trans (hother 1 (by decide))
  obtain ⟨u, v, m, c'', hrun', -, hm⟩ :=
    run_found hfree (by rw [hshared]; exact hget) hcarries addr
  have hall := (hrun.snoc hstore).trans hrun'
  rw [← List.append_assoc] at hall
  exact ⟨_, m, v, c'', hall, hm⟩

end Found

theorem response_refines_log_bare :
    let addr : SocketAddr := .v4 (.new 203 0 113 7) 51820
    ∃ (ls : List ServerLabel) (b : WireplugAnnouncement) (source : Ipv4Addr)
      (m : HashMap String WireplugEndpoint), source ≠ .new 203 0 113 7 ∧
      LastStored ls (Key.filled 1).toBase64 (Key.filled 0).toBase64 b source ∧
      m.get? (Key.filled 1).toBase64 = some (directEndpoint b source addr) := by
  intro addr
  obtain ⟨before, m, after, c, hrun, hm⟩ :=
    run_met (.filled 0) (.filled 1) (.new 203 0 113 5) addr
  replace hm := HashMap.get?_eq_some.mpr (hm ▸ List.mem_singleton_self _)
  obtain ⟨-, -, -, hentry, -⟩ := response_refines_log hrun
  rcases hentry _ (mem_peerPubkeys_bare (.filled 0) (.filled 1)) with ⟨-, hunknown⟩ | hdirect
  · rw [hm] at hunknown
    cases hunknown
  · obtain ⟨b, source, hlast, hget⟩ := hdirect
    have hsame := hm.symm.trans hget
    refine ⟨before, b, source, m, fun heq ↦ ?_, hlast, hget⟩
    subst heq
    cases hsame

end Wireplug
