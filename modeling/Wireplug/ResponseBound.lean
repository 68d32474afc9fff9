import Mathlib.Algebra.Order.BigOperators.Group.List
import Mathlib.Algebra.Order.Ring.Nat
import Wireplug.ConnectionFrame
import Wireplug.MessageLimit

namespace Wireplug

open Foundation Foundation.Program Postcard ByteStream

def LooksUpCarried (_ : SocketAddr) (t : ServerTrace) (e : ServerEffect) : Prop :=
  ∀ a addr, e = .getPeerEndpoints a addr →
    ∃ length payload, Carried a length payload ∧ t = received length payload

theorem only_recordAnnouncement (a : WireplugAnnouncement) (addr : SocketAddr) :
    (recordAnnouncement a addr).run.Only (fun e ↦ ∀ a addr, e ≠ .getPeerEndpoints a addr)
      fun _ ↦ True := by
  rw [recordAnnouncement, processAnnouncement]
  cases addr.ip with
  | v6 ip => exact trivial
  | v4 ipv4 =>
    refine ⟨fun _ _ h ↦ (by cases h), fun now ↦ ?_⟩
    cases a.needsRelay with
    | false => exact trivial
    | true => exact ⟨fun _ _ h ↦ (by cases h), fun _ ↦ trivial⟩

theorem only_finishAnnouncement (a : WireplugAnnouncement) (addr : SocketAddr) :
    (finishAnnouncement a addr).run.Only (fun e ↦ ∀ a addr, e ≠ .getPeerEndpoints a addr)
      fun _ ↦ True := by
  refine ⟨fun _ _ h ↦ (by cases h), fun r ↦ ?_⟩
  cases r with
  | error e => exact trivial
  | ok _ => exact only_recordAnnouncement a addr

theorem answerAnnouncement_run (a : WireplugAnnouncement) (addr : SocketAddr) :
    (answerAnnouncement a addr).run = .call (.getPeerEndpoints a addr) fun m ↦
      (onStream (writeResponse ⟨m⟩) >>= fun _ ↦ finishAnnouncement a addr).run := rfl

theorem handleConnection_looks_up (addr : SocketAddr) : (handleConnection addr).run.Ensures
    (anyAnswer addr) (LooksUpCarried addr) (fun _ _ ↦ True) [] := by
  have hstream (t : ServerTrace) (e : ByteStream.Effect) : LooksUpCarried addr t (.stream e) :=
    fun _ _ h ↦ by cases h
  refine (ensures_try _ _ _).mpr
    ((readAnnouncement_ensures fun t e _ ↦ hstream t e).mono fun r u hread ↦ ?_)
  rcases r with e | _ | a
  · trivial
  · trivial
  · dsimp only
    split
    · rw [answerAnnouncement_run]
      refine Ensures.call (fun a' addr' h ↦ ?_) fun m _ ↦ ?_
      · cases h
        exact hread.announcement a rfl
      · refine (ensures_try _ _ _).mpr ((only_embed _ _ _).ensures ?_ ?_)
        · intro v _ e he
          obtain ⟨e, rfl⟩ := he
          exact hstream _ e
        · intro v _ r _
          cases r with
          | error e => trivial
          | ok _ =>
            exact (only_finishAnnouncement a addr).ensures
              (fun w _ e he a' addr' h ↦ (he a' addr' h).elim) fun w _ r _ ↦ trivial
    · refine Ensures.call (hstream _ _) fun r _ ↦ ?_
      cases r <;> trivial

theorem Carried.lengths {a : WireplugAnnouncement} {length payload : Bytes}
    (h : Carried a length payload) (hpayload : payload.length ≤ maxMessageSize) :
    a.peerPubkeys.length ≤ maxMessageSize ∧ a.lanAddrs.length ≤ maxMessageSize := by
  have hbuffer : (payload ++ List.replicate (maxMessageSize - payload.length) 0).length =
      maxMessageSize := by
    rw [List.length_append, List.length_replicate]
    omega
  have hlengths := lengths_of_decoded h.decoded
  rwa [hbuffer] at hlengths

section Runs

variable {storage : Storage} {ls after : List ServerLabel} {c : ServerConfig} {i : ℕ}
  {a : WireplugAnnouncement} {addr : SocketAddr} {m : HashMap String WireplugEndpoint}

theorem length_of_read (h : server.Run (ServerConfig.start storage) ls c) {n : ℕ} {bytes : Bytes}
    (hread : ⟨.stream (.readExact n), .ok bytes⟩ ∈ System.calls i ls) : bytes.length = n := by
  obtain ⟨before, rest, rfl⟩ := List.append_of_mem (System.mem_calls.mp hread)
  obtain ⟨s, s', -, hstep, -⟩ := h.split_at
  cases hstep with
  | called _ hanswer =>
    cases hanswer
    rfl

theorem lengths_of_received (h : server.Run (ServerConfig.start storage) ls c)
    {length payload : Bytes} {t : ServerTrace} (hcarried : Carried a length payload)
    (hcalls : System.calls i ls = received length payload ++ t) :
    a.peerPubkeys.length ≤ maxMessageSize ∧ a.lanAddrs.length ≤ maxMessageSize := by
  have hread : ⟨.stream (.readExact (fromLE length)), .ok payload⟩ ∈ System.calls i ls := by
    rw [hcalls]
    exact List.mem_append_left _ (by simp [received])
  refine hcarried.lengths ?_
  rw [length_of_read h hread]
  exact hcarried.fits

theorem lengths_of_lookup (h : server.Run (ServerConfig.start storage)
    (ls ++ .called i (.getPeerEndpoints a addr) m :: after) c) :
    a.peerPubkeys.length ≤ maxMessageSize := by
  obtain ⟨addr', -, hlookup⟩ := h.requires_called (fun _ ↦ rfl) handleConnection_looks_up
    fun _ _ _ _ _ _ _ _ ↦ trivial
  obtain ⟨length, payload, hcarried, hcalls⟩ := hlookup a addr rfl
  obtain ⟨s, hbefore, -⟩ := h.split
  rw [← List.append_nil (received length payload)] at hcalls
  exact (lengths_of_received hbefore hcarried hcalls).1

theorem lengths_of_store {ipv4 : Ipv4Addr} {now : ℕ → SystemTime}
    (h : server.Run (ServerConfig.start storage)
      (ls ++ .called i (.insertRecords a ipv4) now :: after) c) :
    a.lanAddrs.length ≤ maxMessageSize := by
  obtain ⟨addr', -, hstores⟩ := h.requires_called (fun _ ↦ rfl) handleConnection_stores
    fun _ _ _ _ _ _ _ _ ↦ trivial
  obtain ⟨length, payload, m, hcarried, hcalls⟩ := (hstores.stores a ipv4 rfl).steps
  obtain ⟨s, hbefore, -⟩ := h.split
  exact (lengths_of_received hbefore hcarried hcalls).2

theorem lengths_of_lastStored (h : server.Run (ServerConfig.start storage) ls c)
    {initiator peer : String} {b : WireplugAnnouncement} {source : Ipv4Addr}
    (hlast : LastStored ls initiator peer b source) : b.lanAddrs.length ≤ maxMessageSize := by
  obtain ⟨before, j, sourceAddr, now, rest, record, rfl, -⟩ := hlast
  exact lengths_of_store h

end Runs

theorem varintSize_le (bits n : ℕ) : varintSize bits n ≤ varintMax bits := Nat.min_le_left _ _

theorem size_lanAddrs_le (lanAddrs : List IpNet) :
    (lanAddrs.map IpNet.size).sum ≤ lanAddrs.length * 18 := by
  have hsize : ∀ size ∈ lanAddrs.map IpNet.size, size ≤ 18 := by
    intro size hmem
    obtain ⟨net, -, rfl⟩ := List.mem_map.mp hmem
    cases net with
    | v4 net =>
      change 6 ≤ 18
      omega
    | v6 net => exact Nat.le_refl 18
  have hsum : (lanAddrs.map IpNet.size).sum ≤ (lanAddrs.map IpNet.size).length * 18 :=
    List.sum_le_card_nsmul _ _ hsize
  rwa [List.length_map] at hsum

def maxEndpointSize : ℕ := 31 + maxMessageSize * 18

theorem size_directEndpoint_le {b : WireplugAnnouncement}
    (h : b.lanAddrs.length ≤ maxMessageSize) (source : Ipv4Addr) (addr : SocketAddr) :
    (directEndpoint b source addr).size ≤ maxEndpointSize := by
  have hport : varintSize 16 b.wgPort.toNat ≤ 3 := varintSize_le 16 _
  have hlen : varintSize 64 b.lanAddrs.length ≤ 10 := varintSize_le 64 _
  have hlan := size_lanAddrs_le b.lanAddrs
  rw [directEndpoint, maxEndpointSize]
  split
  · rw [WireplugEndpoint.size]
    split <;> omega
  · rw [WireplugEndpoint.size, Option.isSome_some, if_pos rfl]
    split <;> omega

theorem length_entries_le {m : HashMap String WireplugEndpoint} {peers : List String}
    (h : ∀ peer ∈ m.keys, peer ∈ peers) : m.entries.length ≤ peers.length := by
  have hkeys := (List.subperm_of_subset m.nodup h).length_le
  rwa [List.length_map] at hkeys

/-- No response is too long for the 32 bits of its length. -/
theorem response_fits {ls after : List ServerLabel} {c : ServerConfig} {i : ℕ}
    {a : WireplugAnnouncement} {addr : SocketAddr} {m : HashMap String WireplugEndpoint}
    (h : server.Run (ServerConfig.start .new)
      (ls ++ .called i (.getPeerEndpoints a addr) m :: after) c) :
    (encodeResponse ⟨m⟩).length < 2 ^ 32 := by
  obtain ⟨s, s', hbefore, hstep, -⟩ := h.split_at
  have hentries : m.entries.length ≤ maxMessageSize := by
    refine (length_entries_le fun peer hpeer ↦ ?_).trans (lengths_of_lookup h)
    cases hstep with
    | called _ hanswer => exact (mem_keys_lookup hanswer peer).mp hpeer
  have hsize : ∀ size ∈ m.entries.map fun p ↦ 45 + p.2.size, size ≤ 45 + maxEndpointSize := by
    intro size hmem
    obtain ⟨p, hp, rfl⟩ := List.mem_map.mp hmem
    refine Nat.add_le_add_left ?_ 45
    rcases entries_of_lookup h p hp with hunknown | ⟨b, source, hlast, hdirect⟩
    · rw [hunknown]
      decide
    · rw [hdirect]
      exact size_directEndpoint_le (lengths_of_lastStored hbefore hlast) source addr
  have hsum : (m.entries.map fun p ↦ 45 + p.2.size).sum ≤
      (m.entries.map fun p ↦ 45 + p.2.size).length * (45 + maxEndpointSize) :=
    List.sum_le_card_nsmul _ _ hsize
  rw [List.length_map] at hsum
  have hcount : varintSize 64 m.entries.length ≤ 10 := varintSize_le 64 _
  rw [response_length h, responseSize]
  calc varintSize 64 m.entries.length + (m.entries.map fun p ↦ 45 + p.2.size).sum
      ≤ 10 + maxMessageSize * (45 + maxEndpointSize) :=
        Nat.add_le_add hcount (hsum.trans (Nat.mul_le_mul_right _ hentries))
    _ < 2 ^ 32 := by decide

end Wireplug
