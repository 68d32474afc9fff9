import Wireplug.AnnouncementLog
import Wireplug.Foundation.Counting

namespace Wireplug

open Foundation Foundation.Program Postcard ByteStream WriteLog

def received (length payload : Bytes) : ServerTrace :=
  [⟨.stream (.readExact 4), .ok (wireplugProtocolMagic ++ wireplugProtocolVersion)⟩,
    ⟨.stream (.readExact 4), .ok length⟩,
    ⟨.stream (.readExact (fromLE length)), .ok payload⟩]

/-- The payload is no longer than a message may be, and `a` is read from it. -/
structure Carried (a : WireplugAnnouncement) (length payload : Bytes) : Prop where
  fits : fromLE length ≤ maxMessageSize
  decoded : fromBytes decodeAnnouncement
    (payload ++ List.replicate (maxMessageSize - payload.length) 0) = some a

/-- Each step up to the store has succeeded, and nothing else has happened. -/
structure Accepted (addr : SocketAddr) (a : WireplugAnnouncement) (ipv4 : Ipv4Addr)
    (t : ServerTrace) : Prop where
  steps : ∃ length payload m, Carried a length payload ∧
    t = received length payload ++ acknowledged a addr m
  valid : a.valid = true
  source : addr.ip = .v4 ipv4

structure StoreCalls (addr : SocketAddr) (t : ServerTrace) (e : ServerEffect) : Prop where
  reads : ∀ n, e = .stream (.readExact n) → n ≤ maxMessageSize
  stores : ∀ a ipv4, e = .insertRecords a ipv4 → Accepted addr a ipv4 t
  counts : e = .incRelaysNeeded → ∃ a ipv4 now u, t = u ++ [⟨.insertRecords a ipv4, now⟩] ∧
    Accepted addr a ipv4 u ∧ a.needsRelay = true

/-- A connection that ends is counted if it has stored an announcement that asks
for a relay. -/
structure StoreEnds (r : Except ServerError Unit) (t : ServerTrace) : Prop where
  counted : ∀ a ipv4 now, ⟨.insertRecords a ipv4, now⟩ ∈ t → a.needsRelay = true →
    ⟨.incRelaysNeeded, ()⟩ ∈ t

variable {addr : SocketAddr} {a : WireplugAnnouncement} {ipv4 : Ipv4Addr}
  {m : HashMap String WireplugEndpoint} {t : ServerTrace}

def Unstored (t : ServerTrace) : Prop := ∀ a ipv4 now, ⟨.insertRecords a ipv4, now⟩ ∉ t

theorem Unstored.ends (h : Unstored t) (r : Except ServerError Unit) : StoreEnds r t :=
  ⟨fun a ipv4 now hmem ↦ (h a ipv4 now hmem).elim⟩

theorem Unstored.snoc (h : Unstored t) {ev : Event ServerEffect.Answer}
    (hev : ∀ a ipv4, ev.1 ≠ .insertRecords a ipv4) : Unstored (t ++ [ev]) := by
  intro a ipv4 now hmem
  rcases List.mem_append.mp hmem with hmem | hmem
  · exact h a ipv4 now hmem
  · exact hev a ipv4 (congrArg Sigma.fst (List.mem_singleton.mp hmem)).symm

theorem Unstored.stream (h : Unstored t) (e : ByteStream.Effect) (r : ByteStream.Answer e) :
    Unstored (t ++ [⟨.stream e, r⟩]) := h.snoc fun _ _ ↦ ServerEffect.noConfusion

theorem unstored_nil : Unstored [] := fun _ _ _ ↦ List.not_mem_nil

theorem unstored_accepted (h : Accepted addr a ipv4 t) : Unstored t := by
  obtain ⟨length, payload, m, -, rfl⟩ := h.steps
  intro b source now hmem
  simp [received, closed, answered, responseFrame] at hmem

theorem storeCalls_stream (e : ByteStream.Effect)
    (he : ∀ n, e = .readExact n → n ≤ maxMessageSize) : StoreCalls addr t (.stream e) := by
  refine ⟨fun n h ↦ ?_, fun a ipv4 h ↦ ?_, fun h ↦ ?_⟩
  · cases h
    exact he n rfl
  · cases h
  · cases h

theorem storeCalls_write (bytes : Bytes) : StoreCalls addr t (.stream (.writeAll bytes)) :=
  storeCalls_stream _ fun n h ↦ by cases h

theorem storeCalls_shutdown : StoreCalls addr t (.stream .shutdown) :=
  storeCalls_stream _ fun n h ↦ by cases h

section Stream

variable {α : Type} {assumes : ServerTrace → (e : ServerEffect) → e.Answer → Prop}
  {requires : ServerTrace → ServerEffect → Prop} {post : Except ServerError α → ServerTrace → Prop}

theorem ensures_readExact {n : ℕ} {f : Bytes → ExceptT ServerError (Program ByteStream.Answer) α}
    (hcall : requires t (.stream (.readExact n)))
    (herr : ∀ e, post (.error (.io e)) (t ++ [⟨.stream (.readExact n), .error e⟩]))
    (hok : ∀ bytes, (onStream (f bytes)).run.Ensures assumes requires post
      (t ++ [⟨.stream (.readExact n), .ok bytes⟩])) :
    (onStream (readExact n >>= f)).run.Ensures assumes requires post t := by
  refine Ensures.call hcall fun r _ ↦ ?_
  cases r with
  | error e => exact herr e
  | ok bytes => exact hok bytes

theorem ensures_writeAll {bytes : Bytes}
    {f : Unit → ExceptT ServerError (Program ByteStream.Answer) α}
    (hcall : requires t (.stream (.writeAll bytes)))
    (herr : ∀ e, post (.error (.io e)) (t ++ [⟨.stream (.writeAll bytes), .error e⟩]))
    (hok : (onStream (f ())).run.Ensures assumes requires post
      (t ++ [⟨.stream (.writeAll bytes), .ok ()⟩])) :
    (onStream (writeAll bytes >>= f)).run.Ensures assumes requires post t := by
  refine Ensures.call hcall fun r _ ↦ ?_
  cases r with
  | error e => exact herr e
  | ok _ => exact hok

theorem ensures_shutdown {f : Unit → ExceptT ServerError (Program ByteStream.Answer) α}
    (hcall : requires t (.stream .shutdown))
    (herr : ∀ e, post (.error (.io e)) (t ++ [⟨.stream .shutdown, .error e⟩]))
    (hok : (onStream (f ())).run.Ensures assumes requires post
      (t ++ [⟨.stream .shutdown, .ok ()⟩])) :
    (onStream (shutdown >>= f)).run.Ensures assumes requires post t := by
  refine Ensures.call hcall fun r _ ↦ ?_
  cases r with
  | error e => exact herr e
  | ok _ => exact hok

end Stream

structure ReadEnds (r : Except ServerError (Option WireplugAnnouncement)) (t : ServerTrace) :
    Prop where
  unstored : Unstored t
  announcement : ∀ a, r = .ok (some a) → ∃ length payload, Carried a length payload ∧
    t = received length payload

theorem readEnds_error (e : ServerError) (h : Unstored t) : ReadEnds (.error e) t :=
  ⟨h, fun a heq ↦ by cases heq⟩

theorem readEnds_none (h : Unstored t) : ReadEnds (.ok none) t :=
  ⟨h, fun a heq ↦ by cases heq⟩

theorem readAnnouncement_ensures {assumes : ServerTrace → (e : ServerEffect) → e.Answer → Prop}
    {requires : ServerTrace → ServerEffect → Prop}
    (hcall : ∀ t e, (∀ n, e = .readExact n → n ≤ maxMessageSize) → requires t (.stream e)) :
    (onStream readAnnouncement).run.Ensures assumes requires ReadEnds [] := by
  rw [readAnnouncement]
  refine ensures_readExact (hcall _ _ fun n h ↦ by cases h; decide)
    (fun e ↦ readEnds_error _ (unstored_nil.stream _ _)) fun header ↦ ?_
  have hheader : Unstored ([] ++ [⟨.stream (.readExact 4), .ok header⟩]) := unstored_nil.stream _ _
  by_cases hmagic : header.take 3 = wireplugProtocolMagic
  · rw [if_neg (not_not.mpr hmagic)]
    by_cases hversion : header.drop 3 = wireplugProtocolVersion
    · rw [if_neg (not_not.mpr hversion)]
      refine ensures_readExact (hcall _ _ fun n h ↦ by cases h; decide)
        (fun e ↦ readEnds_error _ (hheader.stream _ _)) fun length ↦ ?_
      dsimp only
      split
      · exact readEnds_error _ (hheader.stream _ _)
      · next hlen =>
        have hfits : fromLE length ≤ maxMessageSize := Nat.le_of_not_lt hlen
        refine ensures_readExact (hcall _ _ fun n h ↦ by cases h; exact hfits)
          (fun e ↦ readEnds_error _ ((hheader.stream _ _).stream _ _)) fun payload ↦ ?_
        have hunstored := (hheader.stream (.readExact 4) (.ok length)).stream
          (.readExact (fromLE length)) (.ok payload)
        cases hdecode : fromBytes decodeAnnouncement
            (payload ++ List.replicate (maxMessageSize - payload.length) 0) with
        | none => exact readEnds_error _ hunstored
        | some a =>
          refine ⟨hunstored, fun a' heq ↦ ?_⟩
          cases heq
          refine ⟨length, payload, ⟨hfits, hdecode⟩, ?_⟩
          rw [received, ← hmagic, ← hversion, List.take_append_drop]
          rfl
    · rw [if_pos hversion]
      refine ensures_writeAll (hcall _ _ fun n h ↦ by cases h)
        (fun e ↦ readEnds_error _ (hheader.stream _ _)) ?_
      refine ensures_writeAll (hcall _ _ fun n h ↦ by cases h)
        (fun e ↦ readEnds_error _ ((hheader.stream _ _).stream _ _)) ?_
      exact ensures_shutdown (hcall _ _ fun n h ↦ by cases h)
        (fun e ↦ readEnds_error _ (((hheader.stream _ _).stream _ _).stream _ _))
        (readEnds_none (((hheader.stream _ _).stream _ _).stream _ _))
  · rw [if_pos hmagic]
    exact ensures_shutdown (hcall _ _ fun n h ↦ by cases h)
      (fun e ↦ readEnds_error _ (hheader.stream _ _)) (readEnds_none (hheader.stream _ _))

theorem recordAnnouncement_stores {assumes : ServerTrace → (e : ServerEffect) → e.Answer → Prop}
    {length payload : Bytes} (hcarried : Carried a length payload) (hvalid : a.valid = true) :
    (recordAnnouncement a addr).run.Ensures assumes (StoreCalls addr) StoreEnds
      (received length payload ++ acknowledged a addr m) := by
  rw [recordAnnouncement, processAnnouncement]
  cases hip : addr.ip with
  | v6 ip =>
    refine Unstored.ends (fun b source now hmem ↦ ?_) _
    simp [received, closed, answered, responseFrame] at hmem
  | v4 ipv4 =>
    have haccepted : Accepted addr a ipv4 (received length payload ++ acknowledged a addr m) :=
      ⟨⟨length, payload, m, hcarried, rfl⟩, hvalid, hip⟩
    have hcall : StoreCalls addr (received length payload ++ acknowledged a addr m)
        (.insertRecords a ipv4) := by
      refine ⟨fun n h ↦ ?_, fun b source h ↦ ?_, fun h ↦ ?_⟩
      · cases h
      · cases h
        exact haccepted
      · cases h
    refine Ensures.call hcall fun now _ ↦ ?_
    cases hrelay : a.needsRelay with
    | false =>
      refine ⟨fun b source now' hmem hneeds ↦ ?_⟩
      rcases List.mem_append.mp hmem with hmem | hmem
      · exact (unstored_accepted haccepted b source now' hmem).elim
      · cases List.mem_singleton.mp hmem
        cases hneeds.symm.trans hrelay
    | true =>
      refine Ensures.call ⟨fun n h ↦ ?_, fun b source h ↦ ?_, fun _ ↦ ?_⟩ fun _ _ ↦ ?_
      · cases h
      · cases h
      · exact ⟨a, ipv4, now, _, rfl, haccepted, hrelay⟩
      · exact ⟨fun _ _ _ _ _ ↦ List.mem_append_right _ (List.mem_singleton_self _)⟩

theorem answerAnnouncement_stores {assumes : ServerTrace → (e : ServerEffect) → e.Answer → Prop}
    {length payload : Bytes} (hcarried : Carried a length payload) (hvalid : a.valid = true) :
    (answerAnnouncement a addr).run.Ensures assumes (StoreCalls addr) StoreEnds
      (received length payload) := by
  have hreceived : Unstored (received length payload) := by
    intro b source now hmem
    simp [received] at hmem
  refine Ensures.call ⟨fun n h ↦ ?_, fun b source h ↦ ?_, fun h ↦ ?_⟩ fun m _ ↦ ?_
  · cases h
  · cases h
  · cases h
  · have hlooked : Unstored (received length payload ++ [⟨.getPeerEndpoints a addr, m⟩]) :=
      hreceived.snoc fun _ _ ↦ ServerEffect.noConfusion
    refine (ensures_try _ _ _).mpr (ensures_writeResponse (fun u _ bytes _ ↦ storeCalls_write bytes)
      (fun u bytes r hu ↦ hu.stream (.writeAll bytes) r) hlooked (fun e u hu ↦ hu.ends _)
      fun u hu hwritten ↦ ?_)
    refine Ensures.call storeCalls_shutdown fun r _ ↦ ?_
    cases r with
    | error e => exact (hu.stream _ _).ends _
    | ok _ =>
      have htrace : u ++ [⟨.stream .shutdown, .ok ()⟩] =
          received length payload ++ acknowledged a addr m := by
        rw [hwritten, List.append_assoc, List.append_assoc]
        rfl
      rw [htrace]
      exact recordAnnouncement_stores hcarried hvalid

theorem handleConnection_stores (addr : SocketAddr) : (handleConnection addr).run.Ensures
    (anyAnswer addr) (StoreCalls addr) StoreEnds [] := by
  refine (ensures_try _ _ _).mpr
    ((readAnnouncement_ensures fun _ ↦ storeCalls_stream).mono fun r u hread ↦ ?_)
  rcases r with e | _ | a
  · exact hread.unstored.ends _
  · exact hread.unstored.ends _
  · obtain ⟨length, payload, hcarried, rfl⟩ := hread.announcement a rfl
    dsimp only
    split
    · next hvalid => exact answerAnnouncement_stores hcarried hvalid
    · refine Ensures.call storeCalls_shutdown fun r _ ↦ ?_
      cases r <;> exact (hread.unstored.stream _ _).ends _

structure Inserted (before after : Storage) (a : WireplugAnnouncement) (ipv4 : Ipv4Addr) :
    Prop where
  stored : ∀ peer ∈ a.peerPubkeys, ∃ record,
    after.peeringRecords.get? (a.initiatorPubkey, peer) = some record ∧ record.Carries a ipv4
  untouched : ∀ initiator peer, ¬ (a.initiatorPubkey = initiator ∧ peer ∈ a.peerPubkeys) →
    after.peeringRecords.get? (initiator, peer) = before.peeringRecords.get? (initiator, peer)

theorem inserted (storage : Storage) (a : WireplugAnnouncement) (ipv4 : Ipv4Addr)
    (now : ℕ → SystemTime) : Inserted storage (storage.insertRecords a ipv4 now) a ipv4 := by
  refine ⟨fun peer hpeer ↦ get?_insertRecords hpeer storage ipv4 now, fun initiator peer h ↦ ?_⟩
  have hnone : lastUpdate (announcedRecords a ipv4 now) (initiator, peer) = none := by
    rw [← Option.not_isSome_iff_eq_none, lastUpdate_announced_isSome]
    exact h
  refine (get?_write (announcedRecords a ipv4 now) storage.peeringRecords _).trans ?_
  rw [hnone, Option.none_or]

/-- What a step of a connection from `addr`, after the calls `t`, does to the
storage and to the count of relays. -/
inductive StoreStep (addr : SocketAddr) (t : ServerTrace) : ServerEffect → ServerState →
    ServerState → Prop
  | quiet {e : ServerEffect} {s s' : ServerState} (hstores : ∀ a ipv4, e ≠ .insertRecords a ipv4)
      (hcounts : e ≠ .incRelaysNeeded) (hstorage : s'.storage = s.storage)
      (hrelays : s'.serverStats.relaysNeeded = s.serverStats.relaysNeeded) :
      StoreStep addr t e s s'
  | stores {a : WireplugAnnouncement} {ipv4 : Ipv4Addr} {s s' : ServerState}
      (haccepted : Accepted addr a ipv4 t) (hfirst : Unstored t)
      (hinserted : Inserted s.storage s'.storage a ipv4)
      (hrelays : s'.serverStats.relaysNeeded = s.serverStats.relaysNeeded) :
      StoreStep addr t (.insertRecords a ipv4) s s'
  | counts {a : WireplugAnnouncement} {ipv4 : Ipv4Addr} {now : ℕ → SystemTime} {u : ServerTrace}
      {s s' : ServerState} (hstored : t = u ++ [⟨.insertRecords a ipv4, now⟩])
      (haccepted : Accepted addr a ipv4 u) (hneeds : a.needsRelay = true)
      (hstorage : s'.storage = s.storage)
      (hrelays : s'.serverStats.relaysNeeded = s.serverStats.relaysNeeded + 1) :
      StoreStep addr t .incRelaysNeeded s s'

theorem storeStep_of_answer {s s' : ServerState} {i : ℕ} {e : ServerEffect} {r : e.Answer}
    (hcall : StoreCalls addr t e) (h : ServerAnswers s i e r s') : StoreStep addr t e s s' := by
  cases h with
  | readExact | readError | writeAll | shutdown | getPeerEndpoints =>
    exact .quiet (fun _ _ ↦ ServerEffect.noConfusion) ServerEffect.noConfusion rfl rfl
  | insertRecords a ipv4 now =>
    have haccepted := hcall.stores a ipv4 rfl
    exact .stores haccepted (unstored_accepted haccepted) (inserted _ a ipv4 now) rfl
  | incRelaysNeeded =>
    obtain ⟨a, ipv4, now, u, rfl, haccepted, hneeds⟩ := hcall.counts rfl
    exact .counts rfl haccepted hneeds rfl rfl

theorem exists_answer (s : ServerState) (i : ℕ) (e : ServerEffect) :
    ∃ r s', ServerAnswers s i e r s' := by
  cases e with
  | stream e =>
    cases e with
    | readExact n => exact ⟨_, _, .readError s i n .failed⟩
    | writeAll bytes => exact ⟨_, _, .writeAll s i bytes (.ok ())⟩
    | shutdown => exact ⟨_, _, .shutdown s i (.ok ())⟩
  | getPeerEndpoints a addr => exact ⟨_, _, answers_lookedUp s i a addr⟩
  | insertRecords a ipv4 => exact ⟨_, _, .insertRecords s i a ipv4 fun _ ↦ 0⟩
  | incRelaysNeeded => exact ⟨_, _, .incRelaysNeeded s i⟩

theorem Accepted.uncounted (h : Accepted addr a ipv4 t) (r : Unit) :
    ⟨.incRelaysNeeded, r⟩ ∉ t := by
  obtain ⟨length, payload, m, -, rfl⟩ := h.steps
  simp [received, closed, answered, responseFrame]

variable {storage : Storage} {ls : List ServerLabel} {c : ServerConfig} {i : ℕ}

theorem relaysNeeded_counted (h : server.Run (ServerConfig.start storage) ls c) :
    c.shared.serverStats.relaysNeeded =
      UInt64.ofNat (ls.countP (System.targets (· = .incRelaysNeeded))) := by
  induction h with
  | nil => rfl
  | snoc _ hs ih =>
    rw [List.countP_append, List.countP_singleton, UInt64.ofNat_add, ← ih]
    cases hs with
    | opened => exact (UInt64.add_zero _).symm
    | called _ ha => cases ha <;> first | rfl | exact (UInt64.add_zero _).symm
    | happened hb => cases hb <;> exact (UInt64.add_zero _).symm

theorem counts_le_one (h : server.Run (ServerConfig.start storage) ls c) (i : ℕ) :
    (System.calls i ls).countP (·.1 = .incRelaysNeeded) ≤ 1 := by
  induction h with
  | nil => exact Nat.zero_le 1
  | @snoc b c ls l hrun hs ih =>
    rw [System.calls_append, List.countP_append]
    cases hs with
    | opened => exact ih
    | happened => exact ih
    | @called j e k r s hj ha =>
      by_cases hji : j = i
      · subst hji
        rw [System.calls_self, List.countP_singleton]
        split
        · next he =>
          obtain rfl : e = .incRelaysNeeded := by simpa using he
          obtain ⟨addr, -, hcalls⟩ := (hrun.snoc (.called hj ha)).requires_called (fun _ ↦ rfl)
            handleConnection_stores (fun _ _ _ _ _ _ _ _ ↦ trivial)
          obtain ⟨a, ipv4, now, u, hu, haccepted, -⟩ := hcalls.counts rfl
          have hnone : u.countP (·.1 = .incRelaysNeeded) = 0 := by
            refine List.countP_eq_zero.mpr fun ev hev heq ↦ ?_
            obtain ⟨e, r⟩ := ev
            obtain rfl : e = .incRelaysNeeded := by simpa using heq
            exact haccepted.uncounted r hev
          rw [hu, List.countP_append, hnone]
          simp
        · exact ih
      · rw [System.calls_other hji]
        exact ih

/-- A connection stores one announcement as a whole or nothing, and it is counted if it has stored
one that asks for a relay. -/
theorem connection_all_or_nothing (h : server.Run (ServerConfig.start storage) ls c)
    (hopened : .opened i addr ∈ ls) :
    (∀ e k, c.threads i = some (.call e k) →
        (∀ n, e = .stream (.readExact n) → n ≤ maxMessageSize) ∧
          ∃ r s, ServerAnswers c.shared i e r s) ∧
      (∀ e r c', server.Step c (.called i e r) c' →
        StoreStep addr (System.calls i ls) e c.shared c'.shared) ∧
      (∀ r, c.threads i = some (.done r) → (⟨.incRelaysNeeded, ()⟩ ∈ System.calls i ls ↔
        ∃ a ipv4 now, ⟨.insertRecords a ipv4, now⟩ ∈ System.calls i ls ∧ a.needsRelay = true)) ∧
      (System.calls i ls).countP (·.1 = .incRelaysNeeded) ≤ 1 ∧
      c.shared.serverStats.relaysNeeded =
        UInt64.ofNat (ls.countP (System.targets (· = .incRelaysNeeded))) := by
  have hverified : System.Verified anyAnswer StoreCalls (fun _ ↦ StoreEnds) i ls (c.threads i) :=
    h.verified (fun _ ↦ rfl) handleConnection_stores (fun _ _ _ _ _ _ _ _ ↦ trivial) i
  have hnext (e : ServerEffect) (k : e.Answer → Program ServerEffect.Answer _)
      (hthread : c.threads i = some (.call e k)) : StoreCalls addr (System.calls i ls) e := by
    rw [hthread] at hverified
    obtain ⟨d, huniq, hensures⟩ := hverified
    obtain rfl := (huniq addr).mp hopened
    exact hensures.1
  refine ⟨fun e k hthread ↦ ⟨(hnext e k hthread).reads, exists_answer _ _ _⟩,
    fun e r c' hstep ↦ ?_, fun r hthread ↦ ⟨fun hmem ↦ ?_, fun hstored ↦ ?_⟩,
    counts_le_one h i, relaysNeeded_counted h⟩
  · cases hstep with
    | called hi ha => exact storeStep_of_answer (hnext e _ hi) ha
  · obtain ⟨before, after, heq⟩ := List.append_of_mem (System.mem_calls.mp hmem)
    rw [heq] at h
    obtain ⟨addr', -, hcalls⟩ := h.requires_called (fun _ ↦ rfl) handleConnection_stores
      (fun _ _ _ _ _ _ _ _ ↦ trivial)
    obtain ⟨a, ipv4, now, u, hu, -, hneeds⟩ := hcalls.counts rfl
    refine ⟨a, ipv4, now, ?_, hneeds⟩
    rw [heq, System.calls_append, hu]
    simp
  · obtain ⟨a, ipv4, now, hmem, hneeds⟩ := hstored
    rw [hthread] at hverified
    obtain ⟨d, -, hends⟩ := hverified
    exact hends.counted a ipv4 now hmem hneeds

def askingAnnouncement (initiator peer : Key) : WireplugAnnouncement :=
  { bareAnnouncement initiator peer with needsRelay := true }

theorem path_asking (initiator peer : Key) (source : Ipv4Addr) (port : UInt16) (i : ℕ) :
    ∃ t : ServerTrace,
      (∀ ev ∈ t, (∃ e, ev.1 = .stream e) ∨
        ev.1 = .getPeerEndpoints (askingAnnouncement initiator peer) (.v4 source port)) ∧
      (handleConnection (.v4 source port)).run.Path t
        (.call (.insertRecords (askingAnnouncement initiator peer) source) fun _ ↦
          .call .incRelaysNeeded fun _ ↦ .done (.ok ())) ∧
      server.Moves i (.start .new) t (.start .new) := by
  have hvalid : (askingAnnouncement initiator peer).valid = true :=
    bareAnnouncement_valid initiator peer
  have hlen : (encodeAnnouncement (askingAnnouncement initiator peer)).length ≤ maxMessageSize := by
    rw [encodeAnnouncement_length_of_valid hvalid]
    change announcementSize 1 none 51820 [] ≤ maxMessageSize
    decide +kernel
  have hresponse : (encodeResponse ⟨lookedUp (ServerState.start .new).storage
      (askingAnnouncement initiator peer) (.v4 source port)⟩).length < 2 ^ 32 :=
    Nat.lt_of_le_of_lt (Nat.le_of_eq (encodeResponse_new_bare initiator peer (.v4 source port)))
      (by decide)
  have hend : (finishAnnouncement (askingAnnouncement initiator peer) (.v4 source port)).run.Path
      [⟨.stream .shutdown, .ok ()⟩]
      (.call (.insertRecords (askingAnnouncement initiator peer) source) fun _ ↦
        .call .incRelaysNeeded fun _ ↦ .done (.ok ())) := .cons (.nil _)
  obtain ⟨t, ht, hpath, hanswers⟩ := path_closed hvalid hlen hresponse hend i
  exact ⟨_, fun ev hev ↦ stream_or_lookup ht hev, hpath, .still hanswers⟩

/-- The announcement is stored in the last step but one, and counted in the last. -/
theorem connection_all_or_nothing_asking :
    let a := askingAnnouncement (.filled 0) (.filled 1)
    let source : Ipv4Addr := .new 203 0 113 5
    ∃ (t : ServerTrace) (s s' : ServerState) (ls : List ServerLabel) (c : ServerConfig),
      StoreStep (.v4 source 51820) t (.insertRecords a source) s s' ∧
      s.storage = .new ∧ s'.storage = (Storage.new.insertRecords a source fun _ ↦ 0) ∧
      (⟨.incRelaysNeeded, ()⟩ ∈ System.calls 0 ls ↔ ∃ b ipv4 now,
        ⟨.insertRecords b ipv4, now⟩ ∈ System.calls 0 ls ∧ b.needsRelay = true) ∧
      c.shared.serverStats.relaysNeeded =
        UInt64.ofNat (ls.countP (System.targets (· = .incRelaysNeeded))) ∧
      c.shared.serverStats.relaysNeeded = 1 := by
  intro a source
  obtain ⟨t, -, hpath, hmoves⟩ := path_asking (.filled 0) (.filled 1) source 51820 0
  let start := ServerConfig.start .new
  have hopen : server.Run start [.opened 0 (.v4 source 51820)]
      ⟨.start .new, Function.update start.threads 0 (some (handleConnection _).run)⟩ :=
    .one (.opened _ rfl)
  have hrun := hopen.trans (.along hpath hmoves start.threads)
  have hstore : server.Step ⟨.start .new, Function.update start.threads 0
        (some (.call (.insertRecords a source) fun _ ↦ .call .incRelaysNeeded fun _ ↦ .done (.ok ())))⟩
      (.called 0 (.insertRecords a source) fun _ ↦ 0) ⟨{ ServerState.start .new with
        storage := Storage.new.insertRecords a source fun _ ↦ 0 }, _⟩ :=
    .called rfl (ServerAnswers.insertRecords (.start .new) 0 a source _)
  have hall := hopen.trans (.along (hpath.trans (.cons (.cons (.nil _))))
    (hmoves.trans (.cons (ServerAnswers.insertRecords (.start .new) 0 a source fun _ ↦ 0)
      (.cons (ServerAnswers.incRelaysNeeded _ 0) (.nil _)))) start.threads)
  have hopened {ls : List ServerLabel} : .opened 0 (.v4 source 51820) ∈
      [.opened 0 (.v4 source 51820)] ++ ls := List.mem_append_left _ List.mem_cons_self
  have hstores := (connection_all_or_nothing hrun hopened).2.1
  obtain ⟨-, -, hcounted, -, hrelays⟩ := connection_all_or_nothing hall hopened
  exact ⟨_, _, _, _, _, hstores _ _ _ hstore, rfl, rfl,
    hcounted _ (Function.update_self 0 _ start.threads), hrelays, rfl⟩

end Wireplug
