import Wireplug.ConnectionFrame
import Wireplug.Foundation.Duplex

namespace Wireplug

open Foundation Foundation.Program Postcard ByteStream

theorem frame_length (payload : Bytes) : (frame payload).length = 8 + payload.length := by
  simp only [frame, List.length_append, toLE_length, wireplugProtocolMagic, wireplugProtocolVersion,
    List.length_cons, List.length_nil]
  omega

theorem parts_of_frame {header length rest payload : Bytes} (hheader : header.length = 4)
    (hlength : length.length = 4) (h : header ++ length ++ rest <+: frame payload) :
    header = wireplugProtocolMagic ++ wireplugProtocolVersion ∧
      length = toLE 4 payload.length ∧ rest <+: payload := by
  obtain ⟨tail, htail⟩ := h
  rw [frame, ← List.append_assoc wireplugProtocolMagic, List.append_assoc,
    List.append_assoc] at htail
  obtain ⟨hmagic, hrest⟩ := List.append_inj htail hheader
  obtain ⟨hsize, hpayload⟩ := List.append_inj hrest (hlength.trans (toLE_length 4 _).symm)
  exact ⟨hmagic, hsize, tail, hpayload⟩

/-- After the calls `u` the read of `n` bytes does not go beyond the message, whatever
message it is that is read. -/
def StaysIn (u : Trace ByteStream.Answer) (n : ℕ) : Prop :=
  ∀ payload : Bytes, payload.length < 2 ^ 32 → bytesRead u <+: frame payload →
    (bytesRead u).length + n ≤ (frame payload).length

theorem staysIn_header {u : Trace ByteStream.Answer} {n : ℕ} (h : (bytesRead u).length + n ≤ 8) :
    StaysIn u n := by
  intro payload _ _
  rw [frame_length]
  omega

theorem staysIn_payload {u : Trace ByteStream.Answer} {header length : Bytes}
    (hu : bytesRead u = header ++ length) (hheader : header.length = 4)
    (hlength : length.length = 4) : StaysIn u (fromLE length) := by
  intro payload hpayload hprefix
  rw [hu, ← List.append_nil (header ++ length)] at hprefix
  obtain ⟨-, rfl, -⟩ := parts_of_frame hheader hlength hprefix
  rw [hu, fromLE_toLE hpayload, frame_length, List.length_append, hheader, hlength]

def announcedText (a : WireplugAnnouncement) : Bytes :=
  wireplugProtocolMagic ++ (wireplugProtocolVersion ++
    if (encodeAnnouncement a).length < 2 ^ 32 then
      toLE 4 (encodeAnnouncement a).length ++ encodeAnnouncement a
    else [])

variable {a : WireplugAnnouncement} {addr : SocketAddr} {m : HashMap String WireplugEndpoint}

theorem announcedText_eq (h : (encodeAnnouncement a).length < 2 ^ 32) :
    announcedText a = frame (encodeAnnouncement a) := by
  rw [announcedText, if_pos h, frame]

structure ClientCalls (a : WireplugAnnouncement) (u : Trace ByteStream.Answer)
    (e : ByteStream.Effect) : Prop where
  clean : Clean u
  writes : ∀ bytes, e = .writeAll bytes → bytesWritten u ++ bytes <+: announcedText a
  reads : ∀ n, e = .readExact n → (encodeAnnouncement a).length < 2 ^ 32 ∧
    bytesWritten u = announcedText a ∧ StaysIn u n

structure ClientEnds (r : Except AnnounceError WireplugResponse)
    (u : Trace ByteStream.Answer) : Prop where
  read : ∀ response, r = .ok response → Clean u ∧
    ∃ length payload : Bytes, length.length = 4 ∧ payload.length = fromLE length ∧
      payload.length ≤ maxMessageSize ∧ fromBytes decodeResponse payload = some response ∧
      bytesRead u = wireplugProtocolMagic ++ wireplugProtocolVersion ++ length ++ payload

theorem clientEnds_error (e : AnnounceError) (u : Trace ByteStream.Answer) :
    ClientEnds (.error e) u := ⟨fun response h ↦ by cases h⟩

def anyFull (_ : Trace ByteStream.Answer) (e : ByteStream.Effect) (r : ByteStream.Answer e) :
    Prop :=
  Full ⟨e, r⟩

theorem readResponse_ensures {u : Trace ByteStream.Answer} (hclean : Clean u)
    (hread : bytesRead u = []) (hlen : (encodeAnnouncement a).length < 2 ^ 32)
    (hwritten : bytesWritten u = announcedText a) :
    readResponse.run.Ensures anyFull (ClientCalls a) ClientEnds u := by
  have hcalls {u : Trace ByteStream.Answer} {n : ℕ} (hclean : Clean u)
      (hwritten : bytesWritten u = announcedText a) (hstays : StaysIn u n) :
      ClientCalls a u (.readExact n) := by
    refine ⟨hclean, fun bytes h ↦ ?_, fun n h ↦ ?_⟩
    · cases h
    · cases h
      exact ⟨hlen, hwritten, hstays⟩
  have hsnoc {u : Trace ByteStream.Answer} {bytes : Bytes} (hclean : Clean u)
      (hwritten : bytesWritten u = announcedText a) {n : ℕ} (hbytes : bytes.length = n) :
      Clean (u ++ [⟨.readExact n, .ok bytes⟩]) ∧
        bytesWritten (u ++ [⟨.readExact n, .ok bytes⟩]) = announcedText a :=
    ⟨clean_snoc.mpr ⟨hclean, hbytes⟩,
      (bytesWritten_snoc _ _).trans ((List.append_nil _).trans hwritten)⟩
  rw [readResponse]
  refine ensures_read (hcalls hclean hwritten (staysIn_header ?_))
    (fun e ↦ clientEnds_error _ _) fun header hheader ↦ ?_
  · rw [hread]
    decide
  obtain ⟨hclean, hwritten⟩ := hsnoc hclean hwritten hheader
  have hread : bytesRead (u ++ [⟨.readExact 4, .ok header⟩]) = header := by
    rw [bytesRead_snoc, hread]
    rfl
  split
  · exact clientEnds_error _ _
  next hmagic =>
  split
  · exact clientEnds_error _ _
  next hversion =>
  have hparts : header = wireplugProtocolMagic ++ wireplugProtocolVersion := by
    rw [← not_not.mp hmagic, ← not_not.mp hversion, List.take_append_drop]
  refine ensures_read (hcalls hclean hwritten (staysIn_header ?_))
    (fun e ↦ clientEnds_error _ _) fun length hlength ↦ ?_
  · rw [hread, show header.length = 4 from hheader]
  obtain ⟨hclean, hwritten⟩ := hsnoc hclean hwritten hlength
  have hread : bytesRead (u ++ [⟨.readExact 4, .ok header⟩] ++ [⟨.readExact 4, .ok length⟩]) =
      header ++ length := by
    rw [bytesRead_snoc, hread]
    rfl
  dsimp only
  split
  · exact clientEnds_error _ _
  next hfits =>
  refine ensures_read (hcalls hclean hwritten (staysIn_payload hread hheader hlength))
    (fun e ↦ clientEnds_error _ _) fun payload hpayload ↦ ?_
  obtain ⟨hclean, -⟩ := hsnoc hclean hwritten hpayload
  cases hdecode : fromBytes decodeResponse payload with
  | none => exact clientEnds_error _ _
  | some response =>
    refine ⟨fun response' heq ↦ ⟨hclean, length, payload, hlength, hpayload, ?_, ?_, ?_⟩⟩
    · rw [show payload.length = fromLE length from hpayload]
      exact Nat.le_of_not_lt hfits
    · cases heq
      exact hdecode
    · rw [bytesRead_snoc, hread, hparts]
      rfl

theorem writeAnnouncement_ensures (a : WireplugAnnouncement) :
    (writeAnnouncement a).run.Ensures anyFull (ClientCalls a)
      (fun r u ↦ r = .ok () → (encodeAnnouncement a).length < 2 ^ 32 ∧ Clean u ∧
        bytesRead u = [] ∧ bytesWritten u = announcedText a) [] := by
  have hcalls {u : Trace ByteStream.Answer} {bytes : Bytes} (hclean : Clean u)
      (h : bytesWritten u ++ bytes <+: announcedText a) : ClientCalls a u (.writeAll bytes) := by
    refine ⟨hclean, fun bytes' h' ↦ ?_, fun n h' ↦ ?_⟩
    · cases h'
      exact h
    · cases h'
  have hsnoc {u : Trace ByteStream.Answer} (hclean : Clean u) (bytes : Bytes) :
      Clean (u ++ [⟨.writeAll bytes, .ok ()⟩]) := clean_snoc.mpr ⟨hclean, trivial⟩
  have hnil : Clean [] := List.forall_mem_nil _
  rw [writeAnnouncement]
  refine ensures_write (hcalls hnil (List.prefix_append _ _)) (fun e h ↦ by cases h) ?_
  refine ensures_write (hcalls (hsnoc hnil _) ?_) (fun e h ↦ by cases h) ?_
  · rw [announcedText, ← List.append_assoc]
    exact List.prefix_append _ _
  dsimp only
  split
  · next hlen =>
    refine ensures_write (hcalls (hsnoc (hsnoc hnil _) _) ?_) (fun e h ↦ by cases h) ?_
    · rw [announcedText_eq hlen, frame, ← List.append_assoc, ← List.append_assoc]
      exact List.prefix_append _ _
    have hall : bytesWritten ([] ++ [⟨.writeAll wireplugProtocolMagic, .ok ()⟩] ++
        [⟨.writeAll wireplugProtocolVersion, .ok ()⟩] ++
        [⟨.writeAll (toLE 4 (encodeAnnouncement a).length), .ok ()⟩]) ++ encodeAnnouncement a =
          announcedText a := by
      rw [announcedText_eq hlen, frame, ← List.append_assoc, ← List.append_assoc]
      rfl
    refine .call (hcalls (hsnoc (hsnoc (hsnoc hnil _) _) _) ?_) fun r _ ↦ ?_
    · exact hall ▸ List.prefix_rfl
    · cases r with
      | error e => exact fun h ↦ by cases h
      | ok _ =>
        refine fun _ ↦ ⟨hlen, hsnoc (hsnoc (hsnoc (hsnoc hnil _) _) _) _, rfl, ?_⟩
        rw [bytesWritten_snoc]
        exact hall
  · exact fun h ↦ by cases h

theorem sendAnnouncement_ensures (a : WireplugAnnouncement) :
    (sendAnnouncement a).run.Ensures anyFull (ClientCalls a) ClientEnds [] := by
  refine (ensures_try _ _ _).mpr ((writeAnnouncement_ensures a).mono fun r u h ↦ ?_)
  cases r with
  | error e => exact clientEnds_error e u
  | ok _ =>
    obtain ⟨hlen, hclean, hread, hwritten⟩ := h rfl
    exact readResponse_ensures hclean hread hlen hwritten

def streamed (t : ServerTrace) : Trace ByteStream.Answer :=
  t.filterMap fun
    | ⟨.stream e, r⟩ => some ⟨e, r⟩
    | _ => none

theorem streamed_append (t u : ServerTrace) : streamed (t ++ u) = streamed t ++ streamed u :=
  List.filterMap_append

theorem streamed_stream (t : ServerTrace) (e : ByteStream.Effect) (r : ByteStream.Answer e) :
    streamed (t ++ [⟨.stream e, r⟩]) = streamed t ++ [⟨e, r⟩] := streamed_append t _

def Hears (text : Bytes) (t : ServerTrace) (e : ServerEffect) (r : e.Answer) : Prop :=
  ∀ ev ∈ streamed [⟨e, r⟩], ReadsFrom text (streamed t) ev.1 ev.2

/-- The connection has looked up the peers of `a` once, and `m` was the answer. -/
def LookedUp (a : WireplugAnnouncement) (addr : SocketAddr) (m : HashMap String WireplugEndpoint)
    (t : ServerTrace) : Prop :=
  ∀ b addr' m', ⟨.getPeerEndpoints b addr', m'⟩ ∈ t ↔ b = a ∧ addr' = addr ∧ m' = m

def Responded (a : WireplugAnnouncement) (addr : SocketAddr) (t : ServerTrace) : Prop :=
  Clean (streamed t) ∧ ∃ m, LookedUp a addr m t ∧ (encodeResponse ⟨m⟩).length < 2 ^ 32 ∧
    bytesWritten (streamed t) = frame (encodeResponse ⟨m⟩)

/-- What a connection from `addr` may call, after `t`, if the client sends `a`. -/
structure SessionCalls (a : WireplugAnnouncement) (addr : SocketAddr) (t : ServerTrace)
    (e : ServerEffect) : Prop where
  clean : Clean (streamed t)
  looks_up : ∀ b addr', e = .getPeerEndpoints b addr' → b = a ∧ addr' = addr ∧
    ∀ ev ∈ t, ∃ e', ev.1 = ServerEffect.stream e'
  reads : ∀ n, e = .stream (.readExact n) → StaysIn (streamed t) n
  writes : ∀ bytes, e = .stream (.writeAll bytes) → ∃ m, LookedUp a addr m t ∧
    (encodeResponse ⟨m⟩).length < 2 ^ 32 ∧
      bytesWritten (streamed t) ++ bytes <+: frame (encodeResponse ⟨m⟩)
  stores : ∀ b ipv4, e = .insertRecords b ipv4 → b = a ∧ addr.ip = .v4 ipv4 ∧ Responded a addr t

structure SessionEnds (a : WireplugAnnouncement) (addr : SocketAddr)
    (r : Except ServerError Unit) (t : ServerTrace) : Prop where
  stored : r = .ok () → a.valid = true → Responded a addr t ∧
    ∃ ipv4 now, addr.ip = .v4 ipv4 ∧ ⟨.insertRecords a ipv4, now⟩ ∈ t

theorem sessionEnds_error (e : ServerError) (t : ServerTrace) :
    SessionEnds a addr (.error e) t := ⟨fun h ↦ by cases h⟩

structure ReadCalls (u : Trace ByteStream.Answer) (e : ByteStream.Effect) : Prop where
  clean : Clean u
  unwritten : ∀ bytes, e ≠ .writeAll bytes
  reads : ∀ n, e = .readExact n → StaysIn u n

theorem header_of_announcedText {header : Bytes} (hheader : header.length = 4)
    (h : header <+: announcedText a) :
    header = wireplugProtocolMagic ++ wireplugProtocolVersion := by
  have hboth : wireplugProtocolMagic ++ wireplugProtocolVersion <+: announcedText a := by
    rw [announcedText, ← List.append_assoc]
    exact List.prefix_append _ _
  exact (List.prefix_of_prefix_length_le h hboth (by rw [hheader]; decide)).eq_of_length hheader

theorem length_of_announcedText {header length : Bytes} (hheader : header.length = 4)
    (hlength : length.length = 4) (h : header ++ length <+: announcedText a) :
    (encodeAnnouncement a).length < 2 ^ 32 ∧ fromLE length = (encodeAnnouncement a).length := by
  by_cases hlen : (encodeAnnouncement a).length < 2 ^ 32
  · rw [announcedText_eq hlen, ← List.append_nil (header ++ length)] at h
    obtain ⟨-, hsize, -⟩ := parts_of_frame hheader hlength h
    rw [hsize]
    exact ⟨hlen, fromLE_toLE hlen⟩
  · -- the client has given up before it sends a length
    have hshort := h.length_le
    rw [announcedText, if_neg hlen, List.append_nil, List.length_append, hheader, hlength] at hshort
    exact absurd hshort (by decide)

theorem readAnnouncement_reads (a : WireplugAnnouncement) :
    readAnnouncement.run.Ensures (ReadsFrom (announcedText a)) ReadCalls
      (fun r u ↦ ∀ o, r = .ok o → o = some a ∧ Clean u ∧ bytesWritten u = []) [] := by
  have hcalls {u : Trace ByteStream.Answer} {n : ℕ} (hclean : Clean u) (hstays : StaysIn u n) :
      ReadCalls u (.readExact n) := by
    refine ⟨hclean, ?_, ?_⟩
    · intro bytes h
      cases h
    · intro n h
      cases h
      exact hstays
  have hfails {u : Trace ByteStream.Answer} (e : ServerError) :
      ∀ o, (Except.error e : Except ServerError (Option WireplugAnnouncement)) = .ok o →
        o = some a ∧ Clean u ∧ bytesWritten u = [] := by
    intro o h
    cases h
  have hsnoc {u : Trace ByteStream.Answer} {bytes : Bytes} {n : ℕ} (hclean : Clean u)
      (hbytes : bytes.length = n) : Clean (u ++ [⟨.readExact n, .ok bytes⟩]) :=
    clean_snoc.mpr ⟨hclean, hbytes⟩
  have hnil : Clean [] := List.forall_mem_nil _
  rw [readAnnouncement]
  refine ensures_read (hcalls hnil (staysIn_header (by decide))) (fun e ↦ hfails _)
    fun header hheader ↦ ?_
  obtain ⟨hheader, hread⟩ := hheader
  change header.length = 4 at hheader
  have hone : bytesRead ([] ++ [⟨.readExact 4, .ok header⟩]) = header := by
    rw [bytesRead_snoc]
    rfl
  rw [hone] at hread
  obtain rfl := header_of_announcedText hheader hread
  have hmagic : (wireplugProtocolMagic ++ wireplugProtocolVersion).take 3 = wireplugProtocolMagic :=
    rfl
  have hversion :
      (wireplugProtocolMagic ++ wireplugProtocolVersion).drop 3 = wireplugProtocolVersion := rfl
  rw [if_neg (not_not.mpr hmagic), if_neg (not_not.mpr hversion)]
  refine ensures_read (hcalls (hsnoc hnil hheader) (staysIn_header (by rw [hone]; decide)))
    (fun e ↦ hfails _) fun length hlength ↦ ?_
  obtain ⟨hlength, hread⟩ := hlength
  change length.length = 4 at hlength
  rw [bytesRead_snoc, hone] at hread
  obtain ⟨hlen, hsize⟩ := length_of_announcedText hheader hlength hread
  dsimp only
  split
  · exact hfails _
  refine ensures_read (hcalls (hsnoc (hsnoc hnil hheader) hlength)
    (staysIn_payload (by rw [bytesRead_snoc, hone]; rfl) hheader hlength))
    (fun e ↦ hfails _) fun payload hpayload ↦ ?_
  obtain ⟨hpayload, hread⟩ := hpayload
  change payload.length = fromLE length at hpayload
  rw [bytesRead_snoc, bytesRead_snoc, hone, announcedText_eq hlen] at hread
  obtain ⟨-, -, hprefix⟩ := parts_of_frame hheader hlength hread
  obtain rfl := hprefix.eq_of_length (hpayload.trans hsize)
  have hdec := fromBytes_paddedPayload (fromBytes_of_decodes
    (roundTrips_announcement a (Nat.lt_trans hlen (by decide))))
  rw [paddedPayload] at hdec
  rw [hdec]
  intro o h
  cases h
  exact ⟨rfl, hsnoc (hsnoc (hsnoc hnil hheader) hlength) hpayload, rfl⟩

theorem flatten_responseFrame (m : HashMap String WireplugEndpoint) :
    (responseFrame m).flatten = frame (encodeResponse ⟨m⟩) := by
  simp only [responseFrame, frame, List.flatten_cons, List.flatten_nil, List.append_nil]

theorem lookedUp_of_stream {t : ServerTrace} (ht : ∀ ev ∈ t, ∃ e, ev.1 = ServerEffect.stream e) :
    LookedUp a addr m (t ++ [⟨.getPeerEndpoints a addr, m⟩]) := by
  intro b addr' m'
  rw [List.mem_append, List.mem_singleton]
  constructor
  · intro h
    rcases h with h | h
    · obtain ⟨e, he⟩ := ht _ h
      cases he
    · cases h
      exact ⟨rfl, rfl, rfl⟩
  · rintro ⟨rfl, rfl, rfl⟩
    exact .inr rfl

theorem LookedUp.snoc {t : ServerTrace} (h : LookedUp a addr m t) {e : ServerEffect} {r : e.Answer}
    (he : ∀ b addr', e ≠ .getPeerEndpoints b addr') : LookedUp a addr m (t ++ [⟨e, r⟩]) := by
  intro b addr' m'
  rw [← h b addr' m', List.mem_append, List.mem_singleton, or_iff_left]
  intro heq
  exact he b addr' (congrArg Sigma.fst heq).symm

theorem LookedUp.unique {m' : HashMap String WireplugEndpoint} {t : ServerTrace}
    (h : LookedUp a addr m t) (h' : LookedUp a addr m' t) : m = m' :=
  ((h' a addr m).mp ((h a addr m).mpr ⟨rfl, rfl, rfl⟩)).2.2

theorem Responded.quiet {t : ServerTrace} (h : Responded a addr t) {e : ServerEffect} {r : e.Answer}
    (he : ∀ b addr', e ≠ .getPeerEndpoints b addr') (hquiet : streamed [⟨e, r⟩] = []) :
    Responded a addr (t ++ [⟨e, r⟩]) := by
  obtain ⟨hclean, m, hlooked, hrest⟩ := h
  rw [Responded, streamed_append, hquiet, List.append_nil]
  exact ⟨hclean, m, hlooked.snoc he, hrest⟩

theorem sessionCalls_stream {t : ServerTrace} {e : ByteStream.Effect} (hclean : Clean (streamed t))
    (hreads : ∀ n, e = .readExact n → StaysIn (streamed t) n)
    (hwrites : ∀ bytes, e = .writeAll bytes → ∃ m, LookedUp a addr m t ∧
      (encodeResponse ⟨m⟩).length < 2 ^ 32 ∧
        bytesWritten (streamed t) ++ bytes <+: frame (encodeResponse ⟨m⟩)) :
    SessionCalls a addr t (.stream e) where
  clean := hclean
  looks_up _ _ h := by cases h
  reads n h := hreads n (ServerEffect.stream.inj h)
  writes bytes h := hwrites bytes (ServerEffect.stream.inj h)
  stores _ _ h := by cases h

theorem sessionCalls_shutdown {t : ServerTrace} (hclean : Clean (streamed t)) :
    SessionCalls a addr t (.stream .shutdown) :=
  sessionCalls_stream hclean (fun _ h ↦ by cases h) fun _ h ↦ by cases h

theorem sessionCalls_shared {t : ServerTrace} {e : ServerEffect} (hclean : Clean (streamed t))
    (he : ∀ e', e ≠ .stream e')
    (hlooks : ∀ b addr', e = .getPeerEndpoints b addr' → b = a ∧ addr' = addr ∧
      ∀ ev ∈ t, ∃ e', ev.1 = ServerEffect.stream e')
    (hstores : ∀ b ipv4, e = .insertRecords b ipv4 →
      b = a ∧ addr.ip = .v4 ipv4 ∧ Responded a addr t) : SessionCalls a addr t e where
  clean := hclean
  looks_up := hlooks
  reads _ h := (he _ h).elim
  writes _ h := (he _ h).elim
  stores := hstores

section Handler

variable {assumes : ServerTrace → (e : ServerEffect) → e.Answer → Prop}

theorem recordAnnouncement_session {t : ServerTrace} (h : Responded a addr t) :
    (recordAnnouncement a addr).run.Ensures assumes (SessionCalls a addr) (SessionEnds a addr)
      t := by
  rw [recordAnnouncement, processAnnouncement]
  cases hip : addr.ip with
  | v6 ip => exact sessionEnds_error _ _
  | v4 ipv4 =>
    have hcall : SessionCalls a addr t (.insertRecords a ipv4) := by
      refine sessionCalls_shared h.1 (fun _ ↦ ServerEffect.noConfusion) ?_ ?_
      · intro b addr' h'
        cases h'
      · intro b source h'
        cases h'
        exact ⟨rfl, hip, h⟩
    refine .call hcall fun now _ ↦ ?_
    have hstored : Responded a addr (t ++ [⟨.insertRecords a ipv4, now⟩]) :=
      h.quiet (fun _ _ ↦ ServerEffect.noConfusion) rfl
    have hmem : ⟨.insertRecords a ipv4, now⟩ ∈ t ++ [⟨.insertRecords a ipv4, now⟩] :=
      List.mem_append_right _ (List.mem_singleton_self _)
    cases a.needsRelay with
    | false => exact ⟨fun _ _ ↦ ⟨hstored, ipv4, now, hip, hmem⟩⟩
    | true =>
      refine .call ?_ fun r _ ↦ ⟨fun _ _ ↦ ⟨hstored.quiet (fun _ _ ↦ ServerEffect.noConfusion) rfl,
        ipv4, now, hip, List.mem_append_left _ hmem⟩⟩
      refine sessionCalls_shared hstored.1 (fun _ ↦ ServerEffect.noConfusion) ?_ ?_
      · intro b addr' h'
        cases h'
      · intro b source h'
        cases h'

theorem writeResponse_session {t : ServerTrace} (hclean : Clean (streamed t))
    (hwritten : bytesWritten (streamed t) = []) (hlooked : LookedUp a addr m t) :
    (onStream (writeResponse ⟨m⟩)).run.Ensures assumes (SessionCalls a addr)
      (fun r u ↦ r = .ok () → Responded a addr u) t := by
  rw [writeResponse_eq]
  split
  · next hlen =>
    have htext : bytesWritten (streamed t) ++ (responseFrame m).flatten =
        frame (encodeResponse ⟨m⟩) := by
      rw [hwritten, List.nil_append, flatten_responseFrame]
    have hpieces : ((responseFrame m).forM writeAll :
        ExceptT ServerError (Program ByteStream.Answer) Unit).run.Ensures (fun _ _ _ ↦ True) _ _
          (streamed t) := ensures_pieces (responseFrame m) hclean htext
    refine Ensures.embed streamed_stream (I := LookedUp a addr m) ?_ (fun _ _ _ _ ↦ trivial) ?_ ?_
      hpieces hlooked
    · intro u e r hu
      exact hu.snoc fun _ _ ↦ ServerEffect.noConfusion
    · intro u e hu hcall
      obtain ⟨hclean, bytes, rfl, hprefix⟩ := hcall
      refine sessionCalls_stream hclean ?_ ?_
      · intro n h
        cases h
      · intro bytes' h
        cases h
        exact ⟨m, hu, hlen, hprefix⟩
    · intro u r hu hend hr
      obtain ⟨hclean, hwritten⟩ := hend hr
      exact ⟨hclean, m, hu, hlen, hwritten⟩
  · exact fun h ↦ by cases h

theorem answerAnnouncement_session {t : ServerTrace} (hclean : Clean (streamed t))
    (hwritten : bytesWritten (streamed t) = [])
    (ht : ∀ ev ∈ t, ∃ e, ev.1 = ServerEffect.stream e) :
    (answerAnnouncement a addr).run.Ensures assumes (SessionCalls a addr) (SessionEnds a addr)
      t := by
  have hcall : SessionCalls a addr t (.getPeerEndpoints a addr) := by
    refine sessionCalls_shared hclean (fun _ ↦ ServerEffect.noConfusion) ?_ ?_
    · intro b addr' h
      cases h
      exact ⟨rfl, rfl, ht⟩
    · intro b ipv4 h
      cases h
  refine .call hcall fun m _ ↦ ?_
  have hstreamed : streamed (t ++ [⟨.getPeerEndpoints a addr, m⟩]) = streamed t := by
    rw [streamed_append, show streamed [_] = [] from rfl, List.append_nil]
  rw [← hstreamed] at hclean hwritten
  refine (ensures_try _ _ _).mpr
    ((writeResponse_session hclean hwritten (lookedUp_of_stream ht)).mono fun r u h ↦ ?_)
  cases r with
  | error e => exact sessionEnds_error e u
  | ok _ =>
    obtain ⟨hclean, m, hlooked, hlen, hwritten⟩ := h rfl
    refine .call (sessionCalls_shutdown hclean) fun r _ ↦ ?_
    cases r with
    | error e => exact sessionEnds_error _ _
    | ok _ =>
      refine recordAnnouncement_session ⟨?_, m, hlooked.snoc fun _ _ ↦ ServerEffect.noConfusion,
        hlen, ?_⟩
      · rw [streamed_stream]
        exact clean_snoc.mpr ⟨hclean, trivial⟩
      · rw [streamed_stream, bytesWritten_snoc, hwritten]
        exact List.append_nil _

end Handler

/-- The server keeps to the session, as long as it hears nothing but the client. -/
theorem handleConnection_session (a : WireplugAnnouncement) (addr : SocketAddr) :
    (handleConnection addr).run.Ensures (Hears (announcedText a)) (SessionCalls a addr)
      (SessionEnds a addr) [] := by
  refine (ensures_try _ _ _).mpr ?_
  refine Ensures.embed streamed_stream (I := fun t ↦ ∀ ev ∈ t, ∃ e, ev.1 = ServerEffect.stream e)
    ?_ ?_ ?_ ?_ (readAnnouncement_reads a) (List.forall_mem_nil _)
  · intro t e r ht
    exact List.forall_mem_append.mpr ⟨ht, List.forall_mem_singleton.mpr ⟨e, rfl⟩⟩
  · intro t e r h
    exact h ⟨e, r⟩ (List.mem_singleton_self _)
  · intro t e ht h
    exact sessionCalls_stream h.clean h.reads fun bytes h' ↦ (h.unwritten bytes h').elim
  · intro t r ht h
    cases r with
    | error e => exact sessionEnds_error e t
    | ok o =>
      obtain ⟨rfl, hclean, hwritten⟩ := h o rfl
      dsimp only
      split
      · exact answerAnnouncement_session hclean hwritten ht
      · next hinvalid =>
        refine .call (sessionCalls_shutdown hclean) fun r _ ↦ ?_
        cases r with
        | error e => exact sessionEnds_error _ _
        | ok _ => exact ⟨fun _ hvalid ↦ (hinvalid hvalid).elim⟩

end Wireplug
