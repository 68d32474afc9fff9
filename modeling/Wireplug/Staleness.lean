import Wireplug.Expiry

namespace Wireplug

open Foundation Foundation.Program ByteStream WriteLog

def readingAfter (reading : SystemTime) : ServerLabel → SystemTime
  | .happened (.sweeps now) => now
  | _ => reading

/-- What the last finished sweep read from the clock; `start` if there was none. -/
def lastReading (start : SystemTime) (ls : List ServerLabel) : SystemTime :=
  ls.foldl readingAfter start

/-- Every sweep ends within `d` of the clock reading of the one before, and the
first within `d` of the start. -/
def SweptWithin (d : SystemTime) (time : ℕ → SystemTime) (ls : List ServerLabel) : Prop :=
  ∀ n ≤ ls.length, time n ≤ lastReading (time 0) (ls.take n) + d

variable {c s s' : ServerConfig} {ls : List ServerLabel} {l : ServerLabel}
  {time : ℕ → SystemTime} {d : SystemTime} {key : String × String} {record : Record}

theorem lastReading_snoc (start : SystemTime) (ls : List ServerLabel) (l : ServerLabel) :
    lastReading start (ls ++ [l]) = readingAfter (lastReading start ls) l := by
  rw [lastReading, List.foldl_append]
  rfl

theorem readingAfter_cases (reading : SystemTime) (l : ServerLabel) :
    readingAfter reading l = reading ∨
      ∃ now, l = .happened (.sweeps now) ∧ readingAfter reading l = now := by
  cases l with
  | opened i addr => exact .inl rfl
  | called i e r => exact .inl rfl
  | happened ev =>
    cases ev with
    | tlsError | sweepStarts => exact .inl rfl
    | sweeps now => exact .inr ⟨now, rfl, rfl⟩

theorem le_lastReading {start : SystemTime}
    (h : ∀ now, .happened (.sweeps now) ∈ ls → start ≤ now) : start ≤ lastReading start ls := by
  induction ls using List.reverseRecOn with
  | nil => exact le_refl start
  | append_singleton ls l ih =>
    rw [lastReading_snoc]
    rcases readingAfter_cases (lastReading start ls) l with heq | ⟨now, rfl, heq⟩
    · rw [heq]
      exact ih fun now hmem ↦ h now (List.mem_append_left _ hmem)
    · rw [heq]
      exact h now (List.mem_append_right _ (List.mem_singleton_self _))

theorem sweptWithin_of_le (htime : ∀ n, time n ≤ time 0 + d)
    (h : ∀ now, .happened (.sweeps now) ∈ ls → time 0 ≤ now) : SweptWithin d time ls :=
  fun n _ ↦ (htime n).trans (Int.add_le_add_right
    (le_lastReading fun now hmem ↦ h now (List.mem_of_mem_take hmem)) d)

theorem lastReading_le {storage : Storage} (hmono : Monotone time)
    (h : server.Run (ServerConfig.start storage) ls c) (hclock : Timed time ReadsClock ls) :
    lastReading (time 0) ls ≤ time ls.length := by
  refine h.timed hclock (fun ls _ ↦ lastReading (time 0) ls ≤ time ls.length) (le_refl (time 0))
    fun ls l b b' hrun hclock ih hs ↦ ?_
  have hle : time ls.length ≤ time (ls.length + 1) := hmono (Nat.le_succ _)
  rw [lastReading_snoc, List.length_append, List.length_singleton]
  rcases readingAfter_cases (lastReading (time 0) ls) l with heq | ⟨now, rfl, heq⟩
  · rw [heq]
    exact ih.trans hle
  · rw [heq]
    exact (sweeping_le hmono hrun hclock.left now (sweep_step hs).1).trans hle

/-- A record that is in the store was stored in the run, and had not timed out
when the last finished sweep read the clock. -/
def Stored (time : ℕ → SystemTime) (ls : List ServerLabel) (key : String × String)
    (record : Record) : Prop :=
  lastReading (time 0) ls < record.timestamp + recordTimeout ∧
    ∃ k l, k < ls.length ∧ ls[k]? = some l ∧ Writes l key record

theorem Stored.snoc (h : Stored time ls key record)
    (hfresh : ∀ now, l = .happened (.sweeps now) → fresh now record = true) :
    Stored time (ls ++ [l]) key record := by
  obtain ⟨hlate, k, l', hk, hl', hwrites⟩ := h
  refine ⟨?_, k, l', ?_, ?_, hwrites⟩
  · rw [lastReading_snoc]
    rcases readingAfter_cases (lastReading (time 0) ls) l with heq | ⟨now, hl, heq⟩
    · rw [heq]
      exact hlate
    · rw [heq]
      exact (fresh_iff.mp (hfresh now hl)).2
  · rw [List.length_append]
    omega
  · rw [List.getElem?_append_left hk, hl']

theorem Stored.last (hread : lastReading (time 0) ls ≤ time ls.length)
    (hclock : ReadsClock (time ls.length) (time (ls.length + 1)) l)
    (hwrites : Writes l key record) : Stored time (ls ++ [l]) key record := by
  have hstamp : lastReading (time 0) ls < record.timestamp + recordTimeout :=
    (hread.trans (stamp_of_writes hclock hwrites).1).trans_lt
      (Int.lt_add_of_pos_right _ recordTimeout_pos)
  refine ⟨?_, ls.length, l, by simp, by simp, hwrites⟩
  rw [lastReading_snoc]
  rcases readingAfter_cases (lastReading (time 0) ls) l with heq | ⟨now, rfl, -⟩
  · rw [heq]
    exact hstamp
  · obtain ⟨updates, hop, -⟩ := hwrites
    cases hop

theorem stored_of_record (hmono : Monotone time)
    (h : server.Run (ServerConfig.start .new) ls c) (hclock : Timed time ReadsClock ls) :
    ∀ key record, c.shared.storage.peeringRecords.get? key = some record →
      Stored time ls key record := by
  refine h.timed hclock (fun ls c ↦ ∀ key record,
      c.shared.storage.peeringRecords.get? key = some record → Stored time ls key record)
    (fun key record hrecord ↦ by cases hrecord) fun ls l b b' hrun hclock ih hs key record hget ↦ ?_
  rcases record_after hs hget with hwrites | ⟨hbefore, hfresh⟩
  · exact .last (lastReading_le hmono hrun hclock.left) hclock.step hwrites
  · exact (ih key record hbefore).snoc hfresh

theorem SweptWithin.at (h : SweptWithin d time ls) {before after : List ServerLabel}
    (heq : ls = before ++ after) : time before.length ≤ lastReading (time 0) before + d := by
  subst heq
  have hlen := h before.length (by simp)
  rwa [List.take_left] at hlen

/-- When each sweep ends within `d` of the clock reading of the one before, a lookup gives no
endpoint of a record stored `recordTimeout + d` or more before it. -/
theorem responses_not_stale {before after : List ServerLabel} {i : ℕ} {a : WireplugAnnouncement}
    {addr : SocketAddr} {m : HashMap String WireplugEndpoint} (hmono : Monotone time)
    (h : server.Run (ServerConfig.start .new)
      (before ++ .called i (.getPeerEndpoints a addr) m :: after) c)
    (hclock : Timed time ReadsClock (before ++ .called i (.getPeerEndpoints a addr) m :: after))
    (hswept : SweptWithin d time (before ++ .called i (.getPeerEndpoints a addr) m :: after)) :
    (∀ bytes r, .called i (.stream (.writeAll bytes)) r ∈ after → bytes ∈ responseFrame m) ∧
      ∀ peer endpoint, m.get? peer = some endpoint → endpoint = .unknown ∨
        ∃ k l record, k < before.length ∧ before[k]? = some l ∧
          Writes l (peer, a.initiatorPubkey) record ∧ endpoint = record.endpointFor addr ∧
          time (before.length + 1) < record.timestamp + recordTimeout + d := by
  refine ⟨fun bytes r ↦ mem_responseFrame h, fun peer endpoint hget ↦ ?_⟩
  obtain ⟨s, s', hbefore, hstep, -⟩ := h.split_at
  have hlookup : ServerAnswers s.shared i (.getPeerEndpoints a addr) m s'.shared := by
    cases hstep with
    | called _ h => exact h
  have hpeer : peer ∈ a.peerPubkeys :=
    (mem_keys_lookup hlookup peer).mp (HashMap.mem_keys.mpr ⟨endpoint, hget⟩)
  rw [get?_lookup hlookup, if_pos hpeer, lookupEndpoint] at hget
  cases hrecord : s.shared.storage.peeringRecords.get? (peer, a.initiatorPubkey) with
  | none =>
    rw [hrecord] at hget
    exact .inl (Option.some.inj hget).symm
  | some record =>
    rw [hrecord] at hget
    obtain ⟨hlate, k, l, hk, hl, hwrites⟩ :=
      stored_of_record hmono hbefore hclock.left _ _ hrecord
    refine .inr ⟨k, l, record, hk, hl, hwrites, (Option.some.inj hget).symm, ?_⟩
    have hnext := hswept.at (List.append_cons before _ after)
    rw [List.length_append, List.length_singleton, lastReading_snoc] at hnext
    exact hnext.trans_lt (Int.add_lt_add_right hlate d)

/-- One client is stored, a sweep spares it, and the next client is told of it. -/
theorem responses_not_stale_spared :
    let addr : SocketAddr := .v4 (.new 203 0 113 7) 51820
    ∃ (time : ℕ → SystemTime) (before : List ServerLabel) (m : HashMap String WireplugEndpoint)
      (k : ℕ) (l : ServerLabel) (record : Record),
      time 0 < time before.length ∧ .happened (.sweeps 2) ∈ before ∧
      m.get? (Key.filled 1).toBase64 = some (record.endpointFor addr) ∧ before[k]? = some l ∧
      Writes l ((Key.filled 1).toBase64, (Key.filled 0).toBase64) record ∧
      time (before.length + 1) < record.timestamp + recordTimeout + 3 := by
  intro addr
  let X : Key := .filled 0
  let Y : Key := .filled 1
  let source : Ipv4Addr := .new 203 0 113 5
  obtain ⟨ls, c, hrun, hcalls, hnone, hfree, record, hcarries, hget⟩ := run_spared Y X source 51820
  obtain ⟨u, v, m, c', hfound, hquiet, hm⟩ := run_found hfree hget hcarries addr
  let lookup : ServerLabel := .called 1 (.getPeerEndpoints (bareAnnouncement X Y) addr) m
  have hclock : Timed (clockFrom ls.length) ReadsClock
      (storeThenSweep Y X source ls ++ (.opened 1 addr :: u ++ lookup :: v)) :=
    (timed_storeThenSweep hcalls).append (readsClock_of_calls hquiet)
  have hsweeps : ∀ now, .happened (.sweeps now) ∈ storeThenSweep Y X source ls ++
      (.opened 1 addr :: u ++ lookup :: v) → 0 ≤ now := by
    intro now hmem
    rcases List.mem_append.mp hmem with hmem | hmem
    · exact sweeps_nonneg hnone now hmem
    · rcases List.mem_cons.mp hmem with heq | hmem
      · cases heq
      · exact (no_sweep_of_calls hquiet now hmem).elim
  have hswept : SweptWithin 3 (clockFrom ls.length)
      (storeThenSweep Y X source ls ++ (.opened 1 addr :: u ++ lookup :: v)) := by
    refine sweptWithin_of_le (fun n ↦ ?_) fun now hmem ↦ ?_
    · rw [clockFrom_zero]
      exact clockFrom_le ls.length n
    · rw [clockFrom_zero]
      exact hsweeps now hmem
  have hall := hrun.trans hfound
  rw [← List.append_assoc] at hall hclock hswept
  have hentry := (responses_not_stale (monotone_clockFrom ls.length) hall hclock hswept).2
    Y.toBase64 _ (HashMap.get?_eq_some.mpr (hm ▸ List.mem_singleton_self _))
  rcases hentry with hunknown | ⟨k, l, record, -, hl, hwrites, hendpoint, hlate⟩
  · cases hunknown
  · refine ⟨clockFrom ls.length, _, m, k, l, record, ?_, ?_, ?_, hl, hwrites, hlate⟩
    · rw [clockFrom_zero]
      refine Int.lt_of_lt_of_le (b := clockFrom ls.length (ls.length + 3)) ?_
        (monotone_clockFrom ls.length (by simp))
      rw [clockFrom_add le_rfl]
      decide
    · simp [storeThenSweep]
    · rw [← hendpoint]
      exact HashMap.get?_eq_some.mpr (hm ▸ List.mem_singleton_self _)

end Wireplug
