import Mathlib.Algebra.Order.Ring.Int
import Mathlib.Data.Int.ConditionallyCompleteOrder
import Mathlib.Order.ConditionallyCompleteLattice.Basic
import Wireplug.Foundation.Clock
import Wireplug.Rendezvous

namespace Wireplug

open Foundation Foundation.Program ByteStream WriteLog

def recordTimeout : SystemTime := recordTimeoutSec * 1000000000

theorem recordTimeout_pos : 0 < recordTimeout := by decide

theorem fresh_iff {now : SystemTime} {record : Record} : fresh now record = true ↔
    record.timestamp ≤ now ∧ now < record.timestamp + recordTimeout := by
  rw [fresh, durationSince, recordTimeout]
  by_cases h : record.timestamp ≤ now
  · have hage : 0 ≤ now - record.timestamp := Int.sub_nonneg_of_le h
    simp only [if_pos h, decide_eq_true_eq, and_iff_right h]
    rw [Int.toNat_lt hage, Int.sub_lt_iff, Int.add_comm]
    rfl
  · simp [h]

/-- What a step that lasts from `t` to `t'` reads from the clock. -/
def ReadsClock (t t' : SystemTime) : ServerLabel → Prop
  | .happened (.sweepStarts now) => t ≤ now ∧ now ≤ t'
  | .called _ (.insertRecords b _) now => ∀ k < b.peerPubkeys.length, t ≤ now k ∧ now k ≤ t'
  | _ => True

def Writes (l : ServerLabel) (key : String × String) (record : Record) : Prop :=
  ∃ updates, logOp l = some (.write updates) ∧ lastUpdate updates key = some record

theorem store_of_logOp {l : ServerLabel} {updates : List ((String × String) × Record)}
    (h : logOp l = some (.write updates)) : ∃ i b source now,
      l = .called i (.insertRecords b source) now ∧ updates = announcedRecords b source now := by
  cases l with
  | opened i addr => cases h
  | happened ev => cases ev <;> cases h
  | called i e r =>
    cases e with
    | stream | getPeerEndpoints | incRelaysNeeded => cases h
    | insertRecords b source =>
      cases h
      exact ⟨i, b, source, r, rfl, rfl⟩

theorem sweep_of_logOp {l : ServerLabel} {keep : Record → Bool}
    (h : logOp l = some (.sweep keep)) : ∃ now, l = .happened (.sweeps now) ∧ keep = fresh now := by
  cases l with
  | opened i addr => cases h
  | called i e r => cases e <;> cases h
  | happened ev =>
    cases ev with
    | tlsError | sweepStarts => cases h
    | sweeps now =>
      cases h
      exact ⟨now, rfl, rfl⟩

theorem stamp_of_mem {b : WireplugAnnouncement} {source : Ipv4Addr} {now : ℕ → SystemTime}
    {p : (String × String) × Record} (h : p ∈ announcedRecords b source now) :
    ∃ k < b.peerPubkeys.length, p.2.timestamp = now k := by
  obtain ⟨⟨peer, k⟩, hk, rfl⟩ := List.mem_map.mp h
  obtain ⟨hlt, -⟩ := List.getElem?_eq_some_iff.mp (List.mk_mem_zipIdx_iff_getElem?.mp hk)
  exact ⟨k, hlt, rfl⟩

theorem stamp_of_writes {t t' : SystemTime} {l : ServerLabel} {key : String × String}
    {record : Record} (hclock : ReadsClock t t' l) (h : Writes l key record) :
    t ≤ record.timestamp ∧ record.timestamp ≤ t' := by
  obtain ⟨updates, hop, hlast⟩ := h
  obtain ⟨i, b, source, now, rfl, rfl⟩ := store_of_logOp hop
  obtain ⟨k, hk, hstamp⟩ := stamp_of_mem (mem_of_lastUpdate hlast)
  rw [hstamp]
  exact hclock k hk

variable {s s' c : ServerConfig} {l : ServerLabel} {key : String × String} {record : Record}

theorem record_after (h : server.Step s l s')
    (hrecord : s'.shared.storage.peeringRecords.get? key = some record) :
    Writes l key record ∨ s.shared.storage.peeringRecords.get? key = some record ∧
      ∀ now, l = .happened (.sweeps now) → fresh now record = true := by
  rw [peeringRecords_step h] at hrecord
  cases hop : logOp l with
  | none =>
    rw [hop] at hrecord
    refine .inr ⟨hrecord, fun now heq ↦ ?_⟩
    subst heq
    cases hop
  | some op =>
    rw [hop, Option.toList_some, replay, List.foldl_cons, List.foldl_nil] at hrecord
    cases op with
    | write updates =>
      rw [get?_write, Option.or_eq_some_iff] at hrecord
      rcases hrecord with hlast | ⟨-, hbefore⟩
      · exact .inl ⟨updates, hop, hlast⟩
      · refine .inr ⟨hbefore, fun now heq ↦ ?_⟩
        subst heq
        cases hop
    | sweep keep =>
      rw [get?_sweep, Option.filter_eq_some_iff] at hrecord
      refine .inr ⟨hrecord.1, fun now heq ↦ ?_⟩
      subst heq
      cases hop
      exact hrecord.2

theorem record_before (h : server.Step s l s')
    (hrecord : s.shared.storage.peeringRecords.get? key = some record) :
    s'.shared.storage.peeringRecords.get? key = some record ∧ (∀ r, ¬ Writes l key r) ∨
      (∃ record', Writes l key record' ∧
        s'.shared.storage.peeringRecords.get? key = some record') ∨
      ∃ now, l = .happened (.sweeps now) ∧ fresh now record = false ∧
        s'.shared.storage.peeringRecords.get? key = none := by
  rw [peeringRecords_step h]
  cases hop : logOp l with
  | none =>
    refine .inl ⟨hrecord, fun r hw ↦ ?_⟩
    obtain ⟨updates, hop', -⟩ := hw
    cases hop.symm.trans hop'
  | some op =>
    rw [Option.toList_some, replay, List.foldl_cons, List.foldl_nil]
    cases op with
    | write updates =>
      rw [get?_write, hrecord]
      cases hlast : lastUpdate updates key with
      | none =>
        refine .inl ⟨rfl, fun r hw ↦ ?_⟩
        obtain ⟨updates', hop', hlast'⟩ := hw
        cases hop.symm.trans hop'
        cases hlast.symm.trans hlast'
      | some record' => exact .inr (.inl ⟨record', ⟨updates, hop, hlast⟩, rfl⟩)
    | sweep keep =>
      obtain ⟨now, rfl, rfl⟩ := sweep_of_logOp hop
      rw [get?_sweep, hrecord, Option.filter_some]
      cases hfresh : fresh now record with
      | true =>
        refine .inl ⟨if_pos rfl, fun r hw ↦ ?_⟩
        obtain ⟨updates, hop', -⟩ := hw
        cases hop'
      | false => exact .inr (.inr ⟨now, rfl, hfresh, if_neg Bool.false_ne_true⟩)

/-- A sweep at the instant `t` takes `before` to `after` and removes only records
that have timed out by then. -/
def RemovesOnlyOld (t : SystemTime) (before after : Storage) : Prop :=
  ∀ key record, before.peeringRecords.get? key = some record →
    after.peeringRecords.get? key = none → record.timestamp + recordTimeout ≤ t

/-- No record is stamped after `now`, when the clock was read, and has not timed
out at `t`, when the sweep takes place. -/
def NoneAhead (now t : SystemTime) (storage : Storage) : Prop :=
  ∀ key record, storage.peeringRecords.get? key = some record →
    record.timestamp ≤ now ∨ record.timestamp + recordTimeout ≤ t

theorem sweeping_le {time : ℕ → SystemTime} {storage : Storage} {ls : List ServerLabel}
    (hmono : Monotone time) (h : server.Run (ServerConfig.start storage) ls c)
    (hclock : Timed time ReadsClock ls) :
    ∀ now, c.shared.sweeping = some now → now ≤ time ls.length := by
  refine h.timed hclock (fun ls c ↦ ∀ now, c.shared.sweeping = some now → now ≤ time ls.length)
    (fun now h ↦ by cases h) fun ls l b b' _ hclock ih hs now hnow ↦ ?_
  have hle : time ls.length ≤ time (ls.length + 1) := hmono (Nat.le_succ _)
  rw [List.length_append, List.length_singleton]
  cases hs with
  | opened => exact (ih now hnow).trans hle
  | called _ ha => cases ha <;> exact (ih now hnow).trans hle
  | happened hb =>
    cases hb with
    | tlsError => exact (ih now hnow).trans hle
    | sweepStarts =>
      cases hnow
      exact hclock.step.2
    | sweeps => cases hnow

theorem sweep_step {now : SystemTime} (h : server.Step s (.happened (.sweeps now)) s') :
    s.shared.sweeping = some now ∧ ∀ key, s'.shared.storage.peeringRecords.get? key =
      (s.shared.storage.peeringRecords.get? key).filter (fresh now) := by
  cases h with
  | happened hb =>
    cases hb with
    | sweeps _ hnow => exact ⟨hnow, fun key ↦ get?_sweep (fresh now) _ key⟩

theorem removesOnlyOld_iff {now t : SystemTime} (h : server.Step s (.happened (.sweeps now)) s')
    (ht : now ≤ t) : RemovesOnlyOld t s.shared.storage s'.shared.storage ↔
      NoneAhead now t s.shared.storage := by
  obtain ⟨-, hget⟩ := sweep_step h
  have hremoved {key : String × String} {record : Record}
      (hrecord : s.shared.storage.peeringRecords.get? key = some record) :
      s'.shared.storage.peeringRecords.get? key = none ↔ ¬ (record.timestamp ≤ now ∧
        now < record.timestamp + recordTimeout) := by
    rw [hget, hrecord, Option.filter_some, ← fresh_iff]
    cases fresh now record <;> simp
  refine forall₃_congr fun key record hrecord ↦ ?_
  rw [hremoved hrecord, not_and, Int.not_lt]
  constructor
  · intro hold
    by_cases hstamp : record.timestamp ≤ now
    · exact .inl hstamp
    · exact .inr (hold fun h ↦ (hstamp h).elim)
  · intro hahead hexpired
    exact hahead.elim (fun hstamp ↦ (hexpired hstamp).trans ht) id

/-- Each sweep of the run finds no record ahead of its clock reading. -/
def SweepsInOrder (time : ℕ → SystemTime) (start : ServerConfig) (ls : List ServerLabel) : Prop :=
  ∀ before now after s, ls = before ++ .happened (.sweeps now) :: after →
    server.Run start before s → NoneAhead now (time before.length) s.shared.storage

/-- From step `first` on there is at every time a record at `key` that was stored
in the run and has not timed out. -/
def KeepsAnnouncing (time : ℕ → SystemTime) (ls : List ServerLabel) (key : String × String)
    (first : ℕ) : Prop :=
  first < ls.length ∧ ∀ n, first < n → n ≤ ls.length → ∃ k l record, first ≤ k ∧ k < n ∧
    ls[k]? = some l ∧ Writes l key record ∧ time n < record.timestamp + recordTimeout

theorem SweepsInOrder.left {time : ℕ → SystemTime} {start : ServerConfig}
    {ls ms : List ServerLabel} (h : SweepsInOrder time start (ls ++ ms)) :
    SweepsInOrder time start ls := by
  intro before now after s heq hrun
  refine h before now (after ++ ms) s ?_ hrun
  rw [heq, List.append_assoc, List.cons_append]

theorem KeepsAnnouncing.left {time : ℕ → SystemTime} {ls : List ServerLabel} {first : ℕ}
    (h : KeepsAnnouncing time (ls ++ [l]) key first) (hfirst : first < ls.length) :
    KeepsAnnouncing time ls key first := by
  refine ⟨hfirst, fun n hn hlen ↦ ?_⟩
  obtain ⟨k, l', record, hk, hkn, hl', hwrites⟩ := h.2 n hn (by simp; omega)
  rw [List.getElem?_append_left (by omega)] at hl'
  exact ⟨k, l', record, hk, hkn, hl', hwrites⟩

theorem writes_unique {record' : Record} (h : Writes l key record) (h' : Writes l key record') :
    record = record' := by
  obtain ⟨updates, hop, hlast⟩ := h
  obtain ⟨updates', hop', hlast'⟩ := h'
  cases hop.symm.trans hop'
  exact Option.some.inj (hlast.symm.trans hlast')

theorem record_of_writes (h : server.Step s l s') (hwrites : Writes l key record) :
    s'.shared.storage.peeringRecords.get? key = some record := by
  obtain ⟨updates, hop, hlast⟩ := hwrites
  rw [peeringRecords_step h, hop, Option.toList_some, replay, List.foldl_cons, List.foldl_nil,
    get?_write, hlast, Option.some_or]

theorem stamp_le {time : ℕ → SystemTime} {ls : List ServerLabel} {k n : ℕ}
    (hmono : Monotone time) (hclock : Timed time ReadsClock ls) (hl : ls[k]? = some l)
    (hwrites : Writes l key record) (hk : k < n) : record.timestamp ≤ time n :=
  (stamp_of_writes (hclock k l hl) hwrites).2.trans (hmono hk)

def Remembers (c : ServerConfig) (ls : List ServerLabel) (key : String × String) (first : ℕ) :
    Prop :=
  ∃ record, c.shared.storage.peeringRecords.get? key = some record ∧
    ∀ k l record', first ≤ k → ls[k]? = some l → Writes l key record' →
      record'.timestamp ≤ record.timestamp

theorem announced_stays {time : ℕ → SystemTime} {storage : Storage} {ls : List ServerLabel}
    {first : ℕ} (hmono : Monotone time) (h : server.Run (ServerConfig.start storage) ls c)
    (hclock : Timed time ReadsClock ls) :
    SweepsInOrder time (ServerConfig.start storage) ls → KeepsAnnouncing time ls key first →
      Remembers c ls key first := by
  refine h.timed hclock (fun ls c ↦ SweepsInOrder time (ServerConfig.start storage) ls →
      KeepsAnnouncing time ls key first → Remembers c ls key first)
    (fun _ hkeeps ↦ absurd hkeeps.1 (Nat.not_lt_zero _))
    fun ls l b b' hrun hclock ih hs hsweeps hkeeps ↦ ?_
  rcases Nat.lt_or_ge first ls.length with hfirst | hfirst
  · have hkeeps' := hkeeps.left hfirst
    obtain ⟨record, hrecord, hnewest⟩ := ih hsweeps.left hkeeps'
    rcases record_before hs hrecord with ⟨hstays, hquiet⟩ | ⟨record', hwrites, hreplaced⟩ |
      ⟨now, rfl, hstale, -⟩
    · refine ⟨record, hstays, fun k l' r hk hl' hw ↦ ?_⟩
      rcases getElem?_snoc hl' with ⟨hl', -⟩ | ⟨rfl, rfl⟩
      · exact hnewest k l' r hk hl' hw
      · exact (hquiet r hw).elim
    · refine ⟨record', hreplaced, fun k l' r hk hl' hw ↦ ?_⟩
      rcases getElem?_snoc hl' with ⟨hl', hlt⟩ | ⟨rfl, rfl⟩
      · exact (stamp_le hmono hclock.left hl' hw hlt).trans
          (stamp_of_writes hclock.step hwrites).1
      · exact le_of_eq (congrArg Record.timestamp (writes_unique hw hwrites))
    · -- a sweep that finds nothing ahead removes only what has timed out
      exfalso
      obtain ⟨k, l', r, hk, -, hl', hw, hlate⟩ := hkeeps'.2 ls.length hfirst (Nat.le_refl _)
      have hfresh : time ls.length < record.timestamp + recordTimeout :=
        hlate.trans_le (Int.add_le_add_right (hnewest k l' r hk hl' hw) _)
      have hread := sweeping_le hmono hrun hclock.left now (sweep_step hs).1
      rw [← Bool.not_eq_true, fresh_iff] at hstale
      rcases hsweeps ls now [] b rfl hrun key record hrecord with hstamp | hexpired
      · exact hstale ⟨hstamp, hread.trans_lt hfresh⟩
      · exact hfresh.not_ge hexpired
  · have hlast : first = ls.length := by
      have hlt := hkeeps.1
      rw [List.length_append, List.length_singleton] at hlt
      omega
    subst hlast
    obtain ⟨k, l', r, hk, hlt, hl', hwrites, -⟩ :=
      hkeeps.2 (ls.length + 1) (Nat.lt_succ_self _) (by simp)
    rcases getElem?_snoc hl' with ⟨-, hlt'⟩ | ⟨-, rfl⟩
    · exact absurd hk (Nat.not_le.mpr hlt')
    · refine ⟨r, record_of_writes hs hwrites, fun k l'' r' hk hl'' hw ↦ ?_⟩
      rcases getElem?_snoc hl'' with ⟨-, hlt'⟩ | ⟨-, rfl⟩
      · exact absurd hk (Nat.not_le.mpr hlt')
      · exact le_of_eq (congrArg Record.timestamp (writes_unique hw hwrites))

/-- A sweep removes a record that has not timed out exactly if one was stamped
after the sweep had read the clock. In a run without such sweeps a peer that
keeps announcing another stays known. -/
theorem sweeps_remove_only_old {time : ℕ → SystemTime} {storage : Storage}
    {ls : List ServerLabel} (hmono : Monotone time)
    (h : server.Run (ServerConfig.start storage) ls c) (hclock : Timed time ReadsClock ls) :
    (∀ before now after s s', ls = before ++ .happened (.sweeps now) :: after →
        server.Run (ServerConfig.start storage) before s →
        server.Step s (.happened (.sweeps now)) s' →
        (RemovesOnlyOld (time before.length) s.shared.storage s'.shared.storage ↔
          NoneAhead now (time before.length) s.shared.storage)) ∧
      (SweepsInOrder time (ServerConfig.start storage) ls → ∀ initiator peer first,
        KeepsAnnouncing time ls (initiator, peer) first → Knows c initiator peer) := by
  refine ⟨fun before now after s s' heq hrun hs ↦ removesOnlyOld_iff hs ?_,
    fun hsweeps initiator peer first hkeeps ↦ ?_⟩
  · subst heq
    exact sweeping_le hmono hrun hclock.left now (sweep_step hs).1
  · obtain ⟨record, hrecord, -⟩ := announced_stays hmono h hclock hsweeps hkeeps
    rw [Knows, hrecord, Option.isSome_some]

theorem readsClock_of_call {i : ℕ} {t t' : SystemTime}
    (h : ∃ e r, l = .called i e r ∧ ∀ a source, e ≠ .insertRecords a source) :
    ReadsClock t t' l := by
  obtain ⟨e, r, rfl, he⟩ := h
  cases e with
  | insertRecords a source => exact (he a source rfl).elim
  | stream | getPeerEndpoints | incRelaysNeeded => trivial

theorem readsClock_of_calls {i : ℕ} {addr : SocketAddr} {ls : List ServerLabel}
    (h : ∀ l ∈ ls, ∃ e r, l = .called i e r ∧ ∀ a source, e ≠ .insertRecords a source) :
    ∀ l ∈ .opened i addr :: ls, ∀ t t', ReadsClock t t' l := by
  intro l hl t t'
  rcases List.mem_cons.mp hl with rfl | hl
  · trivial
  · exact readsClock_of_call (h l hl)

theorem writes_of_store {b : WireplugAnnouncement} {peer : String} (hpeer : peer ∈ b.peerPubkeys)
    (i : ℕ) (source : Ipv4Addr) (t : SystemTime) : ∃ record, record.timestamp = t ∧
      Writes (.called i (.insertRecords b source) fun _ ↦ t) (b.initiatorPubkey, peer) record := by
  obtain ⟨record, hlast⟩ := Option.isSome_iff_exists.mp
    ((@lastUpdate_announced_isSome b source (fun _ ↦ t) _ _).mpr ⟨rfl, hpeer⟩)
  obtain ⟨k, -, hstamp⟩ := stamp_of_mem (mem_of_lastUpdate hlast)
  exact ⟨record, hstamp, _, rfl, hlast⟩

theorem record_stamp_le {time : ℕ → SystemTime} {ls : List ServerLabel} (hmono : Monotone time)
    (h : server.Run (ServerConfig.start .new) ls c) (hclock : Timed time ReadsClock ls) :
    ∀ key record, c.shared.storage.peeringRecords.get? key = some record →
      record.timestamp ≤ time ls.length := by
  refine h.timed hclock (fun ls c ↦ ∀ key record,
      c.shared.storage.peeringRecords.get? key = some record → record.timestamp ≤ time ls.length)
    (fun key record hrecord ↦ by cases hrecord) fun ls l b b' _ hclock ih hs key record hget ↦ ?_
  rw [List.length_append, List.length_singleton]
  rcases record_after hs hget with hwrites | ⟨hbefore, -⟩
  · exact (stamp_of_writes hclock.step hwrites).2
  · exact (ih key record hbefore).trans (hmono (Nat.le_succ _))

theorem sweepsInOrder_of_present {time : ℕ → SystemTime} {ls : List ServerLabel}
    (hmono : Monotone time) (hclock : Timed time ReadsClock ls)
    (h : ∀ n now, ls[n]? = some (.happened (.sweeps now)) → time n ≤ now) :
    SweepsInOrder time (ServerConfig.start .new) ls := by
  intro before now after s heq hrun key record hget
  subst heq
  exact .inl ((record_stamp_le hmono hrun hclock.left key record hget).trans
    (h before.length now (by simp)))

def clockFrom (k n : ℕ) : SystemTime := (min (n - k) 3 : ℕ)

theorem monotone_clockFrom (k : ℕ) : Monotone (clockFrom k) :=
  fun _ _ h ↦ Int.ofNat_le.mpr (min_le_min_right 3 (Nat.sub_le_sub_right h k))

theorem clockFrom_add {m : ℕ} (hm : m ≤ 3) (k : ℕ) : clockFrom k (k + m) = m := by
  rw [clockFrom, Nat.add_sub_cancel_left, Nat.min_eq_left hm]

theorem clockFrom_zero (k : ℕ) : clockFrom k 0 = 0 := by simp [clockFrom]

theorem clockFrom_le (k n : ℕ) : clockFrom k n ≤ 3 := Int.ofNat_le.mpr (Nat.min_le_right _ 3)

def storeThenSweep (X Y : Key) (source : Ipv4Addr) (ls : List ServerLabel) : List ServerLabel :=
  ls ++ [.called 0 (.insertRecords (bareAnnouncement X Y) source) fun _ ↦ 1] ++
    [.happened (.sweepStarts 2)] ++ [.happened (.sweeps 2)]

@[simp] theorem length_storeThenSweep (X Y : Key) (source : Ipv4Addr) (ls : List ServerLabel) :
    (storeThenSweep X Y source ls).length = ls.length + 3 := by
  simp [storeThenSweep]

theorem timed_storeThenSweep {X Y : Key} {source : Ipv4Addr} {ls : List ServerLabel}
    (h : Timed (clockFrom ls.length) ReadsClock ls) :
    Timed (clockFrom ls.length) ReadsClock (storeThenSweep X Y source ls) := by
  have hstored : ReadsClock (clockFrom ls.length ls.length) (clockFrom ls.length (ls.length + 1))
      (.called 0 (.insertRecords (bareAnnouncement X Y) source) fun _ ↦ 1) := by
    intro k _
    simp [clockFrom]
  have hstarts : ReadsClock (clockFrom ls.length (ls.length + 1))
      (clockFrom ls.length (ls.length + 2)) (.happened (.sweepStarts 2)) := by
    rw [ReadsClock, clockFrom_add (by decide), clockFrom_add (by decide)]
    decide
  refine ((h.snoc hstored).snoc ?_).snoc trivial
  rw [List.length_append, List.length_singleton]
  exact hstarts

theorem sweep_storeThenSweep {X Y : Key} {source : Ipv4Addr} {ls : List ServerLabel} {n : ℕ}
    {now : SystemTime} (h : ∀ now, .happened (.sweeps now) ∉ ls)
    (hn : (storeThenSweep X Y source ls)[n]? = some (.happened (.sweeps now))) :
    n = ls.length + 2 ∧ now = 2 := by
  rcases getElem?_snoc hn with ⟨hn, -⟩ | ⟨rfl, hnow⟩
  · rcases getElem?_snoc hn with ⟨hn, -⟩ | ⟨-, hl⟩
    · rcases getElem?_snoc hn with ⟨hn, -⟩ | ⟨-, hl⟩
      · exact (h now (List.mem_of_getElem? hn)).elim
      · cases hl
    · cases hl
  · cases hnow
    simp

theorem sweeps_nonneg {X Y : Key} {source : Ipv4Addr} {ls : List ServerLabel}
    (h : ∀ now, .happened (.sweeps now) ∉ ls) (now : SystemTime)
    (hmem : .happened (.sweeps now) ∈ storeThenSweep X Y source ls) : 0 ≤ now := by
  obtain ⟨n, hn⟩ := List.mem_iff_getElem?.mp hmem
  obtain ⟨-, rfl⟩ := sweep_storeThenSweep h hn
  decide

theorem run_spared (X Y : Key) (source : Ipv4Addr) (port : UInt16) : ∃ ls c,
    server.Run (ServerConfig.start .new) (storeThenSweep X Y source ls) c ∧
      Timed (clockFrom ls.length) ReadsClock ls ∧ (∀ now, .happened (.sweeps now) ∉ ls) ∧
      c.threads 1 = none ∧ ∃ record, record.Carries (bareAnnouncement X Y) source ∧
        c.shared.storage.peeringRecords.get? (X.toBase64, Y.toBase64) = some record := by
  obtain ⟨ls, c₁, hrun, hcalls, -, hthread, hother, hshared⟩ :=
    @run_to_store (ServerConfig.start .new) 0 rfl rfl X Y source port
  obtain ⟨c₂, hstore, -, hother₂, hshared₂⟩ := run_store hthread fun _ ↦ 1
  have hidle : c₂.shared.sweeping = none := by
    rw [hshared₂, hshared]
    rfl
  have hstarts : server.Step c₂ (.happened (.sweepStarts 2))
      ⟨{ c₂.shared with sweeping := some 2 }, c₂.threads⟩ :=
    .happened (ServerHappens.sweepStarts _ hidle 2)
  have hsweep : server.Step ⟨{ c₂.shared with sweeping := some 2 }, c₂.threads⟩
      (.happened (.sweeps 2)) ⟨_, c₂.threads⟩ :=
    .happened (ServerHappens.sweeps _ 2 rfl)
  obtain ⟨written, hstamp, hwrites⟩ := writes_of_store (mem_peerPubkeys_bare X Y) 0 source 1
  obtain ⟨record, hrecord, hcarries⟩ := get?_insertRecords (mem_peerPubkeys_bare X Y)
    c₁.shared.storage source fun _ ↦ 1
  have hget : c₂.shared.storage.peeringRecords.get? (X.toBase64, Y.toBase64) = some record := by
    rw [hshared₂]
    exact hrecord
  obtain rfl : record = written := Option.some.inj (hget.symm.trans (record_of_writes hstore hwrites))
  refine ⟨_, _, ((hrun.snoc hstore).snoc hstarts).snoc hsweep,
    timed_of_forall (readsClock_of_calls hcalls),
    fun now hmem ↦ ?_, (hother₂ 1 (by decide)).trans (hother 1 (by decide)), record, hcarries, ?_⟩
  · rcases List.mem_cons.mp hmem with heq | hmem
    · cases heq
    · exact no_sweep_of_calls hcalls now hmem
  · rw [(sweep_step hsweep).2, hget, Option.filter_some]
    have hfresh : fresh 2 record = true := by
      rw [fresh_iff, hstamp]
      decide
    exact if_pos hfresh

theorem sweeps_remove_only_old_spared :
    ∃ (time : ℕ → SystemTime) (before : List ServerLabel) (s s' : ServerConfig),
      time 0 < time before.length ∧ server.Run (ServerConfig.start .new) before s ∧
      server.Step s (.happened (.sweeps 2)) s' ∧
      RemovesOnlyOld (time before.length) s.shared.storage s'.shared.storage ∧
      Knows s' (Key.filled 0).toBase64 (Key.filled 1).toBase64 := by
  obtain ⟨ls, c, hrun, hcalls, hnone, -, -⟩ :=
    run_spared (.filled 0) (.filled 1) (.new 203 0 113 5) 51820
  have hmono := monotone_clockFrom ls.length
  have hclock : Timed (clockFrom ls.length) ReadsClock
      (storeThenSweep (.filled 0) (.filled 1) (.new 203 0 113 5) ls) := timed_storeThenSweep hcalls
  have hpresent : SweepsInOrder (clockFrom ls.length) (ServerConfig.start .new)
      (storeThenSweep (.filled 0) (.filled 1) (.new 203 0 113 5) ls) := by
    refine sweepsInOrder_of_present hmono hclock fun n now hn ↦ ?_
    obtain ⟨rfl, rfl⟩ := sweep_storeThenSweep hnone hn
    exact Int.le_of_eq (clockFrom_add (by decide) ls.length)
  obtain ⟨hiff, hknows⟩ := sweeps_remove_only_old hmono hrun hclock
  obtain ⟨s, hbefore, hstep⟩ := hrun.last
  obtain ⟨record, hstamp, hwrites⟩ := writes_of_store
    (mem_peerPubkeys_bare (.filled 0) (.filled 1)) 0 (.new 203 0 113 5) 1
  refine ⟨clockFrom ls.length, _, s, c, ?_, hbefore, hstep,
    (hiff _ _ [] s c rfl hbefore hstep).mpr (hpresent _ _ _ s rfl hbefore),
    hknows hpresent _ _ ls.length ⟨by simp, fun n hn hlen ↦ ?_⟩⟩
  · simp [clockFrom]
  · refine ⟨ls.length, _, record, Nat.le_refl _, hn, by simp [storeThenSweep], hwrites, ?_⟩
    rw [hstamp]
    exact (clockFrom_le ls.length n).trans_lt (by decide)

/-- The announcement is stored, with the time of the store, while a sweep that
has read the clock before waits for the lock. -/
theorem run_swept (X Y : Key) (source : Ipv4Addr) (port : UInt16) :
    ∃ time ls s s' record, Monotone time ∧
      Timed time ReadsClock (ls ++ [.happened (.sweeps 0)]) ∧
      server.Run (ServerConfig.start .new) ls s ∧ server.Step s (.happened (.sweeps 0)) s' ∧
      s.shared.storage.peeringRecords.get? (X.toBase64, Y.toBase64) = some record ∧
      record.timestamp = time ls.length ∧
      s'.shared.storage.peeringRecords.get? (X.toBase64, Y.toBase64) = none := by
  obtain ⟨ls, c₁, hrun, hcalls, -, hthread, -, hshared⟩ :=
    @run_to_store (ServerConfig.start .new) 0 rfl rfl X Y source port
  have hidle : c₁.shared.sweeping = none := by
    rw [hshared]
    rfl
  have hstarts : server.Step c₁ (.happened (.sweepStarts 0))
      ⟨{ c₁.shared with sweeping := some 0 }, c₁.threads⟩ :=
    .happened (ServerHappens.sweepStarts _ hidle 0)
  obtain ⟨c₃, hstore, -, -, hshared₃⟩ :=
    @run_store ⟨{ c₁.shared with sweeping := some 0 }, c₁.threads⟩ 0 X Y source port hthread
      fun _ ↦ 1
  have hwaits : c₃.shared.sweeping = some 0 := by rw [hshared₃]
  have hsweep : server.Step c₃ (.happened (.sweeps 0)) ⟨_, c₃.threads⟩ :=
    .happened (ServerHappens.sweeps c₃.shared 0 hwaits)
  obtain ⟨record, hstamp, hwrites⟩ := writes_of_store (mem_peerPubkeys_bare X Y) 0 source 1
  have hrecord : c₃.shared.storage.peeringRecords.get? (X.toBase64, Y.toBase64) = some record :=
    record_of_writes hstore hwrites
  let time (n : ℕ) : SystemTime := if n ≤ ls.length + 1 then 0 else 1
  have hmono : Monotone time := by
    intro n n' hn
    by_cases h : n' ≤ ls.length + 1
    · simp [time, h, hn.trans h]
    · by_cases h' : n ≤ ls.length + 1 <;> simp [time, h, h']
  have hread : ReadsClock (time (ls.length + 1)) (time (ls.length + 2))
      (.happened (.sweepStarts 0)) := by
    simp [ReadsClock, time]
  have hstored {n : ℕ} (hn : ls.length + 1 < n) : ReadsClock (time n) (time (n + 1))
      (.called 0 (.insertRecords (bareAnnouncement X Y) source) fun _ ↦ 1) := by
    have hn' : ¬ n ≤ ls.length := by omega
    simp [ReadsClock, time, Nat.not_le.mpr hn, hn']
  refine ⟨time, _, c₃, _, record, hmono, ?_, (hrun.snoc hstarts).snoc hstore, hsweep, hrecord,
    ?_, ?_⟩
  · exact (((timed_of_forall (readsClock_of_calls hcalls)).snoc hread).snoc
      (hstored (by simp))).snoc trivial
  · rw [hstamp]
    simp [time]
  · rw [(sweep_step hsweep).2, hrecord, Option.filter_some]
    have hstale : ¬ fresh 0 record = true := by
      rw [fresh_iff, hstamp]
      decide
    exact if_neg hstale

/-- A record is swept away at the very time at which it was stored. -/
theorem fresh_record_swept :
    ∃ time ls s s', Monotone time ∧ Timed time ReadsClock (ls ++ [.happened (.sweeps 0)]) ∧
      server.Run (ServerConfig.start .new) ls s ∧ server.Step s (.happened (.sweeps 0)) s' ∧
      ¬ RemovesOnlyOld (time ls.length) s.shared.storage s'.shared.storage ∧
      Knows s (Key.filled 0).toBase64 (Key.filled 1).toBase64 ∧
      ¬ Knows s' (Key.filled 0).toBase64 (Key.filled 1).toBase64 := by
  obtain ⟨time, ls, s, s', record, hmono, hclock, hrun, hstep, hrecord, hstamp, hnone⟩ :=
    run_swept (.filled 0) (.filled 1) (.new 203 0 113 5) 51820
  refine ⟨time, ls, s, s', hmono, hclock, hrun, hstep, fun hold ↦ ?_, ?_, ?_⟩
  · have hexpired := hold _ record hrecord hnone
    rw [hstamp] at hexpired
    exact (Int.lt_add_of_pos_right (time ls.length) recordTimeout_pos).not_ge hexpired
  · rw [Knows, hrecord, Option.isSome_some]
  · rw [Knows, hnone]
    exact Bool.false_ne_true

end Wireplug
