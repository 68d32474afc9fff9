import Wireplug.ConnectionFrame
import Wireplug.Expiry
import Wireplug.TaskRefinement

namespace Wireplug

open Foundation Foundation.Program ByteStream WriteLog

abbrev TaskTrace := Trace TaskEffect.Answer

variable {debugNet : IpNet → String} {storage : Storage} {rounds : ℕ} {monitor : Option ℕ}
  {ls before after : List TaskLabel} {c : TaskConfig} {s s' : ServerState} {i : ℕ}
  {e : TaskEffect} {r : e.Answer} {t : TaskTrace}

/-- The sweeper sleeps as well. -/
def Looks (e : TaskEffect) : Prop := Watches e ∧ ∀ secs, e ≠ .sleep secs

theorem serveConnection_only (addr : SocketAddr) :
    (serveConnection addr).run.Only (fun e ↦ ¬ Looks e) fun _ ↦ True := by
  rw [serveConnection_eq]
  refine ⟨fun h ↦ h.1, fun r ↦ ?_⟩
  cases r with
  | error e => exact ⟨fun h ↦ h.1, fun _ ↦ trivial⟩
  | ok _ =>
    refine (only_embed _ _ _).mono (fun e he hlooks ↦ ?_) fun _ _ ↦ trivial
    obtain ⟨e, rfl⟩ := he
    exact hlooks.1

theorem sweeper_only (rounds : ℕ) :
    (sweeper rounds).run.Only (fun e ↦ ¬ Looks e) fun _ ↦ True := by
  induction rounds with
  | zero => trivial
  | succ rounds ih =>
    rw [sweeper_succ]
    exact ⟨fun h ↦ h.1, fun _ ↦ ⟨fun h ↦ h.1, fun _ ↦ ⟨fun h ↦ h.2 60 rfl, fun _ ↦ ih⟩⟩⟩

theorem path_of_looks (h : tasks.Run (TaskConfig.start debugNet storage rounds monitor)
      (before ++ .called i e r :: after) c) (he : Looks e) :
    i = 1 ∧ ∃ n k, monitor = some n ∧
      (statusWriter debugNet n true).run.Path (System.calls 1 before) (.call e k) := by
  obtain ⟨b, b', hrun, hstep, -⟩ := h.split_at
  obtain ⟨k, hk⟩ : ∃ k, b.threads i = some (.call e k) := by
    cases hstep with
    | called hi _ => exact ⟨_, hi⟩
  rcases hrun.path i with ⟨hnone, -⟩ | ⟨p, q, hq, hpath, hstart⟩
  · rw [hk] at hnone
    cases hnone
  · rw [hk] at hq
    cases hq
    rcases hstart with hstart | ⟨-, addr, -, rfl⟩
    · match i with
      | 0 =>
        cases hstart
        exact (((sweeper_only rounds).at_path hpath).1 he).elim
      | 1 =>
        obtain ⟨n, hn, rfl⟩ := Option.map_eq_some_iff.mp hstart
        exact ⟨rfl, n, k, hn, hpath⟩
      | i + 2 => cases hstart
    · exact (((serveConnection_only addr).at_path hpath).1 he).elim

theorem writer_path {n : ℕ}
    (h : tasks.Run (TaskConfig.start debugNet storage rounds (some n)) ls c) :
    ∃ q, c.threads 1 = some q ∧
      (statusWriter debugNet n true).run.Path (System.calls 1 ls) q := by
  rcases h.path 1 with ⟨-, hnone, -⟩ | ⟨p, q, hq, hpath, hstart | ⟨hnone, -⟩⟩
  · cases hnone
  · cases hstart
    exact ⟨q, hq, hpath⟩
  · cases hnone

theorem sendStatus_eq (text : String) (prevOk : Bool) : (sendStatus text prevOk).run =
    .call .connectMonSock fun
      | .ok _ => .call (.writeMonSock text) fun
        | .ok _ => .done (.ok true)
        | .error e => .call (.warn (.monitoringSocket e)) fun _ ↦ .done (.ok prevOk)
      | .error e => if prevOk then .call (.warn (.failedToOpen e)) fun _ ↦ .done (.ok false)
        else .done (.ok false) := by
  refine congrArg (Program.call _) (funext fun r ↦ ?_)
  cases r with
  | error e => cases prevOk <;> rfl
  | ok _ => exact congrArg (Program.call _) (funext fun r ↦ by cases r <;> rfl)

def showStatus (peers : String) (rm : RelayManager) (stats : ServerStats) (prevOk : Bool) :
    ServerTask Bool := do
  let prevOk ← sendStatus (clearScreen ++ statusBody peers rm stats) prevOk
  await (.sleep 3)
  pure prevOk

theorem statusRound_eq (prevOk : Bool) : (statusRound debugNet prevOk).run =
    .call .readStorage fun looked ↦ match writeRecords debugNet looked.1 looked.2 with
      | .error e => .done (.error e)
      | .ok peers => .call .readRelays fun rm ↦ .call .readStats fun stats ↦
        (showStatus peers rm stats prevOk).run := by
  refine congrArg (Program.call _) (funext fun looked ↦ ?_)
  change (ExceptT.bindCont _ (writeRecords debugNet looked.1 looked.2) : Program _ _) = _
  cases writeRecords debugNet looked.1 looked.2 <;> rfl

def Outputs (text : String) (e : TaskEffect) : Prop :=
  e ≠ .readStorage ∧ ∀ text', e = .writeMonSock text' → text' = text

theorem showStatus_only (peers : String) (rm : RelayManager) (stats : ServerStats)
    (prevOk : Bool) : (showStatus peers rm stats prevOk).run.Only
      (Outputs (clearScreen ++ statusBody peers rm stats)) (Ends (fun _ ↦ True) fun _ ↦ False) := by
  have hsleep : (await (.sleep 3)).run.Only (Outputs (clearScreen ++ statusBody peers rm stats))
      (Ends (fun _ ↦ True) fun (_ : ServerError) ↦ False) :=
    only_await ⟨by simp, fun _ h ↦ by cases h⟩
  refine Only.try ?_ fun prevOk (_ : True) ↦ hsleep.try fun _ _ ↦ trivial
  rw [sendStatus_eq]
  refine ⟨⟨by simp, fun _ h ↦ by cases h⟩, fun r ↦ ?_⟩
  cases r with
  | error e =>
    cases prevOk with
    | false => trivial
    | true => exact ⟨⟨by simp, fun _ h ↦ by cases h⟩, fun _ ↦ trivial⟩
  | ok _ =>
    refine ⟨⟨by simp, fun _ h ↦ by cases h; rfl⟩, fun r ↦ ?_⟩
    cases r with
    | error e => exact ⟨⟨by simp, fun _ h ↦ by cases h⟩, fun _ ↦ trivial⟩
    | ok _ => trivial

theorem statusWriter_ensures {assumes : TaskTrace → (e : TaskEffect) → e.Answer → Prop}
    {requires : TaskTrace → TaskEffect → Prop} {I : Bool → TaskTrace → Prop}
    {post : Except ServerError Unit → TaskTrace → Prop}
    (hround : ∀ prevOk t, I prevOk t → (statusRound debugNet prevOk).run.Ensures assumes requires
      (fun r u ↦ match r with
        | .ok prevOk => I prevOk u
        | .error e => post (.error e) u) t)
    (hend : ∀ prevOk t, I prevOk t → post (.ok ()) t) (n : ℕ) {prevOk : Bool}
    (h : I prevOk t) : (statusWriter debugNet n prevOk).run.Ensures assumes requires post t := by
  induction n generalizing prevOk t with
  | zero => exact hend prevOk t h
  | succ n ih =>
    refine (ensures_try _ _ _).mpr ((hround prevOk t h).mono fun r u hr ↦ ?_)
    cases r with
    | ok prevOk => exact ih hr
    | error e => exact hr

def ShowsPrinted : (e : TaskEffect) → e.Answer → Prop
  | .readStorage, looked => ∀ entry ∈ looked.2, PrintedText entry.1.1 ∧ PrintedText entry.1.2
  | .readRelays, rm => PrintedText rm.text
  | _, _ => True

def WritesPrinted (e : TaskEffect) : Prop :=
  ∀ text, e = .writeMonSock text → ∃ body, text = clearScreen ++ body ∧ PrintedText body

theorem statusWriter_prints (hnet : ∀ net, PrintedText (debugNet net)) (n : ℕ) (prevOk : Bool) :
    (statusWriter debugNet n prevOk).run.Ensures (fun _ e r ↦ ShowsPrinted e r)
      (fun _ e ↦ WritesPrinted e) (fun _ _ ↦ True) [] := by
  refine statusWriter_ensures (I := fun _ _ ↦ True) (fun prevOk t _ ↦ ?_) (fun _ _ _ ↦ trivial) n
    trivial
  rw [statusRound_eq]
  refine .call (fun _ h ↦ by cases h) fun looked hlooked ↦ ?_
  cases hpeers : writeRecords debugNet looked.1 looked.2 with
  | error e => trivial
  | ok peers =>
    refine .call (fun _ h ↦ by cases h) fun rm hrm ↦ .call (fun _ h ↦ by cases h) fun stats _ ↦ ?_
    have hbody : PrintedText (statusBody peers rm stats) :=
      printed_statusBody (printed_writeRecords hnet hlooked hpeers) hrm stats
    refine (showStatus_only peers rm stats prevOk).ensures (fun _ _ e he text htext ↦ ?_)
      fun _ _ r hr ↦ ?_
    · exact ⟨_, he.2 text htext, hbody⟩
    · cases r with
      | ok _ => trivial
      | error _ => exact hr.elim

def Behind (t : TaskTrace) : Prop :=
  ∃ now records, ⟨.readStorage, (now, records)⟩ ∈ t ∧ ∃ entry ∈ records, now < entry.2.timestamp

theorem behind_append {u : TaskTrace} : Behind (t ++ u) ↔ Behind t ∨ Behind u := by
  simp only [Behind, List.mem_append, or_and_right, exists_or]

theorem not_behind_of_ne {u : TaskTrace} (h : ∀ ev ∈ u, ev.1 ≠ .readStorage) : ¬ Behind u :=
  fun ⟨_, _, hmem, _⟩ ↦ h _ hmem rfl

variable (debugNet) in
theorem behind_look (now : SystemTime) (records : List ((String × String) × Record)) :
    Behind [⟨.readStorage, (now, records)⟩] ↔
      ∃ e, writeRecords debugNet now records = .error e := by
  have hok : (∃ text, writeRecords debugNet now records = .ok text) ↔
      ¬ ∃ e, writeRecords debugNet now records = .error e := by
    cases writeRecords debugNet now records <;> simp
  rw [← not_iff_not, ← hok, writeRecords_isOk_iff]
  constructor
  · intro h entry hentry
    exact Int.not_lt.mp fun hlt ↦ h ⟨now, records, List.mem_singleton_self _, entry, hentry, hlt⟩
  · rintro h ⟨_, _, hmem, entry, hentry, hlt⟩
    cases List.mem_singleton.mp hmem
    exact Int.not_lt.mpr (h entry hentry) hlt

theorem statusWriter_ends (n : ℕ) (prevOk : Bool) :
    (statusWriter debugNet n prevOk).run.Ensures (fun _ _ _ ↦ True) (fun u _ ↦ ¬ Behind u)
      (fun r u ↦ (∃ e, r = .error e) ↔ Behind u) [] := by
  refine statusWriter_ensures (I := fun _ u ↦ ¬ Behind u) (fun prevOk t ht ↦ ?_)
    (fun _ u hu ↦ iff_of_false (fun ⟨_, h⟩ ↦ by cases h) hu) n (not_behind_of_ne (by simp))
  rw [statusRound_eq]
  refine .call ht fun looked _ ↦ ?_
  have hlook := behind_look debugNet looked.1 looked.2
  cases hpeers : writeRecords debugNet looked.1 looked.2 with
  | error e =>
    exact iff_of_true ⟨e, rfl⟩ (behind_append.mpr (.inr (hlook.mpr ⟨e, hpeers⟩)))
  | ok peers =>
    have hlooked : ¬ Behind (t ++ [⟨.readStorage, looked⟩]) := by
      rw [behind_append, hlook, hpeers]
      exact fun h ↦ h.elim ht fun ⟨_, h⟩ ↦ by cases h
    have hgoes (u v : TaskTrace) (hu : ¬ Behind u) (hv : ∀ ev ∈ v, ev.1 ≠ .readStorage) :
        ¬ Behind (u ++ v) := fun h ↦ (behind_append.mp h).elim hu (not_behind_of_ne hv)
    refine .call hlooked fun rm _ ↦ .call (hgoes _ _ hlooked (by simp)) fun stats _ ↦ ?_
    have hread := hgoes _ _ (hgoes _ [⟨.readRelays, rm⟩] hlooked (by simp))
      (by simp : ∀ ev ∈ ([⟨.readStats, stats⟩] : TaskTrace), ev.1 ≠ .readStorage)
    refine (showStatus_only peers rm stats prevOk).ensures (fun u hu e _ ↦ ?_)
      fun u hu r hr ↦ ?_
    · exact hgoes _ _ hread fun ev hev ↦ (hu ev hev).1
    · cases r with
      | ok _ => exact hgoes _ _ hread fun ev hev ↦ (hu ev hev).1
      | error _ => exact hr.elim

theorem TaskAnswers.relayManager (h : TaskAnswers s i e r s') :
    s'.relayManager = s.relayManager := by
  cases h with
  | server h =>
    cases h with
    | getPeerEndpoints h =>
      rw [getPeerEndpoints_eq] at h
      cases h
      rfl
    | _ => rfl
  | _ => rfl

theorem record_after_call (h : TaskAnswers s i e r s') {key : String × String} {record : Record}
    (hget : s'.storage.peeringRecords.get? key = some record) :
    s.storage.peeringRecords.get? key = some record ∨ ∃ b source now,
      (⟨e, r⟩ : Event TaskEffect.Answer) = ⟨.server (.insertRecords b source), now⟩ ∧
        (key, record) ∈ announcedRecords b source now := by
  cases h with
  | server h =>
    cases h with
    | insertRecords b source =>
      rename_i now
      have hwritten : (lastUpdate (announcedRecords b source now) key).or
          (s.storage.peeringRecords.get? key) = some record := (get?_write _ _ key).symm.trans hget
      rw [Option.or_eq_some_iff] at hwritten
      rcases hwritten with hlast | ⟨-, hbefore⟩
      · exact .inr ⟨b, source, now, rfl, mem_of_lastUpdate hlast⟩
      · exact .inl hbefore
    | _ => exact .inl hget
  | removeOldRecords =>
    rename_i now
    have hswept : (s.storage.peeringRecords.get? key).filter (fresh now) = some record :=
      (get?_sweep _ _ key).symm.trans hget
    rw [Option.filter_eq_some_iff] at hswept
    exact .inl hswept.1
  | _ => exact .inl hget

theorem stored_valid {b : WireplugAnnouncement} {source : Ipv4Addr} {now : ℕ → SystemTime}
    (h : tasks.Run (TaskConfig.start debugNet storage rounds monitor)
      (before ++ .called i (.server (.insertRecords b source)) now :: after) c) :
    b.valid = true := by
  obtain ⟨c', hrun, -⟩ := tasks_refine h
  rw [List.filterMap_append, List.filterMap_cons] at hrun
  obtain ⟨addr, -, hcalls⟩ := connection_calls hrun
  exact (hcalls.stores b source rfl).2.1

theorem keys_valid (h : tasks.Run (TaskConfig.start debugNet .new rounds monitor) ls c) :
    ∀ key record, c.shared.storage.peeringRecords.get? key = some record →
      isValidWgkey key.1 = true ∧ isValidWgkey key.2 = true := by
  induction h with
  | nil => exact fun key record hget ↦ by cases hget
  | snoc hrun hs ih =>
    intro key record hget
    cases hs with
    | opened => exact ih key record hget
    | called hi ha =>
      rcases record_after_call ha hget with hbefore | ⟨b, source, now, hev, hmem⟩
      · exact ih key record hbefore
      · cases hev
        obtain ⟨hkeys, -⟩ := (valid_iff b).mp (stored_valid (hrun.snoc (.called hi ha)))
        obtain ⟨hinitiator, hpeer, -⟩ := mem_announcedRecords hmem
        rw [hinitiator]
        exact ⟨hkeys _ List.mem_cons_self, hkeys _ (List.mem_cons_of_mem _ hpeer)⟩
    | happened hs => exact hs.elim

theorem relayManager_new (h : tasks.Run (TaskConfig.start debugNet storage rounds monitor) ls c) :
    c.shared.relayManager = .new := by
  induction h with
  | nil => rfl
  | snoc _ hs ih =>
    cases hs with
    | opened => exact ih
    | called _ ha => exact ha.relayManager.trans ih
    | happened hs => exact hs.elim

theorem shows_printed (h : tasks.Run (TaskConfig.start debugNet .new rounds monitor) ls c)
    (hmem : .called i e r ∈ ls) : ShowsPrinted e r := by
  obtain ⟨before, after, rfl⟩ := List.append_of_mem hmem
  obtain ⟨b, b', hrun, hstep, -⟩ := h.split_at
  cases hstep with
  | called _ ha =>
    cases ha with
    | readStorage _ now hperm =>
      intro entry hentry
      have hget := HashMap.get?_eq_some.mpr (hperm.mem_iff.mp hentry)
      obtain ⟨hkey, hkey'⟩ := keys_valid hrun _ _ hget
      exact ⟨printed_key hkey, printed_key hkey'⟩
    | readRelays _ hlists =>
      rw [relayManager_new hrun] at hlists
      obtain ⟨hproto, hpending, hestablished⟩ := hlists
      change PrintedText (RelayManager.text _)
      rw [RelayManager.text, hproto.eq_nil, hpending.eq_nil, hestablished.eq_nil]
      decide
    | _ => trivial

/-- What a step that lasts from `t` to `t'` reads from the clock. -/
def ReadsTaskClock (t t' : SystemTime) : TaskLabel → Prop
  | .called _ .now now => t ≤ now ∧ now ≤ t'
  | .called _ (.server (.insertRecords b _)) now =>
    ∀ k < b.peerPubkeys.length, t ≤ now k ∧ now k ≤ t'
  | .called _ .readStorage looked => t ≤ looked.1 ∧ looked.1 ≤ t'
  | _ => True

def debugIpNet : IpNet → String
  | .v4 net => net.addr.text ++ "/" ++ numberText net.prefixLen.toNat
  | .v6 net => net.addr.text ++ "/" ++ numberText net.prefixLen.toNat

theorem printed_debugIpNet (net : IpNet) : PrintedText (debugIpNet net) := by
  cases net with
  | v4 net =>
    exact printed_append (printed_append (printed_ipv4 _) (by decide)) (printed_toDigits 10 _)
  | v6 net =>
    exact printed_append (printed_append (printed_ipv6 _) (by decide)) (printed_toDigits 10 _)

def writerAlone (storage : Storage) : TaskConfig :=
  TaskConfig.start debugIpNet storage 0 (some 1)

def askingRecord : Record where
  wanIpv4 := .new 203 0 113 5
  wanIpv6 := none
  lanAddrs := []
  wgPort := 51820
  timestamp := 0
  needsRelay := true

def shownStatus : String := clearScreen ++ statusBody
  (recordLine debugIpNet ((Key.filled 0).toBase64, (Key.filled 1).toBase64) askingRecord 5 ++ "")
  .new .new

def stored : TaskLabel := .called 2 (.server (.insertRecords
  (askingAnnouncement (.filled 0) (.filled 1)) (.new 203 0 113 5))) fun _ ↦ 0

def showing : TaskTrace :=
  [⟨.readStorage, (5000000000,
      [(((Key.filled 0).toBase64, (Key.filled 1).toBase64), askingRecord)])⟩,
    ⟨.readRelays, .new⟩, ⟨.readStats, .new⟩, ⟨.connectMonSock, .ok ()⟩,
    ⟨.writeMonSock shownStatus, .ok ()⟩]

theorem showing_path : ∃ q, (statusWriter debugIpNet 1 true).run.Path showing q :=
  ⟨_, .cons (.cons (.cons (.cons (.cons (.nil _)))))⟩

theorem run_shown : ∃ ls c, tasks.Run (writerAlone .new)
      (ls ++ [stored] ++ showing.map fun ev ↦ .called 1 ev.1 ev.2) c ∧
    ∀ l ∈ ls, ∀ t t', ReadsTaskClock t t' l := by
  obtain ⟨t, ht, hpath, hmoves⟩ := path_asking (.filled 0) (.filled 1) (.new 203 0 113 5) 51820 2
  have hserved := @run_serving (writerAlone .new) _ 2 _ _ _ rfl (hpath.trans (.cons (.nil _)))
    (hmoves.trans (.cons (ServerAnswers.insertRecords (.start .new) 2
      (askingAnnouncement (.filled 0) (.filled 1)) (.new 203 0 113 5) fun _ ↦ 0) (.nil _)))
  rw [List.map_append, ← List.cons_append, ← List.cons_append] at hserved
  obtain ⟨q, hq⟩ := showing_path
  refine ⟨_, _, hserved.trans (System.Run.solo rfl hq fun ev hev ↦ ?_), fun l hl ↦ ?_⟩
  · simp only [showing, List.mem_cons, List.not_mem_nil, or_false] at hev
    rcases hev with rfl | rfl | rfl | rfl | rfl
    · exact TaskAnswers.readStorage _ 1 _ (.refl _)
    · exact TaskAnswers.readRelays _ 1 ⟨.refl _, .refl _, .refl _⟩
    · exact TaskAnswers.readStats _ 1
    · exact TaskAnswers.connectMonSock _ 1 _
    · exact TaskAnswers.writeMonSock _ 1 _ _
  · rcases List.mem_cons.mp hl with rfl | hl
    · exact fun _ _ ↦ trivial
    rcases List.mem_cons.mp hl with rfl | hl
    · exact fun _ _ ↦ trivial
    obtain ⟨⟨e, r⟩, hev, rfl⟩ := List.mem_map.mp hl
    rcases ht _ hev with ⟨e, rfl⟩ | rfl <;> exact fun _ _ ↦ trivial

def looked (r : Except IoError Unit) : List TaskLabel :=
  [.called 1 .readStorage (0, []), .called 1 .readRelays .new, .called 1 .readStats .new,
    .called 1 .connectMonSock r]

theorem run_lost : ∃ c, tasks.Run (writerAlone .new)
    (looked (.error .failed) ++ [.called 1 (.warn (.failedToOpen .failed)) ()]) c :=
  ⟨_, System.Run.nil.snoc (.called rfl (TaskAnswers.readStorage _ 1 0 (.refl _))) |>.snoc
    (.called rfl (TaskAnswers.readRelays _ 1 ⟨.refl _, .refl _, .refl _⟩)) |>.snoc
    (.called rfl (TaskAnswers.readStats _ 1)) |>.snoc
    (.called rfl (TaskAnswers.connectMonSock _ 1 (.error .failed))) |>.snoc
    (.called rfl (TaskAnswers.warn _ 1 _))⟩

/-- Whatever clients announce, the monitor is sent characters that a terminal prints, and before
them the sequence that clears the screen. -/
theorem status_printed (hnet : ∀ net, PrintedText (debugNet net))
    (h : tasks.Run (TaskConfig.start debugNet .new rounds monitor) ls c) {text : String}
    {r : Except IoError Unit} (hwrite : .called i (.writeMonSock text) r ∈ ls) :
    ∃ body, text = clearScreen ++ body ∧ PrintedText body := by
  obtain ⟨before, after, rfl⟩ := List.append_of_mem hwrite
  obtain ⟨rfl, n, k, -, hpath⟩ := path_of_looks h ⟨trivial, by simp⟩
  obtain ⟨b, hbefore, -⟩ := h.split
  have hshows : Answered (fun _ e r ↦ ShowsPrinted e r) [] (System.calls 1 before) :=
    answered_of_mem (fun ev hev ↦ shows_printed hbefore (System.mem_calls.mp hev)) []
  exact ((statusWriter_prints hnet n true).follow hpath hshows).1 text rfl

theorem status_printed_shown : ∃ body, shownStatus = clearScreen ++ body ∧ PrintedText body := by
  obtain ⟨ls, c, hrun, -⟩ := run_shown
  have hwrite : .called 1 (.writeMonSock shownStatus) (.ok ()) ∈
      ls ++ [stored] ++ showing.map fun ev ↦ .called 1 ev.1 ev.2 :=
    List.mem_append_right _ (by simp [showing])
  exact status_printed printed_debugIpNet hrun hwrite

section Clock

variable {time : ℕ → SystemTime}

theorem stamps_le (hmono : Monotone time)
    (h : tasks.Run (TaskConfig.start debugNet .new rounds monitor) ls c)
    (hclock : Timed time ReadsTaskClock ls) :
    ∀ key record, c.shared.storage.peeringRecords.get? key = some record →
      record.timestamp ≤ time ls.length := by
  refine h.timed hclock (fun ls c ↦ ∀ key record,
      c.shared.storage.peeringRecords.get? key = some record → record.timestamp ≤ time ls.length)
    (fun key record hget ↦ by cases hget) fun ls l b b' _ hclock ih hs key record hget ↦ ?_
  have hle : time ls.length ≤ time (ls.length + 1) := hmono (Nat.le_succ _)
  rw [List.length_append, List.length_singleton]
  cases hs with
  | opened => exact (ih key record hget).trans hle
  | called _ ha =>
    rcases record_after_call ha hget with hbefore | ⟨b, source, now, hev, hmem⟩
    · exact (ih key record hbefore).trans hle
    · cases hev
      obtain ⟨k, hk, hstamp⟩ := stamp_of_mem hmem
      rw [hstamp]
      exact (hclock.step k hk).2
  | happened hs => exact hs.elim

/-- A clock that is never set back finds no record from the future. -/
theorem look_not_behind (hmono : Monotone time)
    (h : tasks.Run (TaskConfig.start debugNet .new rounds monitor) ls c)
    (hclock : Timed time ReadsTaskClock ls) {now : SystemTime}
    {records : List ((String × String) × Record)}
    (hmem : .called i .readStorage (now, records) ∈ ls) :
    ∀ entry ∈ records, entry.2.timestamp ≤ now := by
  obtain ⟨before, after, rfl⟩ := List.append_of_mem hmem
  obtain ⟨b, b', hrun, hstep, -⟩ := h.split_at
  cases hstep with
  | called _ ha =>
    cases ha with
    | readStorage _ _ hperm =>
      intro entry hentry
      have hget := HashMap.get?_eq_some.mpr (hperm.mem_iff.mp hentry)
      exact (stamps_le hmono hrun hclock.left _ _ hget).trans hclock.step.1

end Clock

/-- The status writer ends for good exactly where a look at the storage finds a record that is
stamped later than its clock. As long as the clock is not set back there is none. -/
theorem status_gives_up {n : ℕ}
    (h : tasks.Run (TaskConfig.start debugNet storage rounds (some n)) ls c) :
    ((∃ e, c.threads 1 = some (.done (.error e))) ↔ ∃ now records,
      .called 1 .readStorage (now, records) ∈ ls ∧ ∃ entry ∈ records, now < entry.2.timestamp) ∧
    ∀ time, storage = .new → Monotone time → Timed time ReadsTaskClock ls →
      ∀ e, c.threads 1 ≠ some (.done (.error e)) := by
  obtain ⟨q, hq, hpath⟩ := writer_path h
  have hends : (∃ e, c.threads 1 = some (.done (.error e))) ↔ Behind (System.calls 1 ls) := by
    have hensures := (statusWriter_ends n true).follow hpath
      (answered_of_forall (fun _ _ _ ↦ trivial) _ _)
    rw [hq]
    cases q with
    | done r =>
      have hr : (∃ e, r = .error e) ↔ Behind (System.calls 1 ls) := hensures
      simpa using hr
    | call e k =>
      refine iff_of_false (fun hend ↦ ?_) hensures.1
      obtain ⟨_, hend⟩ := hend
      cases hend
  have hbehind : Behind (System.calls 1 ls) ↔ ∃ now records,
      .called 1 .readStorage (now, records) ∈ ls ∧
        ∃ entry ∈ records, now < entry.2.timestamp :=
    exists₂_congr fun _ _ ↦ and_congr_left' System.mem_calls
  refine ⟨hends.trans hbehind, ?_⟩
  rintro time rfl hmono hclock e he
  obtain ⟨now, records, hmem, entry, hentry, hlt⟩ := (hends.trans hbehind).mp ⟨e, he⟩
  exact Int.not_lt.mpr (look_not_behind hmono h hclock hmem entry hentry) hlt

theorem run_late : ∃ c, tasks.Run
    (writerAlone ⟨HashMap.empty.insert ("X", "Y") { askingRecord with timestamp := 1 }⟩)
    [.called 1 .readStorage (0, [(("X", "Y"), { askingRecord with timestamp := 1 })])] c :=
  ⟨_, System.Run.one (.called rfl (TaskAnswers.readStorage _ 1 0 (.refl _)))⟩

/-- The clock stands before the one record; in another run it moves on from the record to the
look at it. -/
theorem status_gives_up_late :
    (∃ ls c, tasks.Run
        (writerAlone ⟨HashMap.empty.insert ("X", "Y") { askingRecord with timestamp := 1 }⟩) ls c ∧
      ∃ e, c.threads 1 = some (.done (.error e))) ∧
    ∃ ls c, tasks.Run (writerAlone .new)
        (ls ++ [stored] ++ showing.map fun ev ↦ .called 1 ev.1 ev.2) c ∧
      ∀ e, c.threads 1 ≠ some (.done (.error e)) := by
  obtain ⟨c, hlate⟩ := run_late
  obtain ⟨ls, c', hshown, hquiet⟩ := run_shown
  let time (n : ℕ) : SystemTime := if n ≤ ls.length then 0 else 5000000000
  have hmono : Monotone time := by
    refine monotone_nat_of_le_succ fun n ↦ ?_
    simp only [time]
    split_ifs with h h'
    · exact le_rfl
    · exact (by decide : (0 : ℤ) ≤ 5000000000)
    · omega
    · exact le_rfl
  have hstored : Timed time ReadsTaskClock (ls ++ [stored]) :=
    (timed_of_forall hquiet).snoc fun k _ ↦ by simp [time]
  have hclock : Timed time ReadsTaskClock
      (ls ++ [stored] ++ showing.map fun ev ↦ .called 1 ev.1 ev.2) := by
    rw [showing, List.map_cons, List.append_cons (ls ++ [stored])]
    refine (hstored.snoc ?_).append fun l hl t t' ↦ ?_
    · simp [time, ReadsTaskClock]
    · simp only [List.map_cons, List.map_nil, List.mem_cons, List.not_mem_nil, or_false] at hl
      rcases hl with rfl | rfl | rfl | rfl <;> trivial
  refine ⟨⟨_, c, hlate, (status_gives_up hlate).1.mpr ⟨0, _, List.mem_singleton_self _, _,
    List.mem_singleton_self _, by decide⟩⟩, ls, c', hshown, ?_⟩
  exact (status_gives_up hshown).2 time rfl hmono hclock

/-- Every failure to reach the monitor was followed by a status that it took. -/
def MonitorUp (t : TaskTrace) : Prop :=
  ∀ u v e, t = u ++ ⟨.connectMonSock, .error e⟩ :: v →
    ∃ text, ⟨.writeMonSock text, .ok ()⟩ ∈ v

theorem monitorUp_nil : MonitorUp [] := fun u v e h ↦ by simp at h

theorem monitorUp_snoc (ev : Event TaskEffect.Answer) : MonitorUp (t ++ [ev]) ↔
    (∀ e, ev ≠ ⟨.connectMonSock, .error e⟩) ∧
      (MonitorUp t ∨ ∃ text, ev = ⟨.writeMonSock text, .ok ()⟩) := by
  constructor
  · intro h
    refine ⟨fun e hev ↦ ?_, or_iff_not_imp_right.mpr fun hnot u v e ht ↦ ?_⟩
    · obtain ⟨_, hmem⟩ := h t [] e (by rw [hev])
      cases hmem
    · obtain ⟨text, hmem⟩ := h u (v ++ [ev]) e (by rw [ht, List.append_assoc]; rfl)
      rcases List.mem_append.mp hmem with hmem | hmem
      · exact ⟨text, hmem⟩
      · exact (hnot ⟨text, (List.mem_singleton.mp hmem).symm⟩).elim
  · rintro ⟨hne, hup⟩ u v e ht
    rcases last_or_before ht with ⟨-, hev, -⟩ | ⟨w, rfl, hbefore⟩
    · exact (hne e hev).elim
    · rcases hup with hup | ⟨text, rfl⟩
      · obtain ⟨text, hmem⟩ := hup u w e hbefore
        exact ⟨text, List.mem_append_left _ hmem⟩
      · exact ⟨text, List.mem_append_right _ (List.mem_singleton_self _)⟩

/-- The next call is a warning exactly after the first failure since the monitor was up. -/
def WarnsOnce (t : TaskTrace) (e : TaskEffect) : Prop :=
  ∀ err, e = .warn (.failedToOpen err) ↔
    ∃ u, t = u ++ [⟨.connectMonSock, .error err⟩] ∧ MonitorUp u

theorem warnsOnce_of_ne (he : ∀ err, e ≠ .warn (.failedToOpen err))
    (ht : ∀ u err, t ≠ u ++ [⟨.connectMonSock, .error err⟩]) : WarnsOnce t e :=
  fun err ↦ iff_of_false (he err) fun ⟨u, hu, _⟩ ↦ ht u err hu

theorem snoc_ne {ev : Event TaskEffect.Answer} (hev : ∀ e, ev ≠ ⟨.connectMonSock, .error e⟩)
    (u : TaskTrace) (err : IoError) : t ++ [ev] ≠ u ++ [⟨.connectMonSock, .error err⟩] :=
  fun h ↦ hev err (List.singleton_inj.mp (List.append_inj' h rfl).2)

structure BetweenRounds (prevOk : Bool) (t : TaskTrace) : Prop where
  up : prevOk = true ↔ MonitorUp t
  rested : ∀ u err, t ≠ u ++ [⟨.connectMonSock, .error err⟩]

theorem monitorUp_snoc_of_ne {ev : Event TaskEffect.Answer}
    (hlost : ∀ e, ev ≠ ⟨.connectMonSock, .error e⟩)
    (htaken : ∀ text, ev ≠ ⟨.writeMonSock text, .ok ()⟩) : MonitorUp (t ++ [ev]) ↔ MonitorUp t := by
  rw [monitorUp_snoc, and_iff_right hlost]
  exact or_iff_left fun ⟨text, h⟩ ↦ htaken text h

theorem betweenRounds_of_sleep {prevOk : Bool} (h : prevOk = true ↔ MonitorUp t)
    (hwarns : WarnsOnce t (.sleep 3)) :
    (await (.sleep 3) >>= fun _ ↦ pure prevOk : ServerTask Bool).run.Ensures (fun _ _ _ ↦ True)
      WarnsOnce (fun r u ↦ match r with
        | .ok prevOk => BetweenRounds prevOk u
        | .error _ => True) t := by
  refine .call hwarns fun _ _ ↦ ⟨?_, snoc_ne (by simp)⟩
  rw [h, monitorUp_snoc_of_ne (by simp) (by simp)]

theorem sendStatus_warns {prevOk : Bool} (h : prevOk = true ↔ MonitorUp t) (text : String)
    (ht : ∀ u err, t ≠ u ++ [⟨.connectMonSock, .error err⟩]) :
    (sendStatus text prevOk).run.Ensures (fun _ _ _ ↦ True) WarnsOnce (fun r u ↦ match r with
        | .ok prevOk => (prevOk = true ↔ MonitorUp u) ∧ WarnsOnce u (.sleep 3)
        | .error _ => True) t := by
  rw [sendStatus_eq]
  refine .call (warnsOnce_of_ne (by simp) ht) fun r _ ↦ ?_
  cases r with
  | error e =>
    have hdown : ¬ MonitorUp (t ++ [⟨.connectMonSock, .error e⟩]) :=
      fun hup ↦ ((monitorUp_snoc _).mp hup).1 e rfl
    have hfirst (err : IoError) : (∃ u, t ++ [⟨.connectMonSock, .error e⟩] =
        u ++ [⟨.connectMonSock, .error err⟩] ∧ MonitorUp u) ↔ e = err ∧ MonitorUp t := by
      constructor
      · rintro ⟨u, hu, hup⟩
        obtain ⟨rfl, hev⟩ := List.append_inj' hu rfl
        cases hev
        exact ⟨rfl, hup⟩
      · rintro ⟨rfl, hup⟩
        exact ⟨t, rfl, hup⟩
    cases prevOk with
    | false =>
      have hlost : ¬ MonitorUp t := fun hup ↦ Bool.false_ne_true (h.mpr hup)
      refine ⟨iff_of_false Bool.false_ne_true hdown, fun err ↦ ?_⟩
      rw [hfirst]
      exact iff_of_false (by simp) fun hup ↦ hlost hup.2
    | true =>
      refine .call (fun err ↦ ?_) fun _ _ ↦ ⟨?_, warnsOnce_of_ne (by simp) (snoc_ne (by simp))⟩
      · rw [hfirst, and_iff_left (h.mp rfl)]
        simp
      · rw [monitorUp_snoc_of_ne (by simp) (by simp)]
        exact iff_of_false Bool.false_ne_true hdown
  | ok _ =>
    refine .call (warnsOnce_of_ne (by simp) (snoc_ne (by simp))) fun r _ ↦ ?_
    cases r with
    | ok _ =>
      refine ⟨iff_of_true rfl ?_, warnsOnce_of_ne (by simp) (snoc_ne (by simp))⟩
      exact (monitorUp_snoc _).mpr ⟨by simp, .inr ⟨text, rfl⟩⟩
    | error e =>
      refine .call (warnsOnce_of_ne (by simp) (snoc_ne (by simp))) fun _ _ ↦
        ⟨?_, warnsOnce_of_ne (by simp) (snoc_ne (by simp))⟩
      rw [h, monitorUp_snoc_of_ne (by simp) (by simp), monitorUp_snoc_of_ne (by simp) (by simp),
        monitorUp_snoc_of_ne (by simp) (by simp)]

theorem statusWriter_warns (n : ℕ) : (statusWriter debugNet n true).run.Ensures
    (fun _ _ _ ↦ True) WarnsOnce (fun _ _ ↦ True) [] := by
  refine statusWriter_ensures (I := BetweenRounds) (fun prevOk t ht ↦ ?_) (fun _ _ _ ↦ trivial) n
    ⟨by simp [monitorUp_nil], by simp⟩
  rw [statusRound_eq]
  refine .call (warnsOnce_of_ne (by simp) ht.rested) fun looked _ ↦ ?_
  cases hpeers : writeRecords debugNet looked.1 looked.2 with
  | error e => trivial
  | ok peers =>
    refine .call (warnsOnce_of_ne (by simp) (snoc_ne (by simp))) fun rm _ ↦
      .call (warnsOnce_of_ne (by simp) (snoc_ne (by simp))) fun stats _ ↦ ?_
    have hup : prevOk = true ↔ MonitorUp (t ++ [⟨.readStorage, looked⟩] ++ [⟨.readRelays, rm⟩] ++
        [⟨.readStats, stats⟩]) := by
      rw [ht.up, monitorUp_snoc_of_ne (by simp) (by simp), monitorUp_snoc_of_ne (by simp) (by simp),
        monitorUp_snoc_of_ne (by simp) (by simp)]
    refine (ensures_try _ _ _).mpr
      ((sendStatus_warns hup _ (snoc_ne (by simp))).mono fun r u hr ↦ ?_)
    cases r with
    | error e => trivial
    | ok prevOk => exact betweenRounds_of_sleep hr.1 hr.2

/-- The log has one warning for each time that the monitor is lost: the next step of the status
writer is to warn exactly after the first failure to reach it since it last took a status. -/
theorem outages_warned {n : ℕ} (h : tasks.Run (TaskConfig.start debugNet storage rounds (some n))
      (before ++ .called 1 e r :: after) c) (err : IoError) :
    e = .warn (.failedToOpen err) ↔ ∃ u,
      System.calls 1 before = u ++ [⟨.connectMonSock, .error err⟩] ∧ MonitorUp u := by
  obtain ⟨b, b', hrun, hstep, -⟩ := h.split_at
  obtain ⟨q, hq, hpath⟩ := writer_path hrun
  have hensures := (statusWriter_warns n).follow hpath
    (answered_of_forall (fun _ _ _ ↦ trivial) _ _)
  cases hstep with
  | called hi _ =>
    rw [hq] at hi
    cases hi
    exact hensures.1 err

theorem outages_warned_first : ∃ u,
    System.calls 1 (looked (.error .failed)) = u ++ [⟨.connectMonSock, .error .failed⟩] ∧
      MonitorUp u := by
  obtain ⟨c, hrun⟩ := run_lost
  exact (outages_warned hrun .failed).mp rfl

end Wireplug
