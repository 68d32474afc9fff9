import Wireplug.ConnectionFrame
import Wireplug.Foundation.Locking
import Wireplug.TaskRefinement

namespace Wireplug

open Foundation Foundation.Program System

inductive SharedLock where
  | storage
  | relayManager
  | serverStats
  deriving DecidableEq

def SharedLock.rank : SharedLock → ℕ
  | storage => 0
  | relayManager => 1
  | serverStats => 2

instance : Preorder SharedLock := .lift SharedLock.rank

instance : WellFoundedGT SharedLock := by
  have hrank (l : SharedLock) : l.rank ≤ 2 := by cases l <;> decide
  have hlater {l l' : SharedLock} (h : l > l') : 2 - l.rank < 2 - l'.rank := by
    have hlt : l'.rank < l.rank := h
    have hle := hrank l
    omega
  exact ⟨Subrelation.wf hlater (measure fun l : SharedLock ↦ 2 - l.rank).wf⟩

/-- The locks for a call, in the order in which the source awaits them. -/
def taskLocks : TaskEffect → List (SharedLock × LockMode)
  | .server (.getPeerEndpoints _ _) => [(.storage, .read), (.relayManager, .write)]
  | .server (.insertRecords _ _) => [(.storage, .write)]
  | .server .incRelaysNeeded => [(.serverStats, .write)]
  | .server (.stream _) => []
  | .incTlsErrors => [(.serverStats, .write)]
  | .removeOldRecords _ => [(.storage, .write)]
  | .readStorage => [(.storage, .read)]
  | .readRelays => [(.relayManager, .read)]
  | .readStats => [(.serverStats, .read)]
  | .accept _ | .now | .sleep _ | .connectMonSock | .writeMonSock _ | .warn _ => []

theorem taskLocks_ordered : Ordered taskLocks := by
  have hlookup : SharedLock.storage < SharedLock.relayManager := by decide
  intro e
  cases e with
  | server e => cases e <;> simp [taskLocks, hlookup]
  | _ => simp [taskLocks]

theorem taskLocks_length (e : TaskEffect) : (taskLocks e).length ≤ 2 := by
  cases e with
  | server e => cases e <;> simp [taskLocks]
  | _ => simp [taskLocks]

theorem taskAnswers_total (s : ServerState) (i : ℕ) (e : TaskEffect) (he : taskLocks e ≠ []) :
    ∃ r s', TaskAnswers s i e r s' := by
  cases e with
  | server e =>
    cases e with
    | stream e => exact (he rfl).elim
    | getPeerEndpoints a addr =>
      have h := ServerAnswers.getPeerEndpoints s i (getPeerEndpoints_eq a addr _ _) _ (.refl _)
      exact ⟨_, _, .server h⟩
    | insertRecords a ipv4 => exact ⟨fun _ ↦ 0, _, .server (.insertRecords s i a ipv4 _)⟩
    | incRelaysNeeded => exact ⟨_, _, .server (.incRelaysNeeded s i)⟩
  | incTlsErrors => exact ⟨_, _, .incTlsErrors s i⟩
  | removeOldRecords now => exact ⟨_, _, .removeOldRecords s i now⟩
  | readStorage => exact ⟨_, _, .readStorage s i 0 (.refl _)⟩
  | readRelays => exact ⟨_, _, .readRelays s i ⟨.refl _, .refl _, .refl _⟩⟩
  | readStats => exact ⟨_, _, .readStats s i⟩
  | accept | now | sleep | connectMonSock | writeMonSock | warn => exact (he rfl).elim

theorem taskAnswers_guarded {s s' : ServerState} {i : ℕ} {e : TaskEffect} {r : e.Answer}
    (h : TaskAnswers s i e r s') :
    ((.storage, .write) ∉ taskLocks e → s'.storage = s.storage) ∧
      ((.relayManager, .write) ∉ taskLocks e → s'.relayManager = s.relayManager) ∧
      ((.serverStats, .write) ∉ taskLocks e → s'.serverStats = s.serverStats) := by
  cases h with
  | server h => cases h <;> simp [taskLocks]
  | _ => simp [taskLocks]

abbrev LockedTaskLabel := LockedLabel ℕ SocketAddr TaskEffect.Answer Empty

abbrev LockedTasks (K : Type) :=
  LockedConfig ℕ TaskEffect.Answer (Except ServerError Unit) ServerState SharedLock K

/-- The server under its three locks, of whatever make. -/
def lockedServer {K : Type} (L : RwLock ℕ K) (debugNet : IpNet → String) (storage : Storage)
    (rounds : ℕ) (monitor : Option ℕ) : LockedTasks K :=
  .start L (TaskConfig.start debugNet storage rounds monitor)

theorem locked_consistent {K : Type} {L : RwLock ℕ K} {debugNet : IpNet → String}
    {storage : Storage} {rounds : ℕ} {monitor : Option ℕ} {ls : List LockedTaskLabel}
    {c : LockedTasks K} (hL : L.Fair)
    (h : tasks.LockedRun taskLocks L (lockedServer L debugNet storage rounds monitor) ls c) :
    Consistent taskLocks L c := h.consistent hL taskLocks_ordered (consistent_start hL)

section Crowded

def plainAddr : SocketAddr := .v4 (.new 203 0 113 5) 51820

def bareServer : LockedTasks (QueueLock ℕ) :=
  lockedServer (queueLock ℕ) (fun _ ↦ "") .new 0 none

theorem locks_free_of_idle {locks : SharedLock → QueueLock ℕ}
    (h : ∀ l i m, ¬ (queueLock ℕ).Member (locks l) i m) : locks = fun _ ↦ ⟨[], []⟩ := by
  funext l
  have hholders : (locks l).holders = [] :=
    List.eq_nil_iff_forall_not_mem.mpr fun p hp ↦ h l p.1 p.2 (.inl hp)
  have hqueue : (locks l).queue = [] :=
    List.eq_nil_iff_forall_not_mem.mpr fun p hp ↦ h l p.1 p.2 (.inr hp)
  cases hlock : locks l with
  | mk holders queue =>
    rw [hlock] at hholders hqueue
    obtain rfl : holders = [] := hholders
    obtain rfl : queue = [] := hqueue
    rfl

abbrev strangers : WireplugAnnouncement := askingAnnouncement (.filled 2) (.filled 3)

abbrev awaited : WireplugAnnouncement := askingAnnouncement (.filled 1) (.filled 0)

abbrev lookup : WireplugAnnouncement := bareAnnouncement (.filled 0) (.filled 1)

def storing (a : WireplugAnnouncement) : TaskProgram :=
  .call (.server (.insertRecords a (.new 203 0 113 5))) fun _ ↦
    .call (.server .incRelaysNeeded) fun _ ↦ .done (.ok ())

def lookingUp (a : WireplugAnnouncement) : TaskProgram :=
  (answerAnnouncement a plainAddr).run.embed .server fun _ r ↦ r

def twoStoring : ℕ → Option TaskProgram :=
  Function.update (Function.update bareServer.config.threads 2 (some (storing strangers)))
    3 (some (storing awaited))

/-- Two connections are about to store, and a third to look up what one of them stores. -/
def crowdThreads : ℕ → Option TaskProgram :=
  Function.update twoStoring 4 (some (lookingUp lookup))

theorem run_crowd : ∃ ls, tasks.Run bareServer.config ls ⟨.start .new, crowdThreads⟩ := by
  obtain ⟨t₂, -, hpath₂, hmoves₂⟩ := path_asking (.filled 2) (.filled 3) (.new 203 0 113 5) 51820 2
  obtain ⟨t₃, -, hpath₃, hmoves₃⟩ := path_asking (.filled 1) (.filled 0) (.new 203 0 113 5) 51820 3
  have hlen : (encodeAnnouncement lookup).length ≤ maxMessageSize := by
    rw [bareAnnouncement_length]
    decide
  obtain ⟨t₄, hpath₄, ht₄⟩ := path_received (bareAnnouncement_valid _ _) hlen plainAddr
    (.start .new) 4
  have hrun₂ := @run_serving bareServer.config _ 2 plainAddr _ _ rfl hpath₂ hmoves₂
  have hrun₃ := @run_serving ⟨.start .new, Function.update bareServer.config.threads
    2 (some (storing strangers))⟩ _ 3 plainAddr _ _ rfl hpath₃ hmoves₃
  have hrun₄ := @run_serving ⟨.start .new, twoStoring⟩ _ 4 plainAddr _ _ rfl hpath₄
    (.still fun ev hev ↦ (ht₄ ev hev).2)
  exact ⟨_, (hrun₂.trans hrun₃).trans hrun₄⟩

structure Crowded (b : LockedTasks (QueueLock ℕ)) : Prop where
  run : ∃ ls, tasks.LockedRun taskLocks (queueLock ℕ) bareServer ls b
  holds : (queueLock ℕ).Holds (b.locks .storage) 2 .write
  waits : (3, .write) ∈ (queueLock ℕ).queue (b.locks .storage)
  outside : ∀ m, ¬ (queueLock ℕ).Member (b.locks .storage) 4 m
  calls : b.config.threads 3 = some (storing awaited)

def crowdedServer : LockedTasks (QueueLock ℕ) where
  config := ⟨.start .new, crowdThreads⟩
  stage := Function.update (Function.update (fun _ ↦ .running 0) 2 (.waiting 0)) 3 (.waiting 0)
  locks := Function.update (fun _ ↦ ⟨[], []⟩) .storage ⟨[(2, .write)], [(3, .write)]⟩

theorem crowded : Crowded crowdedServer where
  run := by
    obtain ⟨ls, hrun⟩ := run_crowd
    have hstart : Consistent taskLocks (queueLock ℕ) bareServer := consistent_start queueLock_fair
    obtain ⟨ls', locks, hlocked, -⟩ := hrun.locked queueLock_fair taskLocks_ordered hstart
    have hconsistent := locked_consistent queueLock_fair hlocked
    obtain rfl : locks = fun _ ↦ ⟨[], []⟩ := locks_free_of_idle fun l i m hmem ↦
      not_reached rfl ((hconsistent.members l i m).mp hmem)
    have hcall₂ : crowdThreads 2 = some (storing strangers) := rfl
    have hcall₃ : crowdThreads 3 = some (storing awaited) := rfl
    have hrequests := (hlocked.snoc
      (.requests (i := 2) (n := 0) (l := .storage) (m := .write) hcall₂ rfl rfl)).snoc
      (.requests (i := 3) (n := 0) (l := .storage) (m := .write) hcall₃ rfl rfl)
    simp only [Function.update_idem] at hrequests
    exact ⟨_, hrequests⟩
  holds := List.mem_cons_self
  waits := List.mem_cons_self
  outside m h := by rcases h with h | h <;> cases List.mem_singleton.mp h
  calls := rfl

def uncrowding : List LockedTaskLabel :=
  [.enters 2, .steps (.called 2 (.server (.insertRecords strangers (.new 203 0 113 5))) fun _ ↦ 0),
    .requests 4, .enters 3,
    .steps (.called 3 (.server (.insertRecords awaited (.new 203 0 113 5))) fun _ ↦ 0),
    .enters 4, .requests 4, .enters 4]

theorem run_uncrowding : ∃ found c, tasks.LockedRun taskLocks (queueLock ℕ) crowdedServer
    (uncrowding ++ .steps (.called 4 (.server (.getPeerEndpoints lookup plainAddr)) found) :: [])
    c := by
  refine ⟨_, _, LockedRun.nil
    |>.snoc (.enters (i := 2) (n := 0) (l := .storage) (m := .write) rfl rfl rfl List.mem_cons_self)
    |>.snoc (.called (i := 2) rfl rfl (TaskAnswers.server (.insertRecords _ 2 _ _ _)))
    |>.snoc (.requests (i := 4) (n := 0) (l := .storage) (m := .read) rfl rfl rfl)
    |>.snoc (.enters (i := 3) (n := 0) (l := .storage) (m := .write) rfl rfl rfl List.mem_cons_self)
    |>.snoc (.called (i := 3) rfl rfl (TaskAnswers.server (.insertRecords _ 3 _ _ _)))
    |>.snoc (.enters (i := 4) (n := 0) (l := .storage) (m := .read) rfl rfl rfl List.mem_cons_self)
    |>.snoc (.requests (i := 4) (n := 1) (l := .relayManager) (m := .write) rfl rfl rfl)
    |>.snoc (.enters (i := 4) (n := 1) (l := .relayManager) (m := .write) rfl rfl rfl
      List.mem_cons_self)
    |>.snoc (.called (i := 4) rfl rfl (TaskAnswers.server
      (.getPeerEndpoints _ 4 (getPeerEndpoints_eq _ _ _ _) _ (.refl _))))⟩

/-- Connections that do not need the storage go on while connection 2 has it. -/
def meanwhile : List LockedTaskLabel :=
  [.steps (.opened 5 plainAddr), .steps (.called 5 (.accept plainAddr) (.error .failed)), .enters 2,
    .requests 4, .requests 5, .enters 5, .steps (.called 5 .incTlsErrors ())]

theorem run_meanwhile : ∃ c, tasks.LockedRun taskLocks (queueLock ℕ) crowdedServer meanwhile c ∧
    c.config.shared.serverStats.tlsErrros = 1 := by
  refine ⟨_, LockedRun.nil
    |>.snoc (.others (.opened (i := 5) plainAddr rfl) fun _ _ _ h ↦ by cases h)
    |>.snoc (.called (i := 5) rfl rfl (TaskAnswers.accept _ 5 _ (.error .failed)))
    |>.snoc (.enters (i := 2) (n := 0) (l := .storage) (m := .write) rfl rfl rfl List.mem_cons_self)
    |>.snoc (.requests (i := 4) (n := 0) (l := .storage) (m := .read) rfl rfl rfl)
    |>.snoc (.requests (i := 5) (n := 0) (l := .serverStats) (m := .write) rfl rfl rfl)
    |>.snoc (.enters (i := 5) (n := 0) (l := .serverStats) (m := .write) rfl rfl rfl
      List.mem_cons_self)
    |>.snoc (.called (i := 5) rfl rfl (TaskAnswers.incTlsErrors _ 5)), rfl⟩

end Crowded

section Runs

variable {K : Type} {L : RwLock ℕ K} {debugNet : IpNet → String} {storage : Storage}
  {rounds : ℕ} {monitor : Option ℕ} {ls ms ms' : List LockedTaskLabel} {b c : LockedTasks K}
  {i j : ℕ} {a : WireplugAnnouncement} {source : Ipv4Addr} {peer : String}

/-- In `ls` no sweep and no other announcement touches what `a` says of `peer`. -/
structure Unchallenged (a : WireplugAnnouncement) (source : Ipv4Addr) (peer : String)
    (ls : List TaskLabel) : Prop where
  unswept : ∀ i now r, .called i (.removeOldRecords now) r ∉ ls
  alone : ∀ i b ipv4 now, .called i (.server (.insertRecords b ipv4)) now ∈ ls →
    b.initiatorPubkey = a.initiatorPubkey → peer ∈ b.peerPubkeys → b = a ∧ ipv4 = source

theorem Unchallenged.left {ls : List TaskLabel} {l : TaskLabel}
    (h : Unchallenged a source peer (ls ++ [l])) : Unchallenged a source peer ls :=
  ⟨fun i now r hmem ↦ h.unswept i now r (List.mem_append_left _ hmem),
    fun i b ipv4 now hmem ↦ h.alone i b ipv4 now (List.mem_append_left _ hmem)⟩

theorem storedTask_step {c c' : TaskConfig} {ls : List TaskLabel} {l : TaskLabel}
    (hls : Unchallenged a source peer (ls ++ [l])) (hs : tasks.Step c l c')
    (h : ∃ record, c.shared.storage.peeringRecords.get? (a.initiatorPubkey, peer) = some record ∧
      record.Carries a source) :
    ∃ record, c'.shared.storage.peeringRecords.get? (a.initiatorPubkey, peer) = some record ∧
      record.Carries a source := by
  have hlast : l ∈ ls ++ [l] := List.mem_append_right _ (List.mem_singleton_self _)
  cases hs with
  | opened => exact h
  | happened hs => exact hs.elim
  | @called i e k r s hi ha =>
    cases ha with
    | removeOldRecords _ now => exact (hls.unswept i now () hlast).elim
    | server ha =>
      cases ha with
      | insertRecords b ipv4 now =>
        by_cases hb : b.initiatorPubkey = a.initiatorPubkey ∧ peer ∈ b.peerPubkeys
        · obtain ⟨rfl, rfl⟩ := hls.alone i b ipv4 now hlast hb.1 hb.2
          exact get?_insertRecords hb.2 _ _ _
        · obtain ⟨record, hget, hcarries⟩ := h
          exact ⟨record, ((inserted _ b ipv4 now).untouched _ _ hb).trans hget, hcarries⟩
      | _ => exact h
    | _ => exact h

theorem stored_stays {c c' : TaskConfig} {ls : List TaskLabel} {now : ℕ → SystemTime}
    (h : tasks.Run c ls c') (hls : Unchallenged a source peer ls) (hpeer : peer ∈ a.peerPubkeys)
    (hmem : .called i (.server (.insertRecords a source)) now ∈ ls) :
    ∃ record, c'.shared.storage.peeringRecords.get? (a.initiatorPubkey, peer) = some record ∧
      record.Carries a source := by
  induction h with
  | nil => cases hmem
  | snoc _ hs ih =>
    rcases List.mem_append.mp hmem with hmem | hmem
    · exact storedTask_step hls hs (ih hls.left hmem)
    · obtain rfl := List.mem_singleton.mp hmem
      cases hs with
      | called _ ha =>
        cases ha with
        | server ha =>
          cases ha
          exact get?_insertRecords hpeer _ _ _

/-- The tasks of the server, in whatever order they run, do nothing that the pool of connections
cannot do. This is so whatever the locks do. -/
theorem locked_tasks_refine
    (h : tasks.LockedRun taskLocks L (lockedServer L debugNet storage rounds monitor) ls c) :
    ∃ c', server.Run (ServerConfig.start storage)
      ((ls.filterMap LockedLabel.base).filterMap seen) c' ∧ Matches c.config c' :=
  tasks_refine h.base

theorem locked_tasks_refine_crowded :
    ∃ (ls : List LockedTaskLabel) (c' : ServerConfig),
      .steps (.called 3 (.server (.insertRecords awaited (.new 203 0 113 5))) fun _ ↦ 0) ∈ ls ∧
      server.Run (ServerConfig.start .new) ((ls.filterMap LockedLabel.base).filterMap seen) c' := by
  obtain ⟨ls, hrun⟩ := crowded.run
  obtain ⟨found, c, hrest⟩ := run_uncrowding
  obtain ⟨c', hserver, -⟩ := locked_tasks_refine (hrun.trans hrest)
  exact ⟨_, c', by simp [uncrowding], hserver⟩

/-- As long as a task has a lock, until its call is over, nobody else changes what the lock
guards. -/
theorem locked_state_stable (hL : L.Fair)
    (h : tasks.LockedRun taskLocks L (lockedServer L debugNet storage rounds monitor) ls b)
    (h' : tasks.LockedRun taskLocks L b ms c) (hcall : ∀ e r, .steps (.called i e r) ∉ ms) :
    ((∃ m, L.Holds (b.locks .storage) i m) →
      c.config.shared.storage = b.config.shared.storage) ∧
    ((∃ m, L.Holds (b.locks .relayManager) i m) →
      c.config.shared.relayManager = b.config.shared.relayManager) ∧
    ((∃ m, L.Holds (b.locks .serverStats) i m) →
      c.config.shared.serverStats = b.config.shared.serverStats) := by
  have hb := locked_consistent hL h
  have hguarded : ∀ s i e r s', tasks.answers s i e r s' → _ := fun _ _ _ _ _ hs ↦
    taskAnswers_guarded hs
  refine ⟨?_, ?_, ?_⟩ <;> rintro ⟨m, hholds⟩
  · exact (h'.isolated hL taskLocks_ordered (fun s i e r s' hs ↦ (hguarded s i e r s' hs).1)
      (fun _ _ _ ↦ rfl) (fun _ _ _ hs ↦ hs.elim) hb hholds hcall).1
  · exact (h'.isolated hL taskLocks_ordered (fun s i e r s' hs ↦ (hguarded s i e r s' hs).2.1)
      (fun _ _ _ ↦ rfl) (fun _ _ _ hs ↦ hs.elim) hb hholds hcall).1
  · exact (h'.isolated hL taskLocks_ordered (fun s i e r s' hs ↦ (hguarded s i e r s' hs).2.2)
      (fun _ _ _ ↦ rfl) (fun _ _ _ hs ↦ hs.elim) hb hholds hcall).1

theorem locked_state_stable_crowded :
    ∃ c, tasks.LockedRun taskLocks (queueLock ℕ) crowdedServer meanwhile c ∧
      c.config.shared.serverStats.tlsErrros = 1 ∧ c.config.shared.storage = .new := by
  obtain ⟨c, hmeanwhile, hcounted⟩ := run_meanwhile
  obtain ⟨ls, hrun⟩ := crowded.run
  exact ⟨c, hmeanwhile, hcounted, (locked_state_stable queueLock_fair hrun hmeanwhile
    fun e r hmem ↦ by simp [meanwhile] at hmem).1 ⟨_, crowded.holds⟩⟩

/-- If from some moment on only the tasks go on that have locks or wait for one, each of them is
through after four steps at most. Until then one of them can go on, and in the end nobody has a
lock or waits for one. -/
theorem locks_get_free (hL : L.Fair)
    (h : tasks.LockedRun taskLocks L (lockedServer L debugNet storage rounds monitor) ls c) :
    {j | Inside c j}.Finite ∧
    (∃ js c', tasks.Drains taskLocks L c js c' ∧ ∀ j, ¬ Inside c' j) ∧
    ∀ js c', tasks.Drains taskLocks L c js c' → (∀ j, js.count j ≤ 4) ∧
      ((∀ j, ¬ Inside c' j) ↔ ∀ l j m, ¬ L.Member (c'.locks l) j m) ∧
      ((∃ j, Inside c' j) → ∃ j label c'', Inside c' j ∧
        tasks.LockedStep taskLocks L c' label c'' ∧ label.thread = some j) := by
  have hconsistent := locked_consistent hL h
  have hfinite : {j | Inside c j}.Finite := by
    refine h.finite_inside ?_
    have hnone : {j | Inside (lockedServer L debugNet storage rounds monitor) j} = ∅ :=
      Set.eq_empty_of_forall_notMem fun j hj ↦ hj rfl
    rw [hnone]
    exact Set.finite_empty
  have hmem : ∀ j, Inside c j → j ∈ hfinite.toFinset := fun j hj ↦ hfinite.mem_toFinset.mpr hj
  refine ⟨hfinite, hconsistent.drains hL taskLocks_ordered taskAnswers_total hmem,
    fun js c' hdrains ↦ ⟨fun j ↦ ?_, ?_, fun hinside ↦ ?_⟩⟩
  · have hcount := hdrains.count_le j
    have htodo := todo_le taskLocks_length c j hconsistent
    omega
  · have hconsistent' := hdrains.consistent hL taskLocks_ordered hconsistent
    constructor
    · exact fun hidle l j m hmember ↦ hidle j (hconsistent'.inside_iff.mpr ⟨l, m, hmember⟩)
    · intro hfree j hj
      obtain ⟨l, m, hmember⟩ := hconsistent'.inside_iff.mp hj
      exact hfree l j m hmember
  · obtain ⟨j, hj⟩ := hinside
    exact (hdrains.consistent hL taskLocks_ordered hconsistent).progress hL taskLocks_ordered
      taskAnswers_total hj

theorem locks_get_free_crowded :
    Inside crowdedServer 2 ∧ Inside crowdedServer 3 ∧
      ∃ js c, tasks.Drains taskLocks (queueLock ℕ) crowdedServer js c ∧ ∀ j, ¬ Inside c j := by
  obtain ⟨ls, hrun⟩ := crowded.run
  exact ⟨(by intro h; cases h), (by intro h; cases h), (locks_get_free queueLock_fair hrun).2.1⟩

/-- A task that waits to write what a lock guards does so before all tasks that ask for the lock
later. A lookup that asks later finds what waits to be stored. -/
theorem waiting_writer_first {e e' : TaskEffect} {k : e.Answer → TaskProgram} {r' : e'.Answer}
    {l : SharedLock} {m : LockMode} (hL : L.Fair)
    (h : tasks.LockedRun taskLocks L (lockedServer L debugNet storage rounds monitor) ls b)
    (h' : tasks.LockedRun taskLocks L b (ms ++ .steps (.called j e' r') :: ms') c)
    (hcall : b.config.threads i = some (.call e k)) (hi : (i, .write) ∈ L.queue (b.locks l))
    (hj : ∀ m, ¬ L.Member (b.locks l) j m) (he' : (l, m) ∈ taskLocks e') :
    (∃ r, .steps (.called i e r) ∈ ms) ∧
    ∀ a source announcement addr found, e = .server (.insertRecords a source) →
      (.called j e' r' : TaskLabel) =
        .called j (.server (.getPeerEndpoints announcement addr)) found →
      announcement.initiatorPubkey ∈ a.peerPubkeys →
      a.initiatorPubkey ∈ announcement.peerPubkeys →
      Unchallenged a source announcement.initiatorPubkey (ms.filterMap LockedLabel.base) →
      found.get? a.initiatorPubkey = some (directEndpoint a source addr) := by
  have hb := locked_consistent hL h
  obtain ⟨r, hr⟩ := h'.writes_first hL taskLocks_ordered hb hcall hi hj he'
  refine ⟨⟨r, hr⟩, ?_⟩
  rintro a source announcement addr found rfl hlookup hnames hnamed hunchallenged
  obtain ⟨d, d', hd, hs, -⟩ := h'.split_at
  rw [hlookup] at hs
  obtain ⟨record, hrecord, hcarries⟩ := stored_stays hd.base hunchallenged hnames
    (List.mem_filterMap.mpr ⟨_, hr, rfl⟩)
  cases hs with
  | called _ _ ha =>
    cases ha with
    | server ha =>
      rw [get?_lookup ha, if_pos hnamed, lookupEndpoint, hrecord]
      exact congrArg some (endpointFor_of_carries hcarries addr)
  | others _ hl => exact (hl _ _ _ rfl).elim

theorem waiting_writer_first_crowded :
    ∃ found c, tasks.LockedRun taskLocks (queueLock ℕ) crowdedServer (uncrowding ++
        .steps (.called 4 (.server (.getPeerEndpoints lookup plainAddr)) found) :: []) c ∧
      found.get? (Key.filled 1).toBase64 =
        some (directEndpoint awaited (.new 203 0 113 5) plainAddr) := by
  obtain ⟨ls, hrun⟩ := crowded.run
  obtain ⟨found, c, hrest⟩ := run_uncrowding
  refine ⟨found, c, hrest, (waiting_writer_first queueLock_fair hrun hrest crowded.calls
    crowded.waits crowded.outside List.mem_cons_self).2 _ _ _ _ _ rfl rfl ?_ ?_ ⟨?_, ?_⟩⟩
  · exact List.mem_singleton_self _
  · exact List.mem_singleton_self _
  · intro i now r hmem
    simp [uncrowding, LockedLabel.base] at hmem
  · intro i a ipv4 now hmem hinitiator
    have hkeys : (Key.filled 2).toBase64 ≠ (Key.filled 1).toBase64 := fun heq ↦
      absurd (toBase64_injective heq) (by decide)
    simp [uncrowding, LockedLabel.base] at hmem
    rcases hmem with ⟨-, ⟨rfl, rfl⟩, -⟩ | ⟨-, ⟨rfl, rfl⟩, -⟩
    · exact (hkeys hinitiator).elim
    · exact fun _ ↦ ⟨rfl, rfl⟩

end Runs

end Wireplug
