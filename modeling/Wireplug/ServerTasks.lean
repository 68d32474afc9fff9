import Wireplug.StatusText

namespace Wireplug

open Foundation Foundation.Program ByteStream

/-- The two warnings of `start_writer`. -/
inductive StatusWarning where
  | monitoringSocket (e : IoError)
  | failedToOpen (e : IoError)
  deriving DecidableEq

/-- The points at which a task may be suspended. A warning is no such point. -/
inductive TaskEffect where
  | accept (addr : SocketAddr)
  | server (e : ServerEffect)
  | incTlsErrors
  | now
  | removeOldRecords (now : SystemTime)
  | sleep (secs : ℕ)
  | readStorage
  | readRelays
  | readStats
  | connectMonSock
  | writeMonSock (text : String)
  | warn (warning : StatusWarning)
  deriving DecidableEq

/-- A look at the storage takes the clock and the records with it. -/
@[reducible] def TaskEffect.Answer : TaskEffect → Type
  | .accept _ => Except IoError Unit
  | .server e => e.Answer
  | .incTlsErrors => Unit
  | .now => SystemTime
  | .removeOldRecords _ => Unit
  | .sleep _ => Unit
  | .readStorage => SystemTime × List ((String × String) × Record)
  | .readRelays => RelayManager
  | .readStats => ServerStats
  | .connectMonSock => Except IoError Unit
  | .writeMonSock _ => Except IoError Unit
  | .warn _ => Unit

abbrev TaskProgram := Program TaskEffect.Answer (Except ServerError Unit)

abbrev ServerTask (α : Type) := ExceptT ServerError (Program TaskEffect.Answer) α

def await (e : TaskEffect) : ServerTask e.Answer := ExceptT.mk (.call e fun r ↦ .done (.ok r))

/-- The task that `serve` spawns for a connection. -/
def serveConnection (peerAddr : SocketAddr) : ServerTask Unit := do
  match ← await (.accept peerAddr) with
  | .error _ => await .incTlsErrors
  | .ok _ => ExceptT.mk ((handleConnection peerAddr).run.embed .server fun _ r ↦ r)

/-- The clock is read before the write lock is asked for. -/
def removeOldRecords : ServerTask Unit := do
  let now ← await .now
  await (.removeOldRecords now)

def sweeper : ℕ → ServerTask Unit
  | 0 => pure ()
  | rounds + 1 => do
    removeOldRecords
    await (.sleep 60)
    sweeper rounds

section StatusWriter

variable (debugNet : IpNet → String)

/-- A round of `start_writer` from the connection to the socket on. -/
def sendStatus (text : String) (prevOk : Bool) : ServerTask Bool := do
  match ← await .connectMonSock with
  | .ok _ => do
    match ← await (.writeMonSock text) with
    | .error e => do
      await (.warn (.monitoringSocket e))
      pure prevOk
    | .ok _ => pure true
  | .error e =>
    if prevOk then do
      await (.warn (.failedToOpen e))
      pure false
    else pure prevOk

def statusRound (prevOk : Bool) : ServerTask Bool := do
  let (now, records) ← await .readStorage
  let peers ← ExceptT.mk (.done (writeRecords debugNet now records))
  let relayManager ← await .readRelays
  let serverStats ← await .readStats
  let prevOk ← sendStatus (clearScreen ++ statusBody peers relayManager serverStats) prevOk
  await (.sleep 3)
  pure prevOk

def statusWriter : ℕ → Bool → ServerTask Unit
  | 0, _ => pure ()
  | rounds + 1, prevOk => do
    let prevOk ← statusRound debugNet prevOk
    statusWriter rounds prevOk

end StatusWriter

structure RelayManager.Lists (rm rm' : RelayManager) : Prop where
  proto : rm'.proto.entries.Perm rm.proto.entries
  pending : rm'.pending.entries.Perm rm.pending.entries
  established : rm'.established.entries.Perm rm.established.entries

inductive TaskAnswers : ServerState → ℕ → (e : TaskEffect) → e.Answer → ServerState → Prop
  | accept (s : ServerState) (i : ℕ) (addr : SocketAddr) (r : Except IoError Unit) :
      TaskAnswers s i (.accept addr) r s
  | server {s s' : ServerState} {i : ℕ} {e : ServerEffect} {r : e.Answer}
      (h : ServerAnswers s i e r s') : TaskAnswers s i (.server e) r s'
  | incTlsErrors (s : ServerState) (i : ℕ) :
      TaskAnswers s i .incTlsErrors () { s with serverStats := s.serverStats.incTlsErrors }
  | now (s : ServerState) (i : ℕ) (now : SystemTime) :
      TaskAnswers s i .now now { s with sweeping := some now }
  | removeOldRecords (s : ServerState) (i : ℕ) (now : SystemTime) :
      TaskAnswers s i (.removeOldRecords now) ()
        { s with storage := s.storage.removeOldRecords now, sweeping := none }
  | sleep (s : ServerState) (i secs : ℕ) : TaskAnswers s i (.sleep secs) () s
  | readStorage (s : ServerState) (i : ℕ) (now : SystemTime)
      {records : List ((String × String) × Record)}
      (hperm : records.Perm s.storage.peeringRecords.entries) :
      TaskAnswers s i .readStorage (now, records) s
  | readRelays (s : ServerState) (i : ℕ) {rm : RelayManager} (h : s.relayManager.Lists rm) :
      TaskAnswers s i .readRelays rm s
  | readStats (s : ServerState) (i : ℕ) : TaskAnswers s i .readStats s.serverStats s
  | connectMonSock (s : ServerState) (i : ℕ) (r : Except IoError Unit) :
      TaskAnswers s i .connectMonSock r s
  | writeMonSock (s : ServerState) (i : ℕ) (text : String) (r : Except IoError Unit) :
      TaskAnswers s i (.writeMonSock text) r s
  | warn (s : ServerState) (i : ℕ) (warning : StatusWarning) : TaskAnswers s i (.warn warning) () s

abbrev TaskLabel := Label ℕ SocketAddr TaskEffect.Answer Empty

abbrev TaskConfig := Config ℕ TaskEffect.Answer (Except ServerError Unit) ServerState

/-- The server of `main`. Only the sweeper's own task sets `sweeping`. -/
def tasks : System ℕ SocketAddr TaskEffect.Answer (Except ServerError Unit) ServerState Empty where
  program peerAddr := (serveConnection peerAddr).run
  opens s _ _ := s
  answers := TaskAnswers
  background _ _ _ := False

/-- The sweeper is task 0. With `--monitor` there is a status writer, task 1. -/
def TaskConfig.start (debugNet : IpNet → String) (storage : Storage) (rounds : ℕ)
    (monitor : Option ℕ) : TaskConfig where
  shared := .start storage
  threads
    | 0 => some (sweeper rounds).run
    | 1 => monitor.map fun rounds ↦ (statusWriter debugNet rounds true).run
    | _ => none

def seen : TaskLabel → Option ServerLabel
  | .called i (.accept addr) (.ok _) => some (.opened i addr)
  | .called i (.server e) r => some (.called i e r)
  | .called _ .incTlsErrors _ => some (.happened .tlsError)
  | .called _ .now now => some (.happened (.sweepStarts now))
  | .called _ (.removeOldRecords now) _ => some (.happened (.sweeps now))
  | _ => none

def Watches : TaskEffect → Prop
  | .readStorage | .readRelays | .readStats | .connectMonSock => True
  | .writeMonSock _ | .warn _ | .sleep _ => True
  | _ => False

inductive Sweeping : Option SystemTime → TaskProgram → Prop
  | starts (rounds : ℕ) : Sweeping none (sweeper rounds).run
  | waits (now : SystemTime) (rounds : ℕ) : Sweeping (some now)
      (.call (.removeOldRecords now) fun _ ↦ .call (.sleep 60) fun _ ↦ (sweeper rounds).run)
  | sleeps (rounds : ℕ) : Sweeping none (.call (.sleep 60) fun _ ↦ (sweeper rounds).run)

/-- A connection exists in the pool once the TLS handshake is over. -/
inductive Corresponds : Option TaskProgram →
    Option (Program ServerEffect.Answer (Except ServerError Unit)) → Prop
  | free : Corresponds none none
  | accepting (addr : SocketAddr) : Corresponds (some (serveConnection addr).run) none
  | rejecting : Corresponds (some (.call .incTlsErrors fun _ ↦ .done (.ok ()))) none
  | serving (p : Program ServerEffect.Answer (Except ServerError Unit)) :
      Corresponds (some (p.embed .server fun _ r ↦ r)) (some p)
  | watching {p : TaskProgram} (h : p.Only Watches fun _ ↦ True) : Corresponds (some p) none

structure Matches (c : TaskConfig) (c' : ServerConfig) : Prop where
  shared : c'.shared = c.shared
  sweeper : ∃ p, c.threads 0 = some p ∧ Sweeping c.shared.sweeping p
  none : c'.threads 0 = none
  others : ∀ i, i ≠ 0 → Corresponds (c.threads i) (c'.threads i)

end Wireplug
