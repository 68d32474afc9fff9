import Wireplug.Foundation.Counting
import Wireplug.ResponseBound
import Wireplug.TaskRefinement

namespace Wireplug

open Foundation Foundation.Program Foundation.System ByteStream

def storesRelay : Event ServerEffect.Answer → Bool
  | ⟨.insertRecords a _, _⟩ => a.needsRelay
  | _ => false

/-- After the calls `t`, each such announcement is counted at once, and nothing else. -/
def Counted {α : Type} (p : Handler α) (t : Trace ServerEffect.Answer) : Prop :=
  p.run.Ensures (fun _ _ _ ↦ True) (fun t e ↦ e = .incRelaysNeeded ↔ EndsIn storesRelay t)
    (fun _ t ↦ ¬ EndsIn storesRelay t) t

section Connection

variable {t : Trace ServerEffect.Answer}

theorem counted_recordAnnouncement (a : WireplugAnnouncement) (addr : SocketAddr)
    (ht : ¬ EndsIn storesRelay t) : Counted (recordAnnouncement a addr) t := by
  rw [Counted, recordAnnouncement, processAnnouncement]
  cases addr.ip with
  | v6 ip => exact ht
  | v4 ipv4 =>
    refine .call (iff_of_false (by simp) ht) fun now _ ↦ ?_
    cases hrelay : a.needsRelay with
    | false => exact not_endsIn_snoc hrelay
    | true => exact .call (iff_of_true rfl (endsIn_snoc.mpr hrelay)) fun _ _ ↦ not_endsIn_snoc rfl

theorem counted_onStream {α : Type} (p : ExceptT ServerError (Program ByteStream.Answer) α)
    (ht : ¬ EndsIn storesRelay t) : Counted (onStream p) t := by
  refine counts_of_only (only_embed _ _ _) ?_ ht
  rintro _ ⟨e, rfl⟩
  exact ⟨by simp, fun _ ↦ rfl⟩

theorem counted_try {α : Type} {p : Handler α} {f : α → Handler Unit} (hp : Counted p t)
    (hf : ∀ a u, ¬ EndsIn storesRelay u → Counted (f a) u) : Counted (p >>= f) t := by
  refine (ensures_try _ _ _).mpr (hp.mono fun r u hu ↦ ?_)
  cases r with
  | error e => exact hu
  | ok a => exact hf a u hu

theorem counted_handleConnection (addr : SocketAddr) : Counted (handleConnection addr) [] := by
  refine counted_try (counted_onStream readAnnouncement not_endsIn_nil) fun announcement t ht ↦ ?_
  cases announcement with
  | none => exact ht
  | some a =>
    dsimp only
    split
    · rw [Counted, answerAnnouncement_run]
      refine .call (iff_of_false (by simp) ht) fun m _ ↦ ?_
      refine counted_try (counted_onStream _ (not_endsIn_snoc rfl)) fun _ u hu ↦ ?_
      exact counted_try (counted_onStream shutdown hu) fun _ v hv ↦
        counted_recordAnnouncement a addr hv
    · exact counted_onStream shutdown ht

end Connection

def storesTaskRelay : Event TaskEffect.Answer → Bool
  | ⟨.server e, r⟩ => storesRelay ⟨e, r⟩
  | _ => false

def failsTls : Event TaskEffect.Answer → Bool
  | ⟨.accept _, .error _⟩ => true
  | _ => false

def Alone : TaskEffect → Prop
  | .accept _ | .server _ | .incTlsErrors => False
  | _ => True

theorem sweeper_alone (rounds : ℕ) : (sweeper rounds).run.Only Alone fun _ ↦ True := by
  induction rounds with
  | zero => trivial
  | succ rounds ih =>
    rw [sweeper_succ]
    exact ⟨trivial, fun _ ↦ ⟨trivial, fun _ ↦ ⟨trivial, fun _ ↦ ih⟩⟩⟩

variable {debugNet : IpNet → String} {storage : Storage} {rounds : ℕ} {monitor : Option ℕ}
  {ls : List TaskLabel} {c : TaskConfig} {i : ℕ} {p : TaskProgram}

theorem started_cases
    (h : tasks.Started (TaskConfig.start debugNet storage rounds monitor) ls i p) :
    p.Only Alone (fun _ ↦ True) ∨ ∃ addr, p = (serveConnection addr).run := by
  rcases h with hi | ⟨-, addr, -, rfl⟩
  · refine .inl ?_
    match i with
    | 0 =>
      cases hi
      exact sweeper_alone rounds
    | 1 =>
      obtain ⟨n, -, rfl⟩ := Option.map_eq_some_iff.mp hi
      refine (statusWriter_watches n true).mono (fun e he ↦ ?_) fun _ _ ↦ trivial
      cases e <;> trivial
    | i + 2 => cases hi
  · exact .inr ⟨addr, rfl⟩

theorem countsNext_tls
    (h : tasks.Started (TaskConfig.start debugNet storage rounds monitor) ls i p) :
    CountsNext failsTls (· = .incTlsErrors) p := by
  rcases started_cases h with halone | ⟨addr, rfl⟩
  · refine counts_of_only halone (fun e he ↦ ⟨?_, fun r ↦ ?_⟩) not_endsIn_nil
    · rintro rfl
      exact he
    · cases e <;> first | rfl | exact he.elim
  · rw [serveConnection_eq]
    refine .call (iff_of_false (by simp) not_endsIn_nil) fun r _ ↦ ?_
    cases r with
    | error e =>
      exact .call (iff_of_true rfl (endsIn_snoc.mpr rfl)) fun _ _ ↦ not_endsIn_snoc rfl
    | ok _ =>
      refine counts_of_only (only_embed _ _ _) ?_ (not_endsIn_snoc rfl)
      rintro _ ⟨e, rfl⟩
      exact ⟨by simp, fun _ ↦ rfl⟩

def serverCalls (t : Trace TaskEffect.Answer) : Trace ServerEffect.Answer :=
  t.filterMap fun
    | ⟨.server e, r⟩ => some ⟨e, r⟩
    | _ => none

theorem serverCalls_snoc (t : Trace TaskEffect.Answer) (e : ServerEffect) (r : e.Answer) :
    serverCalls (t ++ [⟨.server e, r⟩]) = serverCalls t ++ [⟨e, r⟩] := by
  rw [serverCalls, List.filterMap_append]
  rfl

def OwesAlike (t : Trace TaskEffect.Answer) : Prop :=
  EndsIn storesTaskRelay t ↔ EndsIn storesRelay (serverCalls t)

theorem owesAlike_snoc (t : Trace TaskEffect.Answer) (e : ServerEffect) (r : e.Answer) :
    OwesAlike (t ++ [⟨.server e, r⟩]) := by
  rw [OwesAlike, serverCalls_snoc, endsIn_snoc, endsIn_snoc]
  rfl

theorem countsNext_relay
    (h : tasks.Started (TaskConfig.start debugNet storage rounds monitor) ls i p) :
    CountsNext storesTaskRelay (· = .server .incRelaysNeeded) p := by
  rcases started_cases h with halone | ⟨addr, rfl⟩
  · refine counts_of_only halone (fun e he ↦ ⟨?_, fun r ↦ ?_⟩) not_endsIn_nil
    · rintro rfl
      exact he
    · cases e <;> first | rfl | exact he.elim
  · rw [serveConnection_eq]
    refine .call (iff_of_false (by simp) not_endsIn_nil) fun r _ ↦ ?_
    cases r with
    | error e =>
      refine .call (iff_of_false (by simp) (not_endsIn_snoc rfl)) fun _ _ ↦ not_endsIn_snoc rfl
    | ok r =>
      have hstart : OwesAlike [⟨.accept addr, .ok r⟩] :=
        iff_of_false (@not_endsIn_snoc _ _ _ [] _ rfl) not_endsIn_nil
      have hconnection : (handleConnection addr).run.Ensures (fun _ _ _ ↦ True)
          (fun t e ↦ e = .incRelaysNeeded ↔ EndsIn storesRelay t)
          (fun _ t ↦ ¬ EndsIn storesRelay t) (serverCalls [⟨.accept addr, .ok r⟩]) :=
        counted_handleConnection addr
      refine Ensures.embed serverCalls_snoc (fun t e r _ ↦ owesAlike_snoc t e r)
        (fun _ _ _ _ ↦ trivial) (fun t e ht he ↦ ?_) (fun t _ ht hpost ↦ mt ht.mp hpost)
        hconnection hstart
      have howes : EndsIn storesTaskRelay t ↔ EndsIn storesRelay (serverCalls t) := ht
      rw [howes, ← he]
      simp

theorem stats_step {s s' : ServerState} {e : TaskEffect} {r : e.Answer}
    (h : TaskAnswers s i e r s') :
    s'.serverStats.tlsErrros = s.serverStats.tlsErrros + (if e = .incTlsErrors then 1 else 0) ∧
      s'.serverStats.relaysNeeded =
        s.serverStats.relaysNeeded + (if e = .server .incRelaysNeeded then 1 else 0) := by
  cases h with
  | server h => cases h <;> simp [ServerStats.incRelaysNeeded]
  | _ => simp [ServerStats.incTlsErrors]

theorem stats_counted
    (h : tasks.Run (TaskConfig.start debugNet storage rounds monitor) ls c) :
    c.shared.serverStats.tlsErrros = UInt64.ofNat (ls.countP (targets (· = .incTlsErrors))) ∧
      c.shared.serverStats.relaysNeeded =
        UInt64.ofNat (ls.countP (targets (· = .server .incRelaysNeeded))) := by
  induction h with
  | nil => exact ⟨rfl, rfl⟩
  | snoc _ hs ih =>
    rw [List.countP_append, List.countP_append, List.countP_singleton, List.countP_singleton,
      UInt64.ofNat_add, UInt64.ofNat_add, ← ih.1, ← ih.2]
    cases hs with
    | opened => exact ⟨(UInt64.add_zero _).symm, (UInt64.add_zero _).symm⟩
    | called _ ha =>
      simp only [targets, decide_eq_true_eq, apply_ite UInt64.ofNat]
      exact stats_step ha
    | happened hs => exact hs.elim

/-- A counter that has counted all of `total` but `owed`. It wraps around. -/
structure CountedUpTo (counter : UInt64) (total owed : ℕ) : Prop where
  wrapped : UInt64.ofNat total = counter + UInt64.ofNat owed
  exact : total < 2 ^ 64 → total = counter.toNat + owed

theorem countedUpTo {counter : UInt64} {total counted owed : ℕ}
    (hcounter : counter = UInt64.ofNat counted) (h : total = counted + owed) :
    CountedUpTo counter total owed := by
  subst hcounter h
  refine ⟨UInt64.ofNat_add counted owed, fun htotal ↦ ?_⟩
  have hcounted : counted < 2 ^ 64 := Nat.lt_of_le_of_lt (Nat.le_add_right _ _) htotal
  rw [UInt64.toNat_ofNat_of_lt' hcounted]

theorem exists_call_eq {e₀ : TaskEffect} :
    (∃ e k, c.threads i = some (.call e k) ∧ e = e₀) ↔ ∃ k, c.threads i = some (.call e₀ k) := by
  constructor
  · rintro ⟨_, k, hk, rfl⟩
    exact ⟨k, hk⟩
  · rintro ⟨k, hk⟩
    exact ⟨_, k, hk, rfl⟩

/-- The two numbers that the status shows say how many handshakes have failed, and how many stored
announcements have asked for a relay, but for those that a task is just about to count. -/
theorem stats_exact (h : tasks.Run (TaskConfig.start debugNet storage rounds monitor) ls c) :
    let rejecting := {i | ∃ k, c.threads i = some (.call .incTlsErrors k)}
    let recording := {i | ∃ k, c.threads i = some (.call (.server .incRelaysNeeded) k)}
    rejecting.Finite ∧ recording.Finite ∧
      CountedUpTo c.shared.serverStats.tlsErrros (ls.countP (causes failsTls)) rejecting.ncard ∧
      CountedUpTo c.shared.serverStats.relaysNeeded (ls.countP (causes storesTaskRelay))
        recording.ncard := by
  intro rejecting recording
  have hrejecting : owing failsTls ls = rejecting := by
    ext i
    rw [mem_owing, owes_iff (fun _ _ ↦ countsNext_tls) h i]
    exact exists_call_eq
  have hrecording : owing storesTaskRelay ls = recording := by
    ext i
    rw [mem_owing, owes_iff (fun _ _ ↦ countsNext_relay) h i]
    exact exists_call_eq
  obtain ⟨hfinite, htls⟩ := count_owed (fun _ _ ↦ countsNext_tls) h
  obtain ⟨hfinite', hrelay⟩ := count_owed (fun _ _ ↦ countsNext_relay) h
  obtain ⟨hcount, hcount'⟩ := stats_counted h
  rw [← hrejecting, ← hrecording]
  exact ⟨hfinite, hfinite', countedUpTo hcount htls, countedUpTo hcount' hrelay⟩

theorem run_owing : ∃ ls c,
    tasks.Run (TaskConfig.start (fun _ ↦ "") .new 0 none) ls c ∧
      ls.countP (causes failsTls) = 1 ∧ ls.countP (causes storesTaskRelay) = 1 ∧
      c.shared.serverStats = .new := by
  let source : Ipv4Addr := .new 203 0 113 5
  let addr : SocketAddr := .v4 source 51820
  let a := askingAnnouncement (.filled 0) (.filled 1)
  obtain ⟨t, ht, hpath, hmoves⟩ := path_asking (.filled 0) (.filled 1) source 51820 3
  obtain ⟨⟨_, threads⟩, hrejected, rfl, hfree⟩ : ∃ c,
      tasks.Run (TaskConfig.start (fun _ ↦ "") .new 0 none)
        ([] ++ [.opened 2 addr] ++ [.called 2 (.accept addr) (.error .failed)]) c ∧
        ServerState.start .new = c.shared ∧ c.threads 3 = none :=
    ⟨_, System.Run.nil.snoc (.opened addr rfl) |>.snoc
      (.called rfl (TaskAnswers.accept _ 2 addr (.error .failed))), rfl, rfl⟩
  have hserved := @run_serving ⟨.start .new, threads⟩ _ 3 addr _ _ hfree
    (hpath.trans (.cons (.nil _)))
    (hmoves.trans (.cons (ServerAnswers.insertRecords (.start .new) 3 a source fun _ ↦ 0) (.nil _)))
  have htls (u : ServerTrace) : (u.map fun ev ↦ (.called 3 (.server ev.1) ev.2 : TaskLabel)).countP
      (causes failsTls) = 0 := by
    rw [List.countP_map]
    exact List.countP_eq_zero.mpr fun ev _ ↦ Bool.false_ne_true
  have hquiet : (t.map fun ev ↦ (.called 3 (.server ev.1) ev.2 : TaskLabel)).countP
      (causes storesTaskRelay) = 0 := by
    rw [List.countP_map]
    refine List.countP_eq_zero.mpr fun ev hev ↦ ?_
    obtain ⟨e, r⟩ := ev
    rcases ht _ hev with ⟨e, rfl⟩ | rfl <;> exact Bool.false_ne_true
  refine ⟨_, _, hrejected.trans hserved, ?_, ?_, rfl⟩
  · simp only [List.countP_append, List.countP_cons, htls]
    rfl
  · simp only [List.map_append, List.countP_append, List.countP_cons, hquiet]
    rfl

/-- One handshake has failed, and another connection has stored an announcement that asks for a
relay; neither is counted yet. -/
theorem stats_exact_owing : ∃ c : TaskConfig, c.shared.serverStats = .new ∧
    1 = c.shared.serverStats.tlsErrros.toNat +
      {i | ∃ k, c.threads i = some (.call .incTlsErrors k)}.ncard ∧
    1 = c.shared.serverStats.relaysNeeded.toNat +
      {i | ∃ k, c.threads i = some (.call (.server .incRelaysNeeded) k)}.ncard := by
  obtain ⟨ls, c, hrun, htls, hrelay, hnew⟩ := run_owing
  obtain ⟨-, -, hrejecting, hrecording⟩ := stats_exact hrun
  rw [htls] at hrejecting
  rw [hrelay] at hrecording
  exact ⟨c, hnew, hrejecting.exact (by decide), hrecording.exact (by decide)⟩

end Wireplug
