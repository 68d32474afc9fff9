import Wireplug.Connection
import Wireplug.ServerTasks

namespace Wireplug

open Foundation Foundation.Program ByteStream

variable {c c₁ : TaskConfig} {c' : ServerConfig} {s s' : ServerState} {i : ℕ} {e : TaskEffect}
  {k : e.Answer → TaskProgram} {r : e.Answer} {debugNet : IpNet → String}

theorem only_await {P : TaskEffect → Prop} {F : ServerError → Prop} (he : P e) :
    (await e).run.Only P (Ends (fun _ ↦ True) F) := ⟨he, fun _ ↦ trivial⟩

theorem statusRound_watches (prevOk : Bool) : (statusRound debugNet prevOk).run.Only Watches
    (Ends (fun _ ↦ True) fun _ ↦ True) := by
  have hsend (text : String) : (sendStatus text prevOk).run.Only Watches
      (Ends (fun _ ↦ True) fun _ ↦ True) := by
    refine (only_await trivial).try fun r _ ↦ ?_
    cases r with
    | error e =>
      cases prevOk with
      | false => trivial
      | true => exact Only.try (only_await trivial) fun _ _ ↦ trivial
    | ok _ =>
      refine Only.try (only_await trivial) fun r _ ↦ ?_
      cases r with
      | error e => exact Only.try (only_await trivial) fun _ _ ↦ trivial
      | ok _ => trivial
  refine (only_await trivial).try fun looked _ ↦ ?_
  have hpeers : (ExceptT.mk (.done (writeRecords debugNet looked.1 looked.2)) :
      ServerTask String).run.Only Watches (Ends (fun _ ↦ True) fun _ ↦ True) := by
    change Ends _ _ (writeRecords debugNet looked.1 looked.2)
    cases writeRecords debugNet looked.1 looked.2 <;> trivial
  refine Only.try hpeers fun peers _ ↦ Only.try (only_await trivial) fun rm _ ↦ ?_
  refine Only.try (only_await trivial) fun stats _ ↦ Only.try (hsend _) fun prevOk _ ↦ ?_
  exact Only.try (only_await trivial) fun _ _ ↦ trivial

theorem statusWriter_watches (rounds : ℕ) (prevOk : Bool) :
    (statusWriter debugNet rounds prevOk).run.Only Watches fun _ ↦ True := by
  have hends : (statusWriter debugNet rounds prevOk).run.Only Watches
      (Ends (fun _ ↦ True) fun _ ↦ True) := by
    induction rounds generalizing prevOk with
    | zero => trivial
    | succ rounds ih => exact (statusRound_watches prevOk).try fun prevOk _ ↦ ih prevOk
  exact hends.mono (fun _ he ↦ he) fun _ _ ↦ trivial

theorem TaskAnswers.of_watches (h : TaskAnswers s i e r s') (he : Watches e) : s' = s := by
  cases h with
  | readStorage | readRelays | readStats | connectMonSock | writeMonSock | warn | sleep => rfl
  | _ => exact he.elim

theorem seen_of_watches (he : Watches e) : seen (.called i e r) = none := by
  cases e with
  | readStorage | readRelays | readStats | connectMonSock | writeMonSock | warn | sleep => rfl
  | _ => exact he.elim

theorem sweeper_succ (rounds : ℕ) : (sweeper (rounds + 1)).run =
    .call .now fun now ↦ .call (.removeOldRecords now) fun _ ↦
      .call (.sleep 60) fun _ ↦ (sweeper rounds).run := rfl

theorem serveConnection_eq (addr : SocketAddr) : (serveConnection addr).run =
    .call (.accept addr) fun
      | .error _ => .call .incTlsErrors fun _ ↦ .done (.ok ())
      | .ok _ => (handleConnection addr).run.embed .server fun _ r ↦ r :=
  congrArg (Program.call _) (funext fun r ↦ by cases r <;> rfl)

theorem moves_server {t : ServerTrace} (h : server.Moves i s t s') :
    tasks.Moves i s (t.map fun ev ↦ ⟨.server ev.1, ev.2⟩) s' := by
  induction h with
  | nil s => exact .nil s
  | cons h _ ih => exact .cons (TaskAnswers.server h) ih

theorem run_serving {addr : SocketAddr} {t : ServerTrace}
    {q : Program ServerEffect.Answer (Except ServerError Unit)} (hfree : c.threads i = none)
    (hpath : (handleConnection addr).run.Path t q) (hmoves : server.Moves i c.shared t s') :
    tasks.Run c (.opened i addr :: .called i (.accept addr) (.ok ()) ::
        t.map fun ev ↦ .called i (.server ev.1) ev.2)
      ⟨s', Function.update c.threads i (some (q.embed .server fun _ r ↦ r))⟩ := by
  have hopen : tasks.Step c (.opened i addr)
      ⟨c.shared, Function.update c.threads i (some (serveConnection addr).run)⟩ :=
    .opened addr hfree
  have hserved : (serveConnection addr).run.Path
      (⟨.accept addr, .ok ()⟩ :: t.map fun ev ↦ ⟨.server ev.1, ev.2⟩)
      (q.embed .server fun _ r ↦ r) := by
    have hembed : ((handleConnection addr).run.embed TaskEffect.server fun _ r ↦ r).Path
        (t.map fun ev ↦ (⟨.server ev.1, ev.2⟩ : Event TaskEffect.Answer))
        (q.embed .server fun _ r ↦ r) :=
      @Path.embed _ _ _ _ TaskEffect.Answer .server (fun _ r ↦ r) (fun _ r ↦ r) (fun _ _ ↦ rfl)
        _ _ _ hpath
    rw [serveConnection_eq]
    exact .cons hembed
  have hrun := System.Run.along hserved
    (.cons (TaskAnswers.accept c.shared i addr (.ok ())) (moves_server hmoves)) c.threads
  rw [List.map_cons, List.map_map] at hrun
  exact (System.Run.one hopen).trans hrun

theorem Sweeping.step (h : Sweeping s.sweeping (.call e k)) (hs : TaskAnswers s i e r s') :
    Sweeping s'.sweeping (k r) ∧ (seen (.called i e r) = none ∧ s' = s ∨
      ∃ ev, seen (.called i e r) = some (.happened ev) ∧ ServerHappens s ev s') := by
  generalize hsweeping : s.sweeping = sweeping at h
  generalize hp : Program.call e k = p at h
  cases h with
  | starts rounds =>
    cases rounds with
    | zero => cases hp
    | succ rounds =>
      rw [sweeper_succ] at hp
      cases hp
      cases hs
      exact ⟨.waits _ rounds, .inr ⟨_, rfl, .sweepStarts s hsweeping _⟩⟩
  | waits now rounds =>
    cases hp
    cases hs
    exact ⟨.sleeps rounds, .inr ⟨_, rfl, .sweeps s now hsweeping⟩⟩
  | sleeps rounds =>
    cases hp
    cases hs
    rw [hsweeping]
    exact ⟨.starts rounds, .inl ⟨rfl, rfl⟩⟩

theorem Corresponds.step {thread : Option (Program ServerEffect.Answer (Except ServerError Unit))}
    (h : Corresponds (some (.call e k)) thread) (hs : TaskAnswers c'.shared i e r s')
    (hi : c'.threads i = thread) : s'.sweeping = c'.shared.sweeping ∧
    ∃ thread', Corresponds (some (k r)) thread' ∧
      server.Run c' (seen (.called i e r)).toList
        ⟨s', Function.update c'.threads i thread'⟩ := by
  have hsame : c' = ⟨c'.shared, Function.update c'.threads i thread⟩ := by
    rw [← hi, Function.update_eq_self]
  generalize hp : some (Program.call e k) = p at h
  cases h with
  | free => cases hp
  | accepting addr =>
    rw [serveConnection_eq] at hp
    cases hp
    cases hs with
    | accept =>
      cases r with
      | error e =>
        refine ⟨rfl, none, .rejecting, ?_⟩
        rw [← hsame]
        exact .nil
      | ok _ => exact ⟨rfl, _, .serving _, .one (.opened addr hi)⟩
  | rejecting =>
    cases hp
    cases hs
    refine ⟨rfl, none, .watching trivial, ?_⟩
    rw [← hi, Function.update_eq_self]
    exact .one (.happened (.tlsError c'.shared))
  | serving p =>
    cases p with
    | done a => cases hp
    | call e₀ k₀ =>
      cases hp
      cases hs with
      | server hs =>
        refine ⟨?_, _, .serving (k₀ r), .one (.called hi hs)⟩
        cases hs <;> rfl
  | @watching p hwatches =>
    cases hp
    obtain ⟨he, hrest⟩ := hwatches
    obtain rfl := hs.of_watches he
    refine ⟨rfl, none, .watching (hrest r), ?_⟩
    rw [← hsame, seen_of_watches he]
    exact .nil

theorem matches_step {l : TaskLabel} (hs : tasks.Step c l c₁) (h : Matches c c') :
    ∃ c₁', server.Run c' (seen l).toList c₁' ∧ Matches c₁ c₁' := by
  obtain ⟨p, hp, hsweeping⟩ := h.sweeper
  cases hs with
  | @opened i addr hfree =>
    have hi : i ≠ 0 := by
      rintro rfl
      rw [hp] at hfree
      cases hfree
    have hfree' : c'.threads i = none := by
      have hcorr := h.others i hi
      rw [hfree] at hcorr
      generalize c'.threads i = thread at hcorr
      cases hcorr
      rfl
    refine ⟨c', .nil, h.shared, ⟨p, ?_, hsweeping⟩, h.none, fun j hj ↦ ?_⟩
    · dsimp only
      rw [Function.update_of_ne hi.symm, hp]
    · by_cases hji : j = i
      · subst hji
        dsimp only
        rw [Function.update_self, hfree']
        exact .accepting addr
      · dsimp only
        rw [Function.update_of_ne hji]
        exact h.others j hj
  | @called i e k r s' hi hs =>
    by_cases hzero : i = 0
    · subst hzero
      rw [hi] at hp
      cases hp
      obtain ⟨hsweeping', hseen⟩ := hsweeping.step hs
      have hothers : ∀ j, j ≠ 0 →
          Corresponds (Function.update c.threads 0 (some (k r)) j) (c'.threads j) := by
        intro j hj
        rw [Function.update_of_ne hj]
        exact h.others j hj
      have hmatches : Matches ⟨s', Function.update c.threads 0 (some (k r))⟩ ⟨s', c'.threads⟩ := by
        refine ⟨rfl, ⟨k r, ?_, hsweeping'⟩, h.none, hothers⟩
        dsimp only
        rw [Function.update_self]
      refine ⟨_, ?_, hmatches⟩
      rcases hseen with ⟨hseen, rfl⟩ | ⟨ev, hseen, hhappens⟩
      · rw [hseen, ← h.shared]
        exact .nil
      · rw [hseen]
        rw [← h.shared] at hhappens
        exact .one (.happened hhappens)
    · have hcorr := h.others i hzero
      rw [hi] at hcorr
      have hs' : TaskAnswers c'.shared i e r s' := by
        rw [h.shared]
        exact hs
      obtain ⟨hsame, thread', hcorr', hrun⟩ := hcorr.step hs' rfl
      rw [h.shared] at hsame
      refine ⟨_, hrun, rfl, ⟨p, ?_, ?_⟩, ?_, fun j hj ↦ ?_⟩
      · dsimp only
        rw [Function.update_of_ne (Ne.symm hzero), hp]
      · dsimp only
        rw [hsame]
        exact hsweeping
      · dsimp only
        rw [Function.update_of_ne (Ne.symm hzero), h.none]
      · dsimp only
        by_cases hji : j = i
        · subst hji
          rw [Function.update_self, Function.update_self]
          exact hcorr'
        · rw [Function.update_of_ne hji, Function.update_of_ne hji]
          exact h.others j hj
  | happened hs => exact hs.elim

theorem matches_start (storage : Storage) (rounds : ℕ) (monitor : Option ℕ) :
    Matches (TaskConfig.start debugNet storage rounds monitor) (ServerConfig.start storage) := by
  refine ⟨rfl, ⟨_, rfl, .starts rounds⟩, rfl, fun i hi ↦ ?_⟩
  match i with
  | 0 => exact (hi rfl).elim
  | 1 =>
    cases monitor with
    | none => exact .free
    | some rounds => exact .watching (statusWriter_watches rounds true)
  | i + 2 => exact .free

/-- Whatever the tasks of the server do, the pool of connections can do in the same order, with
the same effect on the shared state. -/
theorem tasks_refine {storage : Storage} {rounds : ℕ} {monitor : Option ℕ} {ls : List TaskLabel}
    (h : tasks.Run (TaskConfig.start debugNet storage rounds monitor) ls c) :
    ∃ c', server.Run (ServerConfig.start storage) (ls.filterMap seen) c' ∧ Matches c c' := by
  induction h with
  | nil => exact ⟨_, .nil, matches_start storage rounds monitor⟩
  | @snoc _ _ _ l _ hs ih =>
    obtain ⟨c', hrun, hmatches⟩ := ih
    obtain ⟨c₁', hstep, hmatches'⟩ := matches_step hs hmatches
    have hlast : [l].filterMap seen = (seen l).toList := by
      cases hl : seen l <;> simp [hl]
    rw [List.filterMap_append, hlast]
    exact ⟨c₁', hrun.trans hstep, hmatches'⟩

end Wireplug
