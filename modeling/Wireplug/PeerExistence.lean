import Mathlib.Data.Finset.Basic
import Wireplug.PeerOffers
import Wireplug.PeerTracking

namespace Wireplug

open Foundation Program ByteStream Client

variable {fromBase64 : String → Option Key} {ifName : String} {traverseNat : Bool}

inductive PeerChange where
  | added (k : Key)
  | removed (k : Key)
  deriving DecidableEq

def PeerChange.apply (peers : Finset Key) : PeerChange → Finset Key
  | .added k => insert k peers
  | .removed k => peers.erase k

def PeerChange.applyAll (peers : Finset Key) (cs : List PeerChange) : Finset Key :=
  cs.foldl PeerChange.apply peers

/-- An endpoint for a peer that is not on the interface adds it. -/
def afterCall (peers : Finset Key) : Event ClientEffect.Answer → Finset Key
  | ⟨.setEndpoint k _, .ok _⟩ => insert k peers
  | _ => peers

section Interface

variable (present : Finset Key) (changes : ℕ → List PeerChange)

/-- `changes n` is what the administrator does between the call before and the `n`-th. The
number of calls so far goes with the peers on the interface. -/
def interfaceStep (i : ℕ × Finset Key) (ev : Event ClientEffect.Answer) : ℕ × Finset Key :=
  (i.1 + 1, PeerChange.applyAll (afterCall i.2 ev) (changes (i.1 + 1)))

/-- The peers on the interface when the call after `t` is made. -/
def onInterface (t : ClientTrace) : Finset Key :=
  (t.foldl (interfaceStep changes) (0, PeerChange.applyAll present (changes 0))).2

def changesUntil (n : ℕ) : List PeerChange := (List.range (n + 1)).flatMap changes

def wantedPeers (n : ℕ) : Finset Key := PeerChange.applyAll present (changesUntil changes n)

/-- What the client reads of the interface is what is there. -/
def ReadsInterface (t : ClientTrace) : (e : ClientEffect) → e.Answer → Prop
  | .deviceGet _, .ok device =>
    ∀ k, k ∈ onInterface present changes t ↔ ∃ p ∈ device.peers, p.publicKey = k
  | _, _ => True

end Interface

/-- The peer was removed and has not been added again. -/
def Gone (cs : List PeerChange) (k : Key) : Prop :=
  ∃ before later, cs = before ++ .removed k :: later ∧ .added k ∉ later

namespace PeerChange

variable {peers : Finset Key} {cs cs' : List PeerChange} {k : Key} {c : PeerChange}

theorem applyAll_append (peers : Finset Key) (cs cs' : List PeerChange) :
    applyAll peers (cs ++ cs') = applyAll (applyAll peers cs) cs' := List.foldl_append

theorem applyAll_snoc (peers : Finset Key) (cs : List PeerChange) (c : PeerChange) :
    applyAll peers (cs ++ [c]) = apply (applyAll peers cs) c := applyAll_append peers cs [c]

theorem mem_apply : k ∈ apply peers c ↔ c = .added k ∨ k ∈ peers ∧ c ≠ .removed k := by
  cases c with
  | added k' => simp [apply, eq_comm]
  | removed k' => simp [apply, and_comm, eq_comm]

theorem gone_snoc : Gone (cs ++ [c]) k ↔ c = .removed k ∨ Gone cs k ∧ c ≠ .added k := by
  constructor
  · intro h
    obtain ⟨before, later, heq, hlater⟩ := h
    rcases last_or_before heq with ⟨-, hc, -⟩ | ⟨later, rfl, hcs⟩
    · exact .inl hc
    · rw [List.mem_append, List.mem_singleton, not_or] at hlater
      exact .inr ⟨⟨before, later, hcs, hlater.1⟩, Ne.symm hlater.2⟩
  · intro h
    rcases h with rfl | ⟨⟨before, later, rfl, hlater⟩, hc⟩
    · exact ⟨cs, [], rfl, List.not_mem_nil⟩
    · refine ⟨before, later ++ [c], by simp, ?_⟩
      rw [List.mem_append, List.mem_singleton, not_or]
      exact ⟨hlater, hc.symm⟩

theorem not_mem_of_gone (h : Gone cs k) : k ∉ applyAll peers cs := by
  induction cs using List.reverseRecOn with
  | nil =>
    obtain ⟨before, later, heq, -⟩ := h
    simp at heq
  | append_singleton cs c ih =>
    rw [applyAll_snoc, mem_apply]
    rcases gone_snoc.mp h with rfl | ⟨hgone, hc⟩
    · simp
    · exact fun hmem ↦ hmem.elim hc fun hmem ↦ ih hgone hmem.1

theorem mem_applyAll_append (h : k ∈ applyAll peers cs) (hgone : ¬ Gone (cs ++ cs') k) :
    k ∈ applyAll peers (cs ++ cs') := by
  induction cs' using List.reverseRecOn with
  | nil => rwa [List.append_nil]
  | append_singleton cs' c ih =>
    rw [← List.append_assoc] at hgone ⊢
    rw [gone_snoc, not_or, not_and_or, not_not] at hgone
    rw [applyAll_snoc, mem_apply]
    exact hgone.2.elim (fun hnot ↦ .inr ⟨ih hnot, hgone.1⟩) .inl

end PeerChange

section Interface

variable {present : Finset Key} {changes : ℕ → List PeerChange} {u v : ClientTrace} {k : Key}

theorem changesUntil_succ (n : ℕ) :
    changesUntil changes (n + 1) = changesUntil changes n ++ changes (n + 1) := by
  rw [changesUntil, List.range_succ, List.flatMap_append, List.flatMap_singleton, ← changesUntil]

theorem exists_changesUntil {m n : ℕ} (h : m ≤ n) :
    ∃ later, changesUntil changes n = changesUntil changes m ++ later := by
  induction n, h using Nat.le_induction with
  | base => exact ⟨[], (List.append_nil _).symm⟩
  | succ n _ ih =>
    obtain ⟨later, hlater⟩ := ih
    exact ⟨later ++ changes (n + 1), by rw [changesUntil_succ, hlater, List.append_assoc]⟩

theorem wantedPeers_succ (n : ℕ) : wantedPeers present changes (n + 1) =
    PeerChange.applyAll (wantedPeers present changes n) (changes (n + 1)) := by
  rw [wantedPeers, changesUntil_succ, PeerChange.applyAll_append, ← wantedPeers]

theorem mem_wantedPeers {m n : ℕ} (h : m ≤ n) (hm : k ∈ wantedPeers present changes m)
    (hgone : ¬ Gone (changesUntil changes n) k) : k ∈ wantedPeers present changes n := by
  obtain ⟨later, hlater⟩ := exists_changesUntil h
  rw [hlater] at hgone
  rw [wantedPeers, hlater]
  exact PeerChange.mem_applyAll_append hm hgone

theorem onInterface_snoc (t : ClientTrace) (ev : Event ClientEffect.Answer) :
    onInterface present changes (t ++ [ev]) = PeerChange.applyAll
      (afterCall (onInterface present changes t) ev) (changes (t.length + 1)) := by
  have hlength (i : ℕ × Finset Key) : (t.foldl (interfaceStep changes) i).1 = i.1 + t.length := by
    induction t generalizing i with
    | nil => rfl
    | cons ev t ih =>
      rw [List.foldl_cons, ih, interfaceStep, List.length_cons]
      omega
  rw [onInterface, List.foldl_append, List.foldl_cons, List.foldl_nil, interfaceStep, hlength,
    Nat.zero_add, ← onInterface]

variable (present changes) in
def KeepsPeers (t : ClientTrace) : Prop :=
  ∀ u ev v, t = u ++ ev :: v →
    afterCall (onInterface present changes u) ev = onInterface present changes u

variable {t : ClientTrace}

theorem KeepsPeers.left (h : KeepsPeers present changes (t ++ u)) :
    KeepsPeers present changes t := by
  rintro t' ev v rfl
  exact h t' ev (v ++ u) (by simp)

theorem KeepsPeers.snoc (h : KeepsPeers present changes t) {ev : Event ClientEffect.Answer}
    (hev : afterCall (onInterface present changes t) ev = onInterface present changes t) :
    KeepsPeers present changes (t ++ [ev]) := by
  intro u ev' v heq
  rcases last_or_before heq with ⟨rfl, rfl, -⟩ | ⟨w, -, hw⟩
  · exact hev
  · exact h u ev' w hw

theorem KeepsPeers.onInterface_eq (h : KeepsPeers present changes t) :
    onInterface present changes t = wantedPeers present changes t.length := by
  induction t using List.reverseRecOn with
  | nil => simp [onInterface, wantedPeers, changesUntil]
  | append_singleton t ev ih =>
    rw [onInterface_snoc, h t ev [] rfl, ih h.left, List.length_append, List.length_singleton,
      wantedPeers_succ]

variable {p : Program ClientEffect.Answer (Except ClientError MonitorState)}

theorem mem_onInterface_of_seen (hanswered : Answered (ReadsInterface present changes) [] u)
    (hkeeps : KeepsPeers present changes u) (hseen : Seen u k)
    (hgone : ¬ Gone (changesUntil changes u.length) k) : k ∈ onInterface present changes u := by
  have hlooked : ∃ reader device, ⟨.deviceGet reader, .ok device⟩ ∈ u ∧
      ∃ p ∈ device.peers, p.publicKey = k := by
    obtain ⟨device, ⟨hmem, hp⟩ | ⟨hmem, p, hp, hk, -⟩⟩ := hseen
    · exact ⟨_, device, hmem, hp⟩
    · exact ⟨_, device, hmem, p, hp, hk⟩
  obtain ⟨reader, device, hmem, hp⟩ := hlooked
  obtain ⟨w, x, rfl⟩ := List.append_of_mem hmem
  have hread : k ∈ onInterface present changes w := (hanswered.at k).mpr hp
  rw [hkeeps.left.onInterface_eq] at hread
  rw [hkeeps.onInterface_eq]
  exact mem_wantedPeers (by simp) hread hgone

def Refused : Event ClientEffect.Answer → Prop
  | ⟨.setEndpoint _ _, .error _⟩ => True
  | _ => False

/-- The client leaves alone which peers there are, exactly if no response offers a peer that is
gone, when its turn comes, an endpoint that the tracker does not have. -/
theorem keeps_peers_iff
    (h : MonitorRun fromBase64 ifName traverseNat (ReadsInterface present changes) t p) :
    KeepsPeers present changes t ↔ ∀ u ev v, t = u ++ ev :: v → ¬ Refused ev →
      ∀ k sa, Offers fromBase64 u k sa → OtherEndpoint (trackerAfter u) k sa →
        ¬ Gone (changesUntil changes u.length) k := by
  constructor
  · rintro hkeeps u ⟨e, r⟩ v ht htaken k sa hoffered hother hgone
    have hcall : e = .setEndpoint k sa := (applies_of_run h ht k sa).mpr ⟨hoffered, hother⟩
    subst hcall ht
    cases r with
    | error e => exact htaken trivial
    | ok r =>
      have hsame := hkeeps u _ v rfl
      have hmem : k ∈ onInterface present changes u := hsame ▸ Finset.mem_insert_self k _
      rw [hkeeps.left.onInterface_eq] at hmem
      exact PeerChange.not_mem_of_gone hgone hmem
  · intro hspares
    suffices hprefix : ∀ u v, t = u ++ v → KeepsPeers present changes u from
      hprefix t [] (List.append_nil t).symm
    intro u
    induction u using List.reverseRecOn with
    | nil =>
      intro v _ u ev w heq
      simp at heq
    | append_singleton u ev ih =>
      intro v ht
      have hkeeps := ih (ev :: v) (by rw [ht, List.append_assoc, List.singleton_append])
      refine hkeeps.snoc ?_
      rw [List.append_assoc, List.singleton_append] at ht
      obtain ⟨e, r⟩ := ev
      cases e with
      | setEndpoint k sa =>
        cases r with
        | error e => rfl
        | ok r =>
          obtain ⟨hoffered, hother⟩ := (applies_of_run h ht k sa).mp rfl
          obtain ⟨info, hinfo, -⟩ := id hother
          have hanswered := h.answered
          rw [ht] at hanswered
          exact Finset.insert_eq_of_mem (mem_onInterface_of_seen hanswered.left hkeeps
            (tracks_trackerAfter.mp ⟨info, hinfo⟩) (hspares u _ v ht id k sa hoffered hother))
      | _ => rfl

end Interface

theorem onInterface_of_untouched {present : Finset Key} {changes : ℕ → List PeerChange}
    {u : ClientTrace} (hu : ∀ ev ∈ u, BeforeHandling ev.1)
    (hchanges : ∀ n ≤ u.length, changes n = []) : onInterface present changes u = present := by
  induction u using List.reverseRecOn with
  | nil => rw [onInterface, List.foldl_nil, hchanges 0 (Nat.zero_le _)]; rfl
  | append_singleton u ev ih =>
    rw [List.length_append, List.length_singleton] at hchanges
    have hev : afterCall present ev = present := by
      have hbefore := hu ev (by simp)
      obtain ⟨e, r⟩ := ev
      cases e with
      | setEndpoint => exact hbefore.elim
      | _ => rfl
    rw [onInterface_snoc, hchanges _ (Nat.le_refl _),
      ih (fun ev hev ↦ hu ev (List.mem_append_left _ hev))
        fun n hn ↦ hchanges n (hn.trans (Nat.le_succ _)), hev]
    rfl

theorem answeredRound_run {changes : ℕ → List PeerChange} (h : ∀ n ≤ 12, changes n = []) :
    ∃ p, MonitorRun strictBase64 "wg0" true (ReadsInterface {.filled 2} changes)
      (started [silentPeer] ++ answeredRound (.ok ())) p := by
  have hread (t : ClientTrace) (ht : ∀ ev ∈ t, BeforeHandling ev.1) (hlen : t.length ≤ 12)
      (reader : DeviceReader) : ReadsInterface {.filled 2} changes t (.deviceGet reader)
        (.ok (wgDevice [silentPeer])) := by
    intro k
    rw [onInterface_of_untouched ht fun n hn ↦ h n (hn.trans hlen)]
    simp [wgDevice, silentPeer, eq_comm]
  obtain ⟨q, hq⟩ := answeredRound_path (.ok ())
  refine ⟨q, (start_run [silentPeer] ⟨?_, trivial, trivial⟩).follow hq
    ⟨trivial, trivial, trivial, trivial, trivial, trivial, trivial, ?_, trivial, ?_, trivial,
      trivial, trivial, trivial⟩⟩
  · exact hread [] (by simp) (Nat.zero_le _) _
  · exact hread _ (by simp [started, BeforeHandling]) (by simp [started]) _
  · exact hread _ (by simp [started, BeforeHandling]) (by simp [started]) _

def readded (n : ℕ) : List PeerChange :=
  if n = 13 then [.removed (.filled 2), .added (.filled 2)] else []

theorem not_gone_readded (n : ℕ) (k : Key) : ¬ Gone (changesUntil readded n) k := by
  have hchanges : changesUntil readded n =
      if n < 13 then [] else [.removed (.filled 2)] ++ [.added (.filled 2)] := by
    induction n with
    | zero => rfl
    | succ n ih =>
      rw [changesUntil_succ, ih, readded]
      split_ifs <;> first | rfl | omega
  have hnone : ¬ Gone [] k := by
    rintro ⟨before, later, heq, -⟩
    simp at heq
  rw [hchanges]
  split
  · exact hnone
  · rw [PeerChange.gone_snoc, ← List.nil_append [PeerChange.removed (.filled 2)],
      PeerChange.gone_snoc]
    rintro (h | ⟨h | ⟨h, -⟩, hne⟩)
    · cases h
    · cases h
      exact hne rfl
    · exact hnone h

theorem keeps_peers_iff_readded : KeepsPeers {.filled 2} readded
    (started [silentPeer] ++ answeredRound (.ok ())) := by
  obtain ⟨p, hp⟩ := @answeredRound_run readded fun n hn ↦ if_neg (by omega)
  exact (keeps_peers_iff hp).mpr fun u _ _ _ _ k _ _ _ ↦ not_gone_readded u.length k

def removedWaiting (n : ℕ) : List PeerChange := if n = 13 then [.removed (.filled 2)] else []

/-- The peer is gone when its endpoint arrives, and is there again after that. -/
theorem removed_peer_added_back : ∃ t u p,
    MonitorRun strictBase64 "wg0" true (ReadsInterface {.filled 2} removedWaiting) t p ∧
      t = u ++ [⟨.setEndpoint (.filled 2) addedEndpoint, .ok ()⟩] ∧
      onInterface {.filled 2} removedWaiting u = ∅ ∧
      onInterface {.filled 2} removedWaiting t = {.filled 2} := by
  have hchanges : ∀ n ≤ 12, removedWaiting n = [] := fun n hn ↦ if_neg (by omega)
  obtain ⟨p, hp⟩ := answeredRound_run hchanges
  exact ⟨_, started [silentPeer] ++ (answeredRound (.ok ())).take 12, p, hp, rfl, rfl, rfl⟩

end Wireplug
