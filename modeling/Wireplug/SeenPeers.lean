import Wireplug.Daemon

namespace Wireplug

open Foundation Program ByteStream Client

namespace PeerTracker

theorem tracks_update {peerTracker : PeerTracker} {p : PeerInfo} {k : Key} :
    (peerTracker.update p).2.Tracks k ↔ peerTracker.Tracks k ∨ p.publicKey = k := by
  rw [update, Tracks, Tracks]
  cases hget : peerTracker.peers.get? p.publicKey with
  | none =>
    dsimp only
    rw [HashMap.get?_insert]
    split
    · next h => exact iff_of_true ⟨_, rfl⟩ (.inr h.symm)
    · next h => exact ⟨.inl, fun hk ↦ hk.resolve_right fun he ↦ h he.symm⟩
  | some info =>
    have hold : (∃ info, peerTracker.peers.get? k = some info) ↔
        (∃ info, peerTracker.peers.get? k = some info) ∨ p.publicKey = k := by
      refine ⟨.inl, fun hk ↦ hk.elim id fun he ↦ ?_⟩
      rw [← he, hget]
      exact ⟨info, rfl⟩
    dsimp only
    split
    · rw [← hold, HashMap.get?_modify]
      split
      · next h => rw [h, hget]; exact iff_of_true ⟨_, rfl⟩ ⟨_, rfl⟩
      · rfl
    · exact hold

theorem tracks_updateAll {peerTracker : PeerTracker} {ps : List PeerInfo} {k : Key} :
    (peerTracker.updateAll ps).Tracks k ↔
      peerTracker.Tracks k ∨ ∃ p ∈ ps, p.publicKey = k := by
  induction ps generalizing peerTracker with
  | nil => simp [updateAll]
  | cons p ps ih =>
    rw [updateAll, List.foldl_cons, ← updateAll, ih, tracks_update, or_assoc]
    simp

theorem listInactive_snd (peerTracker : PeerTracker) (ps : List PeerInfo) :
    (peerTracker.listInactive ps).2 =
      peerTracker.updateAll (ps.filter fun p ↦ p.lastHandshakeTime.isSome) := by
  induction ps generalizing peerTracker with
  | nil => rfl
  | cons p ps ih =>
    rw [listInactive, List.filter_cons]
    cases hhandshake : p.lastHandshakeTime with
    | none => exact ih peerTracker
    | some time => exact ih (peerTracker.update p).2

theorem tracks_listInactive {peerTracker : PeerTracker} {ps : List PeerInfo} {k : Key} :
    (peerTracker.listInactive ps).2.Tracks k ↔
      peerTracker.Tracks k ∨ ∃ p ∈ ps, p.publicKey = k ∧ p.lastHandshakeTime ≠ none := by
  rw [listInactive_snd, tracks_updateAll]
  simp only [List.mem_filter, Option.isSome_iff_ne_none]
  exact or_congr_right (exists_congr fun p ↦ and_assoc.trans (and_congr_right fun _ ↦ and_comm))

theorem listInactive_subset {peerTracker : PeerTracker} {ps : List PeerInfo} :
    (peerTracker.listInactive ps).1 ⊆ ps.map PeerInfo.publicKey := by
  induction ps generalizing peerTracker with
  | nil => exact List.Subset.refl _
  | cons p ps ih =>
    rw [listInactive, List.map_cons]
    split
    · exact List.cons_subset_cons _ ih
    · dsimp only
      split
      · exact List.subset_cons_of_subset _ ih
      · exact List.cons_subset_cons _ ih

end PeerTracker

/-- The tracker has seen the peer: on the interface at the start, or with a
handshake in a poll. -/
def Seen (t : ClientTrace) (k : Key) : Prop :=
  ∃ device : Device,
    (⟨.deviceGet .initPeersActivity, .ok device⟩ ∈ t ∧ ∃ p ∈ device.peers, p.publicKey = k) ∨
    (⟨.deviceGet .getInactivePeersByRx, .ok device⟩ ∈ t ∧
      ∃ p ∈ device.peers, p.publicKey = k ∧ p.lastHandshakeTime ≠ none)

/-- Every response contains exactly the keys that were announced. -/
def AnswersAnnounced : (e : ClientEffect) → e.Answer → Prop
  | .sendAnnouncement a, .ok response =>
    ∀ peer, peer ∈ response.peerEndpoints.keys ↔ peer ∈ a.peerPubkeys
  | _, _ => True

def ListsSeenPeers (t : ClientTrace) : (e : ClientEffect) → e.Answer → Prop
  | .deviceGet .getAllPeers, .ok device => ∀ p ∈ device.peers, Seen t p.publicKey
  | .deviceGet .getInactivePeersByRx, .ok device =>
    ∀ p ∈ device.peers, p.lastHandshakeTime = none → Seen t p.publicKey
  | _, _ => True

def SeenPeersOnly (t : ClientTrace) (e : ClientEffect) (r : e.Answer) : Prop :=
  AnswersAnnounced e r ∧ ListsSeenPeers t e r

def AnnouncesSeen (t : ClientTrace) (e : ClientEffect) : Prop :=
  ∀ a, e = .sendAnnouncement a → ∀ peer ∈ a.peerPubkeys, ∃ k, peer = k.toBase64 ∧ Seen t k

def Unseeing (e : ClientEffect) : Prop :=
  e ≠ .deviceGet .initPeersActivity ∧ e ≠ .deviceGet .getInactivePeersByRx

def Quiet : ClientEffect → Prop
  | .deviceGet .initPeersActivity | .deviceGet .getInactivePeersByRx => False
  | .sendAnnouncement _ => False
  | _ => True

variable {t u : ClientTrace} {k : Key} {e : ClientEffect}

theorem Quiet.unseeing (h : Quiet e) : Unseeing e := by
  constructor
  · intro he
    rw [he] at h
    exact h
  · intro he
    rw [he] at h
    exact h

theorem Quiet.announcesSeen (h : Quiet e) : AnnouncesSeen t e := by
  intro a ha
  rw [ha] at h
  exact h.elim

theorem seen_append : Seen (t ++ u) k ↔ Seen t k ∨ Seen u k := by
  simp only [Seen, List.mem_append, or_and_right, exists_or]
  exact or_or_or_comm

theorem not_seen (hu : ∀ ev ∈ u, Unseeing ev.1) : ¬ Seen u k := by
  intro h
  obtain ⟨device, ⟨hmem, -⟩ | ⟨hmem, -⟩⟩ := h
  · exact (hu _ hmem).1 rfl
  · exact (hu _ hmem).2 rfl

theorem seen_start {device : Device} :
    Seen [⟨.deviceGet .initPeersActivity, .ok device⟩] k ↔ ∃ p ∈ device.peers, p.publicKey = k := by
  constructor
  · intro h
    obtain ⟨device', ⟨hmem, hp⟩ | ⟨hmem, -⟩⟩ := h
    · cases List.mem_singleton.mp hmem
      exact hp
    · cases List.mem_singleton.mp hmem
  · exact fun hp ↦ ⟨device, .inl ⟨List.mem_singleton.mpr rfl, hp⟩⟩

theorem seen_poll {device : Device} :
    Seen [⟨.deviceGet .getInactivePeersByRx, .ok device⟩] k ↔
      ∃ p ∈ device.peers, p.publicKey = k ∧ p.lastHandshakeTime ≠ none := by
  constructor
  · intro h
    obtain ⟨device', ⟨hmem, -⟩ | ⟨hmem, hp⟩⟩ := h
    · cases List.mem_singleton.mp hmem
    · cases List.mem_singleton.mp hmem
      exact hp
  · exact fun hp ↦ ⟨device, .inr ⟨List.mem_singleton.mpr rfl, hp⟩⟩

theorem unseeing_singleton (he : Unseeing e) (r : e.Answer) :
    ∀ ev ∈ [(⟨e, r⟩ : Event ClientEffect.Answer)], Unseeing ev.1 := by
  intro ev hev
  cases List.mem_singleton.mp hev
  exact he

theorem unseeing_sendAnnouncement (a : WireplugAnnouncement) : Unseeing (.sendAnnouncement a) := by
  constructor
  · intro he
    cases he
  · intro he
    cases he

/-- The tracker holds the peers seen so far, the list only such peers. -/
structure Tracked (peerTracker : PeerTracker) (inactivePeers : List Key) (t : ClientTrace) :
    Prop where
  tracks : ∀ k, Seen t k ↔ peerTracker.Tracks k
  inactive : ∀ k ∈ inactivePeers, Seen t k

variable {peerTracker : PeerTracker} {inactivePeers : List Key}

theorem Tracked.append (h : Tracked peerTracker inactivePeers t) (hu : ∀ ev ∈ u, Unseeing ev.1) :
    Tracked peerTracker inactivePeers (t ++ u) where
  tracks k := by rw [seen_append, or_iff_left (not_seen hu), h.tracks k]
  inactive k hk := seen_append.mpr (.inl (h.inactive k hk))

theorem Tracked.snoc (h : Tracked peerTracker inactivePeers t) (e : ClientEffect) (he : Quiet e)
    (r : e.Answer) : Tracked peerTracker inactivePeers (t ++ [⟨e, r⟩]) :=
  h.append (unseeing_singleton he.unseeing r)

theorem Tracked.call {α : Type} (h : Tracked peerTracker inactivePeers t) (he : Quiet e)
    {k : e.Answer → Program ClientEffect.Answer α} {post : α → ClientTrace → Prop}
    (hk : ∀ r, SeenPeersOnly t e r → Tracked peerTracker inactivePeers (t ++ [⟨e, r⟩]) →
      (k r).Ensures SeenPeersOnly AnnouncesSeen post (t ++ [⟨e, r⟩])) :
    (Program.call e k).Ensures SeenPeersOnly AnnouncesSeen post t :=
  .call he.announcesSeen fun r hr ↦ hk r hr (h.snoc e he r)

theorem Tracked.ask {α : Type} (h : Tracked peerTracker inactivePeers t) (he : Quiet e)
    {f : e.Answer → Client α} {post : Except ClientError α → ClientTrace → Prop}
    (hf : ∀ r, SeenPeersOnly t e r → Tracked peerTracker inactivePeers (t ++ [⟨e, r⟩]) →
      (f r).run.Ensures SeenPeersOnly AnnouncesSeen post (t ++ [⟨e, r⟩])) :
    (Client.ask e >>= f).run.Ensures SeenPeersOnly AnnouncesSeen post t :=
  ensures_ask he.announcesSeen fun r hr ↦ hf r hr (h.snoc e he r)

def NotMissing (e : ClientError) : Prop := ∀ k, e ≠ noEntity k

theorem notMissing_io (e : IoError) : NotMissing (.io e) := by
  intro k h
  cases h

end Wireplug
