import Wireplug.Daemon

namespace Wireplug

open Foundation Program ByteStream Client

/-- What has happened since the last check that found a new network. -/
def sinceChange (t : ClientTrace) : ClientTrace :=
  t.foldl (fun w ev ↦ if ev.1 = .checked .changedToNew then [] else w ++ [ev]) []

def listenPorts (t : ClientTrace) : List UInt16 :=
  t.filterMap fun ev ↦ match ev.1 with
    | .updatePort newPort => some newPort
    | _ => none

/-- The port is the listen port set since the network has changed, or what a
detection on this network has observed for that listen port. -/
def BelongsToNetwork (t : ClientTrace) (port : UInt16) : Prop :=
  ∃ listenPort : RandomPort, ⟨.getRandomPort, listenPort⟩ ∈ sinceChange t ∧
    (listenPorts (sinceChange t)).getLast? = some listenPort.val ∧
    (port = listenPort.val ∨ ∃ nat,
      ⟨.detectKind listenPort.val, .ok (.fixedPortMapping nat)⟩ ∈ sinceChange t ∧
      port = nat.observedPort)

def DetectionFailed (t : ClientTrace) : Prop :=
  ∃ localPort e, ⟨.detectKind localPort, .error e⟩ ∈ sinceChange t

structure PortDrawn (w : ClientTrace) (listenPort : RandomPort) (port : UInt16) : Prop where
  drawn : ⟨.getRandomPort, listenPort⟩ ∈ w
  detected : ∀ localPort r, ⟨.detectKind localPort, r⟩ ∈ w →
    localPort = listenPort.val ∧ ∃ kind, r = .ok kind ∧ port = kind.announcedPort listenPort.val
  undetected : (∀ localPort r, ⟨.detectKind localPort, r⟩ ∉ w) → port = listenPort.val

structure PortChosen (w : ClientTrace) (listenPort : RandomPort) (port : UInt16) : Prop
    extends PortDrawn w listenPort port where
  set : listenPorts w = [listenPort.val]

/-- The detection on the present network has failed, and no port was set. -/
structure NoPort (w : ClientTrace) : Prop where
  failed : ∃ localPort e, ⟨.detectKind localPort, .error e⟩ ∈ w
  only_failed : ∀ localPort r, ⟨.detectKind localPort, r⟩ ∈ w → ∃ e, r = .error e
  unset : listenPorts w = []

def PortKnown (t : ClientTrace) (port : UInt16) : Prop :=
  (∃ listenPort, PortChosen (sinceChange t) listenPort port) ∨ NoPort (sinceChange t)

def Steady : ClientEffect → Prop
  | .checked status => status ≠ .changedToNew
  | .detectKind _ | .updatePort _ => False
  | _ => True

variable {t u w : ClientTrace} {port : UInt16}

theorem sinceChange_snoc (t : ClientTrace) (ev : Event ClientEffect.Answer) :
    sinceChange (t ++ [ev]) =
      if ev.1 = .checked .changedToNew then [] else sinceChange t ++ [ev] := by
  rw [sinceChange, List.foldl_append]
  rfl

theorem sinceChange_suffix (t : ClientTrace) : sinceChange t <:+ t := by
  induction t using List.reverseRecOn with
  | nil => exact List.suffix_rfl
  | append_singleton t ev ih =>
    rw [sinceChange_snoc]
    split
    · exact List.nil_suffix
    · obtain ⟨before, hb⟩ := ih
      exact ⟨before, by rw [← List.append_assoc, hb]⟩

theorem sinceChange_append (hu : ∀ ev ∈ u, Steady ev.1) :
    sinceChange (t ++ u) = sinceChange t ++ u := by
  induction u using List.reverseRecOn with
  | nil => rw [List.append_nil, List.append_nil]
  | append_singleton u ev ih =>
    have hev := hu ev (by simp)
    have hne : ev.1 ≠ .checked .changedToNew := by
      intro he
      rw [he] at hev
      exact hev rfl
    rw [← List.append_assoc, sinceChange_snoc, if_neg hne,
      ih fun ev' hev' ↦ hu ev' (List.mem_append_left _ hev'), List.append_assoc]

theorem listenPorts_append_of_steady (hu : ∀ ev ∈ u, Steady ev.1) :
    listenPorts (w ++ u) = listenPorts w := by
  have hnone : listenPorts u = [] := by
    refine List.filterMap_eq_nil_iff.mpr fun ev hev ↦ ?_
    have h := hu ev hev
    obtain ⟨e, r⟩ := ev
    cases e with
    | updatePort newPort => exact h.elim
    | _ => rfl
  rw [listenPorts, List.filterMap_append, ← listenPorts, ← listenPorts, hnone, List.append_nil]

theorem noPort_of_failed (newPort : RandomPort) (e : StunError) :
    NoPort [⟨.getRandomPort, newPort⟩, ⟨.detectKind newPort.val, .error e⟩, ⟨.sleep 5, ()⟩] where
  failed := ⟨newPort.val, e, List.mem_cons_of_mem _ List.mem_cons_self⟩
  only_failed localPort r hr := by
    simp only [List.mem_cons, List.not_mem_nil, or_false] at hr
    rcases hr with hr | hr | hr <;> cases hr
    exact ⟨e, rfl⟩
  unset := rfl

theorem portDrawn_of_detected (newPort : RandomPort) (kind : NatKind) :
    PortDrawn [⟨.getRandomPort, newPort⟩, ⟨.detectKind newPort.val, .ok kind⟩] newPort
      (kind.announcedPort newPort.val) where
  drawn := List.mem_cons_self
  detected localPort r hr := by
    rcases List.mem_cons.mp hr with hr | hr
    · cases hr
    · cases List.mem_singleton.mp hr
      exact ⟨rfl, kind, rfl, rfl⟩
  undetected hnot := (hnot _ _ (List.mem_cons_of_mem _ List.mem_cons_self)).elim

theorem portDrawn_undetected (newPort : RandomPort) :
    PortDrawn [⟨.getRandomPort, newPort⟩] newPort newPort.val where
  drawn := List.mem_cons_self
  detected localPort r hr := by cases List.mem_singleton.mp hr
  undetected _ := rfl

theorem PortDrawn.append {listenPort : RandomPort} (h : PortDrawn w listenPort port)
    (hu : ∀ ev ∈ u, ∀ localPort, ev.1 ≠ .detectKind localPort) :
    PortDrawn (w ++ u) listenPort port where
  drawn := List.mem_append_left _ h.drawn
  detected localPort r hr := by
    rcases List.mem_append.mp hr with hr | hr
    · exact h.detected localPort r hr
    · exact (hu _ hr localPort rfl).elim
  undetected hnot := h.undetected fun localPort r hr ↦
    hnot localPort r (List.mem_append_left _ hr)

theorem PortDrawn.chosen {listenPort : RandomPort} (h : PortDrawn w listenPort port)
    (hunset : listenPorts w = []) (device : Device) :
    PortChosen (w ++ [⟨.sleep 3, ()⟩, ⟨.updatePort listenPort.val, .ok ()⟩,
      ⟨.deviceGet .getAllPeers, .ok device⟩]) listenPort port := by
  refine ⟨h.append fun ev hev localPort he ↦ ?_, ?_⟩
  · simp only [List.mem_cons, List.not_mem_nil, or_false] at hev
    rcases hev with rfl | rfl | rfl <;> cases he
  · rw [listenPorts, List.filterMap_append, ← listenPorts, hunset]
    rfl

theorem PortKnown.append (h : PortKnown t port) (hu : ∀ ev ∈ u, Steady ev.1) :
    PortKnown (t ++ u) port := by
  rw [PortKnown, sinceChange_append hu]
  rcases h with ⟨listenPort, h⟩ | h
  · refine .inl ⟨listenPort, h.toPortDrawn.append fun ev hev localPort he ↦ ?_, ?_⟩
    · have hsteady := hu ev hev
      rw [he] at hsteady
      exact hsteady
    · rw [listenPorts_append_of_steady hu]
      exact h.set
  · obtain ⟨localPort, e, he⟩ := h.failed
    refine .inr ⟨⟨localPort, e, List.mem_append_left _ he⟩, fun localPort r hr ↦ ?_, ?_⟩
    · rcases List.mem_append.mp hr with hr | hr
      · exact h.only_failed localPort r hr
      · exact (hu _ hr).elim
    · rw [listenPorts_append_of_steady hu]
      exact h.unset

theorem PortKnown.belongs_iff (h : PortKnown t port) :
    BelongsToNetwork t port ↔ ¬ DetectionFailed t := by
  rcases h with ⟨listenPort, h⟩ | h
  · refine iff_of_true ⟨listenPort, h.drawn, ?_, ?_⟩ ?_
    · rw [h.set]
      rfl
    · by_cases hdet : ∃ localPort r, ⟨.detectKind localPort, r⟩ ∈ sinceChange t
      · obtain ⟨localPort, r, hr⟩ := hdet
        obtain ⟨rfl, kind, rfl, hport⟩ := h.detected localPort r hr
        cases kind with
        | easy => exact .inl hport
        | fixedPortMapping nat => exact .inr ⟨nat, hr, hport⟩
        | hard => exact .inl hport
      · exact .inl (h.undetected fun localPort r hr ↦ hdet ⟨localPort, r, hr⟩)
    · intro h
      obtain ⟨localPort, e, he⟩ := h
      obtain ⟨-, kind, hkind, -⟩ := h.detected localPort _ he
      cases hkind
  · refine iff_of_false ?_ (not_not_intro h.failed)
    intro h
    obtain ⟨listenPort, -, hlast, -⟩ := h
    rw [h.unset] at hlast
    cases hlast

end Wireplug
