import Wireplug.HardNat

namespace Wireplug

def lastNetwork (history : List NetInfo) : Option NetInfo :=
  (history.filter NetInfo.online).getLast?

/-- The status of `newInfo` after `history`, in which `hard_nat` plays no part. -/
def statusAfter (history : List NetInfo) (newInfo : NetInfo) : NetStatus :=
  match history.getLast? with
  | none => .changedToNew
  | some previous =>
    if newInfo.online then
      match lastNetwork history with
      | none => .changedToNew
      | some network =>
        if newInfo.eq network then (if previous.online then .online else .changedToPrev)
        else .changedToNew
    else .offline

theorem NetInfo.eq_congr {a b : NetInfo} (h : a.eq b = true) (newInfo : NetInfo) :
    newInfo.eq a = newInfo.eq b := by
  rw [Bool.eq_iff_iff]
  exact ⟨fun ha ↦ NetInfo.eq_trans ha h, fun hb ↦ NetInfo.eq_trans hb (NetInfo.eq_symm h)⟩

section History

variable {history : List NetInfo} {previous newInfo : NetInfo}

theorem lastNetwork_of_online (hlast : history.getLast? = some previous)
    (honline : previous.online = true) : lastNetwork history = some previous := by
  obtain ⟨before, rfl⟩ := List.getLast?_eq_some_iff.mp hlast
  simp [lastNetwork, honline]

theorem lastNetwork_snoc_online (h : newInfo.online = true) :
    lastNetwork (history ++ [newInfo]) = some newInfo :=
  lastNetwork_of_online List.getLast?_concat h

theorem lastNetwork_snoc_offline (h : newInfo.online = false) :
    lastNetwork (history ++ [newInfo]) = lastNetwork history := by
  simp [lastNetwork, h]

theorem statusAfter_offline (hlast : history.getLast? = some previous)
    (h : newInfo.online = false) : statusAfter history newInfo = .offline := by
  simp [statusAfter, hlast, h]

theorem statusAfter_of_lastNetwork (hlast : history.getLast? = some previous)
    (h : newInfo.online = true) {network : NetInfo} (hnetwork : lastNetwork history = some network) :
    statusAfter history newInfo =
      if newInfo.eq network then (if previous.online then .online else .changedToPrev)
      else .changedToNew := by
  simp [statusAfter, hlast, h, hnetwork]

end History

namespace NetworkMonitor

variable {netmon : NetworkMonitor} {history : List NetInfo} {newInfo current : NetInfo}

/-- The monitor holds the last detection, and compares with the network that was
detected last. -/
structure Recalls (netmon : NetworkMonitor) (history : List NetInfo) : Prop where
  current : Option.Rel (fun current previous ↦ current.eq previous = true) netmon.current
    history.getLast?
  lastOnline : ∀ newInfo, newInfo.online = true →
    netmon.isLastOnline newInfo = (lastNetwork history).any newInfo.eq

theorem recalls_new : new.Recalls [] := ⟨.none, fun _ _ ↦ rfl⟩

theorem Recalls.previous (h : netmon.Recalls history) (hcurrent : netmon.current = some current) :
    ∃ previous, history.getLast? = some previous ∧ current.eq previous = true := by
  have hrel := h.current
  rw [hcurrent] at hrel
  generalize history.getLast? = last at hrel
  cases hrel with
  | some heq => exact ⟨_, rfl, heq⟩

theorem Recalls.first (h : netmon.Recalls history) (hcurrent : netmon.current = none) :
    history = [] := by
  have hrel := h.current
  rw [hcurrent] at hrel
  generalize hlast : history.getLast? = last at hrel
  cases hrel with
  | none => exact List.getLast?_eq_none_iff.mp hlast

theorem Recalls.lastNetwork_eq (h : netmon.Recalls history)
    (hcurrent : netmon.current = some current) (honline : current.online = true) :
    ∃ network, lastNetwork history = some network ∧ current.eq network = true := by
  obtain ⟨previous, hlast, heq⟩ := h.previous hcurrent
  rw [NetInfo.online_of_eq heq] at honline
  exact ⟨previous, lastNetwork_of_online hlast honline, heq⟩

theorem recalls_changed (h : newInfo.online = true ∨ history = []) :
    Recalls ⟨some newInfo, some newInfo⟩ (history ++ [newInfo]) := by
  refine ⟨?_, fun d hd ↦ ?_⟩
  · rw [List.getLast?_concat]
    exact .some (NetInfo.eq_refl newInfo)
  · cases honline : newInfo.online with
    | true => rw [lastNetwork_snoc_online honline]; rfl
    | false =>
      obtain rfl : history = [] := h.resolve_left (by simp [honline])
      rw [lastNetwork_snoc_offline honline]
      refine Bool.eq_false_iff.mpr fun heq ↦ ?_
      rw [NetInfo.online_of_eq heq, honline] at hd
      cases hd

theorem Recalls.checkStatus (h : netmon.Recalls history) (newInfo : NetInfo) :
    (netmon.checkStatus newInfo).2.Recalls (history ++ [newInfo]) := by
  have hchecked := checked netmon newInfo
  generalize netmon.checkStatus newInfo = r at hchecked ⊢
  cases hchecked with
  | first hcurrent => exact recalls_changed (.inr (h.first hcurrent))
  | outage _ hoffline =>
    refine ⟨?_, fun d hd ↦ ?_⟩
    · rw [List.getLast?_concat]
      exact .some (NetInfo.eq_refl newInfo)
    · rw [lastNetwork_snoc_offline hoffline]
      exact h.lastOnline d hd
  | @same current hcurrent honline hsame =>
    refine ⟨?_, fun d hd ↦ ?_⟩
    · rw [List.getLast?_concat, hcurrent]
      exact .some (NetInfo.eq_symm hsame)
    · obtain ⟨network, hnetwork, heq⟩ := h.lastNetwork_eq hcurrent
        ((NetInfo.online_of_eq hsame).symm.trans honline)
      rw [h.lastOnline d hd, hnetwork, lastNetwork_snoc_online honline]
      exact NetInfo.eq_congr (NetInfo.eq_symm (NetInfo.eq_trans hsame heq)) d
  | @back _ last _ hlast honline _ hback =>
    refine ⟨?_, fun d _ ↦ ?_⟩
    · rw [List.getLast?_concat]
      exact .some (NetInfo.eq_refl newInfo)
    · rw [lastNetwork_snoc_online honline, isLastOnline, hlast]
      exact NetInfo.eq_congr (NetInfo.eq_symm hback) d
  | changed _ honline => exact recalls_changed (.inl honline)

theorem Recalls.setHardNat (h : netmon.Recalls history) (hardNat : Bool) :
    (netmon.setHardNat hardNat).Recalls history := by
  refine ⟨?_, h.lastOnline⟩
  have hrel := h.current
  rw [NetworkMonitor.setHardNat]
  generalize netmon.current = c, history.getLast? = last at hrel
  cases hrel with
  | none => exact .none
  | some heq => exact .some heq

def MayMark (expected status : NetStatus) : Prop :=
  status = expected ∨ status = .hardNat ∧ (expected = .online ∨ expected = .changedToPrev)

theorem Recalls.status (h : netmon.Recalls history) (newInfo : NetInfo) :
    MayMark (statusAfter history newInfo) (netmon.checkStatus newInfo).1 ∧
      ((∀ n, netmon.current = some n ∨ netmon.lastOnline = some n → n.hardNat = false) →
        (netmon.checkStatus newInfo).1 = statusAfter history newInfo) := by
  have hchecked := checked netmon newInfo
  generalize netmon.checkStatus newInfo = r at hchecked ⊢
  cases hchecked with
  | first hcurrent =>
    obtain rfl := h.first hcurrent
    exact ⟨.inl rfl, fun _ ↦ rfl⟩
  | outage hcurrent hoffline =>
    obtain ⟨previous, hlast, -⟩ := h.previous hcurrent
    rw [statusAfter_offline hlast hoffline]
    exact ⟨.inl rfl, fun _ ↦ rfl⟩
  | @same current hcurrent honline hsame =>
    obtain ⟨previous, hlast, heq⟩ := h.previous hcurrent
    have hnew := NetInfo.eq_trans hsame heq
    have hprevious : previous.online = true := (NetInfo.online_of_eq hnew).symm.trans honline
    have hexpected : statusAfter history newInfo = .online := by
      rw [statusAfter_of_lastNetwork hlast honline (lastNetwork_of_online hlast hprevious),
        if_pos hnew, if_pos hprevious]
    rw [hexpected]
    refine ⟨?_, fun hunmarked ↦ ?_⟩
    · cases current.hardNat with
      | true => exact .inr ⟨rfl, .inl rfl⟩
      | false => exact .inl rfl
    · rw [hunmarked current (.inl hcurrent)]
      rfl
  | @back current last hcurrent hlastOnline honline hoffline hback =>
    obtain ⟨previous, hlast, heq⟩ := h.previous hcurrent
    have hany := h.lastOnline newInfo honline
    rw [isLastOnline, hlastOnline, Option.any_some, hback] at hany
    obtain ⟨network, hnetwork, hnew⟩ := (Option.any_eq_true _ _).mp hany.symm
    have hexpected : statusAfter history newInfo = .changedToPrev := by
      rw [statusAfter_of_lastNetwork hlast honline hnetwork, if_pos hnew,
        ← NetInfo.online_of_eq heq, hoffline]
      rfl
    rw [hexpected]
    refine ⟨?_, fun hunmarked ↦ ?_⟩
    · cases last.hardNat with
      | true => exact .inr ⟨rfl, .inr rfl⟩
      | false => exact .inl rfl
    · rw [hunmarked last (.inr hlastOnline)]
      rfl
  | @changed current hcurrent honline hother hnew =>
    obtain ⟨previous, hlast, heq⟩ := h.previous hcurrent
    have hexpected : statusAfter history newInfo = .changedToNew := by
      cases hnetwork : lastNetwork history with
      | none => simp [statusAfter, hlast, honline, hnetwork]
      | some network =>
        have hdiffers : newInfo.eq network = false := by
          rcases hnew with hcurrentOnline | hnever
          · obtain ⟨network', hnetwork', hsame⟩ := h.lastNetwork_eq hcurrent hcurrentOnline
            cases hnetwork.symm.trans hnetwork'
            rw [← NetInfo.eq_congr hsame, hother]
          · have hany := h.lastOnline newInfo honline
            rw [hnetwork, Option.any_some] at hany
            rw [← hany, isLastOnline, Option.any_eq_false]
            simpa using hnever
        rw [statusAfter_of_lastNetwork hlast honline hnetwork, hdiffers]
        rfl
    rw [hexpected]
    exact ⟨.inl rfl, fun _ ↦ rfl⟩

def detection : Op → Option NetInfo
  | .checkStatus newInfo => some newInfo.1
  | .setHardNat _ => none

def detections (ops : List Op) : List NetInfo := ops.filterMap detection

theorem Recalls.run (h : netmon.Recalls history) (ops : List Op) :
    (netmon.run ops).Recalls (history ++ detections ops) := by
  induction ops generalizing netmon history with
  | nil =>
    rw [detections, List.filterMap_nil, List.append_nil]
    exact h
  | cons op ops ih =>
    cases op with
    | checkStatus newInfo =>
      have hrest := ih (h.checkStatus newInfo.1)
      rwa [List.append_assoc] at hrest
    | setHardNat hardNat => exact ih (h.setHardNat hardNat)

def Unmarked (netmon : NetworkMonitor) : Prop :=
  ∀ current, netmon.current = some current → current.hardNat = false

theorem unmarked_new : new.Unmarked := fun _ hcurrent ↦ by cases hcurrent

theorem Unmarked.checkStatus (h : netmon.Unmarked) (newInfo : Detection) :
    (netmon.checkStatus newInfo).2.Unmarked := by
  have hnew : ∀ current, some newInfo.1 = some current → current.hardNat = false := by
    intro current heq
    cases heq
    exact newInfo.2
  have hchecked := checked netmon newInfo
  generalize netmon.checkStatus newInfo = r at hchecked ⊢
  cases hchecked with
  | first | outage | back | changed => exact hnew
  | same => exact h

theorem unmarked_setHardNat (netmon : NetworkMonitor) : (netmon.setHardNat false).Unmarked := by
  intro current hcurrent
  obtain ⟨c, -, rfl⟩ := Option.map_eq_some_iff.mp hcurrent
  rfl

theorem Unmarked.run (h : netmon.Unmarked) {ops : List Op} (hops : .setHardNat true ∉ ops) :
    (netmon.run ops).Unmarked := by
  induction ops generalizing netmon with
  | nil => exact h
  | cons op ops ih =>
    have hrest : .setHardNat true ∉ ops := fun hmem ↦ hops (List.mem_cons_of_mem _ hmem)
    cases op with
    | checkStatus newInfo => exact ih (h.checkStatus newInfo) hrest
    | setHardNat hardNat =>
      cases hardNat with
      | true => exact (hops List.mem_cons_self).elim
      | false => exact ih (unmarked_setHardNat netmon) hrest

/-- Every status follows from what was detected before. Marks can only turn
`Online` and `ChangedToPrev` into `HardNat`. -/
theorem checkStatus_refines_history (ops : List Op) (newInfo : Detection) :
    MayMark (statusAfter (detections ops) newInfo) ((run new ops).checkStatus newInfo).1 ∧
      (.setHardNat true ∉ ops →
        ((run new ops).checkStatus newInfo).1 = statusAfter (detections ops) newInfo) := by
  obtain ⟨hmay, hequal⟩ := (recalls_new.run ops).status newInfo.1
  refine ⟨hmay, fun hops ↦ hequal fun n hn ↦ ?_⟩
  rcases hn with hcurrent | hlast
  · exact unmarked_new.run hops n hcurrent
  · exact (consistent_new.run ops).unmarked n hlast

end NetworkMonitor

end Wireplug
