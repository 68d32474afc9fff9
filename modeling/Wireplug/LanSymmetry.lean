import Wireplug.LanCandidates
import Mathlib.Data.Multiset.Bind

namespace Wireplug

open Foundation Program ByteStream Client

theorem addrsOnLink_comm (a b : IpNet) : addrsOnLink a b = addrsOnLink b a := Bool.and_comm _ _

def onLinkPairs (ours theirs : List IpNet) : List (IpNet × IpNet) :=
  (ours ×ˢ theirs).filter fun p ↦ addrsOnLink p.1 p.2

theorem lanCandidates_eq_map (ours theirs : List IpNet) :
    lanCandidates ours theirs = (onLinkPairs ours theirs).map Prod.snd := by
  induction ours with
  | nil => rfl
  | cons a ours ih =>
    have hinner : ((theirs.map (Prod.mk a)).filter fun p ↦ addrsOnLink p.1 p.2).map Prod.snd =
        theirs.filter (addrsOnLink a) := by
      rw [List.filter_map, List.map_map]
      exact List.map_id _
    rw [onLinkPairs, List.product_cons, List.filter_append, List.map_append, hinner]
    exact congrArg (theirs.filter (addrsOnLink a) ++ ·) ih

theorem onLinkPairs_swap (ours theirs : List IpNet) :
    ((onLinkPairs ours theirs).map Prod.swap).Perm (onLinkPairs theirs ours) := by
  have hlink : (fun p : IpNet × IpNet ↦ addrsOnLink p.1 p.2) =
      (fun p ↦ addrsOnLink p.1 p.2) ∘ Prod.swap :=
    funext fun p ↦ addrsOnLink_comm p.1 p.2
  have hproduct : ((ours ×ˢ theirs).map Prod.swap).Perm (theirs ×ˢ ours) := by
    rw [← Multiset.coe_eq_coe, ← Multiset.map_coe, ← Multiset.coe_product, ← Multiset.coe_product]
    exact Multiset.map_swap_product _ _
  rw [onLinkPairs, hlink, ← List.filter_map]
  exact hproduct.filter _

/-- What the host with the interface networks `ours` finds of a peer's list. -/
def FindsOnLan (ours theirs candidates : List IpNet) : Prop :=
  (findLanCandidates theirs).run.Path [⟨.getLanAddrs, .ok ours⟩] (.done (.ok candidates))

theorem findsOnLan_iff {ours theirs candidates : List IpNet} :
    FindsOnLan ours theirs candidates ↔ candidates = (onLinkPairs ours theirs).map Prod.snd := by
  have hpath : FindsOnLan ours theirs (lanCandidates ours theirs) := .cons (.nil _)
  rw [lanCandidates_eq_map] at hpath
  constructor
  · intro h
    exact Except.ok.inj (Program.done.inj (h.unique hpath))
  · rintro rfl
    exact hpath

theorem exists_chosenOnLan_iff (ours theirs : List IpNet) (wgPort : UInt16) :
    (∃ sa, ChosenOnLan ours theirs wgPort sa) ↔ onLinkPairs ours theirs ≠ [] := by
  simp only [chosenOnLan_iff, lanCandidates_eq_map, List.head?_map, Option.map_eq_some_iff]
  constructor
  · rintro ⟨sa, b, ⟨p, hp, rfl⟩, rfl⟩ hnil
    rw [hnil] at hp
    cases hp
  · intro h
    obtain ⟨p, ps, hps⟩ := List.exists_cons_of_ne_nil h
    exact ⟨_, p.2, ⟨p, by rw [hps]; rfl, rfl⟩, rfl⟩

/-- Each end finds the other side of the pairs that the other end finds. -/
theorem lan_discovery_symmetric (ours theirs : List IpNet) (wgPort wgPort' : UInt16) :
    (∀ candidates, FindsOnLan ours theirs candidates ↔
        candidates = (onLinkPairs ours theirs).map Prod.snd) ∧
      (∀ candidates, FindsOnLan theirs ours candidates ↔
        candidates = (onLinkPairs theirs ours).map Prod.snd) ∧
      ((onLinkPairs ours theirs).map Prod.swap).Perm (onLinkPairs theirs ours) ∧
      (onLinkPairs ours theirs).length = (onLinkPairs theirs ours).length ∧
      ((∃ sa, ChosenOnLan ours theirs wgPort sa) ↔
        ∃ sa, ChosenOnLan theirs ours wgPort' sa) := by
  have hswap := onLinkPairs_swap ours theirs
  have hlength : (onLinkPairs ours theirs).length = (onLinkPairs theirs ours).length := by
    rw [← hswap.length_eq, List.length_map]
  refine ⟨fun _ ↦ findsOnLan_iff, fun _ ↦ findsOnLan_iff, hswap, hlength, ?_⟩
  rw [exists_chosenOnLan_iff, exists_chosenOnLan_iff, ← List.length_pos_iff, hlength,
    List.length_pos_iff]

end Wireplug
