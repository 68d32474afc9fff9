import Wireplug.WgInterface

namespace Wireplug

open Foundation Program ByteStream Client

theorem split_cases {α : Type} {pre pre' post post' : List α} {a a' : α}
    (h : pre ++ a :: post = pre' ++ a' :: post') :
    a ∈ pre' ∨ a' ∈ pre ∨ (pre = pre' ∧ a = a') := by
  rcases List.append_eq_append_iff.mp h with ⟨mid, rfl, hmid⟩ | ⟨mid, rfl, hmid⟩
  · cases mid with
    | nil =>
      cases hmid
      simp
    | cons x mid =>
      cases hmid
      simp
  · cases mid with
    | nil =>
      cases hmid
      simp
    | cons x mid =>
      cases hmid
      simp

theorem head?_lanCandidates_iff {ours theirs : List IpNet} {b : IpNet} :
    (lanCandidates ours theirs).head? = some b ↔ ∃ pre a post pre' post',
      ours = pre ++ a :: post ∧ theirs = pre' ++ b :: post' ∧ addrsOnLink a b = true ∧
      (∀ x ∈ pre, ∀ y ∈ theirs, addrsOnLink x y = false) ∧
      ∀ y ∈ pre', addrsOnLink a y = false := by
  simp only [lanCandidates, List.head?_flatMap, List.head?_filter, List.findSome?_eq_some_iff,
    List.find?_eq_some_iff_append, List.find?_eq_none, Bool.not_eq_true, Bool.not_eq_true']
  constructor
  · rintro ⟨pre, a, post, rfl, ⟨hlink, pre', post', rfl, hbefore⟩, hnone⟩
    exact ⟨pre, a, post, pre', post', rfl, rfl, hlink, hnone, hbefore⟩
  · rintro ⟨pre, a, post, pre', post', rfl, rfl, hlink, hnone, hbefore⟩
    exact ⟨pre, a, post, rfl, ⟨hlink, pre', post', rfl, hbefore⟩, hnone⟩

def SharedWith (ours theirs : List IpNet) (ip : IpAddr) : Prop :=
  ∃ own ∈ ours, ∃ net ∈ theirs, net.addr = ip ∧ own.contains ip = true ∧
    net.contains own.addr = true

def IsOwn (ours : List IpNet) (ip : IpAddr) : Prop := ip ∈ ours.map IpNet.addr

/-- Wherever an announced address is on link and one of ours, an address on link that is not
comes before it, in the order of the search. -/
def ForeignFirst (ours theirs : List IpNet) : Prop :=
  ∀ pre a post pre' b post', ours = pre ++ a :: post → theirs = pre' ++ b :: post' →
    addrsOnLink a b = true → IsOwn ours b.addr →
      (∃ x ∈ pre, ∃ y ∈ theirs, addrsOnLink x y = true ∧ ¬IsOwn ours y.addr) ∨
        ∃ y ∈ pre', addrsOnLink a y = true ∧ ¬IsOwn ours y.addr

theorem head_notOwn_iff (ours theirs : List IpNet) :
    (∀ b, (lanCandidates ours theirs).head? = some b → ¬IsOwn ours b.addr) ↔
      ForeignFirst ours theirs := by
  constructor
  · intro h pre a post pre' b post' hours htheirs hlink hown
    have hmem : b ∈ lanCandidates ours theirs := by
      simp [lanCandidates, hours, htheirs, hlink]
    obtain ⟨b₀, hhead⟩ : ∃ b₀, (lanCandidates ours theirs).head? = some b₀ := by
      cases hl : lanCandidates ours theirs with
      | nil =>
        rw [hl] at hmem
        cases hmem
      | cons b₀ l => exact ⟨b₀, rfl⟩
    have hforeign := h b₀ hhead
    obtain ⟨pre₀, a₀, post₀, pre₀', post₀', hours₀, htheirs₀, hlink₀, hnone, hbefore⟩ :=
      head?_lanCandidates_iff.mp hhead
    have hb : b ∈ theirs := by simp [htheirs]
    have hb₀ : b₀ ∈ theirs := by simp [htheirs₀]
    rcases split_cases (hours.symm.trans hours₀) with ha | ha | ⟨rfl, rfl⟩
    · rw [hnone a ha b hb] at hlink
      cases hlink
    · exact .inl ⟨a₀, ha, b₀, hb₀, hlink₀, hforeign⟩
    · rcases split_cases (htheirs.symm.trans htheirs₀) with hb' | hb' | ⟨-, rfl⟩
      · rw [hbefore b hb'] at hlink
        cases hlink
      · exact .inr ⟨b₀, hb', hlink₀, hforeign⟩
      · exact (hforeign hown).elim
  · intro h b hhead hown
    obtain ⟨pre, a, post, pre', post', hours, htheirs, hlink, hnone, hbefore⟩ :=
      head?_lanCandidates_iff.mp hhead
    rcases h pre a post pre' b post' hours htheirs hlink hown with
      ⟨x, hx, y, hy, hxy, -⟩ | ⟨y, hy, hay, -⟩
    · rw [hnone x hx y hy] at hxy
      cases hxy
    · rw [hbefore y hy] at hay
      cases hay

theorem sharedWith_of_head {ours theirs : List IpNet} {b : IpNet}
    (h : (lanCandidates ours theirs).head? = some b) : SharedWith ours theirs b.addr := by
  obtain ⟨pre, a, post, pre', post', rfl, rfl, hlink, -, -⟩ := head?_lanCandidates_iff.mp h
  rw [addrsOnLink, Bool.and_eq_true] at hlink
  exact ⟨a, by simp, b, by simp, rfl, hlink.1, hlink.2⟩

/-- The address that is used for a `LocalNetwork` entry once our addresses are asked for. -/
def ChosenOnLan (ours theirs : List IpNet) (wgPort : UInt16) (sa : SocketAddr) : Prop :=
  ∃ localHasIpv6 ipv6, (endpointToUse localHasIpv6 (.localNetwork ipv6 theirs wgPort)).run.Path
    [⟨.getLanAddrs, .ok ours⟩] (.done (.ok (some sa)))

theorem chosenOnLan_iff {ours theirs : List IpNet} {wgPort : UInt16} {sa : SocketAddr} :
    ChosenOnLan ours theirs wgPort sa ↔
      ∃ b, (lanCandidates ours theirs).head? = some b ∧ sa = .new b.addr wgPort := by
  constructor
  · rintro ⟨localHasIpv6, ipv6, hpath⟩
    rw [endpointToUse, localEndpoint] at hpath
    split at hpath
    · cases hpath
    · cases hpath with
      | cons hpath =>
        have heq := (Path.nil _).unique hpath
        have hsa : (lanCandidates ours theirs).head?.map (fun b ↦ SocketAddr.new b.addr wgPort) =
            some sa := Except.ok.inj (Program.done.inj heq)
        obtain ⟨b, hhead, rfl⟩ := Option.map_eq_some_iff.mp hsa
        exact ⟨b, hhead, rfl⟩
  · rintro ⟨b, hhead, rfl⟩
    have hdone : (findLanCandidates theirs >>= fun candidates ↦
        (pure (candidates.head?.map fun addr ↦ SocketAddr.new addr.addr wgPort) :
          Client (Option SocketAddr))).run.Path [⟨.getLanAddrs, .ok ours⟩]
          (.done (.ok ((lanCandidates ours theirs).head?.map fun addr ↦
            SocketAddr.new addr.addr wgPort))) := .cons (.nil _)
    rw [hhead] at hdone
    exact ⟨false, none, hdone⟩

/-- The address chosen is announced by the peer and on a network shared with it. It is not one
of ours exactly where the addresses of ours come after others in the search. -/
theorem chosenOnLan_notOwn_iff (ours theirs : List IpNet) (wgPort : UInt16) :
    (∀ sa, ChosenOnLan ours theirs wgPort sa → SharedWith ours theirs sa.ip) ∧
      ((∀ sa, ChosenOnLan ours theirs wgPort sa →
        SharedWith ours theirs sa.ip ∧ ¬IsOwn ours sa.ip) ↔ ForeignFirst ours theirs) := by
  have hshared (sa : SocketAddr) (h : ChosenOnLan ours theirs wgPort sa) :
      SharedWith ours theirs sa.ip := by
    obtain ⟨b, hhead, rfl⟩ := chosenOnLan_iff.mp h
    rw [SocketAddr.ip_new]
    exact sharedWith_of_head hhead
  refine ⟨hshared, ?_⟩
  rw [← head_notOwn_iff]
  constructor
  · intro h b hhead
    have hchosen := (h _ (chosenOnLan_iff.mpr ⟨b, hhead, rfl⟩)).2
    rwa [SocketAddr.ip_new] at hchosen
  · intro h sa hsa
    refine ⟨hshared sa hsa, ?_⟩
    obtain ⟨b, hhead, rfl⟩ := chosenOnLan_iff.mp hsa
    rw [SocketAddr.ip_new]
    exact h b hhead

def bridgeNet : IpNet := .v4 ⟨.new 172 17 0 1, 16, by decide⟩

def lanNet (host : UInt8) : IpNet := .v4 (.slash24 (.new 192 168 1 host))

/-- With a bridge of one address on both hosts, our own address is taken for the peer's. -/
theorem own_bridge_chosen : ∃ sa,
    ChosenOnLan [bridgeNet, lanNet 10] [bridgeNet, lanNet 20] 51820 sa ∧
      IsOwn [bridgeNet, lanNet 10] sa.ip := by
  refine ⟨.new bridgeNet.addr 51820, chosenOnLan_iff.mpr ⟨bridgeNet, by decide, rfl⟩, ?_⟩
  rw [SocketAddr.ip_new]
  exact List.mem_map_of_mem List.mem_cons_self

end Wireplug
