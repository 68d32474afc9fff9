import Wireplug.NatSoundness

namespace Wireplug

open Foundation Foundation.Program Probe

/-- What is made of the ports at which the two servers saw the requests. -/
def portKind (localPort port₁ port₂ : UInt16) : Except StunError NatKind :=
  if port₁ = port₂ then
    if port₁ = localPort then .ok .easy else .ok (.fixedPortMapping ⟨localPort, port₁⟩)
  else if port₁ = localPort ∨ port₂ = localPort then
    .error (.io (.other "NAT inconsistent result"))
  else .ok .hard

theorem classified_answers (localPort port₁ port₂ : UInt16) :
    (classified localPort (answerStunRequest port₁ ⟨localPort⟩)
      (answerStunRequest port₂ ⟨localPort⟩)).run = .done (portKind localPort port₁ port₂) := by
  rw [classified, answerStunRequest_result, answerStunRequest_result, portKind]
  by_cases h₁ : port₁ = localPort
  · by_cases h₂ : port₂ = localPort
    · rw [if_pos h₁, if_pos h₂, if_pos (h₁.trans h₂.symm), if_pos h₁]
      rfl
    · have hne : port₁ ≠ port₂ := fun heq ↦ h₂ (heq.symm.trans h₁)
      rw [if_pos h₁, if_neg h₂, if_neg hne, if_pos (.inl h₁)]
      rfl
  · by_cases h₂ : port₂ = localPort
    · have hne : port₁ ≠ port₂ := fun heq ↦ h₁ (heq.trans h₂)
      rw [if_neg h₁, if_pos h₂, if_neg hne, if_pos (.inr h₂)]
      rfl
    · rw [if_neg h₁, if_neg h₂, natKind]
      by_cases heq : port₁ = port₂
      · rw [if_pos heq, if_pos heq, if_neg h₁]
        rfl
      · rw [if_neg heq, if_neg heq, if_neg (not_or.mpr ⟨h₁, h₂⟩)]
        rfl

/-- Both exchanges of the run `i` go through: each server answers the request it got, and the
run takes that answer. -/
structure BothAnswered (hosts : StunHosts) (ls : List StunLabel) (c : StunConfig) (i : ℕ)
    (localPort port₁ port₂ : UInt16) : Prop where
  run : (stunSystem hosts).Run StunConfig.start ls c
  opened : .opened i localPort ∈ ls
  exchanges : ∃ reply₁ reply₂, AnsweredBy i .stun1 reply₁ ∧ AnsweredBy i .stun2 reply₂ ∧
    reply₁.source.port = port₁ ∧ reply₂.source.port = port₂ ∧
    System.calls i ls = resolvedBoth (hosts.addr .stun1) (hosts.addr .stun2) ++
      asked localPort (hosts.addr .stun1) reply₁ ++ asked localPort (hosts.addr .stun2) reply₂

variable {hosts : StunHosts} {ls : List StunLabel} {c : StunConfig} {i : ℕ}
  {localPort port₁ port₂ : UInt16}

theorem BothAnswered.seen (h : BothAnswered hosts ls c i localPort port₁ port₂) :
    SeenFrom ls .stun1 i port₁ ∧ SeenFrom ls .stun2 i port₂ := by
  obtain ⟨reply₁, reply₂, hanswered₁, hanswered₂, rfl, rfl, hcalls⟩ := h.exchanges
  have hgenuine₁ : Genuine hosts ls localPort reply₁ :=
    genuine_of_taken (i := i) h.run (by rw [hcalls]; simp [asked])
  have hgenuine₂ : Genuine hosts ls localPort reply₂ :=
    genuine_of_taken (i := i) h.run (by rw [hcalls]; simp [asked])
  exact ⟨hgenuine₁.seenFrom hanswered₁, hgenuine₂.seenFrom hanswered₂⟩

theorem BothAnswered.result (h : BothAnswered hosts ls c i localPort port₁ port₂) :
    c.threads i = some (.done (portKind localPort port₁ port₂)) := by
  obtain ⟨reply₁, reply₂, -, -, rfl, rfl, hcalls⟩ := h.exchanges
  have hgenuine₁ : Genuine hosts ls localPort reply₁ :=
    genuine_of_taken (i := i) h.run (by rw [hcalls]; simp [asked])
  have hgenuine₂ : Genuine hosts ls localPort reply₂ :=
    genuine_of_taken (i := i) h.run (by rw [hcalls]; simp [asked])
  have hpath := ((path_resolved localPort (hosts.addr .stun1) (hosts.addr .stun2)).trans
    (path_asked hgenuine₁.answer _)).trans (path_asked hgenuine₂.answer _)
  rw [classified_answers, ← hcalls] at hpath
  exact h.run.result (fun _ ↦ rfl) h.opened hpath

theorem exists_bothAnswered (hosts : StunHosts) (localPort port₁ port₂ : UInt16) :
    ∃ ls c, BothAnswered hosts ls c 0 localPort port₁ port₂ := by
  let source (port : UInt16) : SocketAddr := .v4 (.new 203 0 113 5) port
  obtain ⟨s, hrun, -, hrequest, hbuf⟩ := run_untilSecond hosts localPort (source port₁)
  have harrived := hrun.trans (run_arrives hosts localPort (source port₂) s .stun2 hrequest _)
  have hreply := mem_replies_serve hosts localPort (source port₂) (hbuf .stun2)
  have hdone := run_classified hosts localPort (source port₁) harrived hreply rfl
    (read_replyOf hosts localPort (source port₂) .stun2)
  refine ⟨_, _, hdone, by simp [untilSecond], replyOf hosts localPort (source port₁) .stun1,
    replyOf hosts localPort (source port₂) .stun2, ⟨rfl, rfl⟩, ⟨rfl, rfl⟩, rfl, rfl, ?_⟩
  simp [untilSecond, System.calls, resolvedBoth, requested, asked]

/-- When both exchanges go through, equal ports are found to be easy or a fixed mapping, and
different ones to be hard, except where one of them is the local port. -/
theorem detectKind_classifies (hosts : StunHosts) (localPort port₁ port₂ : UInt16) :
    (∃ ls c i, BothAnswered hosts ls c i localPort port₁ port₂) ∧
      ∀ ls c i, BothAnswered hosts ls c i localPort port₁ port₂ →
        SeenFrom ls .stun1 i port₁ ∧ SeenFrom ls .stun2 i port₂ ∧
        c.threads i = some (.done (portKind localPort port₁ port₂)) := by
  constructor
  · obtain ⟨ls, c, h⟩ := exists_bothAnswered hosts localPort port₁ port₂
    exact ⟨ls, c, 0, h⟩
  · intro ls c i h
    exact ⟨h.seen.1, h.seen.2, h.result⟩

/-- A mapping that depends on the destination is not found to be hard where it keeps the local
port towards one of the servers. -/
theorem kept_port_inconsistent : ∃ ls c, BothAnswered exampleHosts ls c 0 51820 51820 40000 ∧
    c.threads 0 = some (.done (.error (.io (.other "NAT inconsistent result")))) ∧
    c.threads 0 ≠ some (.done (.ok .hard)) := by
  obtain ⟨ls, c, h⟩ := exists_bothAnswered exampleHosts 51820 51820 40000
  have hresult : c.threads 0 = some (.done (.error (.io (.other "NAT inconsistent result")))) :=
    h.result
  refine ⟨ls, c, h, hresult, ?_⟩
  rw [hresult]
  intro heq
  cases heq

end Wireplug
