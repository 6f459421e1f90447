import LocalPlay.Proofs.Overlay.Window

/-!
# Applicants at a hosted proxy

A proxy that is part of something larger is moved by it: calls come when its owner has any, and jobs
have their turns among other work. Whatever the order, the host is `Reachable`, so all that holds
after any moves holds of it. To its owner matters when the host has work of its own: an applicant
that is new after a move has a look before it, and one whose time is over is gone after its look.
-/

namespace LocalPlay.Overlay

open Net Wire

namespace Host

/-- Some moves have made a new host into this one. -/
def Reachable (host : Host) : Prop :=
  ∃ authWait moves, host = (Chronicle.ofMoves authWait moves).host

theorem reachable_new (authWait : Nat) : Reachable { authWait } :=
  ⟨authWait, [], rfl⟩

namespace Reachable

variable {host : Host}

theorem move (h : host.Reachable) (move : Move) : (host.move move).host.Reachable := by
  obtain ⟨authWait, moves, rfl⟩ := h
  exact ⟨authWait, moves ++ [move], (Chronicle.host_concat authWait moves move).symm⟩

theorem employed (h : host.Reachable) : host.Employed := by
  obtain ⟨authWait, moves, rfl⟩ := h
  induction moves using List.reverseRecOn with
  | nil => exact .nil 0
  | append_singleton moves move ih =>
    rw [Chronicle.host_concat]
    exact ih.move move

theorem numbered (h : host.Reachable) :
    Numbered (host.applicants.map (·.id)) host.applications := by
  obtain ⟨authWait, moves, rfl⟩ := h
  exact (heard_ofMoves authWait moves).numbered

/-- Who looks when its time is over does not wait on. -/
theorem lt_deadline (h : host.Reachable) {now : Nat} {link : Link} {applicant : Applicant}
    (hmem : applicant ∈ (host.perform now link (.consider applicant.id)).host.applicants) :
    now < applicant.deadline := by
  have hhearing := host.hearing (.perform now link (.consider applicant.id))
  have hmove : host.move (.perform now link (.consider applicant.id)) =
      host.perform now link (.consider applicant.id) := rfl
  rw [hmove] at hhearing
  generalize host.perform now link (.consider applicant.id) = scene at hhearing hmem
  generalize hid : applicant.id = id at hhearing
  cases hhearing with
  | aside hquiet => exact absurd hquiet.look? nofun
  | waitsOn hlook =>
    have hfind := h.numbered.find?_eq hmem
    rw [hid] at hfind
    exact (hlook applicant hfind).2
  | turnedAway => exact absurd hid (mem_applicants_dropApplicant.mp hmem).2
  | letIn => exact absurd hid (mem_applicants_dropApplicant.mp hmem).2

/-- A new applicant for whom a token is pending is let in when it first looks. -/
theorem perform_apply (h : host.Reachable) (now : Nat) (link : Link) {endpoint : Endpoint}
    {offer : ProxyOffer} {claim : Registry.Claim}
    (hclaim : host.registry.claim? host.grants endpoint offer.token = some claim) :
    (host.apply now endpoint offer).host.perform now link (.consider host.applications) =
      (host.apply now endpoint offer).host.letIn link
        ⟨host.applications, endpoint, offer.token, now + host.authWait⟩ claim := by
  let applicant : Applicant := ⟨host.applications, endpoint, offer.token, now + host.authWait⟩
  have happlied : (host.apply now endpoint offer).host.Reachable :=
    h.move (.apply now endpoint offer)
  have hmem : applicant ∈ (host.apply now endpoint offer).host.applicants :=
    List.mem_append_right _ (List.mem_singleton_self _)
  have hfind := happlied.numbered.find?_eq hmem
  rcases (host.apply now endpoint offer).host.consider_cases now link host.applications with
    ⟨-, hlook⟩ | ⟨other, hother, hnone, -⟩ | ⟨other, own, hother, hown, hscene⟩
  · exact nomatch hclaim.symm.trans (hlook applicant hfind).1
  · obtain rfl : other = applicant := Option.some.inj (hother.symm.trans hfind)
    exact nomatch hclaim.symm.trans hnone
  · obtain rfl : other = applicant := Option.some.inj (hother.symm.trans hfind)
    obtain rfl : own = claim := Option.some.inj (hown.symm.trans hclaim)
    exact hscene

end Reachable

/-- Whoever waits after a move waited before, or has its first look before it. -/
theorem mem_applicants_move {host : Host} {move : Move} {applicant : Applicant}
    (hmem : applicant ∈ (host.move move).host.applicants) :
    applicant ∈ host.applicants ∨ .consider applicant.id ∈ (host.move move).jobs := by
  have hhearing := host.hearing move
  generalize host.move move = scene at hhearing hmem ⊢
  cases hhearing with
  | aside hquiet =>
    rw [hquiet.applicants] at hmem
    exact .inl hmem
  | applied now endpoint offer =>
    rcases List.mem_append.mp hmem with hmem | hmem
    · exact .inl hmem
    · obtain rfl := List.mem_singleton.mp hmem
      exact .inr (List.mem_singleton_self _)
  | waitsOn => exact .inl hmem
  | turnedAway => exact .inl (mem_applicants_dropApplicant.mp hmem).1
  | letIn => exact .inl (mem_applicants_dropApplicant.mp hmem).1

end Host

end LocalPlay.Overlay
