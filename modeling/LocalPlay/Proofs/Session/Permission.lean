import LocalPlay.Proofs.Session.Moment
import LocalPlay.Proofs.Session.Stretches.Proxies

/-!
# When proxies are permitted

Proxies are permitted from the beginning, by the settings, until the relay reports that it cannot
reach one. Nothing permits them again. From then on no proxy is hosted but the one there is: it may
move on, or be forgotten, but no other takes its place.
-/

namespace LocalPlay.Session

open Net Wire Overlay Timing

variable {s : Session} {m : Move}

theorem any_forbids_of_plain {next : Session} {b : Act} (h : Act.Plain { session := next } b) :
    b.told.any Notice.forbids = false := by
  obtain ⟨more, hmore, hplain⟩ := h.told
  rw [hmore, List.nil_append, List.any_eq_false]
  intro notice hmem
  have hnotice := hplain notice hmem
  cases notice with
  | handled sender packet => exact absurd hnotice Bool.false_ne_true
  | _ => exact Bool.false_ne_true

/-- Only the report that a proxy cannot be reached forbids proxies, and nothing permits them. -/
theorem p2p_move (s : Session) (m : Move) :
    (s.move m).session.p2p = (s.p2p && !(s.move m).told.any Notice.forbids) := by
  have hwarns := s.warns m
  generalize s.move m = b at hwarns ⊢
  cases hwarns with
  | heeds hheeds =>
    obtain ⟨more, htold, hfollows⟩ := hheeds
    rw [htold, List.nil_append]
    exact (congrArg Warnings.p2p hfollows.warnings).trans (Warnings.p2p_foldl_heed _ _)
  | alarm =>
    obtain ⟨ready, hraise⟩ := Act.raise_eq { session := s } .relayError
    rw [hraise]
    exact (Bool.and_true _).symm
  | begins begun =>
    rw [any_forbids_of_plain ((Act.Plain.refl _).begin s.calls begun), Bool.not_false, Bool.and_true]
    exact (Act.clears_begin s.calls { session := { s with calls := s.calls + 1 } } begun).p2p
  | @resumes call hready =>
    rw [any_forbids_of_plain ((Act.Plain.refl _).resume call), Bool.not_false, Bool.and_true]
    exact (Act.clears_resume call
      { session := { s with ready := s.ready.erase (.resume call) } }).p2p

theorem p2p_of_move (hpermitted : (s.move m).session.p2p = true) : s.p2p = true := by
  rw [p2p_move, Bool.and_eq_true] at hpermitted
  exact hpermitted.1

/-- Where proxies are forbidden none is hosted but the one there is. -/
theorem inherits_move (hforbidden : s.p2p = false) (m : Move) :
    Inherits s.hosted (s.move m).session.hosted := by
  have hkept {b : Act} (h : b.session.hosted = s.hosted ∨ b.session.hosted = none) :
      Inherits s.hosted b.session.hosted := by
    rcases h with hsame | hnone
    · rw [hsame]
      exact .refl _
    · rw [hnone]
      exact .none _
  have hwarns := s.warns m
  generalize s.move m = b at hwarns ⊢
  cases hwarns with
  | heeds hheeds =>
    obtain ⟨more, -, hfollows⟩ := hheeds
    exact hfollows.hosted hforbidden
  | alarm =>
    obtain ⟨ready, hraise⟩ := Act.raise_eq { session := s } .relayError
    rw [hraise]
    exact .refl _
  | begins begun =>
    apply hkept
    rw [Act.hosted_begin]
    exact begun.hosted_of_forbidden hforbidden
  | @resumes call hready =>
    apply hkept
    have hlooks := Act.looks call { session := { s with ready := s.ready.erase (.resume call) } }
    generalize Session.verdict? _ call = verdict at hlooks
    generalize Act.resume _ call = b at hlooks ⊢
    cases hlooks with
    | still => exact .inl rfl
    | ends overlay hfind hpause => exact .inl rfl
    | @goesOn w latches index hfind =>
      rw [Act.hosted_goOn]
      exact w.pause.hosted_cases _ index

/-! ### Runs -/

theorem p2p_after {settings : Settings} {interfaces : Interfaces}
    {localAddress : Except IoError Endpoint}
    (hcreate : create settings interfaces localAddress = .ok s) (moves : List Move) :
    (s.after moves).session.p2p =
      (!settings.disableP2p && !(s.after moves).told.any Notice.forbids) := by
  induction moves using List.reverseRecOn with
  | nil =>
    obtain ⟨relay, rfl⟩ := create_eq hcreate
    exact (Bool.and_true _).symm
  | append_singleton moves m ih =>
    have hstep := p2p_move (s.after moves).session m
    rw [ih] at hstep
    rw [after_concat, Act.next, Act.followedBy, List.any_append, Bool.not_or, ← Bool.and_assoc]
    exact hstep

/-- Once proxies are forbidden they stay so, and none is hosted but the one there is. -/
theorem inherits_after (hforbidden : s.p2p = false) (later : List Move) :
    (s.after later).session.p2p = false ∧ Inherits s.hosted (s.after later).session.hosted := by
  induction later using List.reverseRecOn with
  | nil => exact ⟨hforbidden, .refl _⟩
  | append_singleton later m ih =>
    have hstep := p2p_move (s.after later).session m
    rw [ih.1, Bool.false_and] at hstep
    rw [after_concat]
    exact ⟨hstep, ih.2.trans (inherits_move ih.1 m)⟩

end LocalPlay.Session
