import LocalPlay.Proofs.Overlay.Move
import LocalPlay.Proofs.Splits
import Mathlib.Data.List.Induction

/-!
# Where the tokens go

Beside a run of a host stands a ledger with one entry for every token that was registered, in the
order of registration, and with what became of it. The ledger is kept from outside: it looks at the
calls that are made and at who is admitted on which token, and never at the host's own list. What
ties the two together is `Accounted`: the pending entries are the tokens of the host, one by one,
and the consumed ones are the admissions of the run, each of another application.

An admission takes the first pending entry with its token. That this is the right one, although a
token may be registered twice, is `pending_consume`: no token in front of the one an applicant takes
lets him in, so none of them equals it.
-/

namespace LocalPlay.Overlay

open Net Wire

/-- What became of a token. -/
inductive Fate where
  | pending
  | consumed (applicant : Nat)
  /-- The relay said that this virtual address left. -/
  | withdrawn (ip : UInt32)
  | discarded
  deriving DecidableEq

structure Entry where
  token : ProxyToken
  fate : Fate := .pending
  deriving DecidableEq

namespace Entry

def pending? (entry : Entry) : Option ProxyToken :=
  if entry.fate = .pending then some entry.token else none

def consumption? (entry : Entry) : Option (Nat × ProxyToken) :=
  match entry.fate with
  | .consumed applicant => some (applicant, entry.token)
  | _ => none

/-- A pending token that is gone meets its fate; nothing more happens to the others. -/
def drop (gone : ProxyToken → Bool) (fate : Fate) (entry : Entry) : Entry :=
  if entry.fate = .pending ∧ gone entry.token then { entry with fate } else entry

/-- A token is only dropped by a notice about its virtual address or by a shutdown. -/
def Explained (moves : List Host.Move) (entry : Entry) : Prop :=
  match entry.fate with
  | .withdrawn ip => ip = entry.token.virtualIp ∧ .applyPresence ⟨ip, false⟩ ∈ moves
  | .discarded => .shutdown ∈ moves
  | _ => True

end Entry

abbrev Ledger := List Entry

namespace Ledger

def pending (ledger : Ledger) : List ProxyToken :=
  ledger.filterMap Entry.pending?

def consumptions (ledger : Ledger) : List (Nat × ProxyToken) :=
  ledger.filterMap Entry.consumption?

def act (ledger : Ledger) : Host.Move → Ledger
  | .addToken token => ledger ++ [{ token }]
  | .applyPresence presence =>
    if presence.present then
      ledger
    else
      ledger.map (.drop (·.virtualIp = presence.ip) (.withdrawn presence.ip))
  | .shutdown => ledger.map (.drop (fun _ => true) .discarded)
  | _ => ledger

/-- The oldest pending entry with this token is consumed. -/
def consume (applicant : Nat) (token : ProxyToken) : Ledger → Ledger
  | [] => []
  | entry :: rest =>
    if entry.pending? = some token then
      { entry with fate := .consumed applicant } :: rest
    else
      entry :: consume applicant token rest

/-- Enters a move and the admissions among what happened. -/
def record (ledger : Ledger) (move : Host.Move) (notices : List Notice) : Ledger :=
  (admissions notices).foldl (fun ledger (applicant, token, _) => consume applicant token ledger)
    (ledger.act move)

end Ledger

/-- A host on its way, with all that happened and the ledger of its tokens. -/
structure Chronicle where
  host : Host
  notices : List Notice := []
  ledger : Ledger := []

namespace Chronicle

def next (c : Chronicle) (move : Host.Move) : Chronicle :=
  let scene := c.host.move move
  { host := scene.host
    notices := c.notices ++ scene.notices
    ledger := c.ledger.record move scene.notices }

def ofMoves (authWait : Nat) (moves : List Host.Move) : Chronicle :=
  moves.foldl next { host := { authWait } }

theorem ofMoves_concat (authWait : Nat) (moves : List Host.Move) (move : Host.Move) :
    ofMoves authWait (moves ++ [move]) = (ofMoves authWait moves).next move :=
  List.foldl_append ..

theorem host_concat (authWait : Nat) (moves : List Host.Move) (move : Host.Move) :
    (ofMoves authWait (moves ++ [move])).host = ((ofMoves authWait moves).host.move move).host := by
  rw [ofMoves_concat]
  rfl

theorem notices_concat (authWait : Nat) (moves : List Host.Move) (move : Host.Move) :
    (ofMoves authWait (moves ++ [move])).notices =
      (ofMoves authWait moves).notices ++ ((ofMoves authWait moves).host.move move).notices := by
  rw [ofMoves_concat]
  rfl

theorem notices_isPrefix {authWait : Nat} {early moves : List Host.Move} (h : early <+: moves) :
    (ofMoves authWait early).notices <+: (ofMoves authWait moves).notices := by
  obtain ⟨more, rfl⟩ := h
  induction more using List.reverseRecOn with
  | nil => simp
  | append_singleton more move ih =>
    rw [← List.append_assoc, notices_concat]
    exact ih.trans (List.prefix_append _ _)

/-- What a move said is part of what was said in the run. -/
theorem mem_notices {authWait : Nat} {moves before after : List Host.Move} {move : Host.Move}
    {notice : Notice} (hmoves : moves = before ++ move :: after)
    (hmem : notice ∈ ((ofMoves authWait before).host.move move).notices) :
    notice ∈ (ofMoves authWait moves).notices := by
  have hearly : before ++ [move] <+: moves := ⟨after, by simp [hmoves]⟩
  apply (notices_isPrefix hearly).subset
  rw [notices_concat]
  exact List.mem_append_right _ hmem

/-- What was said in the run was said by one of its moves. -/
theorem exists_move {authWait : Nat} {moves : List Host.Move} {notice : Notice}
    (hmem : notice ∈ (ofMoves authWait moves).notices) :
    ∃ before move after, moves = before ++ move :: after ∧
      notice ∈ ((ofMoves authWait before).host.move move).notices := by
  induction moves using List.reverseRecOn with
  | nil => cases hmem
  | append_singleton moves move ih =>
    rw [notices_concat] at hmem
    rcases List.mem_append.mp hmem with hold | hnew
    · obtain ⟨before, earlier, after, rfl, hmove⟩ := ih hold
      exact ⟨before, earlier, after ++ [move], by simp, hmove⟩
    · exact ⟨moves, move, [], rfl, hnew⟩

/-- Whoever is seated was admitted. -/
theorem exists_admitted {authWait : Nat} {moves : List Host.Move} {seat : Seat}
    (hseat : seat ∈ (ofMoves authWait moves).host.registry.seats) :
    ∃ applicant token, .admitted applicant token seat ∈ (ofMoves authWait moves).notices := by
  induction moves using List.reverseRecOn with
  | nil => exact nomatch hseat
  | append_singleton moves move ih =>
    rw [host_concat] at hseat
    rw [notices_concat]
    rcases Host.seat_origin hseat with hold | ⟨applicant, token, hnew⟩
    · obtain ⟨applicant, token, hadmitted⟩ := ih hold
      exact ⟨applicant, token, List.mem_append_left _ hadmitted⟩
    · exact ⟨applicant, token, List.mem_append_right _ hnew⟩

end Chronicle

/-! ### Entries -/

namespace Entry

variable (gone : ProxyToken → Bool) (fate : Fate) (entry : Entry)

theorem token_drop : (entry.drop gone fate).token = entry.token := by
  rw [drop]
  split
  · rfl
  · rfl

theorem pending?_of_pending {entry : Entry} (hpending : entry.fate = .pending) :
    entry.pending? = some entry.token :=
  if_pos hpending

theorem eq_of_pending? {entry : Entry} {token : ProxyToken} (hpending : entry.pending? = some token) :
    entry = ⟨token, .pending⟩ := by
  obtain ⟨own, fate⟩ := entry
  rw [pending?] at hpending
  split at hpending
  · rename_i hfate
    cases hfate
    obtain rfl := Option.some.inj hpending
    rfl
  · exact nomatch hpending

theorem consumption?_of_pending {entry : Entry} (hpending : entry.fate = .pending) :
    entry.consumption? = none := by
  rw [consumption?, hpending]

theorem pending?_drop (hfate : fate ≠ .pending) :
    (entry.drop gone fate).pending? = entry.pending?.filter (!gone ·) := by
  rw [drop]
  by_cases hpending : entry.fate = .pending
  · rw [pending?_of_pending hpending, Option.filter_some]
    cases hgone : gone entry.token with
    | true => exact (congrArg pending? (if_pos ⟨hpending, rfl⟩)).trans (if_neg hfate)
    | false =>
      rw [if_neg (by simp only [and_false, not_false_eq_true, Bool.false_eq_true])]
      exact pending?_of_pending hpending
  · have hnone : entry.pending? = none := if_neg hpending
    rw [if_neg (hpending ·.1), hnone]
    rfl

theorem consumption?_drop (hfate : ∀ token, consumption? ⟨token, fate⟩ = none) :
    (entry.drop gone fate).consumption? = entry.consumption? := by
  rw [drop]
  split
  · rename_i hdropped
    rw [consumption?_of_pending hdropped.1]
    exact hfate entry.token
  · rfl

theorem Explained.mono {entry : Entry} {moves more : List Host.Move}
    (hentry : entry.Explained moves) : entry.Explained (moves ++ more) := by
  obtain ⟨token, fate⟩ := entry
  cases fate with
  | withdrawn ip => exact ⟨hentry.1, List.mem_append_left _ hentry.2⟩
  | discarded => exact List.mem_append_left _ hentry
  | _ => trivial

theorem Explained.drop {entry : Entry} {moves : List Host.Move} (hentry : entry.Explained moves)
    {gone : ProxyToken → Bool} {fate : Fate}
    (hfate : gone entry.token = true → Explained moves { entry with fate }) :
    (entry.drop gone fate).Explained moves := by
  rw [Entry.drop]
  split
  · rename_i hdropped
    exact hfate hdropped.2
  · exact hentry

end Entry

/-! ### Ledgers -/

namespace Ledger

open Host (Move)

variable (ledger : Ledger)

theorem tokens_drop (gone : ProxyToken → Bool) (fate : Fate) :
    (ledger.map (Entry.drop gone fate)).map (·.token) = ledger.map (·.token) := by
  simp only [List.map_map, Function.comp_def, Entry.token_drop]

theorem pending_drop (gone : ProxyToken → Bool) (fate : Fate) (hfate : fate ≠ .pending) :
    pending (ledger.map (.drop gone fate)) = ledger.pending.filter (!gone ·) := by
  simp only [pending, List.filterMap_map, Function.comp_def, Entry.pending?_drop gone fate _ hfate,
    List.filter_filterMap]

theorem consumptions_drop (gone : ProxyToken → Bool) {fate : Fate}
    (hfate : ∀ token, Entry.consumption? ⟨token, fate⟩ = none) :
    consumptions (ledger.map (.drop gone fate)) = ledger.consumptions := by
  simp only [consumptions, List.filterMap_map, Function.comp_def,
    Entry.consumption?_drop gone fate _ hfate]

theorem tokens_act (move : Move) :
    (ledger.act move).map (·.token) = ledger.map (·.token) ++ move.token?.toList := by
  cases move with
  | addToken token => exact List.map_append
  | applyPresence presence =>
    refine Eq.trans ?_ (List.append_nil _).symm
    rw [act]
    split
    · rfl
    · exact ledger.tokens_drop _ _
  | shutdown => exact (ledger.tokens_drop _ _).trans (List.append_nil _).symm
  | _ => exact (List.append_nil _).symm

theorem pending_act (move : Move) : (ledger.act move).pending = move.retoken ledger.pending := by
  cases move with
  | addToken token => exact List.filterMap_append
  | applyPresence presence =>
    rw [act, Move.retoken]
    split
    · rfl
    · refine (ledger.pending_drop _ (.withdrawn _) (by simp)).trans ?_
      exact List.filter_congr fun token _ => decide_not.symm
  | shutdown =>
    refine (ledger.pending_drop _ .discarded (by simp)).trans ?_
    exact List.filter_eq_nil_iff.mpr fun token _ => Bool.false_ne_true
  | _ => rfl

theorem consumptions_act (move : Move) : (ledger.act move).consumptions = ledger.consumptions := by
  cases move with
  | addToken token => exact List.filterMap_append.trans (List.append_nil _)
  | applyPresence presence =>
    rw [act]
    split
    · rfl
    · exact ledger.consumptions_drop _ fun _ => rfl
  | shutdown => exact ledger.consumptions_drop _ fun _ => rfl
  | _ => rfl

theorem explained_act {ledger : Ledger} {moves : List Move}
    (hledger : ∀ entry ∈ ledger, entry.Explained moves) (move : Move) :
    ∀ entry ∈ ledger.act move, entry.Explained (moves ++ [move]) := by
  have hmono : ∀ entry ∈ ledger, entry.Explained (moves ++ [move]) :=
    fun entry hmem => (hledger entry hmem).mono
  have hlast : move ∈ moves ++ [move] := List.mem_append_right _ (List.mem_singleton_self move)
  cases move with
  | addToken token =>
    intro entry hmem
    rcases List.mem_append.mp hmem with hmem | hmem
    · exact hmono entry hmem
    · obtain rfl := List.mem_singleton.mp hmem
      trivial
  | applyPresence presence =>
    rw [act]
    split
    · exact hmono
    · rename_i habsent
      intro _ hmap
      obtain ⟨entry, hmem, rfl⟩ := List.mem_map.mp hmap
      refine (hmono entry hmem).drop fun hgone => ⟨(of_decide_eq_true hgone).symm, ?_⟩
      obtain ⟨ip, present⟩ := presence
      rw [Bool.not_eq_true] at habsent
      obtain rfl : present = false := habsent
      exact hlast
  | shutdown =>
    intro _ hmap
    obtain ⟨entry, hmem, rfl⟩ := List.mem_map.mp hmap
    exact (hmono entry hmem).drop fun _ => hlast
  | _ => exact hmono

/-! ### Consuming -/

variable (applicant : Nat) (token : ProxyToken)

theorem tokens_consume : (consume applicant token ledger).map (·.token) = ledger.map (·.token) := by
  induction ledger with
  | nil => rfl
  | cons entry rest ih =>
    rw [consume]
    split
    · rfl
    · rw [List.map_cons, ih, List.map_cons]

theorem pending_consume : (consume applicant token ledger).pending = ledger.pending.erase token := by
  induction ledger with
  | nil => rfl
  | cons entry rest ih =>
    rw [consume]
    by_cases hentry : entry.pending? = some token
    · rw [if_pos hentry, pending, pending, List.filterMap_cons_some hentry, List.erase_cons_head]
      exact List.filterMap_cons_none rfl
    · rw [if_neg hentry]
      cases hother : entry.pending? with
      | none =>
        rw [pending, pending, List.filterMap_cons_none hother, List.filterMap_cons_none hother]
        exact ih
      | some other =>
        have hne : ¬ (other == token) = true := by
          rw [beq_iff_eq]
          rintro rfl
          exact hentry hother
        rw [pending, pending, List.filterMap_cons_some hother, List.filterMap_cons_some hother,
          List.erase_cons_tail hne]
        exact congrArg (other :: ·) ih

theorem consumptions_consume (hpending : token ∈ ledger.pending) :
    (consume applicant token ledger).consumptions.Perm
      ((applicant, token) :: ledger.consumptions) := by
  induction ledger with
  | nil => exact nomatch hpending
  | cons entry rest ih =>
    rw [consume]
    by_cases hentry : entry.pending? = some token
    · rw [if_pos hentry]
      obtain rfl := Entry.eq_of_pending? hentry
      exact .refl _
    · have hrest : token ∈ pending rest := by
        obtain ⟨own, hmem, hown⟩ := List.mem_filterMap.mp hpending
        rcases List.mem_cons.mp hmem with rfl | hmem
        · exact absurd hown hentry
        · exact List.mem_filterMap.mpr ⟨own, hmem, hown⟩
      rw [if_neg hentry]
      cases hconsumed : entry.consumption? with
      | none =>
        rw [consumptions, consumptions, List.filterMap_cons_none hconsumed,
          List.filterMap_cons_none hconsumed]
        exact ih hrest
      | some consumption =>
        rw [consumptions, consumptions, List.filterMap_cons_some hconsumed,
          List.filterMap_cons_some hconsumed]
        exact ((ih hrest).cons consumption).trans (.swap _ _ _)

theorem explained_consume {ledger : Ledger} {moves : List Move}
    (hledger : ∀ entry ∈ ledger, entry.Explained moves) :
    ∀ entry ∈ consume applicant token ledger, entry.Explained moves := by
  induction ledger with
  | nil => exact hledger
  | cons entry rest ih =>
    obtain ⟨hentry, hrest⟩ := List.forall_mem_cons.mp hledger
    rw [consume]
    split
    · exact List.forall_mem_cons.mpr ⟨trivial, hrest⟩
    · exact List.forall_mem_cons.mpr ⟨hentry, ih hrest⟩

end Ledger

/-! ### The run -/

open Host (Move)

def registered (moves : List Move) : List ProxyToken :=
  moves.filterMap Move.token?

/-- The applications made on the way, each under its number. -/
def applied (moves : List Move) : List (Endpoint × Block 16) :=
  moves.filterMap Move.application?

/-- The ledger agrees with the host and with all that happened. -/
structure Accounted (moves : List Move) (c : Chronicle) : Prop where
  registered : c.ledger.map (·.token) = registered moves
  pending : c.ledger.pending = c.host.registry.tokens
  consumed : c.ledger.consumptions.Perm
    ((admissions c.notices).map fun (applicant, token, _) => (applicant, token))
  dropped : ∀ entry ∈ c.ledger, entry.Explained moves
  /-- No application is admitted twice. -/
  once : ((admissions c.notices).map (·.1)).Nodup

/-- Who waits has applied and was not admitted. -/
structure Waiting (moves : List Move) (c : Chronicle) : Prop where
  applications : c.host.applications = (applied moves).length
  applicants : ∀ applicant ∈ c.host.applicants,
    (applied moves)[applicant.id]? = some (applicant.endpoint, applicant.presented)
  admitted : ∀ admission ∈ admissions c.notices, admission.1 < c.host.applications ∧
    ∀ applicant ∈ c.host.applicants, applicant.id ≠ admission.1

theorem registered_concat (moves : List Move) (move : Move) :
    registered (moves ++ [move]) = registered moves ++ move.token?.toList :=
  filterMap_concat ..

theorem applied_concat (moves : List Move) (move : Move) :
    applied (moves ++ [move]) = applied moves ++ move.application?.toList :=
  filterMap_concat ..

theorem Waiting.next {moves : List Move} {c : Chronicle} (h : Waiting moves c) (move : Move) :
    Waiting (moves ++ [move]) (c.next move) := by
  have hold : ∀ {index : Nat} {application : Endpoint × Block 16},
      (applied moves)[index]? = some application →
        (applied (moves ++ [move]))[index]? = some application := fun hindex => by
    rw [applied_concat, List.getElem?_append_left (List.getElem?_eq_some_iff.mp hindex).1, hindex]
  have hadmissions : admissions (c.next move).notices =
      admissions c.notices ++ admissions (c.host.move move).notices := admissions_append ..
  rcases c.host.move_cases move with hquiet | ⟨now, link, applicant, claim, rfl, hmem, _, hscene⟩
  · have happlications : (c.next move).host.applications =
        c.host.applications + move.application?.toList.length := hquiet.applications
    refine ⟨?_, fun applicant hmem => ?_, fun admission hmem => ?_⟩
    · rw [happlications, h.applications, applied_concat, List.length_append]
    · rcases hquiet.applicants applicant hmem with hmem | ⟨hid, happlied⟩
      · exact hold (h.applicants applicant hmem)
      · rw [applied_concat, happlied, hid, h.applications]
        exact List.getElem?_concat_length
    · rw [hadmissions, hquiet.admissions, List.append_nil] at hmem
      obtain ⟨hbefore, hleft⟩ := h.admitted admission hmem
      refine ⟨happlications ▸ Nat.lt_add_right _ hbefore, fun applicant hmem => ?_⟩
      -- Numbers are never given twice: a new applicant's is above all that were admitted.
      rcases hquiet.applicants applicant hmem with hmem | ⟨hid, _⟩
      · exact hleft applicant hmem
      · exact hid ▸ Nat.ne_of_gt hbefore
  · have hnext : (c.next (.perform now link (.consider applicant.id))).host =
        (c.host.letIn link applicant claim).host := congrArg Scene.host hscene
    have hleft : ∀ other ∈ (c.host.letIn link applicant claim).host.applicants,
        other ∈ c.host.applicants ∧ other.id ≠ applicant.id :=
      fun other => Host.mem_applicants_dropApplicant.mp
    refine ⟨?_, fun other hother => ?_, fun admission hadmission => ?_⟩
    · rw [hnext, applied_concat]
      exact h.applications.trans (List.append_nil _ ▸ rfl)
    · exact hold (h.applicants other (hleft other (hnext ▸ hother)).1)
    · rw [hnext]
      rw [hadmissions, hscene, Host.admissions_letIn, List.mem_append, List.mem_singleton]
        at hadmission
      rcases hadmission with hadmission | rfl
      · obtain ⟨hbefore, hgone⟩ := h.admitted admission hadmission
        exact ⟨hbefore, fun other hother => hgone other (hleft other hother).1⟩
      · refine ⟨?_, fun other hother => (hleft other hother).2⟩
        show applicant.id < c.host.applications
        rw [h.applications]
        exact (List.getElem?_eq_some_iff.mp (h.applicants applicant hmem)).1

theorem Accounted.next {moves : List Move} {c : Chronicle} (h : Accounted moves c)
    (hwaiting : Waiting moves c) (move : Move) : Accounted (moves ++ [move]) (c.next move) := by
  have hadmissions : admissions (c.next move).notices =
      admissions c.notices ++ admissions (c.host.move move).notices := admissions_append ..
  have hact := c.ledger.tokens_act move
  rw [h.registered, ← registered_concat] at hact
  have hexplained := Ledger.explained_act h.dropped move
  rcases c.host.move_cases move with
    hquiet | ⟨now, link, applicant, claim, hmove, hmem, hclaim, hscene⟩
  · have hledger : (c.next move).ledger = c.ledger.act move := by
      show c.ledger.record move _ = _
      rw [Ledger.record, hquiet.admissions, List.foldl_nil]
    rw [hquiet.admissions, List.append_nil] at hadmissions
    refine ⟨?_, ?_, ?_, ?_, ?_⟩
    · rw [hledger, hact]
    · rw [hledger, Ledger.pending_act, h.pending]
      exact hquiet.tokens.symm
    · rw [hledger, Ledger.consumptions_act, hadmissions]
      exact h.consumed
    · rw [hledger]
      exact hexplained
    · rw [hadmissions]
      exact h.once
  · obtain ⟨_, _, hown, older, newer, htokens, hrest, holder⟩ := Registry.claim?_spec hclaim
    have hadmission : admissions (c.host.move move).notices =
        [(applicant.id, claim.token, claim.seat)] := by
      rw [hscene, Host.admissions_letIn]
    have hledger : (c.next move).ledger = Ledger.consume applicant.id claim.token c.ledger := by
      show c.ledger.record move _ = _
      rw [Ledger.record, hadmission, hmove]
      rfl
    have hsame : c.ledger.act move = c.ledger := by
      rw [hmove]
      rfl
    have hpending : claim.token ∈ c.ledger.pending := by
      rw [h.pending, htokens]
      exact List.mem_append_right _ List.mem_cons_self
    rw [hadmission] at hadmissions
    refine ⟨?_, ?_, ?_, ?_, ?_⟩
    · rw [hledger, Ledger.tokens_consume, ← hact, hsame]
    · -- None of the older tokens is this one: they do not let the applicant in.
      have hfirst : claim.token ∉ older := fun hmem => holder _ hmem hown
      rw [hledger, Ledger.pending_consume, h.pending, htokens, List.erase_append_right _ hfirst,
        List.erase_cons_head, ← hrest]
      exact congrArg (·.host.registry.tokens) hscene.symm
    · rw [hledger, hadmissions, List.map_append]
      refine (Ledger.consumptions_consume _ _ _ hpending).trans ?_
      exact (h.consumed.cons _).trans (List.perm_append_singleton _ _).symm
    · rw [hledger]
      exact Ledger.explained_consume _ _ (hsame ▸ hexplained)
    · rw [hadmissions, List.map_append, List.nodup_append]
      refine ⟨h.once, List.nodup_cons.mpr ⟨List.not_mem_nil, .nil⟩, fun id hid other hother => ?_⟩
      obtain ⟨admission, hadmission, rfl⟩ := List.mem_map.mp hid
      obtain rfl := List.mem_singleton.mp hother
      exact ((hwaiting.admitted admission hadmission).2 applicant hmem).symm

theorem accounted_ofMoves (authWait : Nat) (moves : List Move) :
    Accounted moves (.ofMoves authWait moves) ∧ Waiting moves (.ofMoves authWait moves) := by
  induction moves using List.reverseRecOn with
  | nil =>
    exact ⟨⟨rfl, rfl, .refl _, fun _ => nofun, .nil⟩, ⟨rfl, fun _ => nofun, fun _ => nofun⟩⟩
  | append_singleton moves move ih =>
    rw [Chronicle.ofMoves_concat]
    exact ⟨ih.1.next ih.2 move, ih.2.next move⟩

/-- Whatever moves a host makes, every token that was registered is pending, or was used up by one
admission, or was dropped by a notice about its address or by a shutdown. And whatever move comes
next, who is admitted by it has applied with the bytes of a pending token and from its address, and
takes the oldest of these. -/
theorem tokens_accounted (authWait : Nat) (moves : List Move) :
    let c := Chronicle.ofMoves authWait moves
    Accounted moves c ∧
      ∀ move applicant token seat, .admitted applicant token seat ∈ (c.host.move move).notices →
        ∃ now link endpoint presented, move = .perform now link (.consider applicant) ∧
          (applied moves)[applicant]? = some (endpoint, presented) ∧
          c.host.Granted link applicant endpoint presented token seat (c.host.move move) := by
  intro c
  obtain ⟨haccounted, hwaiting⟩ := accounted_ofMoves authWait moves
  refine ⟨haccounted, fun move id token seat hnotice => ?_⟩
  have hadmitted := mem_admissions.mpr hnotice
  rcases c.host.move_cases move with
    hquiet | ⟨now, link, applicant, claim, rfl, hmem, hclaim, hscene⟩
  · rw [hquiet.admissions] at hadmitted
    exact nomatch hadmitted
  · rw [hscene, Host.admissions_letIn, List.mem_singleton] at hadmitted
    obtain ⟨rfl, rfl, rfl⟩ := hadmitted
    refine ⟨now, link, applicant.endpoint, applicant.presented, rfl,
      hwaiting.applicants applicant hmem, ?_⟩
    rw [hscene]
    exact Host.granted_letIn link hclaim

/-- Two wildcards with the same bytes: the older one goes first, and the other stays. -/
theorem tokens_accounted_of_two :
    let token (ip : UInt32) : ProxyToken := ⟨ip, .zero, .zero, .v4⟩
    let endpoint : Endpoint := { ip := .v4 .zero, port := 7 }
    let moves : List Move := [.addToken (token 1), .addToken (token 2),
      .apply 0 endpoint { ip := .zero, family := .v4, port := 0, token := .zero }]
    let c := Chronicle.ofMoves 100 moves
    let scene := c.host.move (.perform 0 (fun _ _ => none) (.consider 0))
    c.ledger.pending = [token 1, token 2] ∧ scene.host.registry.tokens = [token 2] ∧
      .decided 0 (.ok ⟨1, subnetMask⟩) ∈ scene.notices := by
  intro token endpoint moves c scene
  obtain ⟨haccounted, hgranted⟩ := tokens_accounted 100 moves
  obtain ⟨_, _, _, _, ⟨⟩, _, hseat⟩ := hgranted (.perform 0 (fun _ _ => none) (.consider 0)) 0
    (token 1) ⟨0, endpoint, 1⟩ (mem_admissions.mp (by decide))
  exact ⟨haccounted.pending, by decide, hseat.decided⟩

end LocalPlay.Overlay
