import LocalPlay.Proofs.Session.Coherence
import LocalPlay.Proofs.Session.Link
import LocalPlay.Proofs.Settings.Accepted
import LocalPlay.Proofs.Wire.Passphrase

/-!
# What the relay is told of the passphrase

The passphrase can be set at any time, and the relay is told it when an operation goes on after the
handshake, or finds the link open and sees to the passphrase then. The session remembers what it has
told on this link and tells nothing twice in a row; when the link is closed it forgets it. A message
of a passphrase is only the field on the wire, so here every notice is kept with the passphrase that
was set when its move began, and messages are compared by that.

The passphrase always fits its field: that of settings from a file does, and another one that does
not is refused.
-/

namespace LocalPlay.Session

open Net Wire Overlay Timing

/-- What is told in a run, each notice with the passphrase that was set when its move began. -/
def voiced : Session → List Move → List (String × Notice)
  | _, [] => []
  | s, m :: moves =>
    (s.move m).told.map (s.passphrase, ·) ++ (s.move m).session.voiced moves

/-- What the relay was told last on the open link, once this has happened too. -/
def Notice.voices (past : Option String) (passphrase : String) : Notice → Option String
  | opened | closed => none
  | posted _ _ (.passphrase _) _ => some passphrase
  | _ => past

/-- The passphrase that went with the last message of one on the open link, if there was any. -/
def lastVoiced (history : List (String × Notice)) : Option String :=
  history.foldl (fun past entry => entry.2.voices past entry.1) none

/-- The operation sees to the passphrase also if it finds the link open. -/
def Operation.updates : Operation → Bool
  | connectPublic _ | connectPrivate _ => false
  | _ => true

/-- An operation asks the relay. -/
def Notice.requests : Notice → Bool
  | posted _ .relay packet _ => isRequest packet
  | _ => false

/-- An operation sees to the passphrase in this move, on an open link or after the handshake. -/
def SeesToPassphrase (s : Session) (m : Move) : Prop :=
  (s.phase ≠ .idle ∧ ∃ operation, m = .event (.call (.operate operation)) ∧
    operation.updates = true) ∨
  ∃ call, m = .turn (.resume call) ∧ (s.move m).told.any Notice.requests = true

variable {origin s t : Session} {m : Move} {moves : List Move} {told more : List Notice}

/-! ### Histories with passphrases -/

theorem voiced_concat (s : Session) (moves : List Move) (m : Move) :
    s.voiced (moves ++ [m]) = s.voiced moves ++
      ((s.after moves).session.move m).told.map ((s.after moves).session.passphrase, ·) := by
  induction moves generalizing s with
  | nil => simp [voiced, after]
  | cons first moves ih =>
    rw [List.cons_append, voiced, ih, after_cons, voiced, List.append_assoc]
    rfl

theorem map_snd_voiced (s : Session) (moves : List Move) :
    (s.voiced moves).map (·.2) = (s.after moves).told := by
  induction moves using List.reverseRecOn with
  | nil => rfl
  | append_singleton moves m ih =>
    rw [voiced_concat, List.map_append, ih, after_concat, List.map_map]
    exact congrArg _ (List.map_id _)

/-- What is told in a run is told in one of its moves. -/
theorem voiced_origin {before after : List (String × Notice)} {passphrase : String}
    {notice : Notice} (hvoiced : s.voiced moves = before ++ (passphrase, notice) :: after) :
    ∃ early m between rest, early ++ [m] <+: moves ∧
      passphrase = (s.after early).session.passphrase ∧
      ((s.after early).session.move m).told = between ++ notice :: rest ∧
      before = s.voiced early ++ between.map ((s.after early).session.passphrase, ·) := by
  induction moves using List.reverseRecOn generalizing after with
  | nil => simp [voiced] at hvoiced
  | append_singleton moves m ih =>
    rw [voiced_concat] at hvoiced
    rcases split_append hvoiced with ⟨rest, hold, -⟩ | ⟨between, rfl, hnew⟩
    · obtain ⟨early, m', between, rest, hearly, hfound⟩ := ih hold
      exact ⟨early, m', between, rest, hearly.trans (List.prefix_append ..), hfound⟩
    · obtain ⟨first, last, htold, rfl, hlast⟩ := List.map_eq_append_iff.mp hnew
      obtain ⟨found, rest, rfl, hfound, -⟩ := List.map_eq_cons_iff.mp hlast
      obtain ⟨rfl, rfl⟩ := Prod.mk.inj hfound
      exact ⟨moves, m, first, rest, List.prefix_rfl, rfl, htold, rfl⟩

/-! ### The passphrase that is remembered -/

theorem Notice.voices_of_incidental {notice : Notice} (hnotice : notice.isIncidental = true)
    (past : Option String) (passphrase : String) : notice.voices past passphrase = past := by
  cases notice with
  | opened => exact nomatch hnotice
  | closed => exact nomatch hnotice
  | posted caller target packet refusal =>
    cases packet with
    | passphrase field => exact nomatch hnotice
    | _ => rfl
  | _ => rfl

theorem Notice.voices_request (operation : Operation) (advertise : HostProfile → HostProfile)
    (caller : Option Nat) (target : Target) (refusal : Option SendError) (past : Option String)
    (passphrase : String) :
    (Notice.posted caller target (operation.request advertise) refusal).voices past passphrase =
      past := by
  cases operation with
  | _ => rfl

/-- The session remembers what it told last. -/
theorem Step.voices (h : Step origin m s t more)
    (hunsent : s.phase = .idle → s.passphraseSent = none) :
    more.foldl (fun past notice => notice.voices past origin.passphrase) s.passphraseSent =
      t.passphraseSent := by
  cases h with
  | say notice hnotice => exact Notice.voices_of_incidental hnotice ..
  | openLink call operation deadline refusal hmove hbegun hphase => exact (hunsent hphase).symm
  | updatePassphrase call refusal hphase hlink hnew hsame => exact congrArg some hsame.symm
  | ask call operation => exact Notice.voices_request operation ..
  | goOn w operation => exact Notice.voices_request operation ..
  | _ => rfl

theorem Steps.voices (h : Steps origin m s t told)
    (hunsent : s.phase = .idle → s.passphraseSent = none) :
    told.foldl (fun past notice => notice.voices past origin.passphrase) s.passphraseSent =
        t.passphraseSent ∧
      (t.phase = .idle → t.passphraseSent = none) := by
  induction h with
  | refl => exact ⟨rfl, hunsent⟩
  | tail _ hstep ih =>
    obtain ⟨hbefore, hunsent⟩ := ih
    rw [List.foldl_append, hbefore]
    exact ⟨hstep.voices hunsent, hstep.unsent hunsent⟩

theorem lastVoiced_append (history : List (String × Notice)) (passphrase : String)
    (told : List Notice) : lastVoiced (history ++ told.map (passphrase, ·)) =
      told.foldl (fun past notice => notice.voices past passphrase) (lastVoiced history) := by
  rw [lastVoiced, List.foldl_append, List.foldl_map]
  rfl

/-- Without a message of a passphrase nothing new is remembered. -/
theorem voices_of_silent {passphrase : String} (past : Option String)
    (hsilent : ∀ caller target field refusal,
      .posted caller target (.passphrase field) refusal ∉ told) :
    told.foldl (fun past notice => notice.voices past passphrase) past = past ∨
      told.foldl (fun past notice => notice.voices past passphrase) past = none := by
  induction told using List.reverseRecOn with
  | nil => exact .inl rfl
  | append_singleton told notice ih =>
    have hbefore := ih fun caller target field refusal hmem =>
      hsilent caller target field refusal (List.mem_append_left _ hmem)
    rw [List.foldl_append, List.foldl_cons, List.foldl_nil]
    cases notice with
    | opened => exact .inr rfl
    | closed => exact .inr rfl
    | posted caller target packet refusal =>
      cases packet with
      | passphrase field =>
        exact absurd (List.mem_append_right _ List.mem_cons_self)
          (hsilent caller target field refusal)
      | _ => exact hbefore
    | _ => exact hbefore

/-! ### Messages of the passphrase -/

/-- A passphrase is told to the relay, as it is set, and only if it was not told last. -/
theorem Step.of_passphrase (h : Step origin m s t more) {first last : List Notice}
    {caller : Option Nat} {target : Target} {field : Block passphraseSize}
    {refusal : Option SendError}
    (hmore : more = first ++ .posted caller target (.passphrase field) refusal :: last) :
    first = [] ∧ target = .relay ∧ field = passphraseField origin.passphrase ∧
      s.passphraseSent ≠ some origin.passphrase := by
  have hmem : .posted caller target (.passphrase field) refusal ∈ more :=
    hmore ▸ List.mem_append_right _ List.mem_cons_self
  cases h with
  | say notice hnotice =>
    rw [(split_singleton hmore).2, Notice.isIncidental, isOperational] at hnotice
    exact absurd hnotice Bool.false_ne_true
  | updatePassphrase call refusal' hphase hlink hnew hsame =>
    obtain ⟨hfirst, hnotice⟩ := split_singleton hmore
    obtain ⟨-, htarget, hpacket, -⟩ := Notice.posted.inj hnotice
    rw [← hsame]
    exact ⟨hfirst, htarget.symm, (Packet.passphrase.inj hpacket).symm, hnew⟩
  | ask call operation => 
    cases operation with
    | _ => simp [Operation.request] at hmem
  | goOn w operation =>
    cases operation with
    | _ => simp [Operation.request] at hmem
  | _ => simp at hmem

/-! ### Moves that see to the passphrase -/

namespace Act

theorem passphraseSent_operate (a : Act) (call : Nat) {operation : Operation}
    (hupdates : operation.updates = true) :
    (a.operate call operation).session.passphraseSent = some a.session.passphrase := by
  have hasked (a : Act) : (a.asked call operation).session.passphraseSent =
        a.session.passphraseSent ∧
      (a.asked call operation).session.passphrase = a.session.passphrase := by
    obtain ⟨deadline, refusal, heq⟩ := a.asked_eq call operation
    rw [heq]
    exact ⟨rfl, rfl⟩
  rw [operate_eq]
  cases operation with
  | scan filter => rw [(hasked _).1, session_updatePassphrase]
  | createPublic request advertised => rw [session_updatePassphrase, (hasked a).2]
  | createPrivate request advertised => rw [(hasked _).1, session_updatePassphrase]
  | connectPublic request => exact absurd hupdates Bool.false_ne_true
  | connectPrivate request => exact absurd hupdates Bool.false_ne_true

end Act

theorem passphraseSent_of_operation {operation : Operation} (hphase : s.phase ≠ .idle)
    (hupdates : operation.updates = true) :
    (s.move (.event (.call (.operate operation)))).session.passphraseSent =
      some s.passphrase := by
  obtain ⟨a, hpassphrase, hoperate⟩ := exists_operate_of_open hphase operation
  rw [hoperate, a.passphraseSent_operate s.calls hupdates, hpassphrase]

/-- In a turn of a call the link stays open, and what is told is the passphrase that is set. -/
theorem Step.keeps_sent (h : Step origin m s t more) {call : Nat} (hmove : m = .turn (.resume call))
    (hsent : s.passphraseSent = some origin.passphrase) :
    t.passphraseSent = some origin.passphrase := by
  cases h with
  | closeLink receiver hclose =>
    rcases hclose with hclose | ⟨error, hclose⟩
    · exact nomatch hmove.symm.trans hclose
    · exact nomatch hmove.symm.trans hclose
  | updatePassphrase call refusal hphase hlink hnew hsame => exact congrArg some hsame
  | _ => exact hsent

theorem Notice.eq_of_requests {notice : Notice} (hnotice : notice.requests = true) :
    ∃ caller packet refusal, notice = .posted caller .relay packet refusal ∧
      isRequest packet = true := by
  cases notice with
  | posted caller target packet refusal =>
    cases target with
    | relay => exact ⟨caller, packet, refusal, rfl, hnotice⟩
    | peer endpoint => exact absurd hnotice Bool.false_ne_true
  | _ => exact absurd hnotice Bool.false_ne_true

/-- A call that goes on to its request has seen to the passphrase before. -/
theorem Steps.sent_of_requests (h : Steps origin m s t told) {call : Nat}
    (hmove : m = .turn (.resume call)) (hrequests : told.any Notice.requests = true) :
    t.passphraseSent = some origin.passphrase := by
  induction h with
  | refl => exact absurd hrequests Bool.false_ne_true
  | tail _ hstep ih =>
    rw [List.any_append, Bool.or_eq_true] at hrequests
    rcases hrequests with hbefore | hnow
    · exact hstep.keeps_sent hmove (ih hbefore)
    · obtain ⟨notice, hmem, hnotice⟩ := List.any_eq_true.mp hnow
      obtain ⟨caller, packet, refusal, rfl, hrequest⟩ := Notice.eq_of_requests hnotice
      obtain ⟨first, last, hmore⟩ := List.append_of_mem hmem
      obtain ⟨-, -, hsame, ⟨operation, hcall, -⟩ | ⟨-, -, hsent⟩⟩ :=
        hstep.asks hmore (needsGreeting_of_isRequest hrequest)
      · exact nomatch hmove.symm.trans hcall
      · exact hstep.keeps_sent hmove (hsame ▸ hsent hrequest)

theorem SeesToPassphrase.sent (h : s.SeesToPassphrase m) :
    (s.move m).session.passphraseSent = some s.passphrase := by
  rcases h with ⟨hphase, operation, rfl, hupdates⟩ | ⟨call, rfl, hrequests⟩
  · exact passphraseSent_of_operation hphase hupdates
  · exact (steps_move s _).sent_of_requests rfl hrequests

/-- Unless it was told last, the passphrase that is set is told then. -/
theorem SeesToPassphrase.exists_message (h : s.SeesToPassphrase m)
    (hunsent : s.phase = .idle → s.passphraseSent = none)
    (hnew : s.passphraseSent ≠ some s.passphrase) :
    ∃ caller target field refusal,
      .posted caller target (.passphrase field) refusal ∈ (s.move m).told := by
  by_contra hnone
  simp only [not_exists] at hnone
  have hvoices := ((steps_move s m).voices hunsent).1
  rw [h.sent] at hvoices
  rcases voices_of_silent s.passphraseSent hnone with hsame | hforgotten
  · exact hnew (hsame.symm.trans hvoices)
  · exact nomatch hforgotten.symm.trans hvoices

/-! ### Setting the passphrase -/

theorem Step.passphraseFits (h : Step origin m s t more)
    (hs : passphraseFits s.passphrase = true) : passphraseFits t.passphrase = true := by
  cases h with
  | setPassphrase text hmove hfits => exact hfits
  | _ => exact hs

theorem Steps.passphraseFits (h : Steps origin m s t told)
    (hs : passphraseFits s.passphrase = true) : passphraseFits t.passphrase = true := by
  induction h with
  | refl => exact hs
  | tail _ hstep ih => exact hstep.passphraseFits ih

/-- A passphrase that does not fit is refused, and nothing else happens. -/
theorem setPassphrase_of_error {text : String} {error : SessionError}
    (herror : (s.happen (.setPassphrase text)).1 = .outcome (.error error)) :
    (s.happen (.setPassphrase text)).2 = { session := s } ∧
      passphraseSize < text.utf8ByteSize := by
  rw [happen] at herror ⊢
  split at herror
  · cases herror
  · rename_i hfits
    rw [if_neg hfits]
    exact ⟨rfl, Nat.lt_of_not_le fun hle => hfits (passphraseFits_iff.mpr hle)⟩

/-! ### Runs -/

section Runs

variable {contents : Except IoError Bytes} {settings : Settings} {interfaces : Interfaces}
  {localAddress : Except IoError Endpoint}

theorem passphraseFits_course (hread : Settings.ofFile contents = .ok settings)
    (hcreate : create settings interfaces localAddress = .ok s) (moves : List Move) (m : Move) :
    ∀ a ∈ (s.after moves).session.course m, passphraseFits a.session.passphrase = true := by
  have hfits := Settings.passphraseFits_of_ofFile hread
  obtain ⟨relay, rfl⟩ := create_eq hcreate
  refine course_induction (P := fun _ t => passphraseFits t.passphrase = true) hfits
    (fun hstage ha => ?_) moves m
  obtain ⟨told, -, hsteps⟩ := hstage.leads
  exact hsteps.passphraseFits ha

theorem passphraseFits_after (hread : Settings.ofFile contents = .ok settings)
    (hcreate : create settings interfaces localAddress = .ok s) (moves : List Move) :
    passphraseFits (s.after moves).session.passphrase = true :=
  after_of_course (P := fun t => passphraseFits t.passphrase = true)
    (passphraseFits_course hread hcreate moves)

theorem lastVoiced_voiced (hcreate : create settings interfaces localAddress = .ok s)
    (moves : List Move) : lastVoiced (s.voiced moves) = (s.after moves).session.passphraseSent := by
  induction moves using List.reverseRecOn with
  | nil =>
    obtain ⟨relay, rfl⟩ := create_eq hcreate
    rfl
  | append_singleton moves m ih =>
    rw [voiced_concat, lastVoiced_append, ih, after_concat]
    exact ((steps_move _ m).voices (coherent_after hcreate moves).unsent).1

/-- What is told of the passphrase is told to the relay, and was not told last on the open link. -/
theorem voiced_passphrase (hcreate : create settings interfaces localAddress = .ok s)
    {before after : List (String × Notice)} {passphrase : String} {caller : Option Nat}
    {target : Target} {field : Block passphraseSize} {refusal : Option SendError}
    (hvoiced : s.voiced moves =
      before ++ (passphrase, .posted caller target (.passphrase field) refusal) :: after) :
    (∃ early, passphrase = (s.after early).session.passphrase) ∧ target = .relay ∧
      field = passphraseField passphrase ∧ lastVoiced before ≠ some passphrase := by
  obtain ⟨early, m, between, rest, -, rfl, htold, rfl⟩ := voiced_origin hvoiced
  obtain ⟨told, first, last, more, t, u, hsteps, hstep, rfl, -⟩ :=
    (steps_move (s.after early).session m).split htold
  obtain ⟨rfl, htarget, hfield, hnew⟩ := hstep.of_passphrase rfl
  -- The step compares with what is remembered at that moment, which is what was told until then.
  refine ⟨⟨early, rfl⟩, htarget, hfield, ?_⟩
  rw [List.append_nil, lastVoiced_append, lastVoiced_voiced hcreate,
    (hsteps.voices (coherent_after hcreate early).unsent).1]
  exact hnew

/-- The passphrase that is set fits its field at any time. Every message of it goes to the relay and
holds the one that is set as a whole, with zeros after it, and another one than the last message on
the link. An operation that sees to the passphrase leaves the one that is set as the last told on
the link, and tells it if it was not, so the first time on every link. A passphrase is refused only if it does not fit, and then nothing is changed. -/
theorem passphrases_told (hread : Settings.ofFile contents = .ok settings)
    (hcreate : create settings interfaces localAddress = .ok s) (moves : List Move) (m : Move) :
    (∀ a ∈ (s.after moves).session.course m,
      a.session.passphrase.utf8ByteSize ≤ passphraseSize) ∧
    (s.voiced moves).map (·.2) = (s.after moves).told ∧
    (∀ before passphrase caller target field refusal after, s.voiced moves =
        before ++ (passphrase, .posted caller target (.passphrase field) refusal) :: after →
      target = .relay ∧
      field.bytes = Text.Utf8.encode passphrase ++
        List.replicate (passphraseSize - passphrase.utf8ByteSize) 0 ∧
      lastVoiced before ≠ some passphrase) ∧
    ((s.after moves).session.SeesToPassphrase m →
      lastVoiced (s.voiced (moves ++ [m])) = some (s.after moves).session.passphrase ∧
      (lastVoiced (s.voiced moves) ≠ some (s.after moves).session.passphrase →
        ∃ caller target field refusal, .posted caller target (.passphrase field) refusal ∈
          ((s.after moves).session.move m).told)) ∧
    ∀ text error, ((s.after moves).session.happen (.setPassphrase text)).1 =
        .outcome (.error error) →
      ((s.after moves).session.happen (.setPassphrase text)).2 =
        { session := (s.after moves).session } ∧ passphraseSize < text.utf8ByteSize := by
  refine ⟨fun a ha => ?_, map_snd_voiced s moves, ?_, fun hsees => ?_, ?_⟩
  · exact passphraseFits_iff.mp (passphraseFits_course hread hcreate moves m a ha)
  · intro before passphrase caller target field refusal after hvoiced
    obtain ⟨⟨early, rfl⟩, htarget, rfl, hnew⟩ := voiced_passphrase hcreate hvoiced
    exact ⟨htarget, bytes_passphraseField (passphraseFits_after hread hcreate early), hnew⟩
  · rw [lastVoiced_voiced hcreate, lastVoiced_voiced hcreate, after_concat]
    exact ⟨hsees.sent, hsees.exists_message (coherent_after hcreate moves).unsent⟩
  · exact fun text error herror => setPassphrase_of_error herror

end Runs

/-- A settings file with a passphrase in it. -/
def sampleFile : Bytes :=
  Text.Utf8.encode "\x7b\"passphrase\":\"Ryujinx-0badcafe\"\x7d"

def sampleOfFile : Session :=
  { sample with passphrase := "Ryujinx-0badcafe" }

/-- A scan goes on after the handshake, and the relay is told the passphrase of the file. -/
theorem passphrases_told_of_sampleFile :
    let moves := [sampleCall (.scan default), sampleDatagram (.hello default)]
    Settings.ofFile (.ok sampleFile) = .ok { passphrase := "Ryujinx-0badcafe" } ∧
      create { passphrase := "Ryujinx-0badcafe" } (.ok []) (.ok sampleAddress) =
        .ok sampleOfFile ∧
      (sampleOfFile.after moves).session.SeesToPassphrase (.turn (.resume 0)) ∧
      lastVoiced (sampleOfFile.voiced (moves ++ [.turn (.resume 0)])) =
        some "Ryujinx-0badcafe" := by
  intro moves
  have hread : Settings.ofFile (.ok sampleFile) = .ok { passphrase := "Ryujinx-0badcafe" } := by
    have hfound : (Settings.ofFile (.ok sampleFile)).toOption =
        some { passphrase := "Ryujinx-0badcafe" } := by decide +kernel
    generalize Settings.ofFile (.ok sampleFile) = result at hfound
    cases result with
    | error error => cases hfound
    | ok found => exact congrArg Except.ok (Option.some.inj hfound)
  have hcreate : create { passphrase := "Ryujinx-0badcafe" } (.ok []) (.ok sampleAddress) =
      .ok sampleOfFile := rfl
  have hsees : (sampleOfFile.after moves).session.SeesToPassphrase (.turn (.resume 0)) :=
    .inr ⟨0, rfl, by decide +kernel⟩
  exact ⟨hread, hcreate, hsees,
    ((passphrases_told hread hcreate moves _).2.2.2.1 hsees).1⟩

end LocalPlay.Session
