import LocalPlay.Proofs.Json.Records
import LocalPlay.Proofs.Json.Writing
import LocalPlay.Proofs.Net.AddressText
import LocalPlay.Proofs.Text.Utf8
import LocalPlay.Proofs.Wire.Passphrase
import LocalPlay.Settings.File

/-!
# Settings files are read back

`Written` says which texts are a settings file for given settings: the object of the settings, with
two more objects in it, in the grammar of JSON. There is such a text for all settings whose times
have at most 64 bits. Whatever the order of the members, whatever is left out, put in or escaped, the
file is read as just these settings, unless the passphrase does not fit its field.
-/

namespace LocalPlay.Settings

open Json (Attribute Blanks Quoted Reader Renders Slot)
open Net (Endpoint EndpointText)

/-! ### What is written -/

def hostAttribute : Attribute RelayServer :=
  ⟨"host", RelayServer.host, Quoted⟩

def portAttribute : Attribute RelayServer :=
  ⟨"port", RelayServer.port, fun port cs => cs = (toString port.toNat).toList⟩

def serverAttributes : List (Attribute RelayServer) :=
  [hostAttribute, portAttribute]

/-- A time in milliseconds, which has at most 64 bits. -/
def timeAttribute (name : String) (get : Timeouts → Nat) : Attribute Timeouts :=
  ⟨name, get, fun time cs => time < UInt64.size ∧ cs = (toString time).toList⟩

def timeoutsAttributes : List (Attribute Timeouts) :=
  [timeAttribute "inactive_ms" Timeouts.inactive, timeAttribute "failure_ms" Timeouts.failure,
    timeAttribute "scan_ms" Timeouts.scan, timeAttribute "auth_wait_ms" Timeouts.authWait]

def serverAttribute : Attribute Settings :=
  ⟨"server", server, Renders serverAttributes {}⟩

def passphraseAttribute : Attribute Settings :=
  ⟨"passphrase", passphrase, Quoted⟩

def disableP2pAttribute : Attribute Settings :=
  ⟨"disable_p2p", disableP2p, fun disableP2p cs => cs = (toString disableP2p).toList⟩

def bindAddressAttribute : Attribute Settings :=
  ⟨"bind_address", bindAddress, fun bindAddress cs =>
    ∃ text : String, EndpointText bindAddress text.toList ∧ Quoted text cs⟩

def timeoutsAttribute : Attribute Settings :=
  ⟨"timeouts", timeouts, Renders timeoutsAttributes {}⟩

def attributes : List (Attribute Settings) :=
  [serverAttribute, passphraseAttribute, disableP2pAttribute, bindAddressAttribute,
    timeoutsAttribute]

/-- The text is an object with these settings, with nothing but blanks around it. -/
def Written (settings : Settings) (text : String) : Prop :=
  ∃ before object after, Blanks before ∧ Renders attributes {} settings object ∧ Blanks after ∧
    text.toList = before ++ object ++ after

theorem exists_server (value : RelayServer) : ∃ cs, serverAttribute.Writes value cs := by
  have hnames : (serverAttributes.map (·.name)).Nodup := by decide
  refine Json.exists_renders {} hnames ?_
  simp only [serverAttributes, List.forall_mem_cons]
  exact ⟨Json.exists_quoted _, ⟨_, rfl⟩, List.forall_mem_nil _⟩

theorem exists_timeouts {value : Timeouts}
    (hsmall : value.inactive < UInt64.size ∧ value.failure < UInt64.size ∧
      value.scan < UInt64.size ∧ value.authWait < UInt64.size) :
    ∃ cs, timeoutsAttribute.Writes value cs := by
  obtain ⟨hinactive, hfailure, hscan, hauthWait⟩ := hsmall
  have hnames : (timeoutsAttributes.map (·.name)).Nodup := by decide
  refine Json.exists_renders {} hnames ?_
  simp only [timeoutsAttributes, List.forall_mem_cons]
  exact ⟨⟨_, hinactive, rfl⟩, ⟨_, hfailure, rfl⟩, ⟨_, hscan, rfl⟩, ⟨_, hauthWait, rfl⟩,
    List.forall_mem_nil _⟩

/-- All settings can be written, if their times have at most 64 bits. -/
theorem exists_written {settings : Settings}
    (hsmall : settings.timeouts.inactive < UInt64.size ∧
      settings.timeouts.failure < UInt64.size ∧ settings.timeouts.scan < UInt64.size ∧
      settings.timeouts.authWait < UInt64.size)
    (hscope : settings.bindAddress.ip.isV4 = true → settings.bindAddress.scope = 0) :
    ∃ text, Written settings text := by
  have hrenders : ∃ cs, Renders attributes {} settings cs := by
    have hnames : (attributes.map (·.name)).Nodup := by decide
    refine Json.exists_renders {} hnames ?_
    obtain ⟨quoted, hquoted⟩ := Json.exists_quoted settings.bindAddress.text
    simp only [attributes, List.forall_mem_cons]
    exact ⟨exists_server _, Json.exists_quoted _, ⟨_, rfl⟩,
      ⟨quoted, _, Endpoint.endpointText_text _ hscope, hquoted⟩, exists_timeouts hsmall,
      List.forall_mem_nil _⟩
  obtain ⟨object, hobject⟩ := hrenders
  have hnone : Blanks [] := List.forall_mem_nil _
  refine ⟨String.ofList object, [], object, [], hnone, hobject, hnone, ?_⟩
  rw [String.toList_ofList, List.nil_append, List.append_nil]

/-! ### How it is read -/

variable {cs : List Char}

theorem takes_port {value : UInt16} (hwrites : portAttribute.Writes value cs) :
    port.Takes cs (.ok value) := by
  obtain rfl : cs = (toString value.toNat).toList := hwrites
  have htakes := Reader.takes_map UInt16.ofNat (Reader.takes_toString value.toNat_lt (by decide))
  rw [Except.map, UInt16.ofNat_toNat] at htakes
  exact htakes

def serverSlots : List (Slot RelayServer) :=
  [.accepting hostAttribute (fun host server => { server with host }) .text (Reader.takes_text .ok),
    .accepting portAttribute (fun port server => { server with port }) port takes_port]

theorem lawful_serverSlots : Json.Record.Lawful serverSlots {} where
  get_set := by simp [serverSlots, Slot.accepting, hostAttribute, portAttribute]
  ext := by
    rintro ⟨host, port⟩ ⟨host', port'⟩ hsame
    simpa [serverSlots, Slot.accepting, hostAttribute, portAttribute] using hsame
  names := by decide
  accepts := by simp [serverSlots, Slot.accepting]

theorem takes_server {value : RelayServer} (hwrites : serverAttribute.Writes value cs) :
    relayServer.Takes cs (.ok value) :=
  Json.Record.takes_of_accepted lawful_serverSlots (by simp [serverSlots, Slot.accepting]) hwrites

theorem takes_millis {name : String} {get : Timeouts → Nat} {value : Nat}
    (hwrites : (timeAttribute name get).Writes value cs) : millis.Takes cs (.ok value) := by
  obtain ⟨hsmall, rfl⟩ : value < UInt64.size ∧ cs = (toString value).toList := hwrites
  exact Reader.takes_toString hsmall (Nat.le_refl _)

def timeSlot (name : String) (get : Timeouts → Nat) (set : Nat → Timeouts → Timeouts) :
    Slot Timeouts :=
  .accepting (timeAttribute name get) set millis takes_millis

def timeoutsSlots : List (Slot Timeouts) :=
  [timeSlot "inactive_ms" Timeouts.inactive fun inactive timeouts => { timeouts with inactive },
    timeSlot "failure_ms" Timeouts.failure fun failure timeouts => { timeouts with failure },
    timeSlot "scan_ms" Timeouts.scan fun scan timeouts => { timeouts with scan },
    timeSlot "auth_wait_ms" Timeouts.authWait fun authWait timeouts => { timeouts with authWait }]

theorem lawful_timeoutsSlots : Json.Record.Lawful timeoutsSlots {} where
  get_set := by simp [timeoutsSlots, timeSlot, Slot.accepting, timeAttribute]
  ext := by
    rintro ⟨inactive, failure, scan, authWait⟩ ⟨inactive', failure', scan', authWait'⟩ hsame
    simpa [timeoutsSlots, timeSlot, Slot.accepting, timeAttribute] using hsame
  names := by decide
  accepts := by simp [timeoutsSlots, timeSlot, Slot.accepting]

theorem takes_timeouts {value : Timeouts} (hwrites : timeoutsAttribute.Writes value cs) :
    timeoutsReader.Takes cs (.ok value) :=
  Json.Record.takes_of_accepted lawful_timeoutsSlots
    (by simp [timeoutsSlots, timeSlot, Slot.accepting]) hwrites

theorem takes_disableP2p {value : Bool} (hwrites : disableP2pAttribute.Writes value cs) :
    Reader.flag.Takes cs (.ok value) := by
  obtain rfl : cs = (toString value).toList := hwrites
  exact Reader.takes_flag value

theorem takes_bindAddress {value : Endpoint} (hwrites : bindAddressAttribute.Writes value cs) :
    endpoint.Takes cs (.ok value) := by
  obtain ⟨text, htext, hquoted⟩ := hwrites
  have htakes : endpoint.Takes cs _ := Reader.takes_text _ hquoted
  rw [Endpoint.parse?_of_text htext] at htakes
  exact htakes

/-- A passphrase that does not fit its field is refused. -/
def refusedPassphrase? (passphrase : String) : Option Json.Flaw :=
  if Wire.passphraseFits passphrase then none else some (.refused Wire.passphraseTooLong)

theorem takes_passphrase {value : String} (hwrites : passphraseAttribute.Writes value cs) :
    fittingPassphrase.Takes cs ((refusedPassphrase? value).elim (.ok value) .error) := by
  have htakes : fittingPassphrase.Takes cs _ := Reader.takes_text _ hwrites
  rw [refusedPassphrase?]
  split
  · next hfits =>
    rw [if_pos hfits] at htakes
    exact htakes
  · next hlong =>
    rw [if_neg hlong] at htakes
    exact htakes

def slots : List (Slot Settings) :=
  [.accepting serverAttribute (fun server settings => { settings with server }) relayServer
      takes_server,
    { toAttribute := passphraseAttribute
      set := fun passphrase settings => { settings with passphrase }
      reader := fittingPassphrase
      refused? := refusedPassphrase?
      takes := takes_passphrase },
    .accepting disableP2pAttribute (fun disableP2p settings => { settings with disableP2p }) .flag
      takes_disableP2p,
    .accepting bindAddressAttribute (fun bindAddress settings => { settings with bindAddress })
      endpoint takes_bindAddress,
    .accepting timeoutsAttribute (fun timeouts settings => { settings with timeouts })
      timeoutsReader takes_timeouts]

theorem lawful_slots : Json.Record.Lawful slots {} where
  get_set := by
    simp [slots, Slot.accepting, serverAttribute, passphraseAttribute, disableP2pAttribute,
      bindAddressAttribute, timeoutsAttribute]
  ext := by
    rintro ⟨server, passphrase, disableP2p, bindAddress, timeouts⟩
      ⟨server', passphrase', disableP2p', bindAddress', timeouts'⟩ hsame
    simpa [slots, Slot.accepting, serverAttribute, passphraseAttribute, disableP2pAttribute,
      bindAddressAttribute, timeoutsAttribute] using hsame
  names := by decide
  accepts := by
    have hdefault : refusedPassphrase? "" = none := rfl
    simpa [slots, Slot.accepting, passphraseAttribute] using hdefault

/-- Nothing but the passphrase is refused. -/
theorem accepted_iff {settings : Settings} :
    (∀ slot ∈ slots, slot.refused? (slot.get settings) = none) ↔
      Wire.passphraseFits settings.passphrase = true := by
  simp [slots, Slot.accepting, passphraseAttribute, refusedPassphrase?]

theorem refused_iff {settings : Settings} {flaw : Json.Flaw} :
    (∃ slot ∈ slots, slot.refused? (slot.get settings) = some flaw) ↔
      Wire.passphraseFits settings.passphrase = false ∧
        .refused Wire.passphraseTooLong = flaw := by
  simp [slots, Slot.accepting, passphraseAttribute, refusedPassphrase?]

theorem ofText_of_written {settings : Settings} {text : String}
    (hwritten : Written settings text) : ofText text.toList =
      if Wire.passphraseFits settings.passphrase then .ok settings
      else .error (.refused Wire.passphraseTooLong) := by
  obtain ⟨before, object, after, hbefore, hrenders, hafter, htext⟩ := hwritten
  obtain ⟨result, htakes, houtcome⟩ := Json.Record.exists_takes lawful_slots hrenders
  have hwhole : ofText text.toList = result := by
    rw [htext]
    exact Reader.whole_of_takes htakes hbefore hafter
  rw [hwhole]
  rcases houtcome with ⟨rfl, haccepted⟩ | ⟨flaw, rfl, hrefused⟩
  · rw [if_pos (accepted_iff.mp haccepted)]
  · obtain ⟨hlong, rfl⟩ := refused_iff.mp hrefused
    rw [hlong]
    rfl

/-- A settings file is read as the settings that are written there. If their passphrase does not fit
its field on the wire, they are refused, whatever else is in the file. -/
theorem ofFile_of_written {settings : Settings} {text : String}
    (hwritten : Written settings text) :
    (settings.passphrase.utf8ByteSize ≤ 128 →
      ofFile (.ok (Text.Utf8.encode text)) = .ok settings) ∧
    (128 < settings.passphrase.utf8ByteSize →
      ofFile (.ok (Text.Utf8.encode text)) =
        .error (.flawed (.refused Wire.passphraseTooLong))) := by
  rw [ofFile, Text.Utf8.strict?_encode]
  dsimp only
  rw [ofText_of_written hwritten]
  constructor
  · intro hshort
    rw [if_pos (Wire.passphraseFits_iff.mpr hshort)]
  · intro hlong
    have hfits : ¬ Wire.passphraseFits settings.passphrase = true := by
      rw [Wire.passphraseFits_iff]
      exact Nat.not_le_of_lt hlong
    rw [if_neg hfits]

/-! ### A sample

A member nobody knows comes first, then a passphrase, and one of the times. -/

def sampleMembers (quoted : List Char) : List Json.Member :=
  [("new", "[1e400, \x7b\x7d]".toList), ("passphrase", quoted),
    ("timeouts", "\x7b\"scan_ms\": 250\x7d".toList)]

def sampleObject (quoted : List Char) : List Char :=
  '\x7b' :: ("\"new\": [1e400, \x7b\x7d]".toList ++ ',' ::
    (" \"passphrase\" :".toList ++ quoted ++ ',' ::
      "\n\"timeouts\":\x7b\"scan_ms\": 250\x7d".toList)) ++ ['\x7d']

theorem objectText_sample (quoted : List Char) :
    Json.ObjectText (sampleMembers quoted) (sampleObject quoted) := by
  have hnone : Blanks [] := by decide
  have hspace : Blanks [' '] := by decide
  have hline : Blanks ['\n'] := by decide
  have hnew : Json.MemberText ("new", "[1e400, \x7b\x7d]".toList)
      "\"new\": [1e400, \x7b\x7d]".toList :=
    .intro hnone (Json.quoted_of_plain (by decide)) hnone hspace hnone
  have hpassphrase : Json.MemberText ("passphrase", quoted)
      (" \"passphrase\" :".toList ++ quoted ++ []) :=
    .intro hspace (Json.quoted_of_plain (by decide)) hspace hnone hnone
  have htimeouts : Json.MemberText ("timeouts", "\x7b\"scan_ms\": 250\x7d".toList)
      "\n\"timeouts\":\x7b\"scan_ms\": 250\x7d".toList :=
    .intro hline (Json.quoted_of_plain (by decide)) hnone hnone hnone
  rw [List.append_nil] at hpassphrase
  exact .members (.cons hnew (.cons hpassphrase (.single htimeouts)))

theorem wellFormed_sample : Json.WellFormed .value "[1e400, \x7b\x7d]".toList := by
  have hnone : Blanks [] := by decide
  have hspace : Blanks [' '] := by decide
  have hone : Json.WholeDigits ['1'] :=
    ⟨⟨List.cons_ne_nil _ _, List.all_eq_true.mp rfl⟩, by decide⟩
  have hfourHundred : Json.Digits ['4', '0', '0'] :=
    ⟨List.cons_ne_nil _ _, List.all_eq_true.mp rfl⟩
  have hnumber : Json.Number ['1', 'e', '4', '0', '0'] :=
    .intro (.inl rfl) hone .none (.some (.inl rfl) (.inl rfl) hfourHundred)
  have hlast : Json.WellFormed .elements [' ', '\x7b', '\x7d'] :=
    .element hspace (.emptyObject hnone) hnone
  have helements : Json.WellFormed .elements "1e400, \x7b\x7d".toList :=
    .elements hnone (.number hnumber) hnone hlast
  exact .array helements

theorem renders_sampleTimeouts :
    Renders timeoutsAttributes {} { scan := 250 } "\x7b\"scan_ms\": 250\x7d".toList := by
  have hnone : Blanks [] := by decide
  have hspace : Blanks [' '] := by decide
  have hmember : Json.MemberText ("scan_ms", (toString 250).toList) "\"scan_ms\": 250".toList :=
    .intro hnone (Json.quoted_of_plain (by decide)) hnone hspace hnone
  have hsmall : 250 < UInt64.size := by decide
  refine ⟨[("scan_ms", (toString 250).toList)], .members (.single hmember), ?_⟩
  constructor
  · simp
  · simpa [timeoutsAttributes, timeAttribute] using hsmall
  · simp [timeoutsAttributes, timeAttribute]
  · simp [timeoutsAttributes, timeAttribute]

theorem renders_sample {passphrase : String} {quoted : List Char}
    (hquoted : Quoted passphrase quoted) :
    Renders attributes {} { passphrase, timeouts := { scan := 250 } } (sampleObject quoted) := by
  refine ⟨sampleMembers quoted, objectText_sample quoted, ?_⟩
  constructor
  · simp [sampleMembers, attributes, serverAttribute, passphraseAttribute, disableP2pAttribute,
      bindAddressAttribute, timeoutsAttribute]
  · simpa [sampleMembers, attributes, serverAttribute, passphraseAttribute, disableP2pAttribute,
      bindAddressAttribute, timeoutsAttribute, hquoted] using renders_sampleTimeouts
  · simp [sampleMembers, attributes, serverAttribute, passphraseAttribute, disableP2pAttribute,
      bindAddressAttribute, timeoutsAttribute]
  · simpa [sampleMembers, attributes, serverAttribute, passphraseAttribute, disableP2pAttribute,
      bindAddressAttribute, timeoutsAttribute] using wellFormed_sample

/-- The object with a line break after it. -/
def sampleText (quoted : List Char) : String :=
  String.ofList (sampleObject quoted ++ ['\n'])

theorem written_sample {passphrase : String} {quoted : List Char}
    (hquoted : Quoted passphrase quoted) :
    Written { passphrase, timeouts := { scan := 250 } } (sampleText quoted) := by
  refine ⟨[], sampleObject quoted, ['\n'], by decide, renders_sample hquoted, by decide, ?_⟩
  rw [sampleText, String.toList_ofList, List.nil_append]

theorem quoted_escaped : Quoted "Ryu" "\"\\u0052yu\"".toList := by
  have hdigits : Json.UnitDigits 'R'.toNat ['0', '0', '5', '2'] :=
    ⟨'0', '0', '5', '2', 0, 0, 5, 2, rfl, by decide, by decide, by decide, by decide, by decide⟩
  exact ⟨_, .cons (.unit hdigits) (Json.spelled_of_plain (by decide)), rfl⟩

theorem quoted_replicate (count : Nat) :
    Quoted (String.ofList (List.replicate count 'a'))
      ('"' :: List.replicate count 'a' ++ ['"']) := by
  have hplain : (String.ofList (List.replicate count 'a')).toList.all Json.isPlain = true := by
    rw [String.toList_ofList, List.all_eq_true]
    intro c hc
    rw [List.eq_of_mem_replicate hc]
    rfl
  have hquoted := Json.quoted_of_plain hplain
  rwa [String.toList_ofList] at hquoted

theorem ofFile_of_sample :
    ofFile (.ok (Text.Utf8.encode (sampleText "\"\\u0052yu\"".toList))) =
        .ok { passphrase := "Ryu", timeouts := { scan := 250 } } ∧
      ofFile (.ok (Text.Utf8.encode
          (sampleText ('"' :: List.replicate 129 'a' ++ ['"'])))) =
        .error (.flawed (.refused Wire.passphraseTooLong)) :=
  ⟨(ofFile_of_written (written_sample quoted_escaped)).1 (by decide),
    (ofFile_of_written (written_sample (quoted_replicate 129))).2 (by decide +kernel)⟩

end LocalPlay.Settings
