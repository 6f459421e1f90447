import LocalPlay.Net.AddressText
import LocalPlay.Proofs.Text.Digits
import LocalPlay.Proofs.Wire.Layout

/-!
# Addresses are read back

An IPv6 address has many texts: digits of either case, zeros in front of a group, a gap for zero
groups wherever there are some, an IPv4 tail. `EndpointText` is the grammar of all of them, and
whatever it allows is read as the endpoint it stands for. What is printed is one of these texts.

Readers take as much as they can, so what follows a part of a text must not go on like it. The
grammar of groups follows the reader's recursion, in which the first group has no colon in front.
-/

namespace LocalPlay.Net

/-! ### Texts -/

def digitValue? (base : Nat) : Char → Option Nat :=
  if base = 16 then Text.hexValue? else Reader.decimalValue?

def isDigit (base : Nat) (c : Char) : Bool :=
  (digitValue? base c).isSome

/-- Digits, perhaps with zeros in front, and the number they are. -/
structure Spells (base number : Nat) (cs : List Char) : Prop where
  ne_nil : cs ≠ []
  digits : ∀ c ∈ cs, isDigit base c = true
  value : cs.foldl (fun value c => value * base + (digitValue? base c).getD 0) 0 = number

def colonUnless (first : Bool) : List Char :=
  if first then [] else [':']

/-- Groups with colons between them, and in front if they are not the first ones. The last two may
be written as an IPv4 address. -/
inductive GroupsText : (first dotted : Bool) → Bytes → List Char → Prop
  | nil {first : Bool} : GroupsText first false [] []
  | group {first dotted : Bool} {high low : UInt8} {bytes : Bytes} {cs rest : List Char}
      (hgroup : Spells 16 (high.toNat * 256 + low.toNat) cs) (hwidth : cs.length ≤ 4)
      (hrest : GroupsText false dotted bytes rest) :
    GroupsText first dotted (high :: low :: bytes) (colonUnless first ++ cs ++ rest)
  | tail {first : Bool} (a b c d : UInt8) :
    GroupsText first true [a, b, c, d] (colonUnless first ++ (Ip.dotted [a, b, c, d]).toList)

/-- Eight groups, or a gap for at least one group of zeros. -/
inductive GroupedText : Bytes → List Char → Prop
  | full {dotted : Bool} {bytes : Bytes} {cs : List Char}
      (hgroups : GroupsText true dotted bytes cs) (hlength : bytes.length = 16) :
    GroupedText bytes cs
  | gap {dotted : Bool} {before after : Bytes} {cs rest : List Char} {zeros : Nat}
      (hbefore : GroupsText true false before cs) (hafter : GroupsText true dotted after rest)
      (hzeros : 2 ≤ zeros) (hlength : before.length + zeros + after.length = 16) :
    GroupedText (before ++ List.replicate zeros 0 ++ after) (cs ++ ':' :: ':' :: rest)

inductive ScopeText : UInt32 → List Char → Prop
  | none : ScopeText 0 []
  | some {scope : UInt32} {cs : List Char} (hscope : Spells 10 scope.toNat cs) :
    ScopeText scope ('%' :: cs)

inductive EndpointText : Endpoint → List Char → Prop
  | v4 {octets : Block 4} {port : UInt16} {cs : List Char} (hport : Spells 10 port.toNat cs) :
    EndpointText { ip := .v4 octets, port } ((Ip.dotted octets.bytes).toList ++ ':' :: cs)
  | v6 {octets : Block 16} {port : UInt16} {scope : UInt32} {cs scopeText rest : List Char}
      (hip : GroupedText octets.bytes cs) (hscope : ScopeText scope scopeText)
      (hport : Spells 10 port.toNat rest) :
    EndpointText { ip := .v6 octets, port, scope }
      ('[' :: cs ++ scopeText ++ ']' :: ':' :: rest)

/-! ### Reading numbers -/

variable {base n limit : Nat} {width : Option Nat} {leadingZeros : Bool} {cs rest : List Char}
  {bytes : Bytes} {first dotted : Bool}

namespace Reader

theorem number_eq (base limit : Nat) (width : Option Nat) (leadingZeros : Bool) (cs : List Char) :
    number base limit width leadingZeros cs =
      let digits := cs.takeWhile (isDigit base)
      let value := digits.foldl (fun value c => value * base + (digitValue? base c).getD 0) 0
      if digits.isEmpty
          ∨ (width.any fun width => width < digits.length)
          ∨ (!leadingZeros ∧ digits.head? = some '0' ∧ 1 < digits.length)
          ∨ limit ≤ value then
        none
      else
        some (value, cs.drop digits.length) :=
  rfl

/-- A number below the limit is read up to its last digit. -/
theorem number_append (hspells : Spells base n cs) (hlimit : n < limit)
    (hwidth : ∀ w ∈ width, cs.length ≤ w)
    (hzeros : leadingZeros = true ∨ (cs.head? = some '0' → cs.length ≤ 1))
    (hrest : ∀ c, rest.head? = some c → isDigit base c = false) :
    number base limit width leadingZeros (cs ++ rest) = some (n, rest) := by
  have hwide : ¬ (width.any fun w => w < cs.length) = true := by
    cases width with
    | none => simp
    | some w => simpa using hwidth w rfl
  have hlong : ¬ ((!leadingZeros) = true ∧ cs.head? = some '0' ∧ 1 < cs.length) := by
    rintro ⟨hstrict, hhead, hlength⟩
    rcases hzeros with hallowed | hshort
    · simp [hallowed] at hstrict
    · exact Nat.not_lt_of_le (hshort hhead) hlength
  have hempty : ¬ cs.isEmpty = true := by simpa using hspells.ne_nil
  rw [number_eq]
  dsimp only
  rw [(Text.span_append hspells.digits hrest).1, hspells.value, List.drop_left]
  refine if_neg ?_
  rintro (hnone | hmany | hzero | hlarge)
  · exact hempty hnone
  · exact hwide hmany
  · exact hlong hzero
  · exact Nat.not_le_of_lt hlimit hlarge

theorem number_eq_none (hcs : ∀ c, cs.head? = some c → isDigit base c = false) :
    number base limit width leadingZeros cs = none := by
  have hnone : cs.takeWhile (isDigit base) = [] :=
    (Text.span_append (List.forall_mem_nil _) hcs).1
  rw [number_eq, hnone]
  exact if_pos (.inl rfl)

theorem drop_takeWhile (p : Char → Bool) (cs : List Char) :
    cs.drop (cs.takeWhile p).length = cs.dropWhile p := by
  induction cs with
  | nil => rfl
  | cons c cs ih =>
    cases hc : p c with
    | true => simp [hc, ih]
    | false => simp [hc]

/-- What is not followed by a dot is no IPv4 address. -/
theorem octets_eq_none (hdot : (cs.dropWhile (isDigit 10)).head? ≠ some '.') :
    octets cs = none := by
  have hfirst : (number 10 256 (some 3) false cs).bind (fun found => char '.' found.2) = none := by
    rw [number_eq]
    dsimp only
    split
    · rfl
    · rw [Option.bind_some, drop_takeWhile]
      cases hrest : cs.dropWhile (isDigit 10) with
      | nil => rfl
      | cons c rest =>
        refine if_neg ?_
        rintro rfl
        exact hdot (by rw [hrest]; rfl)
  rw [octets]
  cases hnumber : number 10 256 (some 3) false cs with
  | none => rfl
  | some found =>
    rw [hnumber, Option.bind_some] at hfirst
    simp only [bind, Option.bind_some]
    rw [hfirst]
    rfl

/-! ### Reading IPv4 addresses -/

theorem spells_toDigits (hvalue : ∀ digit < base, digitValue? base digit.digitChar = some digit)
    (hbase : 1 < base) (n : Nat) : Spells base n (Nat.toDigits base n) where
  ne_nil := Nat.toDigits_ne_nil
  digits := by
    intro c hc
    obtain ⟨digit, hdigit, rfl⟩ := Text.exists_digit_of_mem hbase c hc
    rw [isDigit, hvalue digit hdigit]
    rfl
  value := by
    refine Text.foldl_toDigits hbase (fun digit hdigit => ?_) n
    rw [hvalue digit hdigit]
    rfl

theorem spells_decimal (n : Nat) : Spells 10 n (toString n).toList := by
  rw [Text.toList_toString]
  exact spells_toDigits (by decide) (by decide) n

theorem octet_append (a : UInt8) (hrest : ∀ c, rest.head? = some c → isDigit 10 c = false) :
    number 10 256 (some 3) false ((toString a.toNat).toList ++ rest) = some (a.toNat, rest) := by
  have hlt : a.toNat < 256 := a.toNat_lt
  refine number_append (spells_decimal _) hlt ?_ (.inr ?_) hrest
  · intro w hw
    obtain rfl := Option.some.inj hw
    rw [Text.toList_toString]
    exact (Nat.length_toDigits_le_iff (by decide) (by decide)).mpr (by omega)
  · intro hzero
    rw [Text.toList_toString] at hzero ⊢
    rw [Text.eq_zero_of_head?_toDigits (by decide) hzero]
    decide

theorem toList_dotted (a b c d : UInt8) : (Ip.dotted [a, b, c, d]).toList =
    (toString a.toNat).toList ++ '.' :: ((toString b.toNat).toList ++ '.' ::
      ((toString c.toNat).toList ++ '.' :: (toString d.toNat).toList)) := by
  simp [Ip.dotted]

theorem octets_append (a b c d : UInt8)
    (hrest : ∀ c, rest.head? = some c → isDigit 10 c = false) :
    octets ((Ip.dotted [a, b, c, d]).toList ++ rest) = some ([a, b, c, d], rest) := by
  have hdot (rest : List Char) : ∀ c, ('.' :: rest).head? = some c → isDigit 10 c = false :=
    Text.forall_head (by decide) rest
  rw [toList_dotted, octets]
  simp only [List.append_assoc, List.cons_append, octet_append _ (hdot _), octet_append _ hrest,
    bind, Option.bind_some, char, if_true]
  simp

/-! ### Reading IPv6 addresses -/

theorem isDigit_of_decimal {c : Char} (hdigit : isDigit 10 c = true) : isDigit 16 c = true := by
  have hc : c.isDigit = true := by
    change (if c.isDigit then some (c.toNat - '0'.toNat) else none).isSome = true at hdigit
    split at hdigit
    · assumption
    · cases hdigit
  have hrange : '0' ≤ c ∧ c ≤ '9' := by
    simp only [Char.isDigit, Bool.and_eq_true, decide_eq_true_eq] at hc
    exact hc
  change (Text.hexValue? c).isSome = true
  rw [Text.hexValue?, if_pos hrange]
  rfl

theorem not_decimal {c : Char} (hdigit : isDigit 16 c = false) : isDigit 10 c = false := by
  cases hdecimal : isDigit 10 c with
  | false => rfl
  | true =>
    rw [isDigit_of_decimal hdecimal] at hdigit
    cases hdigit

/-- No group goes on here, and none begins. -/
def Stops (rest : List Char) : Prop :=
  ∀ c, rest.head? = some c → isDigit 16 c = false ∧ c ≠ '.' ∧
    (c = ':' → ∀ d, rest.tail.head? = some d → isDigit 16 d = false)

/-- The reader after a colon, unless it is the first one. -/
def separated {α : Type} (first : Bool) (reader : Reader α) (cs : List Char) :
    Option (α × List Char) :=
  if first then reader cs else (char ':' cs).bind fun (_, cs) => reader cs

theorem groups_succ (first : Bool) (room : Nat) (cs : List Char) :
    groups first (room + 1) cs =
      match if 0 < room then separated first octets cs else none with
      | some (tail, rest) => (tail, true, rest)
      | none =>
        match separated first (number 16 65536 (some 4) true) cs with
        | none => ([], false, cs)
        | some (group, rest) =>
          let (bytes, dotted, rest) := groups false room rest
          (UInt8.ofNat (group / 256) :: UInt8.ofNat (group % 256) :: bytes, dotted, rest) := by
  rw [groups]
  rfl

theorem separated_colonUnless {α : Type} (first : Bool) (reader : Reader α) (cs : List Char) :
    separated first reader (colonUnless first ++ cs) = reader cs := by
  cases first with
  | true => rfl
  | false => rfl

/-- A reader that needs a digit fails where the groups stop. -/
theorem separated_eq_none {α : Type} {reader : Reader α}
    (hreader : ∀ cs, (∀ c, cs.head? = some c → isDigit 16 c = false) → reader cs = none)
    (first : Bool) (hstops : Stops rest) : separated first reader rest = none := by
  cases first with
  | true => exact hreader rest fun c hc => (hstops c hc).1
  | false =>
    cases rest with
    | nil => rfl
    | cons c rest =>
      by_cases hcolon : c = ':'
      · have hnext := hreader rest ((hstops c rfl).2.2 hcolon)
        simp [separated, char, hcolon, hnext]
      · simp [separated, char, hcolon]

theorem octets_of_no_digit (hcs : ∀ c, cs.head? = some c → isDigit 16 c = false) :
    octets cs = none := by
  rw [octets, number_eq_none fun c hc => not_decimal (hcs c hc)]
  rfl

theorem groups_of_stops (first : Bool) (room : Nat) (hstops : Stops rest) :
    groups first room rest = ([], false, rest) := by
  cases room with
  | zero => rfl
  | succ room =>
    have hoctets := separated_eq_none (fun _ => octets_of_no_digit) first hstops
    have hnumber : separated first (number 16 65536 (some 4) true) rest = none :=
      separated_eq_none (fun _ => number_eq_none) first hstops
    rw [groups_succ, hoctets, ite_self, hnumber]

/-- A group is no IPv4 address. -/
theorem octets_of_group (hdigits : ∀ c ∈ cs, isDigit 16 c = true)
    (hrest : ∀ c, rest.head? = some c → isDigit 16 c = false ∧ c ≠ '.') :
    octets (cs ++ rest) = none := by
  refine octets_eq_none ?_
  induction cs with
  | nil =>
    rw [List.nil_append]
    cases rest with
    | nil => simp
    | cons c rest =>
      obtain ⟨hdigit, hdot⟩ := hrest c rfl
      rw [List.dropWhile_cons_of_neg (by simp [not_decimal hdigit])]
      simpa using hdot
  | cons c cs ih =>
    obtain ⟨hc, hcs⟩ := List.forall_mem_cons.mp hdigits
    rw [List.cons_append]
    by_cases hdecimal : isDigit 10 c = true
    · rw [List.dropWhile_cons_of_pos hdecimal]
      exact ih hcs
    · rw [List.dropWhile_cons_of_neg hdecimal]
      intro hdot
      obtain rfl := Option.some.inj hdot
      revert hc
      decide

theorem head_of_groups (hgroups : GroupsText false dotted bytes cs) (hstops : Stops rest) {c : Char}
    (hc : (cs ++ rest).head? = some c) : isDigit 16 c = false ∧ c ≠ '.' := by
  cases hgroups with
  | nil => exact ⟨(hstops c hc).1, (hstops c hc).2.1⟩
  | group =>
    obtain rfl := Option.some.inj hc
    decide
  | tail =>
    obtain rfl := Option.some.inj hc
    decide

theorem ofNat_of_group (high low : UInt8) :
    UInt8.ofNat ((high.toNat * 256 + low.toNat) / 256) = high ∧
      UInt8.ofNat ((high.toNat * 256 + low.toNat) % 256) = low := by
  have hlow := low.toNat_lt
  have hdiv : (high.toNat * 256 + low.toNat) / 256 = high.toNat := by omega
  have hmod : (high.toNat * 256 + low.toNat) % 256 = low.toNat := by omega
  rw [hdiv, hmod, UInt8.ofNat_toNat, UInt8.ofNat_toNat]
  exact ⟨rfl, rfl⟩

theorem groups_append (hgroups : GroupsText first dotted bytes cs) {room : Nat}
    (hroom : bytes.length ≤ 2 * room) (hstops : Stops rest) :
    groups first room (cs ++ rest) = (bytes, dotted, rest) := by
  induction hgroups generalizing room with
  | nil => exact groups_of_stops _ _ hstops
  | @group first dotted high low bytes cs others hgroup hwidth hothers ih =>
    obtain ⟨room, rfl⟩ : ∃ r, room = r + 1 := ⟨room - 1, by simp at hroom; omega⟩
    have hnext := fun c => head_of_groups (c := c) hothers hstops
    have hvalue : high.toNat * 256 + low.toNat < 65536 := by
      have hhigh := high.toNat_lt
      have hlow := low.toNat_lt
      omega
    have hnumber : number 16 65536 (some 4) true (cs ++ (others ++ rest)) =
        some (high.toNat * 256 + low.toNat, others ++ rest) :=
      number_append hgroup hvalue (by simpa using hwidth) (.inl rfl) fun c hc => (hnext c hc).1
    have hrest := @ih room (by simp at hroom; omega)
    rw [List.append_assoc, List.append_assoc, groups_succ, separated_colonUnless,
      separated_colonUnless, octets_of_group hgroup.digits hnext, ite_self, hnumber]
    dsimp only
    rw [hrest, (ofNat_of_group high low).1, (ofNat_of_group high low).2]
  | tail a b c d =>
    obtain ⟨room, rfl⟩ : ∃ r, room = r + 1 := ⟨room - 1, by simp at hroom; omega⟩
    have hmore : 0 < room := by simp at hroom; omega
    have hoctets := octets_append a b c d fun c hc => not_decimal (hstops c hc).1
    rw [List.append_assoc, groups_succ, if_pos hmore, separated_colonUnless, hoctets]

/-- After an address: a scope, a bracket, or nothing. -/
def Closes (rest : List Char) : Prop :=
  ∀ c, rest.head? = some c → isDigit 16 c = false ∧ c ≠ '.' ∧ c ≠ ':'

theorem Closes.stops (hcloses : Closes rest) : Stops rest := by
  intro c hc
  obtain ⟨hdigit, hdot, hcolon⟩ := hcloses c hc
  exact ⟨hdigit, hdot, fun hsame => absurd hsame hcolon⟩

/-- Groups stop before a gap. -/
theorem stops_gap (rest : List Char) : Stops (':' :: ':' :: rest) := by
  refine Text.forall_head ⟨by decide, by decide, fun _ => ?_⟩ _
  exact Text.forall_head (by decide) rest

theorem sixteen_append (hip : GroupedText bytes cs) (hcloses : Closes rest) :
    sixteen (cs ++ rest) = some (bytes, rest) := by
  cases hip with
  | full hgroups hlength =>
    rw [sixteen, groups_append hgroups (by omega) hcloses.stops]
    exact if_pos hlength
  | @gap dotted before after cs afterText zeros hbefore hafter hzeros hlength =>
    have hhead : groups true 8 (cs ++ ':' :: ':' :: (afterText ++ rest)) =
        (before, false, ':' :: ':' :: (afterText ++ rest)) :=
      groups_append hbefore (by omega) (stops_gap _)
    have htail : groups true (7 - before.length / 2) (afterText ++ rest) =
        (after, dotted, rest) := groups_append hafter (by omega) hcloses.stops
    have hgap : 16 - before.length - after.length = zeros := by omega
    have hnot : ¬ before.length = 16 := by omega
    rw [List.append_assoc, List.cons_append, List.cons_append, sixteen, hhead]
    dsimp only
    rw [if_neg hnot, if_neg Bool.false_ne_true]
    simp only [bind, char, if_true, Option.bind_some, htail, hgap]
    rfl

/-! ### Reading endpoints -/

/-- Ports and scopes may have any number of zeros in front. -/
theorem decimal_append (hspells : Spells 10 n cs) (hlimit : n < limit)
    (hrest : ∀ c, rest.head? = some c → isDigit 10 c = false) :
    number 10 limit none true (cs ++ rest) = some (n, rest) :=
  number_append hspells hlimit (fun _ hw => by cases hw) (.inl rfl) hrest

theorem port_colon {port : UInt16} (hport : Spells 10 port.toNat cs) :
    Reader.port (':' :: cs) = some (port, []) := by
  have hnumber : number 10 65536 none true (cs ++ []) = some (port.toNat, []) :=
    decimal_append hport port.toNat_lt fun _ hc => by cases hc
  rw [List.append_nil] at hnumber
  simp only [Reader.port, bind, char, if_true, Option.bind_some, hnumber, UInt16.ofNat_toNat]
  rfl

theorem scope_append {scope : UInt32} (hscope : ScopeText scope cs) (rest : List Char) :
    Reader.scope (cs ++ ']' :: rest) = (scope, ']' :: rest) := by
  cases hscope with
  | none => rfl
  | @some scope cs hscope =>
    have hbracket : ∀ c, (']' :: rest).head? = some c → isDigit 10 c = false :=
      Text.forall_head (by decide) rest
    have hnumber : number 10 4294967296 none true (cs ++ ']' :: rest) =
        some (scope.toNat, ']' :: rest) := decimal_append hscope scope.toNat_lt hbracket
    simp only [List.cons_append, Reader.scope, char, if_true, Option.bind_some, hnumber,
      UInt32.ofNat_toNat]

theorem closes_scope {scope : UInt32} (hscope : ScopeText scope cs) (rest : List Char) :
    Closes (cs ++ ']' :: rest) := by
  cases hscope with
  | none => exact Text.forall_head (by decide) _
  | some => exact Text.forall_head (by decide) _

theorem exists_octets (octets : Block 4) : ∃ a b c d, octets.bytes = [a, b, c, d] := by
  obtain ⟨bytes, hlength⟩ := octets
  match bytes, hlength with
  | [a, b, c, d], _ => exact ⟨a, b, c, d, rfl⟩

theorem endpointV4_append (octets' : Block 4) {port : UInt16} (hport : Spells 10 port.toNat cs) :
    endpointV4 ((Ip.dotted octets'.bytes).toList ++ ':' :: cs) =
      some ({ ip := .v4 octets', port }, []) := by
  obtain ⟨a, b, c, d, hbytes⟩ := exists_octets octets'
  have hcolon : ∀ c, (':' :: cs).head? = some c → isDigit 10 c = false :=
    Text.forall_head (by decide) cs
  have hoctets := octets_append a b c d hcolon
  rw [← hbytes] at hoctets
  simp only [endpointV4, bind, hoctets, Option.bind_some, port_colon hport, Block.ofBytes_bytes]
  rfl

theorem endpointV6_append {octets' : Block 16} {port : UInt16} {scope : UInt32}
    {scopeText : List Char} (hip : GroupedText octets'.bytes cs)
    (hscope : ScopeText scope scopeText) (hport : Spells 10 port.toNat rest) :
    endpointV6 ('[' :: cs ++ scopeText ++ ']' :: ':' :: rest) =
      some ({ ip := .v6 octets', port, scope }, []) := by
  have hsixteen := sixteen_append hip (closes_scope hscope (':' :: rest))
  rw [List.cons_append, List.cons_append, List.append_assoc]
  simp only [endpointV6, bind, char, if_true, Option.bind_some, hsixteen, scope_append hscope,
    port_colon hport, Block.ofBytes_bytes]
  rfl

end Reader

theorem Reader.endpoint_of_text {e : Endpoint} (htext : EndpointText e cs) :
    (Reader.endpointV4 cs <|> Reader.endpointV6 cs) = some (e, []) := by
  cases htext with
  | @v4 octets _ _ hport =>
    rw [Reader.endpointV4_append octets hport]
    rfl
  | @v6 _ _ _ cs scopeText rest hip hscope hport =>
    have hbracket : ∀ c, ('[' :: cs ++ scopeText ++ ']' :: ':' :: rest).head? = some c →
        isDigit 16 c = false := Text.forall_head (by decide) _
    have hv4 : Reader.endpointV4 ('[' :: cs ++ scopeText ++ ']' :: ':' :: rest) = none := by
      rw [Reader.endpointV4, Reader.octets_of_no_digit hbracket]
      rfl
    rw [hv4, Reader.endpointV6_append hip hscope hport]
    rfl

/-- Every text of an endpoint is read as it. -/
theorem Endpoint.parse?_of_text {e : Endpoint} {text : String}
    (htext : EndpointText e text.toList) : Endpoint.parse? text = some e := by
  rw [Endpoint.parse?, Reader.whole, Reader.endpoint_of_text htext]

/-! ### What is printed -/

namespace Ip

theorem zeroRun_le (groups : List Nat) : zeroRun groups ≤ groups.length := by
  exact (List.takeWhile_sublist _).length_le

/-- The gap is all zeros. -/
theorem longestZeroRun_le (groups : List Nat) :
    (longestZeroRun groups).2 ≤ zeroRun (groups.drop (longestZeroRun groups).1) := by
  have hfold (starts : List Nat) (best : Nat × Nat)
      (hbest : best.2 ≤ zeroRun (groups.drop best.1)) :
      let found := starts.foldl (fun best start =>
        let length := zeroRun (groups.drop start)
        if best.2 < length then (start, length) else best) best
      found.2 ≤ zeroRun (groups.drop found.1) := by
    induction starts generalizing best with
    | nil => exact hbest
    | cons start starts ih =>
      refine ih _ ?_
      dsimp only
      split
      · exact Nat.le_refl _
      · exact hbest
  exact hfold _ (0, 0) (Nat.zero_le _)

theorem groups_of_short {bytes : Bytes} (hshort : bytes.length < 2) : groups bytes = [] := by
  match bytes, hshort with
  | [], _ => rfl
  | [_], _ => rfl

theorem short_of_not_cons {bytes : Bytes}
    (hshort : ∀ high low rest, bytes = high :: low :: rest → False) : bytes.length < 2 := by
  match bytes, hshort with
  | [], _ => exact Nat.zero_lt_two
  | [_], _ => exact Nat.one_lt_two
  | high :: low :: rest, hshort => exact absurd rfl (hshort high low rest)

theorem take_groups (bytes : Bytes) (count : Nat) :
    (groups bytes).take count = groups (bytes.take (2 * count)) := by
  induction bytes using groups.induct generalizing count with
  | case1 high low bytes ih =>
    cases count with
    | zero => rfl
    | succ count => rw [Nat.mul_succ, groups, List.take_succ_cons, List.take_succ_cons,
        List.take_succ_cons, groups, ih]
  | case2 bytes hshort =>
    have hlength := short_of_not_cons hshort
    have htake : (bytes.take (2 * count)).length < 2 := by
      rw [List.length_take]
      omega
    rw [groups_of_short hlength, groups_of_short htake, List.take_nil]

theorem drop_groups (bytes : Bytes) (count : Nat) :
    (groups bytes).drop count = groups (bytes.drop (2 * count)) := by
  induction bytes using groups.induct generalizing count with
  | case1 high low bytes ih =>
    cases count with
    | zero => rfl
    | succ count => rw [Nat.mul_succ, groups, List.drop_succ_cons, List.drop_succ_cons,
        List.drop_succ_cons, ih]
  | case2 bytes hshort =>
    have hlength := short_of_not_cons hshort
    have hdrop : (bytes.drop (2 * count)).length < 2 := by
      rw [List.length_drop]
      omega
    rw [groups_of_short hlength, groups_of_short hdrop, List.drop_nil]

/-- Bytes whose groups are zeros are zeros. -/
theorem take_of_zeroRun {bytes : Bytes} {length : Nat} (hlength : length ≤ zeroRun (groups bytes)) :
    bytes.take (2 * length) = List.replicate (2 * length) 0 := by
  induction bytes using groups.induct generalizing length with
  | case1 high low bytes ih =>
    cases length with
    | zero => rfl
    | succ length =>
      rw [groups, zeroRun] at hlength
      by_cases hzero : high.toNat * 256 + low.toNat = 0
      · rw [hzero, List.takeWhile_cons_of_pos (by rfl), List.length_cons] at hlength
        have hhigh : high = 0 := UInt8.toNat_inj.mp (by simp; omega)
        have hlow : low = 0 := UInt8.toNat_inj.mp (by simp; omega)
        have hrest := ih (Nat.le_of_succ_le_succ hlength)
        rw [Nat.mul_succ, List.take_succ_cons, List.take_succ_cons, hrest, hhigh, hlow]
        rfl
      · rw [List.takeWhile_cons_of_neg (by simpa using hzero)] at hlength
        exact absurd hlength (Nat.not_succ_le_zero _)
  | case2 bytes hshort =>
    rw [groups_of_short (short_of_not_cons hshort)] at hlength
    obtain rfl := Nat.eq_zero_of_le_zero hlength
    rfl

theorem spells_hexDigits (number : Nat) : Spells 16 number (Text.hexDigits 1 number).toList := by
  have hpadding : 1 - (Nat.toDigits 16 number).length = 0 := by
    have hpos := List.length_pos_iff.mpr (Nat.toDigits_ne_nil (b := 16) (n := number))
    omega
  rw [Text.hexDigits, String.toList_ofList, hpadding]
  exact Reader.spells_toDigits (by decide) (by decide) number

theorem length_hexDigits {number : Nat} (hnumber : number < 65536) :
    (Text.hexDigits 1 number).toList.length ≤ 4 := by
  have hdigits : (Nat.toDigits 16 number).length ≤ 4 :=
    (Nat.length_toDigits_le_iff (by decide) (by decide)).mpr hnumber
  rw [Text.hexDigits, String.toList_ofList, List.length_append, List.length_replicate]
  omega

theorem groupsText_colon {dotted : Bool} {bytes : Bytes} {cs : List Char}
    (hgroups : GroupsText true dotted bytes cs) (hbytes : bytes ≠ []) :
    GroupsText false dotted bytes (':' :: cs) := by
  cases hgroups with
  | nil => exact absurd rfl hbytes
  | group hgroup hwidth hrest => exact .group hgroup hwidth hrest
  | tail a b c d => exact .tail a b c d

theorem groupsText_groupText {bytes : Bytes} (heven : bytes.length % 2 = 0) :
    GroupsText true false bytes (groupText (groups bytes)).toList := by
  induction bytes using groups.induct with
  | case1 high low bytes ih =>
    have hnumber : high.toNat * 256 + low.toNat < 65536 := by
      have hhigh := high.toNat_lt
      have hlow := low.toNat_lt
      omega
    have hgroup := spells_hexDigits (high.toNat * 256 + low.toNat)
    have hwidth := length_hexDigits hnumber
    have hrest := ih (by simp only [List.length_cons] at heven; omega)
    match bytes, heven with
    | [], _ =>
      have hsingle : GroupsText true false [high, low] _ := .group hgroup hwidth .nil
      simpa [groupText, groups, colonUnless] using hsingle
    | [_], heven => simp at heven
    | high' :: low' :: bytes, _ =>
      have hcons : GroupsText true false (high :: low :: high' :: low' :: bytes) _ :=
        .group hgroup hwidth (groupsText_colon hrest (List.cons_ne_nil _ _))
      simpa [groupText, groups, colonUnless] using hcons
  | case2 bytes hshort =>
    have hlength := short_of_not_cons hshort
    have hnil : bytes = [] := List.length_eq_zero_iff.mp (by omega)
    subst hnil
    exact .nil

theorem length_groups (bytes : Bytes) : (groups bytes).length = bytes.length / 2 := by
  induction bytes using groups.induct with
  | case1 high low bytes ih =>
    simp only [groups, List.length_cons, ih]
    omega
  | case2 bytes hshort =>
    have hlength := short_of_not_cons hshort
    rw [groups_of_short hlength, List.length_nil]
    omega

/-- A mapped address is printed with its IPv4 tail. -/
theorem groupedText_mapped (a b c d : UInt8) :
    GroupedText (mappedStart ++ [a, b, c, d]) ("::ffff:" ++ Ip.dotted [a, b, c, d]).toList := by
  have hgroup :
      Spells 16 ((0xFF : UInt8).toNat * 256 + (0xFF : UInt8).toNat) ['f', 'f', 'f', 'f'] :=
    ⟨List.cons_ne_nil _ _, List.all_eq_true.mp rfl, by decide⟩
  have hafter : GroupsText true true ([0xFF, 0xFF] ++ [a, b, c, d]) _ :=
    .group hgroup (by decide) (.tail a b c d)
  have hgap : GroupedText ([] ++ List.replicate 10 0 ++ ([0xFF, 0xFF] ++ [a, b, c, d])) _ :=
    .gap .nil hafter (by decide) rfl
  rw [String.toList_append]
  exact hgap

/-- An address with a gap is printed without the zeros in it. -/
theorem groupedText_gap {bytes : Bytes} {start length : Nat} (hbytes : bytes.length = 16)
    (hrun : length ≤ zeroRun ((groups bytes).drop start)) (hlong : 1 < length) :
    GroupedText bytes (groupText ((groups bytes).take start) ++ "::" ++
      groupText ((groups bytes).drop (start + length))).toList := by
  have hzeros := hrun
  rw [drop_groups] at hzeros
  have hgap := take_of_zeroRun hzeros
  have hfits : start + length ≤ 8 := by
    have hle := Nat.le_trans hrun (zeroRun_le _)
    rw [List.length_drop, length_groups, hbytes] at hle
    omega
  have hwhole : bytes = bytes.take (2 * start) ++ List.replicate (2 * length) 0 ++
      bytes.drop (2 * (start + length)) := by
    rw [← hgap, Nat.mul_add, ← List.drop_drop, List.append_assoc, List.take_append_drop,
      List.take_append_drop]
  have hbefore : GroupsText true false (bytes.take (2 * start)) _ :=
    groupsText_groupText (by rw [List.length_take]; omega)
  have hafter : GroupsText true false (bytes.drop (2 * (start + length))) _ :=
    groupsText_groupText (by rw [List.length_drop]; omega)
  have hlength : (bytes.take (2 * start)).length + 2 * length +
      (bytes.drop (2 * (start + length))).length = 16 := by
    rw [List.length_take, List.length_drop]
    omega
  have htext := GroupedText.gap hbefore hafter (by omega) hlength
  rw [← hwhole] at htext
  rw [take_groups, drop_groups, String.toList_append, String.toList_append, List.append_assoc]
  exact htext

theorem bytes_of_mapped {octets : Block 16} {plain : Block 4}
    (hmapped : mapped? (v6 octets) = some plain) : octets.bytes = mappedStart ++ plain.bytes := by
  simp only [mapped?] at hmapped
  split at hmapped
  · next hstart =>
    obtain rfl := Option.some.inj hmapped
    have hdrop : (octets.bytes.drop 12).length = 4 := by
      rw [List.length_drop, octets.length_bytes]
    have hplain : (Block.ofBytes (octets.bytes.drop 12) : Block 4).bytes = octets.bytes.drop 12 :=
      Bytes.fit_of_length hdrop
    rw [hplain, ← hstart, List.take_append_drop]
  · cases hmapped

theorem groupedText_text (octets : Block 16) :
    GroupedText octets.bytes (v6 octets).text.toList := by
  have hlength := octets.length_bytes
  cases hmapped : mapped? (v6 octets) with
  | some plain =>
    have htext : (v6 octets).text = "::ffff:" ++ Ip.dotted plain.bytes := by
      rw [text, hmapped]
    obtain ⟨a, b, c, d, hplain⟩ := Reader.exists_octets plain
    rw [htext, bytes_of_mapped hmapped, hplain]
    exact groupedText_mapped a b c d
  | none =>
    rw [text, hmapped]
    dsimp only
    split
    · next hlong => exact groupedText_gap hlength (longestZeroRun_le _) hlong
    · exact .full (groupsText_groupText (by omega)) hlength

end Ip

/-- What is printed for an endpoint is one of its texts. Only IPv6 addresses may have a scope. -/
theorem Endpoint.endpointText_text (e : Endpoint) (hscope : e.ip.isV4 = true → e.scope = 0) :
    EndpointText e e.text.toList := by
  obtain ⟨ip, port, scope⟩ := e
  have hport := Reader.spells_decimal port.toNat
  cases ip with
  | v4 octets =>
    obtain rfl : scope = 0 := hscope rfl
    have htext : (⟨.v4 octets, port, 0⟩ : Endpoint).text.toList =
        (Ip.dotted octets.bytes).toList ++ ':' :: (toString port.toNat).toList := by
      rw [Endpoint.text]
      simp [toString, Ip.text]
    rw [htext]
    exact .v4 hport
  | v6 octets =>
    have hip := Ip.groupedText_text octets
    have htext : (⟨.v6 octets, port, scope⟩ : Endpoint).text.toList =
        '[' :: (Ip.v6 octets).text.toList ++
          (if scope = 0 then [] else '%' :: (toString scope.toNat).toList) ++
          ']' :: ':' :: (toString port.toNat).toList := by
      rw [Endpoint.text]
      dsimp only
      by_cases hzero : scope = 0
      · simp [toString, hzero]
      · simp [toString, hzero]
    rw [htext]
    refine .v6 hip ?_ hport
    split
    · next hzero =>
      subst hzero
      exact .none
    · exact .some (Reader.spells_decimal scope.toNat)

/-- An endpoint is read back from its text. -/
theorem Endpoint.parse?_text (e : Endpoint) (hscope : e.ip.isV4 = true → e.scope = 0) :
    Endpoint.parse? e.text = some e :=
  parse?_of_text (endpointText_text e hscope)

end LocalPlay.Net
