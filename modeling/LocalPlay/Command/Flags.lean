/-!
# Flags

Arguments are flags, which begin with a hyphen, and plain words. A flag goes by a long name, perhaps
also by a letter, and may take a value: after an equals sign, right after the letter, or as the next
argument. Two hyphens alone end the flags.

Arguments are read in two passes. `readFlags` finds out which flags there are, up to the first plain
word; it refuses flags that nobody knows, and a request for help ends it at once. Whether the values
are right is looked at later, by `Flags.value?`.
-/

namespace LocalPlay.Command

inductive UsageError where
  | unknownFlag (argument : String)
  | unexpectedValue (flag : String)
  | missingValue (flag : String)
  | repeated (flag : String)
  | invalidValue (flag value : String)
  | unexpectedArgument (argument : String)
  | unknownCommand (name : String)
  | missingCommand
  deriving DecidableEq, Repr

namespace UsageError

def message : UsageError → String
  | unknownFlag argument =>
    s!"Found argument '{argument}' which wasn't expected, or isn't valid in this context"
  | unexpectedValue flag => s!"The argument '--{flag}' takes no value"
  | missingValue flag => s!"The argument '--{flag}' requires a value but none was supplied"
  | repeated flag =>
    s!"The argument '--{flag}' was provided more than once, but cannot be used multiple times"
  | invalidValue flag value => s!"Invalid value \"{value}\" for '--{flag}'"
  | unexpectedArgument argument =>
    s!"Found argument '{argument}' which wasn't expected, or isn't valid in this context"
  | unknownCommand name => s!"The subcommand '{name}' wasn't recognized"
  | missingCommand => "A subcommand is required but one was not provided"

end UsageError

/-- A flag that takes a value. -/
structure Flag where
  long : String
  short : Option Char := none
  deriving DecidableEq, Repr

/-- An argument by its form. -/
inductive Argument where
  /-- Two hyphens. -/
  | endOfFlags
  | long (name : String) (value : Option String)
  /-- A letter, and what follows it. -/
  | short (letter : Char) (rest : List Char)
  | plain (word : String)
  deriving DecidableEq, Repr

namespace Argument

/-- What follows the first equals sign. -/
def afterEquals (text : List Char) : Option String :=
  match text.dropWhile (· ≠ '=') with
  | [] => none
  | _ :: value => some (String.ofList value)

def ofString (argument : String) : Argument :=
  match argument.toList with
  | ['-', '-'] => .endOfFlags
  | '-' :: '-' :: text => .long (String.ofList (text.takeWhile (· ≠ '='))) (afterEquals text)
  | '-' :: letter :: rest => .short letter rest
  | _ => .plain argument

/-- Can be the value of the flag before it. -/
def isPlain : Argument → Bool
  | plain _ => true
  | _ => false

end Argument

/-- The flags that were given, with their values if they came with any. -/
abbrev Flags := List (Flag × Option String)

/-- How the flags end. -/
inductive FlagsRead where
  | help
  /-- The flags, and what follows them. Behind two hyphens nothing is a command. -/
  | given (flags : Flags) (ended : Bool) (rest : List String)
  deriving DecidableEq, Repr

namespace FlagsRead

def cons (flag : Flag) (value : Option String) : FlagsRead → FlagsRead
  | help => help
  | given flags ended rest => given ((flag, value) :: flags) ended rest

end FlagsRead

/-- Reads `known` flags and the request for help, up to the first word that is neither a flag nor
the value of one. -/
def readFlags (known : List Flag) : List String → Except UsageError FlagsRead
  | [] => .ok (.given [] false [])
  | argument :: rest =>
    match Argument.ofString argument with
    | .endOfFlags => .ok (.given [] true rest)
    | .plain _ => .ok (.given [] false (argument :: rest))
    | .long "help" none => .ok .help
    | .long "help" (some _) => .error (.unexpectedValue "help")
    | .long name value =>
      match known.find? (·.long = name), value, rest with
      | none, _, _ => .error (.unknownFlag argument)
      | some flag, some value, rest => (readFlags known rest).map (.cons flag value)
      | some flag, none, [] => .ok (.given [(flag, none)] false [])
      | some flag, none, next :: rest' =>
        if (Argument.ofString next).isPlain then (readFlags known rest').map (.cons flag next)
        else (readFlags known (next :: rest')).map (.cons flag none)
    | .short 'h' _ => .ok .help
    | .short letter attached =>
      match known.find? (·.short = some letter), attached, rest with
      | none, _, _ => .error (.unknownFlag argument)
      | some flag, '=' :: value, rest =>
        (readFlags known rest).map (.cons flag (String.ofList value))
      | some flag, c :: value, rest =>
        (readFlags known rest).map (.cons flag (String.ofList (c :: value)))
      | some flag, [], [] => .ok (.given [(flag, none)] false [])
      | some flag, [], next :: rest' =>
        if (Argument.ofString next).isPlain then (readFlags known rest').map (.cons flag next)
        else (readFlags known (next :: rest')).map (.cons flag none)

/-- The value of a flag, read by `read?`; nothing if the flag is not there. -/
def Flags.value? {α : Type} (flags : Flags) (flag : Flag) (read? : String → Option α) :
    Except UsageError (Option α) :=
  match (flags.filter (·.1 = flag)).map (·.2) with
  | [] => .ok none
  | [none] => .error (.missingValue flag.long)
  | [some text] =>
    match read? text with
    | some value => .ok (some value)
    | none => .error (.invalidValue flag.long text)
  | _ => .error (.repeated flag.long)

end LocalPlay.Command
