import LocalPlay.Command.Request

/-!
# Help

What the program says about itself. A page of help has a heading, the form of the command line, and
tables of what can stand in it; the second column of a table begins four places behind the widest
entry of the first.
-/

namespace LocalPlay.Command

structure HelpPage where
  name : String
  about : String
  usage : String
  /-- Tables with their headings. -/
  tables : List (String × List (String × String))

namespace HelpPage

def row (width : Nat) (entry : String × String) : String :=
  let padding := String.ofList (List.replicate (width - entry.1.length) ' ')
  s!"    {entry.1}{padding}    {entry.2}\n"

def table (heading : String) (rows : List (String × String)) : String :=
  let width := (rows.map (·.1.length)).foldl max 0
  s!"\n{heading}:\n" ++ String.join (rows.map (row width))

def text (page : HelpPage) : String :=
  s!"{page.name} \n{page.about}\n\nUSAGE:\n    {page.usage}\n" ++
    String.join (page.tables.map fun (heading, rows) => table heading rows)

end HelpPage

namespace Topic

def helpFlag : String × String :=
  ("-h, --help", "Print help information")

def about : Topic → String
  | program => "Talk to an LDN relay server"
  | scan => "List the networks the relay reports"
  | passphrase => "Print a new random private network passphrase"
  | checkConfig => "Check the config file and print the resolved relay address"
  | help => "Print this message or the help of the given subcommand(s)"

def page (topic : Topic) : HelpPage :=
  match topic with
  | program =>
    { name := "ldncli"
      about := topic.about
      usage := "ldncli [OPTIONS] <SUBCOMMAND>"
      tables :=
        [("OPTIONS",
            [("-c, --config <CONFIG>", "JSON config file, defaults are used when missing"),
              helpFlag,
              ("    --log-file <LOG_FILE>", "Write logs to this file instead of stderr"),
              ("    --log-level <LOG_LEVEL>",
                "trace, debug, info, warn, error or off [default: info]")]),
          ("SUBCOMMANDS",
            [("check-config", checkConfig.about), ("help", help.about),
              ("passphrase", passphrase.about), ("scan", scan.about)])] }
  | scan =>
    { name := "ldncli-scan"
      about := topic.about
      usage := "ldncli scan [OPTIONS]"
      tables := [("OPTIONS", [("    --channel <CHANNEL>", "[default: 1]"), helpFlag])] }
  | passphrase =>
    { name := "ldncli-passphrase"
      about := topic.about
      usage := "ldncli passphrase"
      tables := [("OPTIONS", [helpFlag])] }
  | checkConfig =>
    { name := "ldncli-check-config"
      about := topic.about
      usage := "ldncli check-config"
      tables := [("OPTIONS", [helpFlag])] }
  | help =>
    { name := "ldncli-help"
      about := topic.about
      usage := "ldncli help [SUBCOMMAND]..."
      tables := [("ARGS", [("<SUBCOMMAND>...", "The subcommand whose help message to display")])] }

def text (topic : Topic) : String :=
  topic.page.text

end Topic

end LocalPlay.Command
