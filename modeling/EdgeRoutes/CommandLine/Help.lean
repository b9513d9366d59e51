import EdgeRoutes.CommandLine.Switch

/-! The texts of the help. A text says what its topic is for and how it is called, and then
lists commands, arguments and options in two columns.
-/

set_option autoImplicit false

namespace EdgeRoutes.CommandLine

def programName : String := "route-rewriter"

def Topic.summary : Topic → String
  | .program => "Compile a static export's route manifest into an edge URL rewriter"
  | .compile => "Emit the matcher program"
  | .resolve => "Show how request paths would be rewritten"
  | .inspect => "Print the compiled route table as JSON"
  | .help => "Print this message or the help of the given subcommand(s)"

def Topic.usage : Topic → String
  | .program => programName ++ " [OPTIONS] <COMMAND>"
  | .compile => programName ++ " compile [OPTIONS]"
  | .resolve => programName ++ " match <PATHS>..."
  | .inspect => programName ++ " inspect"
  | .help => programName ++ " help [COMMAND]..."

structure Listing where
  heading : String
  rows : List (String × String)

/-- The first column is as wide as its widest entry. -/
def Listing.lines (listing : Listing) : List String :=
  let width := listing.rows.foldl (fun width row => max width row.1.length) 0
  listing.heading :: listing.rows.map fun row =>
    "  " ++ row.1.pushn ' ' (width - row.1.length) ++ "  " ++ row.2

def commandRows : List (String × String) := [
  ("compile", Topic.compile.summary),
  ("match", Topic.resolve.summary),
  ("inspect", Topic.inspect.summary),
  ("help", Topic.help.summary)]

def Switch.row (switch : Switch) : String × String :=
  let value := switch.valueName.elim "" fun name => " <" ++ name ++ ">"
  ("-" ++ switch.short.toString ++ ", --" ++ switch.long ++ value, switch.summary)

def Topic.listings (topic : Topic) : List Listing :=
  let commands := if topic = .program then [⟨"Commands:", commandRows⟩] else []
  let arguments :=
    match topic with
    | .resolve => [⟨"Arguments:", [("<PATHS>...", "")]⟩]
    | .help => [⟨"Arguments:", [("[COMMAND]...", "Print help for the subcommand(s)")]⟩]
    | _ => []
  let options :=
    if topic.switches.isEmpty then [] else [⟨"Options:", topic.switches.map Switch.row⟩]
  commands ++ arguments ++ options

def Topic.helpText (topic : Topic) : String :=
  let head := [topic.summary, "", "Usage: " ++ topic.usage]
  let lines := head ++ topic.listings.flatMap fun listing => "" :: listing.lines
  String.join (lines.map (· ++ "\n"))

end EdgeRoutes.CommandLine
