/-! The options of the command line.

An option has a short name of one character and a long name, and it may take a value. The
value is joined to the name, or it is the next word. In the second case the option stays
open until another option follows or the words end, and only then is it known to be right:
it needs a value that is not empty, and no option may be given twice.
-/

set_option autoImplicit false

namespace EdgeRoutes.CommandLine

inductive Topic where
  | program
  | compile
  | resolve
  | inspect
  | help
  deriving DecidableEq, Repr

/-- Why arguments do not lead to a run. -/
inductive Stop where
  | help (topic : Topic)
  | misuse
  deriving DecidableEq, Repr

structure Switch where
  short : Char
  long : String
  valueName : Option String := none
  summary : String
  deriving DecidableEq, Repr

namespace Switch

def config : Switch where
  short := 'c'
  long := "config"
  valueName := some "CONFIG"
  summary := "TOML configuration file"

def buildDirectory : Switch where
  short := 'b'
  long := "build-dir"
  valueName := some "BUILD_DIR"
  summary := "Build output directory holding the route manifest"

def verbose : Switch where
  short := 'v'
  long := "verbose"
  summary := "Debug logging"

def out : Switch where
  short := 'o'
  long := "out"
  valueName := some "OUT"
  summary := "Write the program here instead of stdout"

def help : Switch where
  short := 'h'
  long := "help"
  summary := "Print help"

end Switch

def Topic.switches : Topic → List Switch
  | .program => [.config, .buildDirectory, .verbose, .help]
  | .compile => [.out, .help]
  | .resolve | .inspect => [.help]
  | .help => []

/-- The options that were given, and the one that may still get its value. -/
structure Given where
  settled : List (Switch × String) := []
  pending : Option (Switch × Option String) := none
  deriving DecidableEq, Repr

namespace Given

def value? (given : Given) (switch : Switch) : Option String := given.settled.lookup switch

def has (given : Given) (switch : Switch) : Bool := (given.value? switch).isSome

def add (given : Given) (switch : Switch) (value : String) : Except Stop Given :=
  if given.has switch then .error .misuse
  else .ok { given with settled := (switch, value) :: given.settled }

def addValue (given : Given) (switch : Switch) (value : String) : Except Stop Given :=
  if value.isEmpty then .error .misuse else given.add switch value

/-- Closes the option that is still open. -/
def settle (given : Given) : Except Stop Given :=
  match given.pending with
  | none => .ok given
  | some (_, none) => .error .misuse
  | some (switch, some value) => { given with pending := none }.addValue switch value

def flag (topic : Topic) (given : Given) (switch : Switch) : Except Stop Given := do
  let given ← given.settle
  if switch = .help then .error (.help topic) else given.add switch ""

def attached (given : Given) (switch : Switch) (value : List Char) : Except Stop Given := do
  (← given.settle).addValue switch (String.ofList value)

def await (given : Given) (switch : Switch) : Except Stop Given := do
  return { ← given.settle with pending := some (switch, none) }

def long (topic : Topic) (given : Given) (text : List Char) : Except Stop Given :=
  let (name, value) := text.span (· ≠ '=')
  match topic.switches.find? (·.long == String.ofList name) with
  | none => .error .misuse
  | some switch =>
    match switch.valueName, value with
    | none, [] => given.flag topic switch
    | none, _ :: _ => .error .misuse
    | some _, [] => given.await switch
    | some _, _ :: value => given.attached switch value

/-- Short names one after another. The first that takes a value takes all the rest, less
an equals sign. -/
def short (topic : Topic) (given : Given) : List Char → Except Stop Given
  | [] => .ok given
  | name :: rest =>
    match topic.switches.find? (·.short == name) with
    | none => .error .misuse
    | some switch =>
      match switch.valueName, rest with
      | none, rest => do short topic (← given.flag topic switch) rest
      | some _, [] => given.await switch
      | some _, '=' :: value => given.attached switch value
      | some _, value => given.attached switch value

def option (topic : Topic) (given : Given) : List Char → Except Stop Given
  | '-' :: text => given.long topic text
  | text => given.short topic text

/-- Reads options up to the first word that is none and is no value either. Two hyphens
alone are such a word. -/
def scan (topic : Topic) (given : Given) :
    List String → Except Stop (Given × List String)
  | [] => .ok (given, [])
  | word :: words =>
    match word.toList with
    | ['-', '-'] => .ok (given, word :: words)
    | '-' :: first :: text => do scan topic (← given.option topic (first :: text)) words
    | _ =>
      match given.pending with
      | some (switch, none) => scan topic { given with pending := some (switch, some word) } words
      | _ => .ok (given, word :: words)

end Given

end EdgeRoutes.CommandLine
