import EdgeRoutes.CommandLine.Switch

/-! What a list of arguments asks for.

Options for the program as a whole come first, then the name of a command, then what that
command takes. An option of the program that is still open when the command begins is
closed last, so a command can give help before.
-/

set_option autoImplicit false

namespace EdgeRoutes.CommandLine

inductive Command where
  | compile (out : Option String)
  | resolve (paths : List String)
  | inspect
  deriving DecidableEq, Repr

structure Invocation where
  configFile : Option String
  buildDirectory : Option String
  verbose : Bool
  command : Command
  deriving DecidableEq, Repr

def Topic.ofName? : String → Option Topic
  | "compile" => some .compile
  | "match" => some .resolve
  | "inspect" => some .inspect
  | "help" => some .help
  | _ => none

def optionsOnly (topic : Topic) (words : List String) : Except Stop Given := do
  match ← Given.scan topic {} words with
  | (given, []) | (given, ["--"]) => given.settle
  | _ => .error .misuse

/-- Reads paths. Behind two hyphens every word is a path. -/
def pathWords : List String → Except Stop (List String)
  | [] => .ok []
  | word :: words =>
    match word.toList with
    | ['-', '-'] => .ok words
    | '-' :: first :: text => do
      let _ ← Given.option .resolve {} (first :: text)
      pathWords words
    | _ => do return word :: (← pathWords words)

/-- Help is asked for at most one command. -/
def helpTopic : List String → Except Stop Topic
  | [] => .ok .program
  | [name] => (Topic.ofName? name).elim (.error .misuse) .ok
  | _ => .error .misuse

def Command.ofArguments : Topic → List String → Except Stop Command
  | .compile, words => do return .compile ((← optionsOnly .compile words).value? .out)
  | .resolve, words => do
    match ← pathWords words with
    | [] => .error .misuse
    | paths => return .resolve paths
  | .inspect, words => do
    let _ ← optionsOnly .inspect words
    return .inspect
  | .help, words => do .error (.help (← helpTopic words))
  | .program, _ => .error .misuse

def Invocation.ofArguments (arguments : List String) : Except Stop Invocation := do
  match ← Given.scan .program {} arguments with
  | (_, []) => .error .misuse
  | (given, name :: words) =>
    match Topic.ofName? name with
    | none => .error .misuse
    | some topic =>
      let command ← Command.ofArguments topic words
      let given ← given.settle
      return {
        configFile := given.value? .config
        buildDirectory := given.value? .buildDirectory
        verbose := given.has .verbose
        command }

end EdgeRoutes.CommandLine
