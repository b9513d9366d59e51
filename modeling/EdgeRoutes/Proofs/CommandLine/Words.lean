import EdgeRoutes.CommandLine.Invocation

/-! What a list of words asks for.

An option is written behind two hyphens with its long name or behind one with its short name.
Its value is joined to the name or is the word after it. Everything is told from the words; no
reader has a part in this.
-/

set_option autoImplicit false

namespace EdgeRoutes.CommandLine

/-- Options with their values in the order in which they are given. A flag has the empty value. -/
abbrev Options := List (Switch × String)

namespace Words

/-- A word that is no option. One hyphen alone is such a word, two are not. -/
def Plain (word : String) : Prop := ∀ text, word.toList = '-' :: text → text = []

/-- A long name, with its value behind an equals sign. Without one, an option that takes a value
is left open. -/
inductive Long (topic : Topic) : Options → Option Switch → List Char → Prop where
  | flag {switch : Switch} (known : switch ∈ topic.switches) (bare : switch.valueName = none)
      (other : switch ≠ .help) : Long topic [(switch, "")] none switch.long.toList
  | joined {switch : Switch} {value : List Char} (known : switch ∈ topic.switches)
      (takes : switch.valueName ≠ none) :
      Long topic [(switch, String.ofList value)] none (switch.long.toList ++ '=' :: value)
  | opened {switch : Switch} (known : switch ∈ topic.switches) (takes : switch.valueName ≠ none) :
      Long topic [] (some switch) switch.long.toList

/-- Short names in a row. The first that takes a value has all the rest for it. -/
inductive Short (topic : Topic) : Options → Option Switch → List Char → Prop where
  | none : Short topic [] none []
  | flag {switch : Switch} {given : Options} {opened : Option Switch} {text : List Char}
      (known : switch ∈ topic.switches) (bare : switch.valueName = none) (other : switch ≠ .help)
      (more : Short topic given opened text) :
      Short topic ((switch, "") :: given) opened (switch.short :: text)
  | joined {switch : Switch} {first : Char} {value : List Char} (known : switch ∈ topic.switches)
      (takes : switch.valueName ≠ none) (apart : first ≠ '=') :
      Short topic [(switch, String.ofList (first :: value))] none (switch.short :: first :: value)
  | equals {switch : Switch} {value : List Char} (known : switch ∈ topic.switches)
      (takes : switch.valueName ≠ none) :
      Short topic [(switch, String.ofList value)] none (switch.short :: '=' :: value)
  | opened {switch : Switch} (known : switch ∈ topic.switches) (takes : switch.valueName ≠ none) :
      Short topic [] (some switch) [switch.short]

inductive Spells (topic : Topic) (given : Options) (opened : Option Switch) : List Char → Prop where
  | long {text : List Char} (written : Long topic given opened text) :
      Spells topic given opened ('-' :: text)
  | short {text : List Char} (written : Short topic given opened text) (nonempty : text ≠ []) :
      Spells topic given opened text

inductive ShortHelp (topic : Topic) : Options → List Char → Prop where
  | here {text : List Char} (known : .help ∈ topic.switches) :
      ShortHelp topic [] (Switch.help.short :: text)
  | flag {switch : Switch} {given : Options} {text : List Char} (known : switch ∈ topic.switches)
      (bare : switch.valueName = none) (other : switch ≠ .help)
      (more : ShortHelp topic given text) :
      ShortHelp topic ((switch, "") :: given) (switch.short :: text)

inductive SpellsHelp (topic : Topic) : Options → List Char → Prop where
  | long (known : .help ∈ topic.switches) : SpellsHelp topic [] ('-' :: Switch.help.long.toList)
  | short {given : Options} {text : List Char} (written : ShortHelp topic given text) :
      SpellsHelp topic given text

/-- No option is given twice, and one that takes a value has one that is not empty. -/
structure Proper (given : Options) : Prop where
  once : (given.map Prod.fst).Nodup
  filled : ∀ option ∈ given, option.1.valueName ≠ none → option.2 ≠ ""

instance (given : Options) : Decidable (Proper given) :=
  decidable_of_iff ((given.map Prod.fst).Nodup ∧
      ∀ option ∈ given, option.1.valueName ≠ none → option.2 ≠ "")
    ⟨fun both => ⟨both.1, both.2⟩, fun proper => ⟨proper.once, proper.filled⟩⟩

/-- The words write these options. An option at the end that has the last word for its value
stands apart. -/
inductive Written (topic : Topic) : Options → Option (Switch × String) → List String → Prop where
  | none : Written topic [] none []
  | joined {given more : Options} {last : Option (Switch × String)} {words : List String}
      {word : String} {text : List Char} (before : Written topic given last words)
      (hyphen : word.toList = '-' :: text) (spells : Spells topic more none text) :
      Written topic (given ++ last.toList ++ more) none (words ++ [word])
  | detached {given more : Options} {last : Option (Switch × String)} {words : List String}
      {switch : Switch} {word value : String} {text : List Char}
      (before : Written topic given last words) (hyphen : word.toList = '-' :: text)
      (spells : Spells topic more (some switch) text) (plain : Plain value) :
      Written topic (given ++ last.toList ++ more) (some (switch, value)) (words ++ [word, value])

def Names (given : Options) (switch : Switch) (found : Option String) : Prop :=
  ∀ value, found = some value ↔ (switch, value) ∈ given

/-- Paths are plain words; behind two hyphens every word is one. -/
inductive Paths : List String → List String → Prop where
  | none : Paths [] []
  | path {word : String} {words paths : List String} (plain : Plain word)
      (more : Paths words paths) : Paths (word :: words) (word :: paths)
  | rest {words : List String} : Paths ("--" :: words) words

inductive PathsHelp : List String → Prop where
  | here {more : Options} {word : String} {rest : List String} {text : List Char}
      (hyphen : word.toList = '-' :: text) (help : SpellsHelp .resolve more text) :
      PathsHelp (word :: rest)
  | path {word : String} {words : List String} (plain : Plain word) (more : PathsHelp words) :
      PathsHelp (word :: words)

inductive HelpFlag (topic : Topic) : List String → Prop where
  | behind {given more : Options} {last : Option (Switch × String)} {words rest : List String}
      {word : String} {text : List Char} (options : Written topic given last words)
      (hyphen : word.toList = '-' :: text) (help : SpellsHelp topic more text)
      (proper : Proper (given ++ last.toList ++ more)) : HelpFlag topic (words ++ word :: rest)

inductive HelpBehind : Topic → String → List String → Prop where
  | compile {words : List String} (flag : HelpFlag .compile words) :
      HelpBehind .compile "compile" words
  | inspect {words : List String} (flag : HelpFlag .inspect words) :
      HelpBehind .inspect "inspect" words
  | resolve {words : List String} (asked : PathsHelp words) : HelpBehind .resolve "match" words
  | program : HelpBehind .program "help" []
  | command {name : String} {topic : Topic}
      (known : (name, topic) ∈
        [("compile", .compile), ("match", .resolve), ("inspect", .inspect), ("help", .help)]) :
      HelpBehind topic "help" [name]

/-- The words ask for help. An option of the program whose value stands right before the name of
the command is not looked at. -/
inductive Help : Topic → List String → Prop where
  | flag {words : List String} (flag : HelpFlag .program words) : Help .program words
  | command {given : Options} {last : Option (Switch × String)} {words behind : List String}
      {topic : Topic} {name : String} (options : Written .program given last words)
      (proper : Proper given) (asked : HelpBehind topic name behind) :
      Help topic (words ++ name :: behind)

end Words

open Words

inductive Command.Asked : Command → String → List String → Prop where
  | compile {given : Options} {last : Option (Switch × String)} {words ending : List String}
      {out : Option String} (options : Written .compile given last words)
      (proper : Proper (given ++ last.toList)) (named : Names (given ++ last.toList) .out out)
      (ends : ending = [] ∨ ending = ["--"]) : Asked (.compile out) "compile" (words ++ ending)
  | resolve {words paths : List String} (written : Paths words paths) (any : paths ≠ []) :
      Asked (.resolve paths) "match" words
  | inspect {ending : List String} (ends : ending = [] ∨ ending = ["--"]) :
      Asked .inspect "inspect" ending

/-- The words ask for a run: options of the program, the name of a command, and its own words. -/
inductive Invocation.Asked (invocation : Invocation) : List String → Prop where
  | command {given : Options} {last : Option (Switch × String)} {words behind : List String}
      {name : String} (options : Written .program given last words)
      (proper : Proper (given ++ last.toList))
      (configFile : Names (given ++ last.toList) .config invocation.configFile)
      (buildDirectory : Names (given ++ last.toList) .buildDirectory invocation.buildDirectory)
      (verbose : invocation.verbose = true ↔ .verbose ∈ (given ++ last.toList).map Prod.fst)
      (asked : invocation.command.Asked name behind) : Asked invocation (words ++ name :: behind)

end EdgeRoutes.CommandLine
