import EdgeRoutes.Proofs.CommandLine.Scanning

/-! Reading the arguments as what they ask for.

Behind the options of the program comes the name of a command with its own words. A list of words
is read as a run or as a call for help just when it asks for that; any other list is misuse.
-/

set_option autoImplicit false

namespace EdgeRoutes.CommandLine

open Words

variable {topic asked : Topic} {given : Options} {last : Option (Switch × String)}
  {words : List String}

theorem Topic.ofName?_eq_some_iff {name : String} :
    Topic.ofName? name = some topic ↔ (name, topic) ∈
      [("compile", .compile), ("match", .resolve), ("inspect", .inspect), ("help", .help)] := by
  unfold Topic.ofName?
  split <;> simp_all [eq_comm]

theorem Given.value?_checked (proper : Proper given) (switch : Switch) :
    Names given switch ((checked given).value? switch) := by
  intro value
  rw [value?, List.lookup_eq_some_iff, ← List.mem_reverse]
  constructor
  · rintro ⟨before, after, whole, _⟩
    have whole : given.reverse = _ := whole
    exact whole ▸ List.mem_append_right _ List.mem_cons_self
  · intro member
    obtain ⟨before, after, whole⟩ := List.append_of_mem member
    have once := List.nodup_reverse.mpr proper.once
    rw [← List.map_reverse, whole, List.map_append, List.map_cons] at once
    refine ⟨before, after, whole, fun option inside => bne_iff_ne.mpr fun same => ?_⟩
    have key : option.1 ∈ before.map Prod.fst := List.mem_map_of_mem inside
    exact List.disjoint_of_nodup_append once key (same ▸ List.mem_cons_self)

theorem Words.Names.unique {switch : Switch} {first second : Option String}
    (left : Names given switch first) (right : Names given switch second) : first = second :=
  Option.ext fun value => (left value).trans (right value).symm

namespace Command

variable {command : Command} {name : String}

theorem asked_compile_iff :
    command.Asked "compile" words ↔
      ∃ given last taken ending out, words = taken ++ ending ∧ Written .compile given last taken ∧
        Proper (given ++ last.toList) ∧ (ending = [] ∨ ending = ["--"]) ∧
        Names (given ++ last.toList) .out out ∧ command = .compile out := by
  constructor
  · generalize same : "compile" = name
    rintro (⟨written, proper, named, ends⟩ | _ | _)
    · exact ⟨_, _, _, _, _, rfl, written, proper, ends, named, rfl⟩
    · exact absurd same (by decide)
    · exact absurd same (by decide)
  · rintro ⟨given, last, taken, ending, out, rfl, written, proper, ends, named, rfl⟩
    exact .compile written proper named ends

theorem asked_resolve_iff :
    command.Asked "match" words ↔
      ∃ paths, Paths words paths ∧ paths ≠ [] ∧ command = .resolve paths := by
  constructor
  · generalize same : "match" = name
    rintro (_ | ⟨written, any⟩ | _)
    · exact absurd same (by decide)
    · exact ⟨_, written, any, rfl⟩
    · exact absurd same (by decide)
  · rintro ⟨paths, written, any, rfl⟩
    exact .resolve written any

theorem asked_inspect_iff :
    command.Asked "inspect" words ↔ (words = [] ∨ words = ["--"]) ∧ command = .inspect := by
  constructor
  · generalize same : "inspect" = name
    rintro (_ | _ | ⟨ends⟩)
    · exact absurd same (by decide)
    · exact absurd same (by decide)
    · exact ⟨ends, rfl⟩
  · rintro ⟨ends, rfl⟩
    exact .inspect ends

theorem not_asked_help : ¬ command.Asked "help" words := by
  generalize same : "help" = name
  rintro (_ | _ | _) <;> exact absurd same (by decide)

theorem ofArguments_compile_iff :
    ofArguments .compile words = .ok command ↔ command.Asked "compile" words := by
  rw [asked_compile_iff]
  constructor
  · intro read
    obtain ⟨state, options, same⟩ := bind_eq_ok_iff.mp read
    cases same
    obtain ⟨given, last, taken, ending, rfl, written, proper, ends, rfl⟩ :=
      optionsOnly_eq_ok_iff.mp options
    exact ⟨given, last, taken, ending, _, rfl, written, proper, ends,
      Given.value?_checked proper .out, rfl⟩
  · rintro ⟨given, last, taken, ending, out, rfl, written, proper, ends, named, rfl⟩
    refine bind_eq_ok_iff.mpr ⟨_, optionsOnly_eq_ok_iff.mpr
      ⟨given, last, taken, ending, rfl, written, proper, ends, rfl⟩, ?_⟩
    rw [(Given.value?_checked proper .out).unique named]
    rfl

theorem ofArguments_resolve_iff :
    ofArguments .resolve words = .ok command ↔ command.Asked "match" words := by
  rw [asked_resolve_iff]
  constructor
  · intro read
    obtain ⟨paths, written, same⟩ := bind_eq_ok_iff.mp read
    split at same
    · cases same
    next any =>
      cases same
      exact ⟨paths, pathWords_eq_ok_iff.mp written, any, rfl⟩
  · rintro ⟨paths, written, any, rfl⟩
    refine bind_eq_ok_iff.mpr ⟨paths, pathWords_eq_ok_iff.mpr written, ?_⟩
    split
    · contradiction
    · rfl

theorem ofArguments_inspect_iff :
    ofArguments .inspect words = .ok command ↔ command.Asked "inspect" words := by
  rw [asked_inspect_iff]
  constructor
  · intro read
    obtain ⟨state, options, same⟩ := bind_eq_ok_iff.mp read
    cases same
    obtain ⟨given, last, taken, ending, rfl, written, _, ends, _⟩ :=
      optionsOnly_eq_ok_iff.mp options
    rw [written.eq_nil rfl]
    exact ⟨ends, rfl⟩
  · rintro ⟨ends, rfl⟩
    exact bind_eq_ok_iff.mpr ⟨_, optionsOnly_eq_ok_iff.mpr
      ⟨[], none, [], words, rfl, .none, .nil, ends, rfl⟩, rfl⟩

theorem ofArguments_help_ne_ok : ofArguments .help words ≠ .ok command := by
  intro read
  obtain ⟨topic, _, stop⟩ := bind_eq_ok_iff.mp read
  cases stop

/-- The words behind the name of a command are read as what they ask for. -/
theorem ofArguments_eq_ok_iff (known : Topic.ofName? name = some topic) :
    ofArguments topic words = .ok command ↔ command.Asked name words := by
  rw [Topic.ofName?_eq_some_iff] at known
  simp only [List.mem_cons, Prod.mk.injEq, List.not_mem_nil, or_false] at known
  obtain ⟨rfl, rfl⟩ | ⟨rfl, rfl⟩ | ⟨rfl, rfl⟩ | ⟨rfl, rfl⟩ := known
  · exact ofArguments_compile_iff
  · exact ofArguments_resolve_iff
  · exact ofArguments_inspect_iff
  · exact iff_of_false ofArguments_help_ne_ok not_asked_help

theorem Asked.known (asked : command.Asked name words) :
    ∃ topic, Topic.ofName? name = some topic := by
  cases asked with
  | compile => exact ⟨.compile, rfl⟩
  | resolve => exact ⟨.resolve, rfl⟩
  | inspect => exact ⟨.inspect, rfl⟩

theorem helpTopic_eq_ok_iff :
    helpTopic words = .ok topic ↔
      words = [] ∧ topic = .program ∨ ∃ name, words = [name] ∧ Topic.ofName? name = some topic := by
  unfold helpTopic
  split
  · simp [eq_comm]
  next name =>
    cases found : Topic.ofName? name <;> simp [found]
  next none single =>
    refine iff_of_false nofun ?_
    rintro (⟨rfl, _⟩ | ⟨name, rfl, _⟩)
    · exact none rfl
    · exact single name rfl

theorem helpTopic_error {stop : Stop} (failed : helpTopic words = .error stop) :
    stop = .misuse := by
  unfold helpTopic at failed
  split at failed
  · cases failed
  next name =>
    cases found : Topic.ofName? name <;> rw [found] at failed <;> cases failed
    rfl
  · cases failed
    rfl

theorem helpBehind_compile_iff :
    HelpBehind asked "compile" words ↔ asked = .compile ∧ HelpFlag .compile words := by
  constructor
  · generalize same : "compile" = name
    rintro (⟨flag⟩ | _ | _ | _ | _)
    · exact ⟨rfl, flag⟩
    all_goals exact absurd same (by decide)
  · rintro ⟨rfl, flag⟩
    exact .compile flag

theorem helpBehind_resolve_iff :
    HelpBehind asked "match" words ↔ asked = .resolve ∧ PathsHelp words := by
  constructor
  · generalize same : "match" = name
    rintro (_ | _ | ⟨help⟩ | _ | _)
    case resolve => exact ⟨rfl, help⟩
    all_goals exact absurd same (by decide)
  · rintro ⟨rfl, help⟩
    exact .resolve help

theorem helpBehind_inspect_iff :
    HelpBehind asked "inspect" words ↔ asked = .inspect ∧ HelpFlag .inspect words := by
  constructor
  · generalize same : "inspect" = name
    rintro (_ | ⟨flag⟩ | _ | _ | _)
    case inspect => exact ⟨rfl, flag⟩
    all_goals exact absurd same (by decide)
  · rintro ⟨rfl, flag⟩
    exact .inspect flag

theorem helpBehind_help_iff :
    HelpBehind asked "help" words ↔
      words = [] ∧ asked = .program ∨
        ∃ name, words = [name] ∧ Topic.ofName? name = some asked := by
  simp only [Topic.ofName?_eq_some_iff]
  constructor
  · generalize same : "help" = name
    rintro (_ | _ | _ | _ | ⟨known⟩)
    case program => exact .inl ⟨rfl, rfl⟩
    case command => exact .inr ⟨_, rfl, known⟩
    all_goals exact absurd same (by decide)
  · rintro (⟨rfl, rfl⟩ | ⟨name, rfl, known⟩)
    · exact .program
    · exact .command known

/-- The words behind the name of a command are read as a call for help just when they are one. -/
theorem ofArguments_eq_help_iff (known : Topic.ofName? name = some topic) :
    ofArguments topic words = .error (.help asked) ↔ HelpBehind asked name words := by
  rw [Topic.ofName?_eq_some_iff] at known
  simp only [List.mem_cons, Prod.mk.injEq, List.not_mem_nil, or_false] at known
  obtain ⟨rfl, rfl⟩ | ⟨rfl, rfl⟩ | ⟨rfl, rfl⟩ | ⟨rfl, rfl⟩ := known
  · rw [helpBehind_compile_iff, ← optionsOnly_eq_help_iff]
    refine bind_eq_error_iff.trans (or_iff_left ?_)
    -- Once the options are read, the command itself no longer asks for help.
    rintro ⟨state, _, stop⟩
    cases stop
  · rw [helpBehind_resolve_iff, ← pathWords_eq_help_iff]
    refine bind_eq_error_iff.trans (or_iff_left ?_)
    rintro ⟨paths, _, stop⟩
    split at stop <;> cases stop
  · rw [helpBehind_inspect_iff, ← optionsOnly_eq_help_iff]
    refine bind_eq_error_iff.trans (or_iff_left ?_)
    rintro ⟨state, _, stop⟩
    cases stop
  · rw [helpBehind_help_iff, ← helpTopic_eq_ok_iff]
    constructor
    · intro read
      rcases bind_eq_error_iff.mp read with failed | ⟨found, same, stop⟩
      · cases helpTopic_error failed
      · cases stop
        exact same
    · exact fun found => bind_eq_error_iff.mpr (.inr ⟨_, found, rfl⟩)

theorem helpBehind_known (behind : HelpBehind asked name words) :
    ∃ topic, Topic.ofName? name = some topic := by
  cases behind with
  | compile => exact ⟨.compile, rfl⟩
  | inspect => exact ⟨.inspect, rfl⟩
  | resolve => exact ⟨.resolve, rfl⟩
  | program => exact ⟨.help, rfl⟩
  | command => exact ⟨.help, rfl⟩

end Command

theorem Topic.plain_name {name : String} (known : Topic.ofName? name = some topic) :
    Plain name ∧ ¬ EndsOptions name := by
  have letters : ∀ text, name.toList ≠ '-' :: text := by
    intro text same
    have begins : name.toList.head? = some '-' := by rw [same]; rfl
    rw [Topic.ofName?_eq_some_iff] at known
    simp only [List.mem_cons, Prod.mk.injEq, List.not_mem_nil, or_false] at known
    obtain ⟨rfl, _⟩ | ⟨rfl, _⟩ | ⟨rfl, _⟩ | ⟨rfl, _⟩ := known <;>
      exact absurd begins (by decide)
  exact ⟨fun text same => absurd same (letters text), letters ['-']⟩

namespace Invocation

variable {invocation : Invocation} {arguments : List String}

theorem ofArguments_written {behind : List String} {name : String}
    (written : Written .program given last words) (proper : Proper given)
    (known : Topic.ofName? name = some topic) :
    ofArguments (words ++ name :: behind) = (do
      let command ← Command.ofArguments topic behind
      let given ← (Given.reading given last).settle
      return {
        configFile := given.value? .config
        buildDirectory := given.value? .buildDirectory
        verbose := given.has .verbose
        command }) := by
  unfold ofArguments
  rw [Given.scan_written written proper, Given.scan_plain (Topic.plain_name known).1]
  simp only [bind, Except.bind, known]

/-- A list of words is read as a run just when it asks for that run. -/
theorem ofArguments_eq_ok_iff :
    ofArguments arguments = .ok invocation ↔ invocation.Asked arguments := by
  constructor
  · intro read
    obtain ⟨⟨state, rest⟩, scanned, found⟩ := bind_eq_ok_iff.mp read
    -- The options before the command, the command, and what it makes of the words behind it.
    obtain ⟨taken, rfl, reads, _⟩ := Reads.start.scan scanned
    cases rest with
    | nil => cases found
    | cons name behind =>
      cases known : Topic.ofName? name with
      | none =>
        simp only [known] at found
        cases found
      | some topic =>
        simp only [known] at found
        obtain ⟨command, commanded, found⟩ := bind_eq_ok_iff.mp found
        obtain ⟨settled, done, same⟩ := bind_eq_ok_iff.mp found
        cases same
        cases reads with
        | whole written proper =>
          rw [Given.settle_reading proper written.takes] at done
          obtain ⟨proper, rfl⟩ := proper_eq_ok_iff.mp done
          exact .command written proper (Given.value?_checked proper .config)
            (Given.value?_checked proper .buildDirectory) Given.has_checked
            ((Command.ofArguments_eq_ok_iff known).mp commanded)
        | waiting => cases done
  · rintro ⟨written, proper, configFile, buildDirectory, verbose, asked⟩
    obtain ⟨topic, known⟩ := asked.known
    have settled : Given.settle _ = _ := Given.settle_reading proper.left written.takes
    rw [ofArguments_written written proper.left known,
      (Command.ofArguments_eq_ok_iff known).mpr asked, settled, if_pos proper]
    obtain ⟨file, directory, details, command⟩ := invocation
    have file := (Given.value?_checked proper .config).unique configFile
    have directory := (Given.value?_checked proper .buildDirectory).unique buildDirectory
    have details := Bool.eq_iff_iff.mpr (Given.has_checked.trans verbose.symm)
    simp only at file directory details
    rw [← file, ← directory, ← details]
    rfl

/-- A list of words is read as a call for help just when it asks for help. -/
theorem ofArguments_eq_help_iff :
    ofArguments arguments = .error (.help asked) ↔ Help asked arguments := by
  constructor
  · intro read
    rcases bind_eq_error_iff.mp read with failed | ⟨⟨state, rest⟩, scanned, found⟩
    · obtain ⟨rfl, flag⟩ := Given.scan_eq_help_iff.mp failed
      exact .flag flag
    · obtain ⟨taken, rfl, reads, stops⟩ := Reads.start.scan scanned
      cases rest with
      | nil => cases found
      | cons name behind =>
        cases known : Topic.ofName? name with
        | none =>
          simp only [known] at found
          cases found
        | some topic =>
          simp only [known] at found
          rcases bind_eq_error_iff.mp found with failed | ⟨command, _, found⟩
          · have behind := (Command.ofArguments_eq_help_iff known).mp failed
            cases reads with
            | whole written proper => exact .command written proper behind
            | waiting =>
              -- The name would have been taken as the value of the option.
              obtain none | ⟨word, words, same, ending⟩ | ⟨_, given, last, same⟩ := stops
              · cases none
              · cases same
                exact absurd ending (Topic.plain_name known).2
              · have waits : some (_, none) = Option.map _ last := congrArg Given.pending same
                cases last <;> cases waits
          · rcases bind_eq_error_iff.mp found with failed | ⟨settled, _, stop⟩
            · cases Given.stop_of_settle failed
            · cases stop
  · rintro (flag | ⟨written, proper, behind⟩)
    · exact bind_eq_error_iff.mpr (.inl (Given.scan_eq_help_iff.mpr ⟨rfl, flag⟩))
    · obtain ⟨topic, known⟩ := Command.helpBehind_known behind
      rw [ofArguments_written written proper known]
      exact bind_eq_error_iff.mpr
        (.inl ((Command.ofArguments_eq_help_iff known).mpr behind))

theorem Asked.unique {other : Invocation} (left : invocation.Asked arguments)
    (right : other.Asked arguments) : invocation = other := by
  cases (ofArguments_eq_ok_iff.mpr left).symm.trans (ofArguments_eq_ok_iff.mpr right)
  rfl

theorem Asked.not_help (left : invocation.Asked arguments) : ¬ Help topic arguments := by
  intro right
  cases (ofArguments_eq_ok_iff.mpr left).symm.trans (ofArguments_eq_help_iff.mpr right)

example : Asked ⟨none, some "build", true, .compile (some "out.js")⟩
    ["-vb", "build", "compile", "--out=out.js"] :=
  ofArguments_eq_ok_iff.mp (by decide)

end Invocation

end EdgeRoutes.CommandLine
