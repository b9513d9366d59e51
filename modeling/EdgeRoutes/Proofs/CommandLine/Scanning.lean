import EdgeRoutes.Proofs.CommandLine.Switches

/-! Reading options and paths from word to word.

After each word, the options that were given so far are those that the words write, and the last
may still wait for its value. So a list of words is read just when it writes something, and as
what it writes.
-/

set_option autoImplicit false

namespace EdgeRoutes

namespace CommandLine

open Words

variable {topic asked : Topic} {given more : Options} {last : Option (Switch × String)}
  {words past rest : List String} {word : String} {state next : Given}

def EndsOptions (word : String) : Prop := word.toList = ['-', '-']

theorem ending_iff : EndsOptions word ↔ word = "--" :=
  ⟨fun same => String.toList_inj.mp same, fun same => same ▸ rfl⟩

theorem word_cases (word : String) :
    EndsOptions word ∨ Plain word ∨
      ∃ first text, word.toList = '-' :: first :: text ∧ ¬ EndsOptions word := by
  by_cases ending : EndsOptions word
  · exact .inl ending
  · cases chars : word.toList with
    | nil => exact .inr (.inl fun text same => by rw [chars] at same; cases same)
    | cons first text =>
      by_cases hyphen : first = '-'
      · subst hyphen
        cases text with
        | nil =>
          refine .inr (.inl fun text same => ?_)
          rw [chars] at same
          exact (List.cons.inj same).2.symm
        | cons first text => exact .inr (.inr ⟨first, text, rfl, ending⟩)
      · refine .inr (.inl fun text same => ?_)
        rw [chars] at same
        exact absurd (List.cons.inj same).1 hyphen

namespace Words

theorem Long.takes {opened : Option Switch} {text : List Char}
    (written : Long topic more opened text) :
    ∀ switch ∈ opened, switch.valueName ≠ Option.none := by
  cases written with
  | flag | joined => exact nofun
  | opened known takes => simpa using takes

theorem Short.takes {opened : Option Switch} {text : List Char}
    (written : Short topic more opened text) :
    ∀ switch ∈ opened, switch.valueName ≠ Option.none := by
  induction written with
  | none | joined | equals => exact nofun
  | flag known bare other written ih => exact ih
  | opened known takes => simpa using takes

theorem Written.takes (written : Written topic given last words) :
    ∀ option ∈ last, option.1.valueName ≠ Option.none := by
  cases written with
  | none | joined => exact nofun
  | detached before hyphen spells plain =>
    rintro _ ⟨⟩
    cases spells with
    | long written => exact written.takes _ rfl
    | short written => exact written.takes _ rfl

theorem Spells.not_ending {opened : Option Switch} {text : List Char}
    (spells : Spells topic more opened text) (hyphen : word.toList = '-' :: text) :
    ∃ first behind, text = first :: behind ∧ ¬ EndsOptions word := by
  cases spells with
  | @long text written =>
    refine ⟨'-', text, rfl, fun ending => ?_⟩
    exact written.ne_nil (List.cons.inj (List.cons.inj (hyphen.symm.trans ending)).2).2
  | short written nonempty =>
    obtain ⟨first, behind, rfl⟩ := List.exists_cons_of_ne_nil nonempty
    refine ⟨first, behind, rfl, fun ending => written.head ?_⟩
    exact (List.cons.inj (List.cons.inj (hyphen.symm.trans ending)).2).1

end Words

namespace Given

theorem scan_ending (ending : EndsOptions word) (state : Given) (words : List String) :
    scan topic state (word :: words) = .ok (state, word :: words) := by
  rw [scan]
  split
  · rfl
  next other same =>
    cases ending.symm.trans same
    exact (other rfl rfl).elim
  next other _ => exact (other ending).elim

theorem scan_option {first : Char} {text : List Char} (hyphen : word.toList = '-' :: first :: text)
    (other : ¬ EndsOptions word) (state : Given) (words : List String) :
    scan topic state (word :: words) =
      state.option topic (first :: text) >>= fun after => scan topic after words := by
  rw [scan]
  split
  next same => exact absurd same other
  next same =>
    cases hyphen.symm.trans same
    rfl
  next none => exact absurd hyphen (none _ _)

theorem scan_value (plain : Plain word) {switch : Switch} {settled : List (Switch × String)}
    (words : List String) :
    scan topic ⟨settled, some (switch, none)⟩ (word :: words) =
      scan topic ⟨settled, some (switch, some word)⟩ words := by
  rw [scan]
  split
  next same => exact absurd (plain _ same) (by simp)
  next same => exact absurd (plain _ same) (by simp)
  next => rfl

theorem scan_plain (plain : Plain word) (words : List String) :
    scan topic (reading given last) (word :: words) = .ok (reading given last, word :: words) := by
  rw [scan]
  split
  next same => exact absurd (plain _ same) (by simp)
  next same => exact absurd (plain _ same) (by simp)
  next => cases last <;> rfl

/-- Behind the options that are written, an option is read as what it writes. -/
theorem option_reading_ok_iff (written : Written topic given last past) (proper : Proper given)
    {first : Char} {text : List Char} :
    (reading given last).option topic (first :: text) = .ok next ↔
      ∃ more opened, Spells topic more opened (first :: text) ∧
        Proper (given ++ last.toList ++ more) ∧
        next = ⟨(given ++ last.toList ++ more).reverse, opened.map (·, none)⟩ := by
  rw [option_settle, settle_reading proper written.takes]
  by_cases fits : Proper (given ++ last.toList)
  · rw [if_pos fits]
    exact option_eq_ok_iff fits
  · rw [if_neg fits]
    refine iff_of_false nofun ?_
    rintro ⟨more, opened, _, whole, _⟩
    exact fits whole.left

theorem option_reading_help_iff (written : Written topic given last past) (proper : Proper given)
    {first : Char} {text : List Char} :
    (reading given last).option topic (first :: text) = .error (.help asked) ↔
      asked = topic ∧ ∃ more, SpellsHelp topic more (first :: text) ∧
        Proper (given ++ last.toList ++ more) := by
  rw [option_settle, settle_reading proper written.takes]
  by_cases fits : Proper (given ++ last.toList)
  · rw [if_pos fits]
    exact option_eq_help_iff fits
  · rw [if_neg fits]
    refine iff_of_false nofun ?_
    rintro ⟨_, more, _, whole⟩
    exact fits whole.left

/-- The words that write options are read as these, whatever follows. -/
theorem scan_written (written : Written topic given last words) (proper : Proper given)
    (rest : List String) :
    scan topic {} (words ++ rest) = scan topic (reading given last) rest := by
  induction written generalizing rest with
  | none => rfl
  | @joined given more last words word text before hyphen spells ih =>
    obtain ⟨first, behind, rfl, other⟩ := spells.not_ending hyphen
    have read := (option_reading_ok_iff before proper.left.left).mpr
      ⟨more, none, spells, proper, rfl⟩
    rw [List.append_assoc, ih proper.left.left, List.singleton_append, scan_option hyphen other,
      read]
    rfl
  | @detached given more last words switch word value text before hyphen spells plain ih =>
    obtain ⟨first, behind, rfl, other⟩ := spells.not_ending hyphen
    have read := (option_reading_ok_iff before proper.left.left).mpr
      ⟨more, some switch, spells, proper, rfl⟩
    rw [List.append_assoc, ih proper.left.left, List.cons_append, List.singleton_append,
      scan_option hyphen other, read]
    exact scan_value plain rest

end Given

/-- The options so far are those that the words write. The last may still wait for its value. -/
inductive Reads (topic : Topic) : List String → Given → Prop where
  | whole {given : Options} {last : Option (Switch × String)} {words : List String}
      (written : Written topic given last words) (proper : Proper given) :
      Reads topic words (.reading given last)
  | waiting {given more : Options} {last : Option (Switch × String)} {words : List String}
      {switch : Switch} {word : String} {text : List Char}
      (written : Written topic given last words) (hyphen : word.toList = '-' :: text)
      (spells : Spells topic more (some switch) text)
      (proper : Proper (given ++ last.toList ++ more)) :
      Reads topic (words ++ [word]) ⟨(given ++ last.toList ++ more).reverse, some (switch, none)⟩

theorem Words.Proper.nil : Proper [] := ⟨List.nodup_nil, nofun⟩

namespace Reads

theorem start : Reads topic [] {} := @whole topic [] none [] .none .nil

theorem option (reads : Reads topic past state) {first : Char} {text : List Char}
    (hyphen : word.toList = '-' :: first :: text)
    (read : state.option topic (first :: text) = .ok next) : Reads topic (past ++ [word]) next := by
  cases reads with
  | whole written proper =>
    obtain ⟨more, opened, spells, fits, rfl⟩ :=
      (Given.option_reading_ok_iff written proper).mp read
    cases opened with
    | none =>
      have whole : Written topic _ none _ := .joined written hyphen spells
      exact .whole whole fits
    | some switch => exact .waiting written hyphen spells fits
  | waiting =>
    rw [Given.option_settle] at read
    cases read

theorem value {settled : List (Switch × String)} {switch : Switch}
    (reads : Reads topic past ⟨settled, some (switch, none)⟩) (plain : Plain word) :
    Reads topic (past ++ [word]) ⟨settled, some (switch, some word)⟩ := by
  generalize same : (⟨settled, some (switch, none)⟩ : Given) = state at reads
  cases reads with
  | @whole given last words written proper =>
    cases last <;> cases same
  | waiting written hyphen spells proper =>
    cases same
    rw [List.append_assoc]
    exact .whole (.detached written hyphen spells plain) proper

/-- What the options leave of a list of words: nothing, the two hyphens that end them, or a plain
word that is no value. -/
def Stops (state : Given) (rest : List String) : Prop :=
  rest = [] ∨ (∃ word words, rest = word :: words ∧ EndsOptions word) ∨
    (∃ word words, rest = word :: words ∧ Plain word) ∧ ∃ given last, state = .reading given last

theorem scan (reads : Reads topic past state)
    (read : Given.scan topic state words = .ok (next, rest)) :
    ∃ taken, words = taken ++ rest ∧ Reads topic (past ++ taken) next ∧ Stops next rest := by
  -- The state is all that the words before have left, so the induction goes over the words ahead.
  induction words generalizing past state with
  | nil =>
    cases read
    exact ⟨[], rfl, by simpa using reads, .inl rfl⟩
  | cons word words ih =>
    obtain ending | plain | ⟨first, text, hyphen, other⟩ := word_cases word
    · rw [Given.scan_ending ending] at read
      cases read
      exact ⟨[], rfl, by simpa using reads, .inr (.inl ⟨word, words, rfl, ending⟩)⟩
    · generalize same : state = before at reads read
      cases reads with
      | whole written proper =>
        rw [Given.scan_plain plain] at read
        cases read
        exact ⟨[], rfl, by simpa using Reads.whole written proper,
          .inr (.inr ⟨⟨word, words, rfl, plain⟩, _, _, rfl⟩)⟩
      | waiting written hyphen spells proper =>
        rw [Given.scan_value plain] at read
        obtain ⟨more, rfl, reads, stops⟩ :=
          ih ((Reads.waiting written hyphen spells proper).value plain) read
        exact ⟨word :: more, rfl, by simpa using reads, stops⟩
    · rw [Given.scan_option hyphen other] at read
      obtain ⟨after, taken, read⟩ := bind_eq_ok_iff.mp read
      obtain ⟨more, rfl, reads, stops⟩ := ih (reads.option hyphen taken) read
      exact ⟨word :: more, rfl, by simpa using reads, stops⟩

theorem scan_help (reads : Reads topic past state)
    (read : Given.scan topic state words = .error (.help asked)) :
    asked = topic ∧ HelpFlag topic (past ++ words) := by
  induction words generalizing past state with
  | nil => cases read
  | cons word words ih =>
    rw [List.append_cons]
    obtain ending | plain | ⟨first, text, hyphen, other⟩ := word_cases word
    · rw [Given.scan_ending ending] at read
      cases read
    · cases reads with
      | whole written proper =>
        rw [Given.scan_plain plain] at read
        cases read
      | waiting written hyphen spells proper =>
        rw [Given.scan_value plain] at read
        exact ih ((Reads.waiting written hyphen spells proper).value plain) read
    · rw [Given.scan_option hyphen other] at read
      rcases bind_eq_error_iff.mp read with failed | ⟨after, taken, read⟩
      · cases reads with
        -- Help is asked for where an option stands, never as the value of the one before.
        | whole written proper =>
          obtain ⟨rfl, more, spells, fits⟩ :=
            (Given.option_reading_help_iff written proper).mp failed
          rw [← List.append_cons]
          exact ⟨rfl, .behind written hyphen spells fits⟩
        | waiting =>
          rw [Given.option_settle] at failed
          cases failed
      · exact ih (reads.option hyphen taken) read

end Reads

theorem Words.SpellsHelp.not_ending {text : List Char} (spells : SpellsHelp topic more text)
    (hyphen : word.toList = '-' :: text) :
    ∃ first behind, text = first :: behind ∧ ¬ EndsOptions word := by
  cases spells with
  | long known =>
    exact ⟨'-', _, rfl, fun ending => by simpa [Switch.help] using hyphen.symm.trans ending⟩
  | short written =>
    cases written with
    | here known =>
      exact ⟨_, _, rfl, fun ending => by simpa [Switch.help] using hyphen.symm.trans ending⟩
    | flag known bare other more =>
      refine ⟨_, _, rfl, fun ending => (Topic.names_plain _ known).2.2 ?_⟩
      exact (List.cons.inj (List.cons.inj (hyphen.symm.trans ending)).2).1

namespace Given

theorem scan_eq_help_iff :
    scan topic {} words = .error (.help asked) ↔ asked = topic ∧ HelpFlag topic words := by
  constructor
  · exact Reads.start.scan_help
  · rintro ⟨rfl, written, hyphen, spells, proper⟩
    obtain ⟨first, behind, rfl, other⟩ := spells.not_ending hyphen
    rw [scan_written written proper.left.left, scan_option hyphen other,
      (option_reading_help_iff written proper.left.left).mpr ⟨rfl, _, spells, proper⟩]
    rfl

end Given

theorem optionsOnly_eq_ok_iff :
    optionsOnly topic words = .ok state ↔
      ∃ given last taken ending, words = taken ++ ending ∧ Written topic given last taken ∧
        Proper (given ++ last.toList) ∧ (ending = [] ∨ ending = ["--"]) ∧
        state = .checked (given ++ last.toList) := by
  constructor
  · intro read
    obtain ⟨⟨after, rest⟩, scanned, settles⟩ := bind_eq_ok_iff.mp read
    obtain ⟨taken, rfl, reads, _⟩ := Reads.start.scan scanned
    -- Behind the options there may be an ending alone, and nothing behind that.
    have ends : (rest = [] ∨ rest = ["--"]) ∧ after.settle = .ok state := by
      split at settles
      next same => cases same; exact ⟨.inl rfl, settles⟩
      next same => cases same; exact ⟨.inr rfl, settles⟩
      next => cases settles
    cases reads with
    | whole written proper =>
      rw [Given.settle_reading proper written.takes, proper_eq_ok_iff] at ends
      exact ⟨_, _, taken, rest, rfl, written, ends.2.1, ends.1, ends.2.2⟩
    | waiting => cases ends.2
  · rintro ⟨given, last, taken, ending, rfl, written, proper, ends, rfl⟩
    have settled : (Given.reading given last).settle = .ok (.checked (given ++ last.toList)) := by
      rw [Given.settle_reading proper.left written.takes, if_pos proper]
    unfold optionsOnly
    rw [Given.scan_written written proper.left]
    rcases ends with rfl | rfl
    · exact settled
    · rw [Given.scan_ending (ending_iff.mpr rfl)]
      exact settled

theorem optionsOnly_eq_help_iff :
    optionsOnly topic words = .error (.help asked) ↔ asked = topic ∧ HelpFlag topic words := by
  rw [← Given.scan_eq_help_iff]
  constructor
  · intro read
    rcases bind_eq_error_iff.mp read with failed | ⟨⟨after, rest⟩, _, settles⟩
    · exact failed
    · split at settles
      next => cases Given.stop_of_settle settles
      next => cases Given.stop_of_settle settles
      next => cases settles
  · exact fun read => bind_eq_error_iff.mpr (.inl read)

theorem Words.Spells.not_help_only (only : topic.switches = [.help]) {opened : Option Switch}
    {text : List Char} : ¬ Spells topic more opened text := by
  have same {switch : Switch} (known : switch ∈ topic.switches) : switch = .help :=
    List.mem_singleton.mp (only ▸ known)
  intro spells
  cases spells with
  | long written =>
    cases written with
    | flag known bare other => exact other (same known)
    | joined known takes => exact takes (same known ▸ rfl)
    | opened known takes => exact takes (same known ▸ rfl)
  | short written nonempty =>
    cases written with
    | none => exact nonempty rfl
    | flag known bare other => exact other (same known)
    | joined known takes => exact takes (same known ▸ rfl)
    | equals known takes => exact takes (same known ▸ rfl)
    | opened known takes => exact takes (same known ▸ rfl)

theorem Words.Written.eq_nil (only : topic.switches = [.help])
    (written : Written topic given last words) : words = [] := by
  cases written with
  | none => rfl
  | joined before hyphen spells => exact absurd spells (Spells.not_help_only only)
  | detached before hyphen spells plain => exact absurd spells (Spells.not_help_only only)

theorem option_resolve {first : Char} {text : List Char} (next : Given) :
    Given.option .resolve {} (first :: text) ≠ .ok next := by
  intro read
  obtain ⟨more, opened, spells, _⟩ := (Given.option_eq_ok_iff .nil).mp read
  exact Spells.not_help_only rfl spells

theorem pathWords_ending (ending : EndsOptions word) : pathWords (word :: words) = .ok words := by
  rw [pathWords]
  split
  · rfl
  next other same =>
    cases ending.symm.trans same
    exact (other rfl rfl).elim
  next other _ => exact (other ending).elim

theorem pathWords_plain (plain : Plain word) :
    pathWords (word :: words) = (word :: ·) <$> pathWords words := by
  rw [pathWords]
  split
  next same => exact absurd (plain _ same) (by simp)
  next same => exact absurd (plain _ same) (by simp)
  next => rfl

theorem pathWords_option {first : Char} {text : List Char}
    (hyphen : word.toList = '-' :: first :: text) (other : ¬ EndsOptions word) :
    pathWords (word :: words) =
      Given.option .resolve {} (first :: text) >>= fun _ => pathWords words := by
  rw [pathWords]
  split
  next same => exact absurd same other
  next same =>
    cases hyphen.symm.trans same
    rfl
  next none => exact absurd hyphen (none _ _)

theorem pathWords_eq_ok_iff {paths : List String} :
    pathWords words = .ok paths ↔ Paths words paths := by
  constructor
  · intro read
    induction words generalizing paths with
    | nil =>
      cases read
      exact .none
    | cons word words ih =>
      obtain ending | plain | ⟨first, text, hyphen, other⟩ := word_cases word
      · rw [pathWords_ending ending] at read
        cases read
        exact ending_iff.mp ending ▸ .rest
      · rw [pathWords_plain plain] at read
        cases others : pathWords words with
        | error stop => rw [others] at read; cases read
        | ok found =>
          rw [others] at read
          cases read
          exact .path plain (ih others)
      · rw [pathWords_option hyphen other] at read
        obtain ⟨next, taken, _⟩ := bind_eq_ok_iff.mp read
        -- `resolve` knows no option but help, so an option is never read.
        exact absurd taken (option_resolve next)
  · intro written
    induction written with
    | none => rfl
    | path plain more ih => rw [pathWords_plain plain, ih]; rfl
    | rest => exact pathWords_ending (ending_iff.mpr rfl)

theorem Words.SpellsHelp.proper_resolve {text : List Char}
    (spells : SpellsHelp .resolve more text) : Proper more := by
  cases spells with
  | long => exact .nil
  | short written =>
    cases written with
    | here => exact .nil
    | flag known bare other => exact absurd (List.mem_singleton.mp known) other

theorem pathWords_eq_help_iff :
    pathWords words = .error (.help asked) ↔ asked = .resolve ∧ PathsHelp words := by
  constructor
  · intro read
    induction words with
    | nil => cases read
    | cons word words ih =>
      obtain ending | plain | ⟨first, text, hyphen, other⟩ := word_cases word
      · rw [pathWords_ending ending] at read
        cases read
      · rw [pathWords_plain plain] at read
        cases others : pathWords words with
        | ok found => rw [others] at read; cases read
        | error stop =>
          rw [others] at read
          cases read
          exact (ih others).imp_right (.path plain)
      · rw [pathWords_option hyphen other] at read
        rcases bind_eq_error_iff.mp read with failed | ⟨next, taken, _⟩
        · obtain ⟨rfl, more, spells, _⟩ := (Given.option_eq_help_iff .nil).mp failed
          exact ⟨rfl, .here hyphen spells⟩
        · exact absurd taken (option_resolve next)
  · rintro ⟨rfl, help⟩
    induction help with
    | here hyphen help =>
      obtain ⟨first, behind, rfl, other⟩ := help.not_ending hyphen
      rw [pathWords_option hyphen other]
      exact bind_eq_error_iff.mpr
        (.inl ((Given.option_eq_help_iff .nil).mpr ⟨rfl, _, help, help.proper_resolve⟩))
    | path plain more ih => rw [pathWords_plain plain, ih]; rfl

end CommandLine

end EdgeRoutes
