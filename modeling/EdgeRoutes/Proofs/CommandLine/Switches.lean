import EdgeRoutes.Proofs.CommandLine.Words
import EdgeRoutes.Proofs.Reading
import Mathlib.Data.List.Nodup

/-! Reading one word as the options that it writes.

What is behind the hyphens is read name by name. Behind options that are in order, it is read just
when the options with the new ones are in order too, and then as these.
-/

set_option autoImplicit false

namespace EdgeRoutes.CommandLine

open Words

theorem find?_key_iff {Key : Type} [DecidableEq Key] {key : Switch → Key} {switches : List Switch}
    (once : (switches.map key).Nodup) {wanted : Key} {switch : Switch} :
    switches.find? (key · == wanted) = some switch ↔ switch ∈ switches ∧ key switch = wanted := by
  constructor
  · intro found
    exact ⟨List.mem_of_find?_eq_some found, by simpa using List.find?_some found⟩
  · rintro ⟨known, rfl⟩
    cases found : switches.find? (key · == key switch) with
    | none => simpa using List.find?_eq_none.mp found switch known
    | some other =>
      have same : key other = key switch := by simpa using List.find?_some found
      rw [List.inj_on_of_nodup_map once (List.mem_of_find?_eq_some found) known same]

theorem Topic.long_iff {topic : Topic} {name : String} {switch : Switch} :
    topic.switches.find? (·.long == name) = some switch ↔
      switch ∈ topic.switches ∧ switch.long = name :=
  find?_key_iff (by cases topic <;> decide)

theorem Topic.short_iff {topic : Topic} {name : Char} {switch : Switch} :
    topic.switches.find? (·.short == name) = some switch ↔
      switch ∈ topic.switches ∧ switch.short = name :=
  find?_key_iff (by cases topic <;> decide)

theorem Topic.names_plain {topic : Topic} :
    ∀ switch ∈ topic.switches,
      switch.long.toList ≠ [] ∧ '=' ∉ switch.long.toList ∧ switch.short ≠ '-' := by
  cases topic <;> decide

variable {topic : Topic} {switch : Switch} {given more : Options} {value : String}
  {last : Option (Switch × String)} {next : Given}

theorem Words.Proper.concat_iff :
    Proper (given ++ [(switch, value)]) ↔
      Proper given ∧ switch ∉ given.map Prod.fst ∧ (switch.valueName ≠ none → value ≠ "") := by
  constructor
  · intro proper
    have once := proper.once
    rw [List.map_append, List.map_singleton, ← List.concat_eq_append, List.nodup_concat] at once
    exact ⟨⟨once.2, fun option member => proper.filled option (List.mem_append_left _ member)⟩,
      once.1, proper.filled _ (List.mem_append_right _ (List.mem_singleton_self _))⟩
  · rintro ⟨proper, fresh, filled⟩
    refine ⟨?_, fun option member => ?_⟩
    · rw [List.map_append, List.map_singleton, ← List.concat_eq_append, List.nodup_concat]
      exact ⟨fresh, proper.once⟩
    · rcases List.mem_append.mp member with inside | same
      · exact proper.filled option inside
      · obtain rfl := List.mem_singleton.mp same
        exact filled

theorem Words.Proper.left (proper : Proper (given ++ more)) : Proper given where
  once := (List.map_append ▸ proper.once).of_append_left
  filled option member := proper.filled option (List.mem_append_left _ member)

theorem proper_eq_ok_iff {state : Given} :
    (if Proper given then Except.ok state else .error Stop.misuse) = .ok next ↔
      Proper given ∧ next = state := by
  by_cases proper : Proper given <;> simp [proper, eq_comm]

theorem proper_ne_help {state : Given} {asked : Topic} :
    (if Proper given then Except.ok state else .error Stop.misuse) ≠ .error (.help asked) := by
  by_cases proper : Proper given <;> simp [proper]

namespace Given

def checked (given : Options) : Given := ⟨given.reverse, none⟩

def reading (given : Options) (last : Option (Switch × String)) : Given :=
  ⟨given.reverse, last.map fun option => (option.1, some option.2)⟩

theorem has_checked : (checked given).has switch = true ↔ switch ∈ given.map Prod.fst := by
  have absent : (checked given).has switch = false ↔ switch ∉ given.map Prod.fst := by
    simp only [has, value?, checked, Option.isSome_eq_false_iff, Option.isNone_iff_eq_none,
      List.lookup_eq_none_iff, List.mem_reverse, List.mem_map, bne_iff_ne, not_exists, not_and]
    exact ⟨fun others option member same => others option member same.symm,
      fun others option member same => others option member same.symm⟩
  cases found : (checked given).has switch <;> simp_all

theorem add_checked : (checked given).add switch value =
    if switch ∈ given.map Prod.fst then .error .misuse
    else .ok (checked (given ++ [(switch, value)])) := by
  unfold add
  by_cases twice : switch ∈ given.map Prod.fst
  · rw [if_pos (has_checked.mpr twice), if_pos twice]
  · rw [if_neg (has_checked.not.mpr twice), if_neg twice]
    simp [checked]

theorem addValue_checked (proper : Proper given)
    (takes : switch.valueName ≠ none) :
    (checked given).addValue switch value =
      if Proper (given ++ [(switch, value)]) then .ok (checked (given ++ [(switch, value)]))
      else .error .misuse := by
  unfold addValue
  rw [add_checked]
  simp only [Proper.concat_iff, proper, takes, ne_eq, not_false_eq_true, true_and, forall_const]
  by_cases empty : value = "" <;> by_cases twice : switch ∈ given.map Prod.fst <;>
    simp [empty, twice]

theorem settle_reading (proper : Proper given)
    (takes : ∀ option ∈ last, option.1.valueName ≠ none) :
    (reading given last).settle =
      if Proper (given ++ last.toList) then .ok (checked (given ++ last.toList))
      else .error .misuse := by
  cases last with
  | none => simp [settle, reading, checked, proper]
  | some option => exact addValue_checked proper (takes option rfl)

theorem flag_checked (proper : Proper given) (bare : switch.valueName = none) :
    (checked given).flag topic switch =
      if switch = .help then .error (.help topic)
      else if Proper (given ++ [(switch, "")]) then .ok (checked (given ++ [(switch, "")]))
      else .error .misuse := by
  change (if switch = .help then _ else (checked given).add switch "") = _
  rw [add_checked]
  simp only [Proper.concat_iff, proper, bare, ne_eq, not_true_eq_false, false_imp_iff, true_and,
    and_true, ite_not]

section

variable {state : Given} {text : List Char}

theorem long_cases (topic : Topic) (text : List Char) :
    (∀ state : Given, state.long topic text = .error .misuse) ∨ ∃ switch ∈ topic.switches,
      text = switch.long.toList ∨ ∃ value, text = switch.long.toList ++ '=' :: value := by
  obtain ⟨name, rest, spanned, whole, _, stops⟩ := span_cases (· ≠ '=') text
  unfold long
  rw [spanned]
  dsimp only
  cases found : topic.switches.find? (·.long == String.ofList name) with
  | none => exact .inl fun _ => rfl
  | some switch =>
    obtain ⟨known, same⟩ := Topic.long_iff.mp found
    refine .inr ⟨switch, known, ?_⟩
    rw [same, String.toList_ofList, whole]
    cases rest with
    | nil => exact .inl (List.append_nil name)
    | cons first value =>
      obtain rfl : first = '=' := by simpa using stops first rfl
      exact .inr ⟨value, rfl⟩

theorem long_known (known : switch ∈ topic.switches) (rest : List Char)
    (stops : ∀ char, rest.head? = some char → char = '=') :
    (switch.long.toList ++ rest).span (· ≠ '=') = (switch.long.toList, rest) ∧
      topic.switches.find? (·.long == String.ofList switch.long.toList) = some switch := by
  refine ⟨span_append (fun char inside => ?_) (fun char head => ?_), ?_⟩
  · simpa using ne_of_mem_of_not_mem inside (Topic.names_plain switch known).2.1
  · simpa using stops char head
  · rw [String.ofList_toList]
    exact Topic.long_iff.mpr ⟨known, rfl⟩

theorem long_flag (known : switch ∈ topic.switches) (bare : switch.valueName = none) :
    state.long topic switch.long.toList = state.flag topic switch := by
  obtain ⟨spanned, found⟩ := long_known known [] nofun
  rw [List.append_nil] at spanned
  unfold long
  rw [spanned]
  simp only [found, bare]

theorem long_excess (known : switch ∈ topic.switches) (bare : switch.valueName = none)
    (value : List Char) :
    state.long topic (switch.long.toList ++ '=' :: value) = .error .misuse := by
  obtain ⟨spanned, found⟩ := long_known known ('=' :: value) (by simp)
  unfold long
  rw [spanned]
  simp only [found, bare]

theorem long_opened (known : switch ∈ topic.switches) (takes : switch.valueName ≠ none) :
    state.long topic switch.long.toList = state.await switch := by
  obtain ⟨spanned, found⟩ := long_known known [] nofun
  obtain ⟨name, takes⟩ := Option.ne_none_iff_exists'.mp takes
  rw [List.append_nil] at spanned
  unfold long
  rw [spanned]
  simp only [found, takes]

theorem long_joined (known : switch ∈ topic.switches) (takes : switch.valueName ≠ none)
    (value : List Char) :
    state.long topic (switch.long.toList ++ '=' :: value) = state.attached switch value := by
  obtain ⟨spanned, found⟩ := long_known known ('=' :: value) (by simp)
  obtain ⟨name, takes⟩ := Option.ne_none_iff_exists'.mp takes
  unfold long
  rw [spanned]
  simp only [found, takes]

theorem short_cases (topic : Topic) (name : Char) (text : List Char) :
    (∀ state : Given, state.short topic (name :: text) = .error .misuse) ∨
      ∃ switch ∈ topic.switches, name = switch.short := by
  unfold short
  cases found : topic.switches.find? (·.short == name) with
  | none => exact .inl fun _ => rfl
  | some switch =>
    obtain ⟨known, rfl⟩ := Topic.short_iff.mp found
    exact .inr ⟨switch, known, rfl⟩

theorem short_flag (known : switch ∈ topic.switches) (bare : switch.valueName = none) :
    state.short topic (switch.short :: text) =
      state.flag topic switch >>= fun after => after.short topic text := by
  rw [short, Topic.short_iff.mpr ⟨known, rfl⟩]
  simp only [bare]

theorem short_opened (known : switch ∈ topic.switches) (takes : switch.valueName ≠ none) :
    state.short topic [switch.short] = state.await switch := by
  obtain ⟨name, takes⟩ := Option.ne_none_iff_exists'.mp takes
  rw [short, Topic.short_iff.mpr ⟨known, rfl⟩]
  simp only [takes]

theorem short_equals (known : switch ∈ topic.switches) (takes : switch.valueName ≠ none) :
    state.short topic (switch.short :: '=' :: text) = state.attached switch text := by
  obtain ⟨name, takes⟩ := Option.ne_none_iff_exists'.mp takes
  rw [short, Topic.short_iff.mpr ⟨known, rfl⟩]
  simp only [takes]

theorem short_joined (known : switch ∈ topic.switches) (takes : switch.valueName ≠ none)
    {first : Char} (apart : first ≠ '=') :
    state.short topic (switch.short :: first :: text) = state.attached switch (first :: text) := by
  obtain ⟨name, takes⟩ := Option.ne_none_iff_exists'.mp takes
  rw [short, Topic.short_iff.mpr ⟨known, rfl⟩]
  simp only [takes]
  split
  · contradiction
  · contradiction
  next same => exact absurd (List.cons.inj same).1 apart
  · rfl

end

theorem attached_checked (proper : Proper given) (takes : switch.valueName ≠ none)
    (text : List Char) :
    (checked given).attached switch text =
      if Proper (given ++ [(switch, String.ofList text)]) then
        .ok (checked (given ++ [(switch, String.ofList text)]))
      else .error .misuse :=
  addValue_checked proper takes

/-- Behind options in order, the text behind two hyphens is read as what it writes. -/
theorem long_eq_ok_iff (proper : Proper given) {text : List Char} :
    (checked given).long topic text = .ok next ↔
      ∃ more opened, Long topic more opened text ∧ Proper (given ++ more) ∧
        next = ⟨(given ++ more).reverse, opened.map (·, none)⟩ := by
  constructor
  · intro read
    obtain refused | ⟨switch, known, rfl | ⟨value, rfl⟩⟩ := long_cases topic text
    · rw [refused] at read
      cases read
    -- Without a value in the same word: a flag, or an option that waits for the next word.
    · by_cases bare : switch.valueName = none
      · rw [long_flag known bare, flag_checked proper bare] at read
        split at read
        case isTrue => cases read
        case isFalse other =>
          obtain ⟨fits, rfl⟩ := proper_eq_ok_iff.mp read
          exact ⟨_, none, .flag known bare other, fits, rfl⟩
      · rw [long_opened known bare] at read
        cases read
        exact ⟨[], some switch, .opened known bare, by simpa using proper, by simp [checked]⟩
    · by_cases bare : switch.valueName = none
      · rw [long_excess known bare] at read
        cases read
      · rw [long_joined known bare, attached_checked proper bare] at read
        obtain ⟨fits, rfl⟩ := proper_eq_ok_iff.mp read
        exact ⟨_, none, .joined known bare, fits, rfl⟩
  · rintro ⟨more, opened, written, fits, rfl⟩
    cases written with
    | flag known bare other =>
      rw [long_flag known bare, flag_checked proper bare, if_neg other, if_pos fits]
      rfl
    | joined known takes =>
      rw [long_joined known takes, attached_checked proper takes, if_pos fits]
      rfl
    | opened known takes =>
      rw [long_opened known takes, List.append_nil]
      rfl

theorem long_eq_help_iff (proper : Proper given) {text : List Char} {asked : Topic} :
    (checked given).long topic text = .error (.help asked) ↔
      asked = topic ∧ .help ∈ topic.switches ∧ text = Switch.help.long.toList := by
  constructor
  · intro read
    obtain refused | ⟨switch, known, rfl | ⟨value, rfl⟩⟩ := long_cases topic text
    · rw [refused] at read
      cases read
    · by_cases bare : switch.valueName = none
      · rw [long_flag known bare, flag_checked proper bare] at read
        split at read
        case isTrue same =>
          cases read
          exact ⟨rfl, same ▸ known, same ▸ rfl⟩
        case isFalse => exact absurd read proper_ne_help
      · rw [long_opened known bare] at read
        cases read
    · by_cases bare : switch.valueName = none
      · rw [long_excess known bare] at read
        cases read
      · rw [long_joined known bare, attached_checked proper bare] at read
        exact absurd read proper_ne_help
  · rintro ⟨rfl, known, rfl⟩
    rw [long_flag known rfl, flag_checked proper rfl, if_pos rfl]

theorem short_takes (known : switch ∈ topic.switches) (takes : switch.valueName ≠ none)
    (proper : Proper given) (text : List Char) :
    ∃ more opened, Short topic more opened (switch.short :: text) ∧
      (checked given).short topic (switch.short :: text) =
        if Proper (given ++ more) then .ok ⟨(given ++ more).reverse, opened.map (·, none)⟩
        else .error .misuse := by
  cases text with
  | nil =>
    refine ⟨[], some switch, .opened known takes, ?_⟩
    rw [short_opened known takes, List.append_nil, if_pos proper]
    rfl
  | cons first text =>
    by_cases same : first = '='
    · subst same
      refine ⟨_, none, .equals known takes, ?_⟩
      rw [short_equals known takes, attached_checked proper takes]
      rfl
    · refine ⟨_, none, .joined known takes same, ?_⟩
      rw [short_joined known takes same, attached_checked proper takes]
      rfl

/-- Behind options in order, the text behind one hyphen is read as what it writes. -/
theorem short_eq_ok_iff (proper : Proper given) {text : List Char} :
    (checked given).short topic text = .ok next ↔
      ∃ more opened, Short topic more opened text ∧ Proper (given ++ more) ∧
        next = ⟨(given ++ more).reverse, opened.map (·, none)⟩ := by
  constructor
  · intro read
    induction text generalizing given with
    | nil =>
      cases read
      exact ⟨[], none, .none, by simpa using proper, by simp [checked]⟩
    | cons name text ih =>
      obtain refused | ⟨switch, known, rfl⟩ := short_cases topic name text
      · rw [refused] at read
        cases read
      · by_cases bare : switch.valueName = none
        · rw [short_flag known bare, flag_checked proper bare] at read
          split at read
          case isTrue => cases read
          -- A flag lets the next letter of the word be an option too.
          case isFalse other =>
            obtain ⟨after, flagged, read⟩ := bind_eq_ok_iff.mp read
            obtain ⟨fits, rfl⟩ := proper_eq_ok_iff.mp flagged
            obtain ⟨more, opened, written, whole, rfl⟩ := ih fits read
            rw [List.append_assoc] at whole ⊢
            exact ⟨_, opened, .flag known bare other written, whole, rfl⟩
        · obtain ⟨more, opened, written, same⟩ := short_takes known bare proper text
          rw [same] at read
          obtain ⟨fits, rfl⟩ := proper_eq_ok_iff.mp read
          exact ⟨more, opened, written, fits, rfl⟩
  · rintro ⟨more, opened, written, fits, rfl⟩
    induction written generalizing given with
    | none => simp [short, checked]
    | @flag switch more opened text known bare other written ih =>
      rw [List.append_cons] at fits ⊢
      rw [short_flag known bare, flag_checked proper bare, if_neg other, if_pos fits.left]
      exact ih fits.left fits
    | joined known takes apart =>
      rw [short_joined known takes apart, attached_checked proper takes, if_pos fits]
      rfl
    | equals known takes =>
      rw [short_equals known takes, attached_checked proper takes, if_pos fits]
      rfl
    | opened known takes =>
      rw [short_opened known takes, List.append_nil]
      rfl

theorem short_eq_help_iff (proper : Proper given) {text : List Char} {asked : Topic} :
    (checked given).short topic text = .error (.help asked) ↔
      asked = topic ∧ ∃ more, ShortHelp topic more text ∧ Proper (given ++ more) := by
  constructor
  · intro read
    induction text generalizing given with
    | nil => cases read
    | cons name text ih =>
      obtain refused | ⟨switch, known, rfl⟩ := short_cases topic name text
      · rw [refused] at read
        cases read
      · by_cases bare : switch.valueName = none
        · rw [short_flag known bare, flag_checked proper bare] at read
          split at read
          case isTrue same =>
            cases read
            subst same
            exact ⟨rfl, [], .here known, by simpa using proper⟩
          case isFalse other =>
            rcases bind_eq_error_iff.mp read with flagged | ⟨after, flagged, read⟩
            · exact absurd flagged proper_ne_help
            · obtain ⟨fits, rfl⟩ := proper_eq_ok_iff.mp flagged
              obtain ⟨rfl, more, written, whole⟩ := ih fits read
              rw [List.append_assoc] at whole
              exact ⟨rfl, _, .flag known bare other written, whole⟩
        · obtain ⟨more, opened, written, same⟩ := short_takes known bare proper text
          rw [same] at read
          exact absurd read proper_ne_help
  · rintro ⟨rfl, more, written, fits⟩
    induction written generalizing given with
    | here known => rw [short_flag known rfl, flag_checked proper rfl, if_pos rfl]; rfl
    | @flag switch more text known bare other written ih =>
      rw [List.append_cons] at fits
      rw [short_flag known bare, flag_checked proper bare, if_neg other, if_pos fits.left]
      exact ih fits.left fits

theorem settle_settle {state settled : Given} (done : state.settle = .ok settled) :
    settled.settle = .ok settled := by
  unfold settle at done
  split at done
  next none =>
    cases done
    simp [settle, none]
  · cases done
  · unfold addValue add at done
    split at done
    · cases done
    · split at done <;> cases done
      rfl

theorem stop_of_settle {state : Given} {stop : Stop} (failed : state.settle = .error stop) :
    stop = .misuse := by
  unfold settle at failed
  split at failed
  · cases failed
  · cases failed
    rfl
  · unfold addValue add at failed
    split at failed
    · cases failed
      rfl
    · split at failed <;> cases failed
      rfl

def Settles (action : Given → Except Stop Given) : Prop :=
  ∀ state, action state = state.settle >>= action

theorem settles_bind (action : Given → Except Stop Given) :
    Settles fun state => state.settle >>= action := by
  intro state
  change state.settle >>= action = state.settle >>= fun settled => settled.settle >>= action
  cases done : state.settle with
  | error stop => rfl
  | ok settled =>
    change action settled = settled.settle >>= action
    rw [settle_settle done]
    rfl

theorem settles_misuse : Settles fun _ => .error .misuse := by
  intro state
  cases failed : state.settle with
  | error stop => rw [stop_of_settle failed]; rfl
  | ok settled => rfl

theorem settles_long (topic : Topic) (text : List Char) : Settles (·.long topic text) := by
  obtain refused | ⟨switch, known, rfl | ⟨value, rfl⟩⟩ := long_cases topic text
  · simp only [refused]
    exact settles_misuse
  · by_cases bare : switch.valueName = none
    · simp only [long_flag known bare]
      exact settles_bind _
    · simp only [long_opened known bare]
      exact settles_bind _
  · by_cases bare : switch.valueName = none
    · simp only [long_excess known bare]
      exact settles_misuse
    · simp only [long_joined known bare]
      exact settles_bind _

theorem settles_short (topic : Topic) (name : Char) (text : List Char) :
    Settles (·.short topic (name :: text)) := by
  obtain refused | ⟨switch, known, rfl⟩ := short_cases topic name text
  · simp only [refused]
    exact settles_misuse
  · by_cases bare : switch.valueName = none
    · simp only [short_flag known bare, flag, bind_assoc]
      exact settles_bind _
    · cases text with
      | nil =>
        simp only [short_opened known bare]
        exact settles_bind _
      | cons first text =>
        by_cases same : first = '='
        · simp only [same, short_equals known bare]
          exact settles_bind _
        · simp only [short_joined known bare same]
          exact settles_bind _

theorem option_short {first : Char} (apart : first ≠ '-') (state : Given) (topic : Topic)
    (text : List Char) :
    state.option topic (first :: text) = state.short topic (first :: text) := by
  unfold option
  split
  next same => exact absurd (List.cons.inj same).1 apart
  · rfl

/-- The open option is looked at before another one is read. -/
theorem option_settle (state : Given) (topic : Topic) (first : Char) (text : List Char) :
    state.option topic (first :: text) =
      state.settle >>= fun settled => settled.option topic (first :: text) := by
  by_cases long : first = '-'
  · subst long
    exact settles_long topic text state
  · simp only [option_short long]
    exact settles_short topic first text state

end Given

theorem Words.Long.ne_nil {opened : Option Switch} {text : List Char}
    (written : Long topic more opened text) : text ≠ [] := by
  cases written with
  | flag known => exact (Topic.names_plain _ known).1
  | joined known => exact List.append_ne_nil_of_left_ne_nil (Topic.names_plain _ known).1 _
  | opened known => exact (Topic.names_plain _ known).1

theorem Words.Short.head {opened : Option Switch} {name : Char} {text : List Char}
    (written : Short topic more opened (name :: text)) : name ≠ '-' := by
  cases written with
  | flag known => exact (Topic.names_plain _ known).2.2
  | joined known => exact (Topic.names_plain _ known).2.2
  | equals known => exact (Topic.names_plain _ known).2.2
  | opened known => exact (Topic.names_plain _ known).2.2

theorem Words.ShortHelp.head {name : Char} {text : List Char}
    (written : ShortHelp topic more (name :: text)) : name ≠ '-' := by
  cases written with
  | here known => decide
  | flag known => exact (Topic.names_plain _ known).2.2

namespace Given

/-- Behind options in order, what is behind the first hyphen is read as what it writes. -/
theorem option_eq_ok_iff (proper : Proper given) {first : Char} {text : List Char} :
    (checked given).option topic (first :: text) = .ok next ↔
      ∃ more opened, Spells topic more opened (first :: text) ∧ Proper (given ++ more) ∧
        next = ⟨(given ++ more).reverse, opened.map (·, none)⟩ := by
  by_cases long : first = '-'
  · subst long
    refine (long_eq_ok_iff proper).trans ⟨?_, ?_⟩
    · rintro ⟨more, opened, written, rest⟩
      exact ⟨more, opened, .long written, rest⟩
    · rintro ⟨more, opened, spells, rest⟩
      cases spells with
      | long written => exact ⟨more, opened, written, rest⟩
      | short written => exact absurd rfl written.head
  · rw [option_short long]
    refine (short_eq_ok_iff proper).trans ⟨?_, ?_⟩
    · rintro ⟨more, opened, written, rest⟩
      exact ⟨more, opened, .short written (List.cons_ne_nil _ _), rest⟩
    · rintro ⟨more, opened, spells, rest⟩
      cases spells with
      | long written => exact absurd rfl long
      | short written => exact ⟨more, opened, written, rest⟩

theorem option_eq_help_iff (proper : Proper given) {first : Char} {text : List Char}
    {asked : Topic} :
    (checked given).option topic (first :: text) = .error (.help asked) ↔
      asked = topic ∧ ∃ more, SpellsHelp topic more (first :: text) ∧ Proper (given ++ more) := by
  by_cases long : first = '-'
  · subst long
    refine (long_eq_help_iff proper).trans (and_congr_right fun _ => ⟨?_, ?_⟩)
    · rintro ⟨known, rfl⟩
      exact ⟨[], .long known, by simpa using proper⟩
    · rintro ⟨more, spells, fits⟩
      cases spells with
      | long known => exact ⟨known, rfl⟩
      | short written => exact absurd rfl written.head
  · rw [option_short long]
    refine (short_eq_help_iff proper).trans (and_congr_right fun _ => ⟨?_, ?_⟩)
    · rintro ⟨more, written, fits⟩
      exact ⟨more, .short written, fits⟩
    · rintro ⟨more, spells, fits⟩
      cases spells with
      | long known => exact absurd rfl long
      | short written => exact ⟨more, written, fits⟩

end Given

end EdgeRoutes.CommandLine
