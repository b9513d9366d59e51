import EdgeRoutes.Proofs.Toml.Values

/-! Reading the lines of a TOML text, each as the expression it stands for.

What is read of a source are just the expressions that are written in it. -/

set_option autoImplicit false

namespace EdgeRoutes.Toml

open Grammar

variable {text rest : List Char} {found : Option Expression} {expressions : List Expression}

namespace Grammar

/-- A line that is not the end of the text takes at least its line end. -/
theorem Trailing.length_lt (trailing : Trailing text rest) (goesOn : skipBlanks text ≠ []) :
    rest.length < text.length := by
  cases trailing with
  | blanks gap ends =>
    cases ends with
    | feed => exact gap.suffix.length_le
    | last => exact absurd gap.skipBlanks_nil goesOn
  | remark gap remark ends =>
    have words := (ends.suffix.trans remark.suffix).length_le
    have start := gap.suffix.length_le
    rw [List.length_cons] at start
    omega

theorem Trailing.eq_nil (trailing : Trailing text rest) (blank : skipBlanks text = []) :
    rest = [] := by
  cases trailing with
  | blanks gap ends =>
    rw [gap.skipBlanks_eq, ends.skipBlanks_eq] at blank
    subst blank
    cases ends
    rfl
  | remark gap remark ends =>
    rw [gap.skipBlanks_cons rfl] at blank
    cases blank

theorem Path.length_lt {path : List String} {sign : Char}
    (written : Path path text (sign :: rest)) : rest.length < text.length :=
  written.suffix.length_le

theorem Pair.begins {form : Form} {path : List String} {item : Item}
    (pair : Pair form path item text rest) :
    ∃ char more, skipBlanks text = char :: more ∧ char ∉ ['#', '\n', '['] := by
  cases pair with
  | equals key short indent written =>
    obtain ⟨char, more, same, visible, others⟩ := key.visible
    exact ⟨char, more, same, by simp_all⟩

/-- Only an empty line begins where nothing but blanks is left. -/
theorem Line.goesOn {expression : Expression} (line : Line (some expression) text rest) :
    skipBlanks text ≠ [] := by
  cases line with
  | entry pair trailing =>
    obtain ⟨char, more, same, _⟩ := pair.begins
    simp [same]
  | header margin key short trailing => simp [margin.skipBlanks_cons rfl]
  | element margin key short trailing => simp [margin.skipBlanks_cons rfl]

theorem Line.at_end (line : Line found text rest) (blank : skipBlanks text = []) :
    found = none ∧ rest = [] := by
  cases found with
  | none =>
    cases line with
    | empty trailing => exact ⟨rfl, trailing.eq_nil blank⟩
  | some expression => exact absurd blank line.goesOn

theorem Line.length_lt (line : Line found text rest) (goesOn : skipBlanks text ≠ []) :
    rest.length < text.length := by
  cases line with
  | empty trailing => exact trailing.length_lt goesOn
  | entry pair trailing =>
    cases pair with
    | equals key short indent written =>
      have value := ((value?_finds depthLimit).suffix written).trans indent.suffix
      exact Nat.lt_of_le_of_lt (trailing.suffix.trans value).length_le key.length_lt
  | header margin key short trailing =>
    have opened : _ < text.length := margin.suffix.length_le
    exact Nat.lt_trans (Nat.lt_of_le_of_lt trailing.suffix.length_le key.length_lt) opened
  | element margin key short trailing =>
    have opened : _ < text.length := ((List.suffix_cons _ _).trans margin.suffix).length_le
    have closed := (trailing.suffix.trans (List.suffix_cons ']' _)).length_le
    exact Nat.lt_trans (Nat.lt_of_le_of_lt closed key.length_lt) opened

theorem Trailing.expression?_eq (trailing : Trailing text rest) (goesOn : skipBlanks text ≠ []) :
    expression? text = some (none, rest) := by
  unfold expression?
  cases trailing with
  | blanks gap ends =>
    cases ends with
    | feed => simp [gap.skipBlanks_cons rfl]
    | last => exact absurd gap.skipBlanks_nil goesOn
  | remark gap remark ends =>
    have skipped := remark.skipComment_eq.trans ends.skipComment_eq
    rw [gap.skipBlanks_cons rfl]
    simp [skipped, endOfLine?_eq_some_iff.mpr ends]

theorem Path.key?_eq {path : List String} {sign : Char} (written : Path path text (sign :: rest))
    (known : sign ∈ ['=', ']']) (short : path.length ≤ depthLimit) :
    key? text = some (path, sign :: rest) :=
  written.keyPath?_eq rfl known short

theorem Pair.expression?_eq {path : List String} {item : Item} {behind : List Char}
    (pair : Pair (Value depthLimit) path item text behind) (trailing : Trailing behind rest) :
    expression? text = some (some (.entry path item), rest) := by
  have read := (value?_finds depthLimit).keyValue?_eq pair.strip trailing.ends
  obtain ⟨char, more, same, others⟩ := pair.begins
  rw [same] at read
  unfold expression?
  rw [same]
  split
  next begins => exact absurd (by simp [(List.cons.inj begins).1]) others
  next begins => exact absurd (by simp [(List.cons.inj begins).1]) others
  next begins => exact absurd (by simp [(List.cons.inj begins).1]) others
  next begins => exact absurd (by simp [(List.cons.inj begins).1]) others
  next => simp [read, restOfLine?_eq_some_iff.mpr trailing]

/-- No key begins with a bracket, so that of a header is not taken for an element. -/
theorem Path.single {path : List String} (written : Path path text rest) (more : List Char) :
    text ≠ '[' :: more := by
  rintro rfl
  obtain ⟨char, others, same, visible, apart⟩ := written.visible
  rw [skipBlanks_cons rfl] at same
  cases same
  exact apart (by decide)

theorem Line.expression?_eq (line : Line found text rest) (goesOn : skipBlanks text ≠ []) :
    expression? text = some (found, rest) := by
  cases line with
  | empty trailing => exact trailing.expression?_eq goesOn
  | entry pair trailing => exact pair.expression?_eq trailing
  | @header path text inside behind rest margin key short trailing =>
    unfold expression?
    rw [margin.skipBlanks_cons rfl]
    split
    next same => exact absurd (List.cons.inj same).1 (by decide)
    next same => exact absurd (List.cons.inj same).1 (by decide)
    next same => exact absurd (List.cons.inj same).2 (key.single _)
    next same =>
      cases same
      simp [key.key?_eq (by decide) short, restOfLine?_eq_some_iff.mpr trailing]
    next other => exact absurd rfl (other inside)
  | element margin key short trailing =>
    unfold expression?
    rw [margin.skipBlanks_cons rfl]
    simp [key.key?_eq (by decide) short, restOfLine?_eq_some_iff.mpr trailing]

end Grammar

theorem line_of_expression? (read : expression? text = some (found, rest)) :
    Line found text rest := by
  have margin := gap_skipBlanks text
  unfold expression? at read
  split at read
  next words same =>
    obtain ⟨behind, ends, done⟩ := Option.bind_eq_some_iff.mp read
    cases done
    exact .empty (.remark (same ▸ margin) (words_skipComment words)
      (endOfLine?_eq_some_iff.mp ends))
  next same =>
    cases read
    exact .empty (.blanks (same ▸ margin) .feed)
  next same =>
    obtain ⟨⟨path, closing⟩, key, read⟩ := Option.bind_eq_some_iff.mp read
    obtain ⟨written, short⟩ := path_of_keyPath? key
    dsimp only at read
    split at read
    · obtain ⟨behind, trailing, done⟩ := Option.bind_eq_some_iff.mp read
      cases done
      exact .element (same ▸ margin) written short (restOfLine?_eq_some_iff.mp trailing)
    · cases read
  next same =>
    obtain ⟨⟨path, closing⟩, key, read⟩ := Option.bind_eq_some_iff.mp read
    obtain ⟨written, short⟩ := path_of_keyPath? key
    dsimp only at read
    split at read
    · obtain ⟨behind, trailing, done⟩ := Option.bind_eq_some_iff.mp read
      cases done
      exact .header (same ▸ margin) written short (restOfLine?_eq_some_iff.mp trailing)
    · cases read
  next =>
    obtain ⟨⟨path, item, behind⟩, pair, read⟩ := Option.bind_eq_some_iff.mp read
    obtain ⟨rest, trailing, done⟩ := Option.bind_eq_some_iff.mp read
    cases done
    exact .entry (((value?_finds depthLimit).pair_of_keyValue? pair).indent margin)
      (restOfLine?_eq_some_iff.mp trailing)

theorem lines_of_expressions? {bound : Nat} (read : expressions? bound text = some expressions) :
    Lines expressions text := by
  induction bound generalizing text expressions with
  | zero => cases read
  | succ bound ih =>
    unfold expressions? at read
    split at read
    next blank =>
      cases read
      have gap := gap_skipBlanks text
      rw [List.isEmpty_iff.mp blank] at gap
      exact .done gap
    next =>
      obtain ⟨⟨found, rest⟩, line, read⟩ := Option.bind_eq_some_iff.mp read
      obtain ⟨others, more, same⟩ := Option.bind_eq_some_iff.mp read
      cases same
      exact .line (line_of_expression? line) (ih more)

theorem expressions?_blank (blank : skipBlanks text = []) (bound : Nat) :
    expressions? (bound + 1) text = some [] := by
  simp [expressions?, blank]

theorem Grammar.Lines.expressions?_eq (lines : Lines expressions text) {bound : Nat}
    (fits : text.length < bound) : expressions? bound text = some expressions := by
  induction lines generalizing bound with
  | done gap =>
    obtain ⟨bound, rfl⟩ := Nat.exists_eq_succ_of_ne_zero (Nat.ne_zero_of_lt fits)
    exact expressions?_blank gap.skipBlanks_nil bound
  | @line found expressions text rest line more ih =>
    obtain ⟨bound, rfl⟩ := Nat.exists_eq_succ_of_ne_zero (Nat.ne_zero_of_lt fits)
    -- At the end of the text an empty line takes nothing, and the reader has stopped already.
    by_cases blank : skipBlanks text = []
    · obtain ⟨rfl, rfl⟩ := line.at_end blank
      have others := ih (Nat.lt_succ_self _)
      rw [expressions?_blank rfl] at others
      rw [expressions?_blank blank, others]
      rfl
    · have shorter := line.length_lt blank
      have others := @ih bound (by omega)
      simp [expressions?, blank, line.expression?_eq blank, others]

theorem feeds_of_lineFeeds? {source : List Char} (read : lineFeeds? source = some text) :
    LineFeeds source text := by
  induction source generalizing text with
  | nil =>
    cases read
    exact .nil
  | cons char source ih =>
    unfold lineFeeds? at read
    split at read
    next carriage =>
      split at read
      next feed =>
        obtain ⟨behind, rfl⟩ := List.head?_eq_some_iff.mp feed
        have more := ih read
        cases more with
        | char other more => exact carriage ▸ .pair more
      next => cases read
    next other =>
      obtain ⟨behind, more, same⟩ := Option.map_eq_some_iff.mp read
      exact same ▸ .char other (ih more)

/-- What is read of a source are the expressions written in it. -/
theorem Expression.ofText?_eq_some_iff {source : String} :
    Expression.ofText? source = some expressions ↔ Written expressions source := by
  unfold Expression.ofText?
  constructor
  · intro read
    obtain ⟨text, feeds, read⟩ := Option.bind_eq_some_iff.mp read
    have lines := lines_of_expressions? read
    replace feeds := feeds_of_lineFeeds? feeds
    split at lines
    next mark =>
      obtain ⟨body, rfl⟩ := List.head?_eq_some_iff.mp mark
      exact .lines feeds .mark lines
    next plain => exact .lines feeds (.plain plain) lines
  · rintro ⟨feeds, marked, lines⟩
    rw [lineFeeds?_of_feeds feeds]
    cases marked with
    | plain other => simp [other, lines.expressions?_eq (Nat.lt_succ_self _)]
    | mark => simp [lines.expressions?_eq (Nat.lt_succ_self _)]

namespace Grammar

variable {name : String} {item : Item} {behind : List Char}

theorem Key.plain (nonempty : name ≠ "") (bare : name.toList.all isBare = true) (rest : List Char) :
    Key name (name.toList ++ rest) rest := by
  have key : Key (String.ofList name.toList) (name.toList ++ rest) rest :=
    .bare (by simpa using nonempty) (by simpa using bare)
  rwa [String.ofList_toList] at key

/-- What opens no brackets is a value of any depth. -/
theorem Value.of_within (written : ∀ inside, Within inside item text rest) (depth : Nat) :
    Value depth item text rest := by
  cases depth <;> exact written _

theorem Line.plain_entry (nonempty : name ≠ "") (bare : name.toList.all isBare = true)
    (value : ∀ inside, Within inside item text behind) (trailing : Trailing behind rest) :
    Line (some (.entry [name] item)) (name.toList ++ ' ' :: '=' :: ' ' :: text) rest :=
  .entry (.equals (.last .none (.plain nonempty bare _) (.blank (.inl rfl) .none))
    (by simp [depthLimit]) (.blank (.inl rfl) .none) (.of_within value _)) trailing

theorem Line.plain_header (nonempty : name ≠ "") (bare : name.toList.all isBare = true)
    (trailing : Trailing behind rest) :
    Line (some (.header [name])) ('[' :: (name.toList ++ ']' :: behind)) rest :=
  .header .none (.last .none (.plain nonempty bare _) .none) (by simp [depthLimit]) trailing

theorem Lines.cons {expression : Expression} (line : Line (some expression) text rest)
    (more : Lines expressions rest) : Lines (expression :: expressions) text :=
  .line line more

theorem Basic.append {front others : List Char}
    (plain : front.all (fun char => isPlain char && char != '"' && char != '\\') = true)
    (more : Basic text others rest) : Basic (front ++ text) (front ++ others) rest := by
  induction front with
  | nil => exact more
  | cons char front ih =>
    simp only [List.all_cons, Bool.and_eq_true, bne_iff_ne] at plain
    exact .plain plain.1.1.1 plain.1.1.2 plain.1.2 (ih plain.2)

theorem Words.plain {front : List Char} (plain : front.all isPlain = true) :
    Words (front ++ rest) rest := by
  induction front with
  | nil => exact .none
  | cons char front ih =>
    rw [List.all_cons, Bool.and_eq_true] at plain
    exact .char plain.1 (ih plain.2)

theorem LineFeeds.refl (plain : '\r' ∉ text) : LineFeeds text text := by
  induction text with
  | nil => exact .nil
  | cons char text ih =>
    rw [List.mem_cons, not_or] at plain
    exact .char (Ne.symm plain.1) (ih plain.2)

end Grammar

end EdgeRoutes.Toml
