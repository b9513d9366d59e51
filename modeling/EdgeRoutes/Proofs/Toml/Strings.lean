import EdgeRoutes.Proofs.Toml.Digits

/-! Reading the strings of a TOML text.

A string is read up to its closing quotes. Only where it could go on with one more quote does
it matter what follows.
-/

set_option autoImplicit false

namespace EdgeRoutes.Toml

open Json (HexDigit)
open Grammar

variable {text rest chars : List Char}

@[simp] theorem hexDigit?_char (digit : HexDigit) :
    hexDigit? digit.char = some (digit.value : Nat) := by
  obtain ⟨value, capital⟩ := digit
  revert value capital
  decide

theorem isHex_of_hexDigit? {char : Char} {value : Nat} (read : hexDigit? char = some value) :
    isHex char = true := by
  unfold hexDigit? at read
  split at read
  next decimal => simp [isHex, decimal]
  · split at read
    next lower => simp [isHex, lower]
    · split at read
      next upper => simp [isHex, upper]
      · cases read

theorem exists_hexDigit {char : Char} {value : Nat} (read : hexDigit? char = some value) :
    ∃ digit : HexDigit, digit.char = char ∧ (digit.value : Nat) = value := by
  obtain ⟨digit, _, rfl⟩ := isHex_test.found char (isHex_of_hexDigit? read)
  rw [hexDigit?_char] at read
  exact ⟨digit, rfl, Option.some.inj read⟩

theorem mapM_hexDigit?_eq_some_iff {values : List Nat} :
    chars.mapM hexDigit? = some values ↔ ∃ digits : List HexDigit,
      chars = digits.map HexDigit.char ∧ values = digits.map fun digit => (digit.value : Nat) := by
  constructor
  · intro read
    induction chars generalizing values with
    | nil =>
      cases read
      exact ⟨[], rfl, rfl⟩
    | cons char chars ih =>
      rw [List.mapM_cons] at read
      obtain ⟨value, first, read⟩ := Option.bind_eq_some_iff.mp read
      obtain ⟨others, more, same⟩ := Option.bind_eq_some_iff.mp read
      cases same
      obtain ⟨digit, rfl, rfl⟩ := exists_hexDigit first
      obtain ⟨digits, rfl, rfl⟩ := ih more
      exact ⟨digit :: digits, rfl, rfl⟩
  · rintro ⟨digits, rfl, rfl⟩
    induction digits with
    | nil => rfl
    | cons digit digits ih =>
      simp only [List.map_cons, List.mapM_cons, hexDigit?_char, ih]
      rfl

theorem number_eq_foldl (digits : List HexDigit) :
    (digits.map fun digit => (digit.value : Nat)).foldl
      (fun number digit => 16 * number + digit) 0 = number 16 digits := by
  rw [List.foldl_map]
  rfl

theorem codePoint?_eq_some_iff {count : Nat} {char : Char} :
    codePoint? count text = some char ↔ ∃ (digits : List HexDigit) (rest : List Char),
      digits.length = count ∧ text = digits.map HexDigit.char ++ rest ∧
        number 16 digits = char.toNat := by
  unfold codePoint?
  constructor
  · intro read
    obtain ⟨values, mapped, read⟩ := Option.bind_eq_some_iff.mp read
    obtain ⟨digits, taken, rfl⟩ := mapM_hexDigit?_eq_some_iff.mp mapped
    rw [number_eq_foldl, List.length_map] at read
    dsimp only at read
    split at read
    next valid =>
      cases read
      refine ⟨digits, text.drop count, valid.1, ?_, ?_⟩
      · rw [← taken, List.take_append_drop]
      · rw [Char.ofNat, dif_pos valid.2]
        rfl
    next => cases read
  · rintro ⟨digits, rest, rfl, rfl, code⟩
    have taken : (digits.map HexDigit.char ++ rest).take digits.length =
        digits.map HexDigit.char := by
      rw [List.take_append_of_le_length (by simp), ← List.length_map HexDigit.char,
        List.take_length]
    have valid : char.toNat.isValidChar := char.valid
    rw [taken, mapM_hexDigit?_eq_some_iff.mpr ⟨digits, rfl, rfl⟩]
    simp [number_eq_foldl, code, valid]

theorem escape_of_codePoint? {letter char : Char} {count taken : Nat}
    (form : (letter, count) ∈ [('u', 4), ('U', 8)])
    (read : (codePoint? count text).map (fun char => (char, count + 1)) = some (char, taken)) :
    Escape char (letter :: text) ((letter :: text).drop taken) := by
  obtain ⟨found, point, same⟩ := Option.map_eq_some_iff.mp read
  cases same
  obtain ⟨digits, rest, rfl, rfl, code⟩ := codePoint?_eq_some_iff.mp point
  rw [List.drop_succ_cons, List.drop_left' (by simp)]
  exact .numeric form code

theorem escape_of_escape? {char : Char} {taken : Nat} (read : escape? text = some (char, taken)) :
    Escape char text (text.drop taken) := by
  unfold escape? at read
  split at read
  case h_8 => exact escape_of_codePoint? (by decide) read
  case h_9 => exact escape_of_codePoint? (by decide) read
  case h_10 => cases read
  all_goals
    cases read
    exact .short (by decide)

theorem Grammar.Escape.escape?_eq {char : Char} (escape : Escape char text rest) :
    ∃ taken, escape? text = some (char, taken) ∧ text.drop taken = rest := by
  cases escape with
  | @short letter char rest known =>
    refine ⟨1, ?_, rfl⟩
    simp only [shortEscapes, List.mem_cons, Prod.mk.injEq, List.not_mem_nil, or_false] at known
    rcases known with ⟨rfl, rfl⟩ | ⟨rfl, rfl⟩ | ⟨rfl, rfl⟩ | ⟨rfl, rfl⟩ | ⟨rfl, rfl⟩ | ⟨rfl, rfl⟩ |
      ⟨rfl, rfl⟩ <;> rfl
  | @numeric letter char digits rest form code =>
    refine ⟨digits.length + 1, ?_, ?_⟩
    · have point := codePoint?_eq_some_iff.mpr ⟨digits, rest, rfl, rfl, code⟩
      simp only [List.mem_cons, Prod.mk.injEq, List.not_mem_nil, or_false] at form
      rcases form with ⟨rfl, length⟩ | ⟨rfl, length⟩ <;>
        · rw [length] at point
          simp [escape?, point, length]
    · rw [List.drop_succ_cons, List.drop_left' (by simp)]

theorem Grammar.Escape.suffix {char : Char} (escape : Escape char text rest) : rest <:+ text := by
  cases escape with
  | short known => exact List.suffix_cons _ _
  | numeric form code => exact (List.suffix_append _ _).trans (List.suffix_cons _ _)

/-- No escape begins with a blank or at the end of a line. -/
theorem Grammar.Escape.visible {char : Char} (escape : Escape char text rest) :
    ∃ letter more, text = letter :: more ∧ isBlank letter = false ∧ letter ≠ '\n' := by
  cases escape with
  | @short letter char rest known =>
    refine ⟨letter, rest, rfl, ?_⟩
    simp only [shortEscapes, List.mem_cons, Prod.mk.injEq, List.not_mem_nil, or_false] at known
    rcases known with ⟨rfl, _⟩ | ⟨rfl, _⟩ | ⟨rfl, _⟩ | ⟨rfl, _⟩ | ⟨rfl, _⟩ | ⟨rfl, _⟩ | ⟨rfl, _⟩ <;>
      decide
  | @numeric letter char digits rest form code =>
    refine ⟨letter, _, rfl, ?_⟩
    simp only [List.mem_cons, Prod.mk.injEq, List.not_mem_nil, or_false] at form
    rcases form with ⟨rfl, _⟩ | ⟨rfl, _⟩ <;> decide

theorem basicBody_drop (covered : Nat) (text : List Char) :
    basicBody covered text = basicBody 0 (text.drop covered) := by
  induction covered generalizing text with
  | zero => rfl
  | succ covered ih =>
    cases text with
    | nil => rfl
    | cons char text => exact ih text

theorem Grammar.Basic.basicBody_eq (basic : Basic text chars rest) :
    basicBody 0 text = some (chars, rest) := by
  induction basic with
  | close => rfl
  | plain plain noQuote noBackslash more ih =>
    simp [basicBody, plain, noQuote, noBackslash, ih]
  | escaped escape more ih =>
    obtain ⟨taken, read, dropped⟩ := escape.escape?_eq
    simp [basicBody, read, basicBody_drop taken, dropped, ih]

theorem basic_of_basicBody (read : basicBody 0 text = some (chars, rest)) :
    Basic text chars rest := by
  -- An escape covers several characters, so the induction is on the length.
  induction length : text.length using Nat.strongRecOn generalizing text chars with
  | ind bound ih =>
    cases text with
    | nil => cases read
    | cons char text =>
      unfold basicBody at read
      split at read
      next quote =>
        cases read
        exact quote ▸ .close
      next noQuote =>
        split at read
        next backslash =>
          obtain ⟨⟨escaped, taken⟩, first, read⟩ := Option.bind_eq_some_iff.mp read
          obtain ⟨⟨others, behind⟩, more, same⟩ := Option.bind_eq_some_iff.mp read
          cases same
          rw [basicBody_drop] at more
          refine backslash ▸ .escaped (escape_of_escape? first) (ih _ ?_ more rfl)
          simp only [List.length_cons, List.length_drop] at length ⊢
          omega
        next noBackslash =>
          split at read
          next plain =>
            obtain ⟨⟨others, behind⟩, more, same⟩ := Option.bind_eq_some_iff.mp read
            cases same
            exact .plain plain noQuote noBackslash (ih _ (by simp [← length]) more rfl)
          next => cases read

theorem Grammar.Basic.suffix (basic : Basic text chars rest) : rest <:+ text := by
  induction basic with
  | close => exact List.suffix_cons _ _
  | plain plain noQuote noBackslash more ih => exact ih.trans (List.suffix_cons _ _)
  | escaped escape more ih => exact (ih.trans escape.suffix).trans (List.suffix_cons _ _)

theorem literal_append (plain : ∀ char ∈ chars, (char != '\'' && isPlain char) = true)
    (rest : List Char) : Literal (chars ++ '\'' :: rest) chars rest := by
  induction chars with
  | nil => exact .close
  | cons char chars ih =>
    have here := plain char List.mem_cons_self
    rw [Bool.and_eq_true, bne_iff_ne] at here
    exact .plain here.2 here.1 (ih fun other member => plain other (List.mem_cons_of_mem _ member))

theorem Grammar.Literal.eq_append (literal : Literal text chars rest) :
    text = chars ++ '\'' :: rest ∧ ∀ char ∈ chars, (char != '\'' && isPlain char) = true := by
  induction literal with
  | close => exact ⟨rfl, nofun⟩
  | plain plain noQuote more ih =>
    refine ⟨congrArg _ ih.1, List.forall_mem_cons.mpr ⟨?_, ih.2⟩⟩
    simp [plain, noQuote]

theorem literalBody_eq_some_iff :
    literalBody text = some (chars, rest) ↔ Literal text chars rest := by
  constructor
  · intro read
    obtain ⟨front, behind, spanned, rfl, plain, _⟩ :=
      span_cases (fun char => char != '\'' && isPlain char) text
    unfold literalBody at read
    rw [spanned] at read
    dsimp only at read
    split at read
    · cases read
      exact literal_append plain rest
    · cases read
  · intro literal
    obtain ⟨rfl, plain⟩ := literal.eq_append
    unfold literalBody
    rw [span_append plain (by simp)]
    rfl

theorem Grammar.Literal.suffix (literal : Literal text chars rest) : rest <:+ text := by
  rw [literal.eq_append.1]
  exact (List.suffix_cons _ _).trans (List.suffix_append _ _)

section

variable {quote : Char} {escapes : Bool}

theorem replicate_prefix_iff {count : Nat} :
    List.replicate count quote <+: text ↔ count ≤ (text.takeWhile (· == quote)).length := by
  constructor
  · rintro ⟨rest, rfl⟩
    rw [List.takeWhile_append_of_pos (by simp), List.length_append, List.length_replicate]
    exact Nat.le_add_right _ _
  · intro enough
    have quotes : text.takeWhile (· == quote) =
        List.replicate (text.takeWhile (· == quote)).length quote :=
      List.eq_replicate_iff.mpr ⟨rfl, fun char member => by
        simpa using List.all_eq_true.mp List.all_takeWhile char member⟩
    refine List.IsPrefix.trans ?_ (List.takeWhile_prefix (· == quote))
    obtain ⟨others, length⟩ := Nat.exists_eq_add_of_le enough
    rw [quotes, length, ← List.replicate_append_replicate]
    exact List.prefix_append _ _

theorem closing?_eq {count : Nat} (few : count ≤ 2) (stops : rest.head? ≠ some quote) :
    closing? quote (List.replicate (3 + count) quote ++ rest) =
      some (List.replicate count quote, rest) := by
  have none : rest.takeWhile (· == quote) = [] := by
    cases rest with
    | nil => rfl
    | cons char rest => exact List.takeWhile_cons_of_neg (by simpa using stops)
  have quotes : min 5 ((List.replicate (3 + count) quote ++ rest).takeWhile (· == quote)).length =
      3 + count := by
    rw [List.takeWhile_append_of_pos (by simp), none, List.append_nil, List.length_replicate]
    omega
  unfold closing?
  dsimp only
  rw [quotes, List.drop_left' (List.length_replicate ..)]
  simp

theorem close_of_closing? (read : closing? quote text = some (chars, rest)) :
    Multiline quote escapes text chars rest := by
  unfold closing? at read
  dsimp only at read
  generalize count : min 5 (text.takeWhile (· == quote)).length = quotes at read
  split at read
  next enough =>
    cases read
    have front : List.replicate quotes quote <+: text := replicate_prefix_iff.mpr (by omega)
    have whole : text = List.replicate (3 + (quotes - 3)) quote ++ text.drop quotes := by
      rw [Nat.add_sub_cancel' enough]
      have taken := List.prefix_iff_eq_take.mp front
      rw [List.length_replicate] at taken
      rw [taken, List.take_append_drop]
    have close : Multiline quote escapes _ _ (text.drop quotes) :=
      @Multiline.close quote escapes (quotes - 3) _ (by omega)
    rwa [← whole] at close
  next => cases read

theorem closing?_eq_none_iff :
    closing? quote (quote :: text) = none ↔ ¬ [quote, quote] <+: text := by
  have three : [quote, quote] <+: text ↔
      3 ≤ ((quote :: text).takeWhile (· == quote)).length := by
    rw [← replicate_prefix_iff]
    exact (List.prefix_cons_inj quote).symm
  unfold closing?
  rw [three]
  dsimp only
  split
  next enough => exact iff_of_false nofun (not_not.mpr (by omega))
  next few => exact iff_of_true rfl (by omega)

theorem Grammar.Gap.joined_suffix {front behind : List Char}
    (gap : Gap text ('\n' :: (front ++ behind))) : behind <:+ text :=
  (List.suffix_append front behind).trans ((List.suffix_cons _ _).trans gap.suffix)

/-- A backslash before the end of a line covers the blanks and empty lines behind it. -/
theorem continuation?_eq_some_iff {taken : Nat} :
    continuation? text = some taken ↔ ∃ front behind, Gap text ('\n' :: (front ++ behind)) ∧
      (∀ char ∈ front, char ∈ [' ', '\t', '\n']) ∧
      (∀ char, behind.head? = some char → char ∉ [' ', '\t', '\n']) ∧
      taken = text.length - behind.length := by
  -- What is passed over behind the line end, as a test and as a list.
  have passed (char : Char) :
      (isBlank char || char == '\n') = true ↔ char ∈ [' ', '\t', '\n'] := by
    simp [isBlank, or_assoc]
  unfold continuation?
  constructor
  · intro read
    obtain ⟨more, feed, same⟩ := Option.bind_eq_some_iff.mp read
    cases same
    refine ⟨more.takeWhile fun char => isBlank char || char == '\n', _, ?_, ?_, ?_, rfl⟩
    · rw [List.takeWhile_append_dropWhile, ← newline?_eq_some_iff.mp feed]
      exact gap_skipBlanks text
    · exact fun char member => (passed char).mp (List.all_eq_true.mp List.all_takeWhile char member)
    · intro char head member
      have stop := List.head?_dropWhile_not (fun char => isBlank char || char == '\n') more
      rw [head] at stop
      simp [(passed char).mpr member] at stop
  · rintro ⟨front, behind, gap, empty, stops, rfl⟩
    have dropped : (front ++ behind).dropWhile (fun char => isBlank char || char == '\n') =
        behind := by
      rw [List.dropWhile_append_of_pos fun char member => (passed char).mpr (empty char member)]
      cases behind with
      | nil => rfl
      | cons char behind =>
        exact List.dropWhile_cons_of_neg fun holds => stops char rfl ((passed char).mp holds)
    rw [gap.skipBlanks_cons rfl]
    change some (_ - (List.dropWhile _ (front ++ behind)).length) = _
    rw [dropped]

theorem linesBody_drop (covered : Nat) (text : List Char) :
    linesBody quote escapes covered text = linesBody quote escapes 0 (text.drop covered) := by
  induction covered generalizing text with
  | zero => rw [List.drop_zero]
  | succ covered ih =>
    cases text with
    | nil => rw [List.drop_nil, linesBody, linesBody]
    | cons char text => rw [linesBody, ih, List.drop_succ_cons]

theorem Grammar.Multiline.linesBody_eq (apart : quote ≠ '\\')
    (lines : Multiline quote escapes text chars rest) (stops : rest.head? ≠ some quote) :
    linesBody quote escapes 0 text = some (chars, rest) := by
  induction lines with
  | @close count rest few =>
    have closing := closing?_eq few stops
    rw [Nat.add_comm 3, List.replicate_succ, List.cons_append] at closing ⊢
    simp [linesBody, closing]
  | quote few more ih =>
    simp [linesBody, closing?_eq_none_iff.mpr few, ih stops]
  | @plain char text chars rest plain noQuote noEscape more ih =>
    have noBackslash : (escapes && char == '\\') = false := by
      cases escapes
      · rfl
      · simpa using noEscape rfl
    have allowed : (decide (char = '\n') || isPlain char) = true := by simpa using plain
    simp [linesBody, noQuote, noBackslash, allowed, ih stops]
  | @escaped char text behind chars rest on escape more ih =>
    obtain ⟨taken, read, dropped⟩ := escape.escape?_eq
    -- The backslash of an escape joins no lines, because a visible character follows.
    have alone : continuation? text = none := by
      obtain ⟨letter, others, rfl, visible, feed⟩ := escape.visible
      unfold continuation?
      rw [skipBlanks_cons visible]
      cases read : newline? (letter :: others) with
      | none => rfl
      | some more => exact absurd (List.cons.inj (newline?_eq_some_iff.mp read)).1 feed
    subst on
    simp [linesBody, apart.symm, alone, read, linesBody_drop taken, dropped, ih stops]
  | @joined text front behind chars rest on gap empty ends more ih =>
    have taken := continuation?_eq_some_iff.mpr ⟨front, behind, gap, empty, ends, rfl⟩
    have read : linesBody quote escapes (text.length - behind.length) text =
        some (chars, rest) := by
      rw [linesBody_drop, ← List.suffix_iff_eq_drop.mp gap.joined_suffix, ih stops]
    subst on
    simp [linesBody, apart.symm, taken, read]

theorem multiline_of_linesBody (read : linesBody quote escapes 0 text = some (chars, rest)) :
    Multiline quote escapes text chars rest := by
  -- Escapes and joined lines cover several characters, so the induction is on the length.
  induction length : text.length using Nat.strongRecOn generalizing text chars with
  | ind bound ih =>
    cases text with
    | nil => cases read
    | cons char text =>
      unfold linesBody at read
      split at read
      next same =>
        subst same
        split at read
        next ending closing =>
          cases read
          exact close_of_closing? closing
        next open_ =>
          obtain ⟨⟨others, behind⟩, more, same⟩ := Option.bind_eq_some_iff.mp read
          cases same
          exact .quote (closing?_eq_none_iff.mp open_) (ih _ (by simp [← length]) more rfl)
      next noQuote =>
        split at read
        next backslash =>
          rw [Bool.and_eq_true, beq_iff_eq] at backslash
          obtain ⟨on, rfl⟩ := backslash
          split at read
          next taken joined =>
            obtain ⟨front, behind, gap, empty, ends, rfl⟩ := continuation?_eq_some_iff.mp joined
            have shorter := gap.joined_suffix.length_le
            rw [linesBody_drop, ← List.suffix_iff_eq_drop.mp gap.joined_suffix] at read
            rw [List.length_cons] at length
            exact .joined on gap empty ends (ih _ (by omega) read rfl)
          next alone =>
            obtain ⟨⟨escaped, taken⟩, first, read⟩ := Option.bind_eq_some_iff.mp read
            obtain ⟨⟨others, behind⟩, more, same⟩ := Option.bind_eq_some_iff.mp read
            cases same
            rw [linesBody_drop] at more
            refine .escaped on (escape_of_escape? first) (ih _ ?_ more rfl)
            simp only [List.length_cons, List.length_drop] at length ⊢
            omega
        next noBackslash =>
          split at read
          next allowed =>
            obtain ⟨⟨others, behind⟩, more, same⟩ := Option.bind_eq_some_iff.mp read
            cases same
            refine .plain (by simpa using allowed) noQuote (fun on same => noBackslash ?_)
              (ih _ (by simp [← length]) more rfl)
            simp [on, same]
          next => cases read

end

theorem opened_dropFirstNewline (text : List Char) : Opened text (dropFirstNewline text) := by
  unfold dropFirstNewline
  cases feed : newline? text with
  | none =>
    refine .same fun head => ?_
    obtain ⟨body, rfl⟩ := List.head?_eq_some_iff.mp head
    cases feed
  | some body =>
    rw [newline?_eq_some_iff.mp feed]
    exact .feed

theorem Grammar.Opened.dropFirstNewline_eq {body : List Char} (opened : Opened text body) :
    dropFirstNewline text = body := by
  cases opened with
  | feed => rfl
  | same other =>
    unfold dropFirstNewline
    cases feed : newline? text with
    | none => rfl
    | some body =>
      rw [newline?_eq_some_iff.mp feed] at other
      exact absurd rfl other

theorem quoted_of_string? {value : String} (read : string? text = some (value, rest)) :
    ∃ chars, value = String.ofList chars ∧ Quoted text chars rest := by
  unfold string? at read
  split at read
  · obtain ⟨⟨chars, behind⟩, body, same⟩ := Option.bind_eq_some_iff.mp read
    cases same
    exact ⟨chars, rfl, .basicLines (opened_dropFirstNewline _) (multiline_of_linesBody body)⟩
  · obtain ⟨⟨chars, behind⟩, body, same⟩ := Option.bind_eq_some_iff.mp read
    cases same
    exact ⟨chars, rfl, .literalLines (opened_dropFirstNewline _) (multiline_of_linesBody body)⟩
  · obtain ⟨⟨chars, behind⟩, body, same⟩ := Option.bind_eq_some_iff.mp read
    cases same
    exact ⟨chars, rfl, .basic (basic_of_basicBody body)⟩
  · obtain ⟨⟨chars, behind⟩, body, same⟩ := Option.bind_eq_some_iff.mp read
    cases same
    exact ⟨chars, rfl, .literal (literalBody_eq_some_iff.mp body)⟩
  · cases read

namespace Grammar

/-- An empty string is not followed by a third quote, so it opens no string of several lines. -/
theorem Basic.single (basic : Basic text chars rest) (ends : Ends rest) (behind : List Char) :
    text ≠ '"' :: '"' :: behind := by
  rintro rfl
  cases basic with
  | close => exact absurd (ends.head '"' rfl) (by decide)
  | plain plain noQuote noBackslash more => exact noQuote rfl

theorem Literal.single (literal : Literal text chars rest) (ends : Ends rest)
    (behind : List Char) : text ≠ '\'' :: '\'' :: behind := by
  rintro rfl
  cases literal with
  | close => exact absurd (ends.head '\'' rfl) (by decide)
  | plain plain noQuote more => exact noQuote rfl

theorem Quoted.string?_eq (quoted : Quoted text chars rest) (ends : Ends rest) :
    string? text = some (String.ofList chars, rest) := by
  have stops {quote : Char} (known : quote ∈ ['"', '\'']) : rest.head? ≠ some quote := by
    intro head
    have member := ends.head quote head
    revert member
    simp only [List.mem_cons, List.not_mem_nil, or_false] at known
    rcases known with rfl | rfl <;> decide
  unfold string?
  cases quoted with
  | basic basic =>
    split
    next same => exact absurd (List.cons.inj same).2 (basic.single ends _)
    next same => exact absurd (List.cons.inj same).1 (by decide)
    next same =>
      cases same
      rw [basic.basicBody_eq]
      rfl
    next same => exact absurd (List.cons.inj same).1 (by decide)
    next other _ => exact absurd rfl (other _)
  | literal literal =>
    split
    next same => exact absurd (List.cons.inj same).1 (by decide)
    next same => exact absurd (List.cons.inj same).2 (literal.single ends _)
    next same => exact absurd (List.cons.inj same).1 (by decide)
    next same =>
      cases same
      rw [literalBody_eq_some_iff.mpr literal]
      rfl
    next other => exact absurd rfl (other _)
  | basicLines opened lines =>
    have read := lines.linesBody_eq (by decide) (stops (by decide))
    simp [opened.dropFirstNewline_eq, read]
  | literalLines opened lines =>
    have read := lines.linesBody_eq (by decide) (stops (by decide))
    simp [opened.dropFirstNewline_eq, read]

theorem Multiline.suffix {quote : Char} {escapes : Bool}
    (lines : Multiline quote escapes text chars rest) : rest <:+ text := by
  induction lines with
  | close few => exact List.suffix_append _ _
  | quote few more ih => exact ih.trans (List.suffix_cons _ _)
  | plain plain noQuote noEscape more ih => exact ih.trans (List.suffix_cons _ _)
  | escaped on escape more ih => exact (ih.trans escape.suffix).trans (List.suffix_cons _ _)
  | joined on gap empty stops more ih =>
    exact (ih.trans gap.joined_suffix).trans (List.suffix_cons _ _)

theorem Opened.suffix {body : List Char} (opened : Opened text body) : body <:+ text := by
  cases opened with
  | feed => exact List.suffix_cons _ _
  | same other => exact List.suffix_refl _

theorem Quoted.suffix (quoted : Quoted text chars rest) : rest <:+ text := by
  cases quoted with
  | basic basic => exact basic.suffix.trans (List.suffix_cons _ _)
  | literal literal => exact literal.suffix.trans (List.suffix_cons _ _)
  | basicLines opened lines =>
    exact (lines.suffix.trans opened.suffix).trans (List.suffix_append ['"', '"', '"'] _)
  | literalLines opened lines =>
    exact (lines.suffix.trans opened.suffix).trans (List.suffix_append ['\'', '\'', '\''] _)

end Grammar

end EdgeRoutes.Toml
