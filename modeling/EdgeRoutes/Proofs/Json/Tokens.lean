import EdgeRoutes.Proofs.Json.Reading
import EdgeRoutes.Proofs.Json.Source
import EdgeRoutes.Proofs.Reading

/-! Reading the tokens of a source: blanks and strings.

However a string is written, the scanner finds the characters that its parts stand for and
stops behind its closing quote. If the parts stand for nothing, it refuses them. Passing over
a string never fails.
-/

set_option autoImplicit false

namespace EdgeRoutes.Json

@[simp] theorem CodeUnit.length_chars (unit : CodeUnit) : unit.chars.length = 4 := rfl

theorem CodeUnit.Trails.not_leads {unit : CodeUnit} (trails : unit.Trails) : ¬ unit.Leads := by
  unfold CodeUnit.Trails CodeUnit.Leads at *
  omega

theorem Part.tail_cons (part : Part) (parts : List Part) (rest : List Char) :
    tail (part :: parts) ++ rest = part.chars ++ (tail parts ++ rest) := by
  simp [tail]

theorem Gap.chars_append (first second : Gap) (text : List Char) :
    first.chars ++ (second.chars ++ text) = Gap.chars (first ++ second) ++ text := by
  simp [Gap.chars]

namespace Scan

theorem skipBlanks_gap (gap : Gap) (text : List Char) :
    skipBlanks (gap.chars ++ text) = skipBlanks text := by
  induction gap with
  | nil => rfl
  | cons blank gap ih => cases blank <;> exact ih

theorem skipBlanks_token (gap : Gap) (char : Char) (visible : isBlank char = false)
    (rest : List Char) : skipBlanks (gap.chars ++ char :: rest) = char :: rest := by
  simp [skipBlanks_gap, skipBlanks, visible]

theorem word_append (letters rest : List Char) : word letters (letters ++ rest) = .ok rest := by
  induction letters with
  | nil => rfl
  | cons letter letters ih => simpa [word] using ih

theorem colon_gap (gap : Gap) (rest : List Char) :
    colon (gap.chars ++ ':' :: rest) = .ok rest := by
  rw [colon, skipBlanks_token gap ':' rfl]
  rfl

@[simp] theorem hexDigit?_char (digit : HexDigit) : hexDigit? digit.char = some digit.value := by
  obtain ⟨value, capital⟩ := digit
  revert value capital
  decide

theorem utf8Size_hexDigit (digit : HexDigit) : digit.char.utf8Size = 1 := by
  obtain ⟨value, capital⟩ := digit
  revert value capital
  decide

theorem fourHexDigits_chars (unit : CodeUnit) (rest : List Char) :
    fourHexDigits (unit.chars ++ rest) = .ok unit.value := by
  have taken : (unit.chars ++ rest).take 4 = unit.chars := rfl
  have bytes : byteCount unit.chars = 4 := by
    simp [byteCount, CodeUnit.chars, utf8Size_hexDigit]
  have digits : unit.chars.mapM hexDigit? = some [unit.first.value.val, unit.second.value.val,
      unit.third.value.val, unit.fourth.value.val] := by
    simp [CodeUnit.chars]
  simp [fourHexDigits, taken, bytes, digits, CodeUnit.value]

section
variable {unit : CodeUnit}

theorem isLeadingSurrogate_iff : isLeadingSurrogate unit.value = true ↔ unit.Leads := by
  simp [isLeadingSurrogate, CodeUnit.Leads]

theorem isTrailingSurrogate_iff : isTrailingSurrogate unit.value = true ↔ unit.Trails := by
  simp [isTrailingSurrogate, CodeUnit.Trails]

end

theorem numericEscape_chars (unit : CodeUnit) (rest : List Char) :
    numericEscape (unit.chars ++ rest) =
      if unit.Trails then .error (.before .loneSurrogate rest)
      else if unit.Leads then
        match rest with
        | [] => .error (.before .endInString [])
        | ['\\'] => .error (.before .endInString [])
        | '\\' :: 'u' :: more => do
          let second ← fourHexDigits more
          if isTrailingSurrogate second then .ok (surrogatePair unit.value second, 10)
          else .error (.before .loneSurrogate (more.drop 4))
        | '\\' :: more => .error (.onNext .unpairedSurrogate more)
        | _ => .error (.onNext .unpairedSurrogate rest)
      else .ok (Char.ofNat unit.value, 4) := by
  rw [numericEscape, fourHexDigits_chars]
  exact if_congr isTrailingSurrogate_iff rfl (if_congr isLeadingSurrogate_iff rfl rfl)

theorem numericEscape_scalar {unit : CodeUnit} (alone : ¬ (unit.Leads ∨ unit.Trails))
    (rest : List Char) : numericEscape (unit.chars ++ rest) = .ok (Char.ofNat unit.value, 4) := by
  rw [not_or] at alone
  rw [numericEscape_chars, if_neg alone.2, if_neg alone.1]

theorem numericEscape_pair {leading trailing : CodeUnit} (leads : leading.Leads)
    (trails : trailing.Trails) (rest : List Char) :
    numericEscape (leading.chars ++ '\\' :: 'u' :: (trailing.chars ++ rest)) =
      .ok (leading.pair trailing, 10) := by
  have apart : ¬ leading.Trails := fun also => also.not_leads leads
  rw [numericEscape_chars, if_neg apart, if_pos leads]
  simp only [fourHexDigits_chars, bind, Except.bind, isTrailingSurrogate_iff, if_pos trails]
  rfl

theorem numericEscape_unpaired {leading trailing : CodeUnit} (leads : leading.Leads)
    (apart : ¬ trailing.Trails) (rest : List Char) :
    (numericEscape (leading.chars ++ '\\' :: 'u' :: (trailing.chars ++ rest))).toOption = none := by
  have first : ¬ leading.Trails := fun also => also.not_leads leads
  rw [numericEscape_chars, if_neg first, if_pos leads]
  simp only [fourHexDigits_chars, bind, Except.bind, isTrailingSurrogate_iff, if_neg apart]
  rfl

theorem numericEscape_trailing {unit : CodeUnit} (trails : unit.Trails) (rest : List Char) :
    (numericEscape (unit.chars ++ rest)).toOption = none := by
  rw [numericEscape_chars, if_pos trails]
  rfl

theorem numericEscape_lone {unit : CodeUnit} (surrogate : unit.Leads ∨ unit.Trails)
    {parts : List Part} (last : ∀ next others, parts = .numeric next :: others → False)
    (rest : List Char) :
    (numericEscape (unit.chars ++ (Part.tail parts ++ rest))).toOption = none := by
  rcases surrogate with leads | trails
  case inr => exact numericEscape_trailing trails _
  have first : ¬ unit.Trails := fun also => also.not_leads leads
  rw [numericEscape_chars, if_neg first, if_pos leads]
  match parts, last with
  | [], _ => rfl
  | .plain char _ _ noBackslash :: parts, _ =>
    simp only [Part.tail_cons, Part.chars, List.cons_append, List.nil_append]
    split
    all_goals first | rfl | simp_all
  | .short escape :: parts, _ => cases escape <;> rfl
  | .numeric next :: others, last => exact (last next others rfl).elim

theorem stringBody_numeric_refused {unit : CodeUnit} {rest : List Char}
    (refused : (numericEscape (unit.chars ++ rest)).toOption = none) :
    (stringBody 0 ('\\' :: 'u' :: (unit.chars ++ rest))).toOption = none := by
  simp [stringBody, escape, refused]

theorem stringBody_escaped {char : Char} (taken : List Char) {parts : List Part} {rest : List Char}
    (escaped : escape (taken ++ (Part.tail parts ++ rest)) = .ok (char, taken.length))
    (others : (stringBody 0 (Part.tail parts ++ rest)).toOption =
      (Part.decoded? parts).map fun chars => (chars, rest)) :
    (stringBody 0 ('\\' :: (taken ++ (Part.tail parts ++ rest)))).toOption =
      ((Part.decoded? parts).map (char :: ·)).map fun chars => (chars, rest) := by
  rw [stringBody_escape taken escaped, toOption_map, others]
  cases Part.decoded? parts <;> rfl

theorem escape_numeric {text : List Char} {char : Char} {taken : Nat}
    (read : numericEscape text = .ok (char, taken)) :
    escape ('u' :: text) = .ok (char, taken + 1) := by
  simp [escape, read, bind, Except.bind]

/-- The parts are read up to their closing quote, if they stand for anything. -/
theorem stringBody_tail (parts : List Part) (rest : List Char) :
    (stringBody 0 (Part.tail parts ++ rest)).toOption =
      (Part.decoded? parts).map fun chars => (chars, rest) := by
  -- The parts that stand for nothing are those with a surrogate that has no partner.
  fun_induction Part.decoded? parts
  case case1 => rfl
  case case2 char visible noQuote noBackslash parts others =>
    have clear : ¬ char.toNat < 32 := by omega
    simp only [Part.tail_cons, Part.chars, List.cons_append, List.nil_append, stringBody,
      if_neg noQuote, if_neg noBackslash, if_neg clear, toOption_bind, others]
    cases Part.decoded? parts <;> rfl
  case case3 escape parts others =>
    apply stringBody_escaped [escape.letter] _ others
    cases escape <;> rfl
  case case4 leading trailing parts leads trails others =>
    apply stringBody_escaped ('u' :: (leading.chars ++ '\\' :: 'u' :: trailing.chars)) _ others
    have read := numericEscape_pair leads trails (Part.tail parts ++ rest)
    simpa using escape_numeric read
  case case5 leading trailing parts leads apart =>
    exact stringBody_numeric_refused (numericEscape_unpaired leads apart _)
  case case6 leading trailing parts _ trails =>
    exact stringBody_numeric_refused (numericEscape_trailing trails _)
  case case7 leading trailing parts notLeads notTrails others =>
    apply stringBody_escaped ('u' :: leading.chars) _ others
    exact escape_numeric (numericEscape_scalar (not_or.mpr ⟨notLeads, notTrails⟩) _)
  case case8 unit parts last surrogate =>
    exact stringBody_numeric_refused (numericEscape_lone surrogate last _)
  case case9 unit parts _ alone others =>
    apply stringBody_escaped ('u' :: unit.chars) _ others
    exact escape_numeric (numericEscape_scalar alone _)

/-- A string is read as the text that its parts spell, and as nothing else. -/
theorem string_iff (parts : List Part) (rest : List Char) (found : String × List Char) :
    string (Part.tail parts ++ rest) = .ok found ↔ Part.Spell parts found.1 ∧ found.2 = rest := by
  obtain ⟨text, after⟩ := found
  rw [← toOption_eq_some]
  unfold string Part.Spell
  rw [toOption_bind, stringBody_tail]
  cases Part.decoded? parts with
  | none => simp
  | some chars =>
    have same : String.ofList chars = text ↔ chars = text.toList := by
      constructor
      · rintro rfl; simp
      · rintro rfl; simp
    change some (String.ofList chars, rest) = some (text, after) ↔ _
    rw [Option.some_inj, Prod.mk.injEq, Option.some_inj, same, eq_comm (a := rest)]

end Scan

namespace Source

theorem Opens.visible {char : Char} (opens : Opens char) :
    Scan.isBlank char = false ∧ char ≠ ']' ∧ char ≠ '\x7d' := by
  rcases opens with listed | digit
  · simp only [List.mem_cons, List.not_mem_nil, or_false] at listed
    rcases listed with rfl | rfl | rfl | rfl | rfl | rfl | rfl <;> decide
  · have apart {other : Char} (noDigit : other.isDigit = false) : char ≠ other := by
      rintro rfl
      simp [noDigit] at digit
    simp [Scan.isBlank, apart]

theorem skipBlanks_chars (gap : Gap) (source : Source) (rest : List Char) :
    Scan.skipBlanks (gap.chars ++ (source.chars ++ rest)) = source.chars ++ rest := by
  obtain ⟨char, chars, text, opens⟩ := source.exists_opens
  rw [text]
  exact Scan.skipBlanks_token gap char opens.visible.1 _

end Source

namespace Skip

theorem string_covered (front rest : List Char) :
    string front.length (front ++ rest) = string 0 rest := by
  induction front with
  | nil => rfl
  | cons char front ih => exact ih

theorem string_tail (parts : List Part) (rest : List Char) :
    string 0 (Part.tail parts ++ rest) = .ok rest := by
  induction parts with
  | nil => rfl
  | cons part parts ih =>
    rw [Part.tail_cons]
    cases part with
    | plain char visible noQuote noBackslash =>
      have clear : ¬ char.toNat < 32 := by omega
      simpa [Part.chars, string, noQuote, noBackslash, clear] using ih
    | short escape => cases escape <;> exact ih
    | numeric unit =>
      have taken : escape ('u' :: (unit.chars ++ (Part.tail parts ++ rest))) = .ok 5 := by
        simp [escape, Scan.fourHexDigits_chars, bind, Except.bind]
      have covered := string_covered ('u' :: unit.chars) (Part.tail parts ++ rest)
      rw [ih] at covered
      simp only [Part.chars, List.cons_append, string]
      simpa [taken, bind, Except.bind] using covered

end Skip
end EdgeRoutes.Json
