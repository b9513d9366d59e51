import EdgeRoutes.Proofs.Reading
import EdgeRoutes.Proofs.Toml.Grammar

/-! Reading what stands between the parts of a TOML text.

Blanks, remarks and line ends are passed over just as far as they may stand, whatever follows.
-/

set_option autoImplicit false

namespace EdgeRoutes.Toml

open Grammar

variable {text rest : List Char}

theorem skipBlanks_cons {char : Char} (visible : isBlank char = false) (rest : List Char) :
    skipBlanks (char :: rest) = char :: rest := by
  rw [skipBlanks, List.dropWhile_cons_of_neg (by simp [visible])]

theorem gap_skipBlanks (text : List Char) : Gap text (skipBlanks text) := by
  induction text with
  | nil => exact .none
  | cons char text ih =>
    cases blank : isBlank char with
    | true =>
      rw [skipBlanks, List.dropWhile_cons_of_pos blank]
      exact .blank (by simpa [isBlank] using blank) ih
    | false =>
      rw [skipBlanks_cons blank]
      exact .none

theorem words_skipComment (text : List Char) : Words text (skipComment text) := by
  induction text with
  | nil => exact .none
  | cons char text ih =>
    cases plain : isPlain char with
    | true =>
      rw [skipComment, List.dropWhile_cons_of_pos plain]
      exact .char plain ih
    | false =>
      rw [skipComment, List.dropWhile_cons_of_neg (by simp [plain])]
      exact .none

namespace Grammar

theorem Gap.skipBlanks_eq (gap : Gap text rest) : skipBlanks text = skipBlanks rest := by
  induction gap with
  | none => rfl
  | @blank char text rest blank more ih =>
    have skipped : isBlank char = true := by rcases blank with rfl | rfl <;> rfl
    rw [← ih, skipBlanks, skipBlanks, List.dropWhile_cons_of_pos skipped]

theorem Gap.skipBlanks_cons {char : Char} {behind : List Char} (gap : Gap text (char :: behind))
    (visible : isBlank char = false) : skipBlanks text = char :: behind := by
  rw [gap.skipBlanks_eq, Toml.skipBlanks_cons visible]

theorem Gap.skipBlanks_nil (gap : Gap text []) : skipBlanks text = [] := by
  rw [gap.skipBlanks_eq]
  rfl

/-- A text that begins with a gap begins with a blank or with what follows the gap. -/
theorem Gap.head?_cases (gap : Gap text rest) :
    text.head? = rest.head? ∨ text.head? = some ' ' ∨ text.head? = some '\t' := by
  cases gap with
  | none => exact .inl rfl
  | blank blank more => rcases blank with rfl | rfl <;> simp

theorem Gap.suffix (gap : Gap text rest) : rest <:+ text := by
  induction gap with
  | none => exact List.suffix_refl _
  | blank blank more ih => exact ih.trans (List.suffix_cons _ _)

theorem Words.suffix (words : Words text rest) : rest <:+ text := by
  induction words with
  | none => exact List.suffix_refl _
  | char plain more ih => exact ih.trans (List.suffix_cons _ _)

theorem LineEnd.suffix (ends : LineEnd text rest) : rest <:+ text := by
  cases ends with
  | feed => exact List.suffix_cons _ _
  | last => exact List.suffix_refl _

theorem Trailing.suffix (trailing : Trailing text rest) : rest <:+ text := by
  cases trailing with
  | blanks gap ends => exact ends.suffix.trans gap.suffix
  | remark gap remark ends =>
    exact (ends.suffix.trans remark.suffix).trans ((List.suffix_cons _ _).trans gap.suffix)

theorem Space.suffix (space : Space text rest) : rest <:+ text := by
  induction space with
  | gap gap => exact gap.suffix
  | feed gap others ih => exact ih.trans ((List.suffix_cons _ _).trans gap.suffix)
  | remark gap remark others ih =>
    exact (ih.trans (List.suffix_cons _ _)).trans
      (remark.suffix.trans ((List.suffix_cons _ _).trans gap.suffix))

theorem Words.skipComment_eq (words : Words text rest) : skipComment text = skipComment rest := by
  induction words with
  | none => rfl
  | char plain more ih => rw [← ih, skipComment, skipComment, List.dropWhile_cons_of_pos plain]

theorem LineEnd.skipComment_eq (ends : LineEnd text rest) : skipComment text = text := by
  cases ends with
  | feed => rfl
  | last => rfl

theorem LineEnd.skipBlanks_eq (ends : LineEnd text rest) : skipBlanks text = text := by
  cases ends with
  | feed => rfl
  | last => rfl

end Grammar

theorem newline?_eq_some_iff : newline? text = some rest ↔ text = '\n' :: rest := by
  unfold newline?
  split
  · simp
  next other => exact iff_of_false nofun (other rest)

theorem endOfLine?_eq_some_iff : endOfLine? text = some rest ↔ LineEnd text rest := by
  constructor
  · intro read
    cases text with
    | nil =>
      cases read
      exact .last
    | cons char text =>
      have feed : newline? (char :: text) = some rest := read
      rw [newline?_eq_some_iff.mp feed]
      exact .feed
  · intro ends
    cases ends <;> rfl

theorem restOfLine?_eq_some_iff : restOfLine? text = some rest ↔ Trailing text rest := by
  unfold restOfLine?
  constructor
  · intro read
    have margin := gap_skipBlanks text
    split at read
    next words same =>
      rw [same] at margin
      exact .remark margin (words_skipComment words) (endOfLine?_eq_some_iff.mp read)
    next => exact .blanks margin (endOfLine?_eq_some_iff.mp read)
  · intro trailing
    cases trailing with
    | blanks gap ends =>
      rw [gap.skipBlanks_eq, ends.skipBlanks_eq]
      cases ends <;> rfl
    | remark gap remark ends =>
      rw [gap.skipBlanks_cons rfl]
      change endOfLine? (skipComment _) = _
      rw [remark.skipComment_eq, ends.skipComment_eq]
      exact endOfLine?_eq_some_iff.mpr ends

/-- The next part is neither a blank nor a remark nor a line end. -/
def Visible (text : List Char) : Prop :=
  ∃ char more, text = char :: more ∧ isBlank char = false ∧ char ∉ ['#', '\n']

theorem space_of_skipLines {bound : Nat} (read : skipLines bound text = some rest) :
    Space text rest := by
  induction bound generalizing text with
  | zero => cases read
  | succ bound ih =>
    have margin := gap_skipBlanks text
    unfold skipLines at read
    split at read
    next words same =>
      obtain ⟨more, feed, read⟩ := Option.bind_eq_some_iff.mp read
      have remark := words_skipComment words
      rw [newline?_eq_some_iff.mp feed] at remark
      exact .remark (same ▸ margin) remark (ih read)
    next more same => exact .feed (same ▸ margin) (ih read)
    next =>
      cases read
      exact .gap margin

namespace Grammar

theorem Gap.skipLines_eq (gap : Gap text rest) (visible : Visible rest) (bound : Nat) :
    skipLines (bound + 1) text = some rest := by
  obtain ⟨char, more, rfl, blank, others⟩ := visible
  unfold skipLines
  rw [gap.skipBlanks_cons blank]
  split
  next same =>
    cases same
    exact absurd (by decide) others
  next same =>
    cases same
    exact absurd (by decide) others
  next => rfl

theorem Space.skipLines_eq (space : Space text rest) (visible : Visible rest) {bound : Nat}
    (fits : text.length < bound) : skipLines bound text = some rest := by
  induction space generalizing bound with
  | gap gap =>
    obtain ⟨bound, rfl⟩ := Nat.exists_eq_succ_of_ne_zero (Nat.ne_zero_of_lt fits)
    exact gap.skipLines_eq visible bound
  | feed gap others ih =>
    obtain ⟨bound, rfl⟩ := Nat.exists_eq_succ_of_ne_zero (Nat.ne_zero_of_lt fits)
    -- A line end is passed over, so the bound exceeds what is left.
    have shorter := gap.suffix.length_le
    rw [List.length_cons] at shorter
    unfold skipLines
    rw [gap.skipBlanks_cons rfl]
    exact ih visible (by omega)
  | @remark text words more rest gap remark others ih =>
    obtain ⟨bound, rfl⟩ := Nat.exists_eq_succ_of_ne_zero (Nat.ne_zero_of_lt fits)
    have shorter := gap.suffix.length_le
    have behind := remark.suffix.length_le
    rw [List.length_cons] at shorter behind
    have feed : newline? (skipComment words) = some more := by
      rw [remark.skipComment_eq]
      rfl
    unfold skipLines
    rw [gap.skipBlanks_cons rfl]
    exact Option.bind_eq_some_iff.mpr ⟨more, feed, ih visible (by omega)⟩

/-- A value ends here: but for blanks, the next is a remark, the end of the line, a comma or a
closing bracket. -/
def Ends (rest : List Char) : Prop :=
  ∀ char, (skipBlanks rest).head? = some char → char ∈ ['#', '\n', ',', ']', '\x7d']

theorem Ends.head (ends : Ends rest) :
    ∀ char, rest.head? = some char → char ∈ [' ', '\t', '#', '\n', ',', ']', '\x7d'] := by
  intro char head
  rcases (gap_skipBlanks rest).head?_cases with same | same | same
  · rw [same] at head
    exact List.mem_cons_of_mem _ (List.mem_cons_of_mem _ (ends char head))
  · rw [same] at head
    cases head
    decide
  · rw [same] at head
    cases head
    decide

theorem Gap.ends {char : Char} {behind : List Char} (gap : Gap text (char :: behind))
    (known : char ∈ ['#', '\n', ',', ']', '\x7d']) : Ends text := by
  have visible : isBlank char = false := by
    simp only [List.mem_cons, List.not_mem_nil, or_false] at known
    rcases known with rfl | rfl | rfl | rfl | rfl <;> rfl
  intro first head
  rw [gap.skipBlanks_cons visible] at head
  cases head
  exact known

theorem Trailing.ends (trailing : Trailing text rest) : Ends text := by
  cases trailing with
  | blanks gap ends =>
    cases ends with
    | feed => exact gap.ends (by decide)
    | last =>
      intro char head
      rw [gap.skipBlanks_nil] at head
      cases head
  | remark gap remark ends => exact gap.ends (by decide)

theorem Space.ends {char : Char} {behind : List Char} (space : Space text (char :: behind))
    (known : char ∈ ['#', '\n', ',', ']', '\x7d']) : Ends text := by
  cases space with
  | gap gap => exact gap.ends known
  | feed gap others => exact gap.ends (by decide)
  | remark gap remark others => exact gap.ends (by decide)

end Grammar

theorem lineFeeds?_of_feeds {source : List Char} (feeds : LineFeeds source text) :
    lineFeeds? source = some text := by
  induction feeds with
  | nil => rfl
  | @pair source text more ih =>
    have feed : ('\n' :: source).head? = some '\n' := rfl
    simp [lineFeeds?, ih]
  | char other more ih => simp [lineFeeds?, other, ih]

end EdgeRoutes.Toml
