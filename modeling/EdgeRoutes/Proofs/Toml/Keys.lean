import EdgeRoutes.Proofs.Toml.Strings

/-! Reading the keys of a TOML text.

The parts of a key are read as long as a point follows. The blanks behind the last part are
passed over too, so what is left begins with the sign that ends the key.
-/

set_option autoImplicit false

namespace EdgeRoutes.Toml

open Grammar

variable {text rest : List Char} {name : String} {path : List String}

theorem key_of_simpleKey? (read : simpleKey? text = some (name, rest)) : Key name text rest := by
  unfold simpleKey? at read
  split at read
  · obtain ⟨⟨chars, behind⟩, body, same⟩ := Option.bind_eq_some_iff.mp read
    cases same
    exact .basic (basic_of_basicBody body)
  · obtain ⟨⟨chars, behind⟩, body, same⟩ := Option.bind_eq_some_iff.mp read
    cases same
    exact .literal (literalBody_eq_some_iff.mp body)
  · obtain ⟨chars, behind, spanned, rfl, bare, _⟩ := span_cases isBare text
    rw [spanned] at read
    dsimp only at read
    split at read
    · cases read
    next nonempty =>
      cases read
      exact .bare (by simpa using nonempty) bare

/-- No bare key goes on here. -/
def KeyEnds (rest : List Char) : Prop := ∀ char, rest.head? = some char → isBare char = false

theorem isBare_apart {char : Char} (bare : isBare char = true) :
    isBlank char = false ∧ char ∉ ['"', '\'', '#', '\n', '[', '\x7d'] := by
  constructor
  · rw [isBlank, Bool.or_eq_false_iff, beq_eq_false_iff_ne, beq_eq_false_iff_ne]
    constructor <;> (rintro rfl; exact absurd bare (by decide))
  · intro member
    simp only [List.mem_cons, List.not_mem_nil, or_false] at member
    rcases member with rfl | rfl | rfl | rfl | rfl | rfl <;> exact absurd bare (by decide)

namespace Grammar

theorem Gap.keyEnds {char : Char} {behind : List Char} (gap : Gap text (char :: behind))
    (apart : isBare char = false) : KeyEnds text := by
  intro first head
  rcases gap.head?_cases with same | same | same
  · rw [same] at head
    cases head
    exact apart
  · rw [same] at head
    cases head
    rfl
  · rw [same] at head
    cases head
    rfl

theorem Gap.trans {middle : List Char} (first : Gap text middle) (second : Gap middle rest) :
    Gap text rest := by
  induction first with
  | none => exact second
  | blank blank more ih => exact .blank blank (ih second)

theorem Key.suffix (key : Key name text rest) : rest <:+ text := by
  cases key with
  | bare nonempty bare => exact List.suffix_append _ _
  | basic basic => exact basic.suffix.trans (List.suffix_cons _ _)
  | literal literal => exact literal.suffix.trans (List.suffix_cons _ _)

theorem Key.visible (key : Key name text rest) :
    ∃ char more, text = char :: more ∧ isBlank char = false ∧ char ∉ ['#', '\n', '[', '\x7d'] := by
  cases key with
  | @bare chars rest nonempty bare =>
    obtain ⟨char, more, rfl⟩ := List.exists_cons_of_ne_nil nonempty
    obtain ⟨visible, others⟩ := isBare_apart (bare char List.mem_cons_self)
    exact ⟨char, more ++ rest, rfl, visible, by simp_all⟩
  | basic basic => exact ⟨'"', _, rfl, rfl, by decide⟩
  | literal literal => exact ⟨'\'', _, rfl, rfl, by decide⟩

theorem Key.simpleKey?_eq (key : Key name text rest) (ends : KeyEnds rest) :
    simpleKey? text = some (name, rest) := by
  cases key with
  | @bare chars rest nonempty bare =>
    obtain ⟨char, more, rfl⟩ := List.exists_cons_of_ne_nil nonempty
    obtain ⟨_, others⟩ := isBare_apart (bare char List.mem_cons_self)
    have spanned := span_append bare ends
    rw [List.cons_append] at spanned ⊢
    unfold simpleKey?
    split
    next same =>
      cases same
      exact absurd List.mem_cons_self others
    next same =>
      cases same
      exact absurd (by simp) others
    next =>
      rw [spanned]
      rfl
  | basic basic => simp [simpleKey?, basic.basicBody_eq]
  | literal literal => simp [simpleKey?, literalBody_eq_some_iff.mpr literal]

theorem Path.indent {middle : List Char} (gap : Gap text middle) (written : Path path middle rest) :
    Path path text rest := by
  cases written with
  | last margin key ending => exact .last (gap.trans margin) key ending
  | next margin key point others => exact .next (gap.trans margin) key point others

theorem Path.strip (written : Path path text rest) : Path path (skipBlanks text) rest := by
  cases written with
  | last margin key ending =>
    obtain ⟨char, more, rfl, visible, _⟩ := key.visible
    exact margin.skipBlanks_cons visible ▸ .last .none key ending
  | next margin key point others =>
    obtain ⟨char, more, rfl, visible, _⟩ := key.visible
    exact margin.skipBlanks_cons visible ▸ .next .none key point others

theorem Path.suffix (written : Path path text rest) : rest <:+ text := by
  induction written with
  | last margin key ending => exact (ending.suffix.trans key.suffix).trans margin.suffix
  | next margin key point others ih =>
    have behind := (List.suffix_cons _ _).trans point.suffix
    exact ((ih.trans behind).trans key.suffix).trans margin.suffix

/-- The first character of a path that is no blank. -/
theorem Path.visible (written : Path path text rest) :
    ∃ char more, skipBlanks text = char :: more ∧ isBlank char = false ∧
      char ∉ ['#', '\n', '[', '\x7d'] := by
  have begins {name : String} {key behind : List Char} (margin : Gap text key)
      (written : Key name key behind) : ∃ char more, skipBlanks text = char :: more ∧
        isBlank char = false ∧ char ∉ ['#', '\n', '[', '\x7d'] := by
    obtain ⟨char, more, rfl, visible, others⟩ := written.visible
    exact ⟨char, more, margin.skipBlanks_cons visible, visible, others⟩
  cases written with
  | last margin key ending => exact begins margin key
  | next margin key point others => exact begins margin key

theorem Gap.simpleKey?_eq {key : List Char} (margin : Gap text key) (written : Key name key rest)
    (ends : KeyEnds rest) : simpleKey? (skipBlanks text) = some (name, rest) := by
  obtain ⟨char, more, rfl, visible, _⟩ := written.visible
  rw [margin.skipBlanks_cons visible, written.simpleKey?_eq ends]

theorem Path.keyPath?_eq (written : Path path text rest) {sign : Char}
    (head : rest.head? = some sign) (known : sign ∈ ['=', ']']) {bound : Nat}
    (short : path.length ≤ bound) : keyPath? bound text = some (path, rest) := by
  have apart : isBlank sign = false ∧ isBare sign = false ∧ sign ≠ '.' := by
    simp only [List.mem_cons, List.not_mem_nil, or_false] at known
    rcases known with rfl | rfl <;> decide
  induction written generalizing bound with
  | last margin key ending =>
    obtain ⟨bound, rfl⟩ := Nat.exists_eq_succ_of_ne_zero (Nat.ne_zero_of_lt short)
    obtain ⟨more, rfl⟩ := List.head?_eq_some_iff.mp head
    unfold keyPath?
    rw [margin.simpleKey?_eq key (ending.keyEnds apart.2.1)]
    simp only [Option.bind_eq_bind, Option.bind_some, ending.skipBlanks_cons apart.1]
    split
    next same => exact absurd (List.cons.inj same).1 apart.2.2
    next => rfl
  | next margin key point others ih =>
    obtain ⟨bound, rfl⟩ := Nat.exists_eq_succ_of_ne_zero (Nat.ne_zero_of_lt short)
    have following := ih head (Nat.le_of_succ_le_succ short)
    unfold keyPath?
    rw [margin.simpleKey?_eq key (point.keyEnds rfl)]
    simp [point.skipBlanks_cons rfl, following]

end Grammar

theorem path_of_keyPath? {bound : Nat} (read : keyPath? bound text = some (path, rest)) :
    Path path text rest ∧ path.length ≤ bound := by
  induction bound generalizing text path with
  | zero => cases read
  | succ bound ih =>
    obtain ⟨⟨name, behind⟩, first, read⟩ := Option.bind_eq_some_iff.mp read
    have margin := gap_skipBlanks text
    have gap := gap_skipBlanks behind
    dsimp only at read
    split at read
    next more same =>
      obtain ⟨⟨others, ending⟩, following, same'⟩ := Option.bind_eq_some_iff.mp read
      cases same'
      obtain ⟨written, short⟩ := ih following
      exact ⟨.next margin (key_of_simpleKey? first) (same ▸ gap) written,
        Nat.succ_le_succ short⟩
    next =>
      cases read
      exact ⟨.last margin (key_of_simpleKey? first) gap, Nat.succ_le_succ (Nat.zero_le _)⟩

end EdgeRoutes.Toml
