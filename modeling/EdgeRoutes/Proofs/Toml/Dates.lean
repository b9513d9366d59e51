import EdgeRoutes.Proofs.Toml.Digits

/-! Reading the dates and the times of a TOML text.

A date goes on with a time where one fits, and a time with the parts of a second and an offset.
So it matters what follows: nothing that goes on may.
-/

set_option autoImplicit false

namespace EdgeRoutes.Toml

open Json (HexDigit)
open Grammar

variable {text rest : List Char}

theorem expect?_eq_some_iff {sign : Char} :
    expect? sign text = some rest ↔ text = sign :: rest := by
  cases text with
  | nil => simp [expect?]
  | cons char text =>
    by_cases same : char = sign
    · simp [expect?, same]
    · simp [expect?, same]

section

variable {count least greatest value : Nat}

theorem digitsWithin?_eq_some_iff :
    digitsWithin? count least greatest text = some (value, rest) ↔
      Field count least greatest value text rest := by
  unfold digitsWithin?
  constructor
  · intro read
    have whole := List.take_append_drop count text
    dsimp only at read
    generalize text.take count = front at read whole
    generalize text.drop count = behind at read whole
    subst whole
    split at read
    next holds =>
      obtain ⟨length, all, enough, limited⟩ := holds
      cases read
      obtain ⟨digits, rfl, small⟩ := isDigit_test.exists_digits (List.all_eq_true.mp all)
      rw [valueOf_digits] at enough limited ⊢
      exact .digits (by simpa using length) small enough limited
    next => cases read
  · intro field
    cases field with
    | @digits digits rest length small enough limited =>
      have size : (digits.map HexDigit.char).length = count := by rw [List.length_map, length]
      have all := List.all_eq_true.mpr (isDigit_test.all_digits small)
      dsimp only
      rw [← size, List.take_left, List.drop_left, valueOf_digits,
        if_pos ⟨rfl, all, enough, limited⟩]

namespace Grammar.Field

theorem suffix (field : Field count least greatest value text rest) : rest <:+ text := by
  cases field with
  | digits length small enough limited => exact List.suffix_append _ _

theorem dropWhile_eq (field : Field count least greatest value text rest) :
    text.dropWhile Char.isDigit = rest.dropWhile Char.isDigit := by
  cases field with
  | digits length small enough limited =>
    exact List.dropWhile_append_of_pos (isDigit_test.all_digits small)

theorem begins (field : Field count least greatest value text rest) (positive : 0 < count) :
    ∃ char more, text = char :: more ∧ char.isDigit = true := by
  cases field with
  | @digits digits rest length small enough limited =>
    cases digits with
    | nil => exact absurd positive (by simp [← length])
    | cons digit digits =>
      exact ⟨digit.char, _, rfl, isDigit_test.digit digit (small digit List.mem_cons_self)⟩

end Grammar.Field

end

theorem date?_eq_some_iff : date? text = some rest ↔ Date text rest := by
  constructor
  · intro read
    obtain ⟨⟨year, behindYear⟩, years, read⟩ := Option.bind_eq_some_iff.mp read
    obtain ⟨afterYear, dash, read⟩ := Option.bind_eq_some_iff.mp read
    obtain ⟨⟨month, behindMonth⟩, months, read⟩ := Option.bind_eq_some_iff.mp read
    obtain ⟨afterMonth, dash', read⟩ := Option.bind_eq_some_iff.mp read
    obtain ⟨⟨day, behind⟩, days, same⟩ := Option.bind_eq_some_iff.mp read
    cases same
    rw [digitsWithin?_eq_some_iff] at years months days
    rw [expect?_eq_some_iff] at dash dash'
    exact .day (dash ▸ years) (dash' ▸ months) days
  · rintro ⟨years, months, days⟩
    simp [date?, digitsWithin?_eq_some_iff.mpr years, expect?, digitsWithin?_eq_some_iff.mpr months,
      digitsWithin?_eq_some_iff.mpr days]

theorem parts_of_digits {behind : List Char} (digit : behind.head?.any Char.isDigit = true) :
    Parts ('.' :: behind) (behind.dropWhile Char.isDigit) := by
  have nonempty : behind.takeWhile Char.isDigit ≠ [] := by
    cases behind with
    | nil => cases digit
    | cons char behind =>
      rw [List.takeWhile_cons_of_pos (by simpa using digit)]
      exact List.cons_ne_nil _ _
  have parts : Parts ('.' :: (behind.takeWhile Char.isDigit ++ behind.dropWhile Char.isDigit))
      (behind.dropWhile Char.isDigit) := .digits nonempty (List.all_eq_true.mp List.all_takeWhile)
  rwa [List.takeWhile_append_dropWhile] at parts

theorem time_of_time? (read : time? text = some rest) : Time text rest := by
  obtain ⟨⟨hour, behindHour⟩, hours, read⟩ := Option.bind_eq_some_iff.mp read
  obtain ⟨afterHour, colon, read⟩ := Option.bind_eq_some_iff.mp read
  obtain ⟨⟨minute, behindMinute⟩, minutes, read⟩ := Option.bind_eq_some_iff.mp read
  obtain ⟨afterMinute, colon', read⟩ := Option.bind_eq_some_iff.mp read
  obtain ⟨⟨second, behind⟩, seconds, read⟩ := Option.bind_eq_some_iff.mp read
  rw [digitsWithin?_eq_some_iff] at hours minutes seconds
  rw [expect?_eq_some_iff] at colon colon'
  refine .second (colon ▸ hours) (colon' ▸ minutes) seconds ?_
  dsimp only at read
  split at read
  · split at read
    next digit =>
      cases read
      exact parts_of_digits digit
    next =>
      cases read
      exact .none
  · cases read
    exact .none

/-- Neither digits nor the parts of a second go on here. -/
def TimeEnds (rest : List Char) : Prop :=
  ∀ char, rest.head? = some char → char.isDigit = false ∧ char ≠ '.'

namespace Grammar

theorem Ends.timeEnds (ends : Ends rest) : TimeEnds rest := by
  intro char head
  have member := ends.head char head
  simp only [List.mem_cons, List.not_mem_nil, or_false] at member
  rcases member with rfl | rfl | rfl | rfl | rfl | rfl | rfl <;> decide

theorem Time.time?_eq (time : Time text rest) (ends : TimeEnds rest) : time? text = some rest := by
  cases time with
  | @second hour minute second _ behindHour behindMinute behind _ hours minutes seconds parts =>
    simp only [time?, digitsWithin?_eq_some_iff.mpr hours, expect?,
      digitsWithin?_eq_some_iff.mpr minutes, digitsWithin?_eq_some_iff.mpr seconds,
      Option.bind_eq_bind, Option.bind_some, if_true]
    cases parts with
    | none =>
      split
      next => exact absurd rfl (ends '.' rfl).2
      next => rfl
    | @digits digits rest nonempty decimal =>
      obtain ⟨first, others, rfl⟩ := List.exists_cons_of_ne_nil nonempty
      have begins : ((first :: others) ++ rest).head?.any Char.isDigit = true :=
        decimal first List.mem_cons_self
      have stop : rest.dropWhile Char.isDigit = rest := by
        cases rest with
        | nil => rfl
        | cons char rest => exact List.dropWhile_cons_of_neg (by simp [ends char rfl])
      simp only [begins, if_true, List.dropWhile_append_of_pos decimal, stop]

end Grammar

theorem hours?_eq_some_iff : hours? text = some rest ↔ ∃ hour minute behindHour,
    Field 2 0 23 hour text (':' :: behindHour) ∧ Field 2 0 59 minute behindHour rest := by
  constructor
  · intro read
    obtain ⟨⟨hour, behindHour⟩, hours, read⟩ := Option.bind_eq_some_iff.mp read
    obtain ⟨afterHour, colon, read⟩ := Option.bind_eq_some_iff.mp read
    obtain ⟨⟨minute, behind⟩, minutes, same⟩ := Option.bind_eq_some_iff.mp read
    cases same
    rw [digitsWithin?_eq_some_iff] at hours minutes
    rw [expect?_eq_some_iff] at colon
    exact ⟨hour, minute, afterHour, colon ▸ hours, minutes⟩
  · rintro ⟨hour, minute, behindHour, hours, minutes⟩
    simp [hours?, digitsWithin?_eq_some_iff.mpr hours, expect?,
      digitsWithin?_eq_some_iff.mpr minutes]

theorem offset?_eq_some_iff : offset? text = some rest ↔ Offset text rest := by
  constructor
  · intro read
    unfold offset? at read
    split at read
    · cases read
      exact .none (by decide)
    · cases read
      exact .none (by decide)
    · obtain ⟨hour, minute, behindHour, hours, minutes⟩ := hours?_eq_some_iff.mp read
      exact .hours (by decide) hours minutes
    · obtain ⟨hour, minute, behindHour, hours, minutes⟩ := hours?_eq_some_iff.mp read
      exact .hours (by decide) hours minutes
    · cases read
  · intro offset
    cases offset with
    | none known =>
      simp only [List.mem_cons, List.not_mem_nil, or_false] at known
      rcases known with rfl | rfl <;> rfl
    | hours known hours minutes =>
      have read := hours?_eq_some_iff.mpr ⟨_, _, _, hours, minutes⟩
      simp only [List.mem_cons, List.not_mem_nil, or_false] at known
      rcases known with rfl | rfl <;> exact read

theorem moment_of_datetime? (read : datetime? text = some rest) : Moment text rest := by
  unfold datetime? at read
  split at read
  next => exact .time (time_of_time? read)
  next behind found =>
    have date := date?_eq_some_iff.mp found
    split at read
    · cases read
      exact .date date
    next delimiter behind =>
      split at read
      next known =>
        have member : delimiter ∈ ['T', 't', ' '] := by simpa using known
        -- A delimiter without a time behind it is left to what follows the date.
        split at read
        · cases read
          exact .date date
        next zone time =>
          cases read
          cases ends : offset? zone with
          | none => exact .both date member (time_of_time? time)
          | some behind =>
            exact .zoned date member (time_of_time? time) (offset?_eq_some_iff.mp ends)
      next =>
        cases read
        exact .date date

namespace Grammar

theorem Date.begins (date : Date text rest) :
    ∃ char more, text = char :: more ∧ char.isDigit = true := by
  cases date with
  | day years months days => exact years.begins (by decide)

theorem Time.begins (time : Time text rest) :
    ∃ char more, text = char :: more ∧ char.isDigit = true := by
  cases time with
  | second hours minutes seconds parts => exact hours.begins (by decide)

theorem Moment.begins (moment : Moment text rest) :
    ∃ char more, text = char :: more ∧ char.isDigit = true := by
  cases moment with
  | date date => exact date.begins
  | time time => exact time.begins
  | both date known time => exact date.begins
  | zoned date known time offset => exact date.begins

/-- The digits of a date are followed by a minus, those of a time by a colon. -/
theorem Date.head_behind (date : Date text rest) :
    (text.dropWhile Char.isDigit).head? = some '-' := by
  cases date with
  | day years months days =>
    rw [years.dropWhile_eq]
    rfl

theorem Time.head_behind (time : Time text rest) :
    (text.dropWhile Char.isDigit).head? = some ':' := by
  cases time with
  | second hours minutes seconds parts =>
    rw [hours.dropWhile_eq]
    rfl

end Grammar

theorem datetime?_eq_none
    (other : ∀ char, (text.dropWhile Char.isDigit).head? = some char → char ≠ '-' ∧ char ≠ ':') :
    datetime? text = none := by
  cases read : datetime? text with
  | none => rfl
  | some rest =>
    cases moment_of_datetime? read with
    | date date => exact absurd rfl (other '-' date.head_behind).1
    | time time => exact absurd rfl (other ':' time.head_behind).2
    | both date known time => exact absurd rfl (other '-' date.head_behind).1
    | zoned date known time offset => exact absurd rfl (other '-' date.head_behind).1

theorem datetime?_cons_eq_none {char : Char} (noDigit : char.isDigit = false) (rest : List Char) :
    datetime? (char :: rest) = none := by
  cases read : datetime? (char :: rest) with
  | none => rfl
  | some behind =>
    obtain ⟨first, more, same, digit⟩ := (moment_of_datetime? read).begins
    cases same
    rw [noDigit] at digit
    cases digit

namespace Grammar

theorem Ends.time?_eq_none (ends : Ends (' ' :: rest)) : time? rest = none := by
  cases read : time? rest with
  | none => rfl
  | some behind =>
    obtain ⟨char, more, rfl, digit⟩ := (time_of_time? read).begins
    have stops : Ends (char :: more) := ends
    rw [(stops.timeEnds char rfl).1] at digit
    cases digit

theorem Offset.begins (offset : Offset text rest) :
    ∃ char more, text = char :: more ∧ char ∈ ['Z', 'z', '+', '-'] := by
  cases offset with
  | none known => exact ⟨_, _, rfl, List.mem_append_left ['+', '-'] known⟩
  | hours known hours minutes => exact ⟨_, _, rfl, List.mem_append_right ['Z', 'z'] known⟩

theorem Ends.offset?_eq_none (ends : Ends rest) : offset? rest = none := by
  cases read : offset? rest with
  | none => rfl
  | some behind =>
    obtain ⟨char, more, rfl, known⟩ := (offset?_eq_some_iff.mp read).begins
    have member := ends.head char rfl
    simp only [List.mem_cons, List.not_mem_nil, or_false] at known
    rcases known with rfl | rfl | rfl | rfl <;> exact absurd member (by decide)

theorem Offset.timeEnds (offset : Offset text rest) : TimeEnds text := by
  obtain ⟨char, more, rfl, known⟩ := offset.begins
  intro first head
  cases head
  simp only [List.mem_cons, List.not_mem_nil, or_false] at known
  rcases known with rfl | rfl | rfl | rfl <;> decide

theorem Date.datetime?_alone (date : Date text rest) (ends : Ends rest) :
    datetime? text = some rest := by
  unfold datetime?
  rw [date?_eq_some_iff.mpr date]
  cases rest with
  | nil => rfl
  | cons delimiter behind =>
    have member := ends.head delimiter rfl
    dsimp only
    split
    next known =>
      rcases known with rfl | rfl | rfl
      · exact absurd member (by decide)
      · exact absurd member (by decide)
      · rw [ends.time?_eq_none]
    next => rfl

theorem Date.datetime?_time {delimiter : Char} {behind zone : List Char}
    (date : Date text (delimiter :: behind)) (known : delimiter ∈ ['T', 't', ' '])
    (time : time? behind = some zone) : datetime? text = some ((offset? zone).getD zone) := by
  simp only [List.mem_cons, List.not_mem_nil, or_false] at known
  unfold datetime?
  rw [date?_eq_some_iff.mpr date]
  simp only [known, if_true, time]

theorem Time.datetime?_eq (time : Time text rest) (ends : Ends rest) :
    datetime? text = some rest := by
  have noDate : date? text = none := by
    cases read : date? text with
    | none => rfl
    | some behind =>
      have dash := (date?_eq_some_iff.mp read).head_behind
      rw [time.head_behind] at dash
      cases dash
  unfold datetime?
  rw [noDate]
  exact time.time?_eq ends.timeEnds

theorem Moment.datetime?_eq (moment : Moment text rest) (ends : Ends rest) :
    datetime? text = some rest := by
  cases moment with
  | date date => exact date.datetime?_alone ends
  | time time => exact time.datetime?_eq ends
  | both date known time =>
    rw [date.datetime?_time known (time.time?_eq ends.timeEnds), ends.offset?_eq_none]
    rfl
  | zoned date known time offset =>
    rw [date.datetime?_time known (time.time?_eq offset.timeEnds), offset?_eq_some_iff.mpr offset]
    rfl

theorem Date.suffix (date : Date text rest) : rest <:+ text := by
  cases date with
  | day years months days =>
    have inside := (List.suffix_cons _ _).trans months.suffix
    exact (days.suffix.trans inside).trans ((List.suffix_cons _ _).trans years.suffix)

theorem Parts.suffix (parts : Parts text rest) : rest <:+ text := by
  cases parts with
  | none => exact List.suffix_refl _
  | digits nonempty decimal => exact (List.suffix_append _ _).trans (List.suffix_cons _ _)

theorem Time.suffix (time : Time text rest) : rest <:+ text := by
  cases time with
  | second hours minutes seconds parts =>
    have ending := parts.suffix.trans seconds.suffix
    have inside := (ending.trans (List.suffix_cons _ _)).trans minutes.suffix
    exact (inside.trans (List.suffix_cons _ _)).trans hours.suffix

theorem Offset.suffix (offset : Offset text rest) : rest <:+ text := by
  cases offset with
  | none known => exact List.suffix_cons _ _
  | hours known hours minutes =>
    have inside := (List.suffix_cons _ _).trans hours.suffix
    exact (minutes.suffix.trans inside).trans (List.suffix_cons _ _)

theorem Moment.suffix (moment : Moment text rest) : rest <:+ text := by
  cases moment with
  | date date => exact date.suffix
  | time time => exact time.suffix
  | both date known time => exact (time.suffix.trans (List.suffix_cons _ _)).trans date.suffix
  | zoned date known time offset =>
    exact (offset.suffix.trans time.suffix).trans ((List.suffix_cons _ _).trans date.suffix)

end Grammar

end EdgeRoutes.Toml
