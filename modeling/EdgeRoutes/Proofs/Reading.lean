import Mathlib.Data.List.TakeDrop

/-! What readers are made of: steps that may fail, of which one comes after another, and the span
of characters up to the first that does not belong to it.
-/

set_option autoImplicit false

namespace EdgeRoutes

variable {Fault First Second : Type}

theorem bind_eq_ok_iff {first : Except Fault First} {next : First → Except Fault Second}
    {result : Second} :
    (first >>= next) = .ok result ↔ ∃ found, first = .ok found ∧ next found = .ok result := by
  cases first <;> simp [bind, Except.bind]

theorem bind_eq_error_iff {first : Except Fault First} {next : First → Except Fault Second}
    {fault : Fault} :
    (first >>= next) = .error fault ↔
      first = .error fault ∨ ∃ found, first = .ok found ∧ next found = .error fault := by
  cases first <;> simp [bind, Except.bind]

theorem toOption_eq_some {read : Except Fault First} {value : First} :
    read.toOption = some value ↔ read = .ok value := by
  cases read <;> simp [Except.toOption]

@[simp] theorem toOption_bind (read : Except Fault First) (next : First → Except Fault Second) :
    (read >>= next).toOption = read.toOption.bind fun value => (next value).toOption := by
  cases read <;> rfl

@[simp] theorem toOption_map (read : Except Fault First) (change : First → Second) :
    (read.map change).toOption = read.toOption.map change := by
  cases read <;> rfl

theorem span_append {test : Char → Bool} {chars rest : List Char}
    (all : ∀ char ∈ chars, test char = true)
    (stops : ∀ char, rest.head? = some char → test char = false) :
    (chars ++ rest).span test = (chars, rest) := by
  have stop : rest.takeWhile test = [] ∧ rest.dropWhile test = rest := by
    cases rest with
    | nil => exact ⟨rfl, rfl⟩
    | cons char rest => simp [stops char rfl]
  rw [List.span_eq_takeWhile_dropWhile, List.takeWhile_append_of_pos all,
    List.dropWhile_append_of_pos all, stop.1, stop.2, List.append_nil]

/-- A span ends at the end of the text or before a character that fails the test. -/
theorem span_cases (test : Char → Bool) (text : List Char) :
    ∃ chars rest, text.span test = (chars, rest) ∧ text = chars ++ rest ∧
      (∀ char ∈ chars, test char = true) ∧
      ∀ char, rest.head? = some char → test char = false := by
  refine ⟨_, _, List.span_eq_takeWhile_dropWhile test text,
    List.takeWhile_append_dropWhile.symm, List.all_eq_true.mp List.all_takeWhile,
    fun char head => ?_⟩
  have stop := List.head?_dropWhile_not test text
  rw [head] at stop
  simpa using stop

end EdgeRoutes
