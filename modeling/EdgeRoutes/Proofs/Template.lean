import EdgeRoutes.Handler.Template

/-! Filling a template by its pieces.

The places that are filled depend on the placeholders alone. So a filled template is what
its pieces become when a value is put for each hole, whatever the values contain.
-/

set_option autoImplicit false

namespace EdgeRoutes.Template

variable {Hole : Type}

namespace Piece

def text (value : Hole → List Char) : Piece Hole → List Char
  | .char plain => [plain]
  | .hole place => value place

def hole? : Piece Hole → Option Hole
  | .char _ => none
  | .hole place => some place

end Piece

def holes (pieces : List (Piece Hole)) : List Hole := pieces.filterMap Piece.hole?

@[simp] theorem holes_nil : holes ([] : List (Piece Hole)) = [] := rfl

@[simp] theorem holes_char (char : Char) (pieces : List (Piece Hole)) :
    holes (.char char :: pieces) = holes pieces := rfl

@[simp] theorem holes_hole (hole : Hole) (pieces : List (Piece Hole)) :
    holes (.hole hole :: pieces) = hole :: holes pieces := rfl

theorem mem_of_mem_holes {hole : Hole} {pieces : List (Piece Hole)}
    (member : hole ∈ holes pieces) : .hole hole ∈ pieces := by
  obtain ⟨piece, present, found⟩ := List.mem_filterMap.mp member
  cases piece with
  | char => cases found
  | hole => cases found; exact present

/-- Whether a placeholder begins the text is decided without the values. -/
theorem startingAt?_map (value : Hole → List Char) (entries : List (List Char × Hole))
    (text : List Char) :
    startingAt? (entries.map fun entry => (entry.1, value entry.2)) text =
      (startingAt? entries text).map fun entry => (entry.1, value entry.2) := by
  unfold startingAt?
  rw [List.find?_map]
  rfl

theorem fillFrom_eq_flatMap (value : Hole → List Char) (entries : List (List Char × Hole))
    (covered : Nat) (text : List Char) :
    fillFrom (entries.map fun entry => (entry.1, value entry.2)) covered text =
      (splitFrom entries covered text).flatMap (Piece.text value) := by
  induction text generalizing covered with
  | nil => cases covered <;> rfl
  | cons char rest ih =>
    cases covered with
    | succ covered => exact ih covered
    | zero =>
      -- Both runs find the same placeholder here, and go on behind it.
      simp only [fillFrom, splitFrom, startingAt?_map]
      cases startingAt? entries (char :: rest) with
      | none =>
        simp only [Option.map_none, ih, List.flatMap_cons, Piece.text, List.singleton_append]
      | some entry => simp only [Option.map_some, ih, List.flatMap_cons, Piece.text]

/-- A filled template is made of its pieces. -/
theorem fill_eq_flatMap (value : Hole → List Char) (entries : List (List Char × Hole))
    (template : List Char) :
    fill (entries.map fun entry => (entry.1, value entry.2)) template =
      (split entries template).flatMap (Piece.text value) :=
  fillFrom_eq_flatMap value entries 0 template

theorem length_value_le (value : Hole → List Char) {pieces : List (Piece Hole)} {hole : Hole}
    (member : .hole hole ∈ pieces) :
    (value hole).length ≤ (pieces.flatMap (Piece.text value)).length := by
  obtain ⟨before, after, rfl⟩ := List.append_of_mem member
  simp only [List.flatMap_append, List.flatMap_cons, Piece.text, List.length_append]
  omega

end EdgeRoutes.Template
