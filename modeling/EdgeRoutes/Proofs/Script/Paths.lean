import EdgeRoutes.Proofs.Script.Units
import EdgeRoutes.Text.Basic
import Mathlib.Data.List.Basic

/-! Request paths, looked at in units.

The tests that a script makes on the units of a path are the tests on its characters.
-/

set_option autoImplicit false

namespace EdgeRoutes.Script.Units

theorem indexOf_ofText_eq_zero_iff (text start : String) :
    indexOf (ofText text) (ofText start) = 0 ↔ Text.startsWith text start = true := by
  rw [indexOf_eq_zero_iff, Text.startsWith_iff]
  exact ofChars_prefix_iff start.toList text.toList

theorem ends_ofText_iff (text ending : String) :
    (ofText text).length ≥ (ofText ending).length ∧
        slice (ofText text) ((ofText text).length - (ofText ending).length) = ofText ending ↔
      Text.endsWith text ending = true := by
  rw [ends_iff, Text.endsWith_iff]
  exact ofChars_suffix_iff ending.toList text.toList

theorem ofText_eq_nil_iff (text : String) : ofText text = [] ↔ text.isEmpty = true := by
  simp [ofText]

theorem ofText_append (first second : String) :
    ofText (first ++ second) = ofText first ++ ofText second := by
  simp [ofText, ofChars_append]

theorem getLast?_split_ofText (path : String) :
    (split (ofText path) slash).getLast? = some ((split (ofText path) slash).getLastD []) := by
  have nonempty : split (ofText path) slash ≠ [] := by
    simpa [ofText, split_ofChars] using Path.splitSlash_ne_nil path.toList
  rw [List.getLastD_eq_getLast?, List.getLast?_eq_some_getLast nonempty]
  rfl

/-- The last piece of a path has a dot exactly if the path has an extension. -/
theorem extension_iff (path : String) :
    (split (ofText path) slash).getLastD [] ≠ [] ∧
        indexOf ((split (ofText path) slash).getLastD []) [dot] ≠ -1 ↔
      Path.hasExtension path = true := by
  obtain ⟨front, last, pieces⟩ :=
    (List.eq_nil_or_concat' _).resolve_left (Path.splitSlash_ne_nil path.toList)
  have lastUnits : (split (ofText path) slash).getLastD [] = ofChars last := by
    simp [ofText, split_ofChars, pieces]
  have lastPart : (Path.parts path).getLast? = some (String.ofList last) := by
    simp [Path.parts, pieces]
  rw [lastUnits, indexOf_char_ne_neg_one_iff ofChar_dot (by decide), Path.hasExtension_iff,
    lastPart]
  simp only [ne_eq, ofChars_eq_nil_iff, Option.mem_def, Option.some.injEq, exists_eq_left',
    String.toList_ofList, and_iff_right_iff_imp]
  exact fun member => List.ne_nil_of_mem member

theorem ofText_dropTrailingSlash (path : String) :
    (if charAt (ofText path) ((ofText path).length - 1) = [slash]
      then slice (ofText path) 0 (some (-1)) else ofText path) =
      ofText (Path.dropTrailingSlash path) := by
  have ends : charAt (ofText path) ((ofText path).length - 1) = [slash] ↔
      ['/'] <:+ path.toList := by
    rw [charAt_last, ← ofChars_suffix_iff]
    change _ ↔ [slash] <:+ ofText path
    cases found : (ofText path).getLast? with
    | none =>
      rw [List.getLast?_eq_none_iff] at found
      simp [found]
    | some unit =>
      obtain ⟨front, whole⟩ := List.getLast?_eq_some_iff.mp found
      simp [whole, eq_comm]
  simp only [ends, slice_dropLast]
  unfold ofText
  rw [Path.dropTrailingSlash_toList]
  split
  case isTrue inside =>
    obtain ⟨front, whole⟩ := inside
    rw [← whole, ofChars_append, List.dropLast_concat]
    exact List.dropLast_concat
  case isFalse => rfl

theorem segments_ofText (path : String) :
    (split (ofText path) slash).filter (· ≠ []) = (Path.segments path).map ofText := by
  have characters : (fun piece => ofText (String.ofList piece)) = ofChars := by
    funext piece
    simp [ofText]
  have kept : ∀ piece ∈ Path.splitSlash path.toList,
      decide (ofChars piece ≠ []) = !(String.ofList piece).isEmpty := by
    intro piece _
    cases piece <;> simp [ofChars_cons, ofChar_ne_nil]
  have pieces : split (ofText path) slash = (Path.splitSlash path.toList).map ofChars :=
    split_ofChars path.toList
  unfold Path.segments Path.parts
  rw [pieces, List.filter_map, List.filter_map, List.map_map, Function.comp_def ofText,
    characters]
  exact congrArg (List.map ofChars) (List.filter_congr kept)

end EdgeRoutes.Script.Units
