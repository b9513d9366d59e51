import EdgeRoutes.Json.Printer
import Mathlib.Data.String.Basic
import Mathlib.Algebra.BigOperators.Group.List.Basic
import Mathlib.Algebra.GroupWithZero.Nat

/-! How many bytes the text of a value takes.

A list or an object takes the bytes of its parts, where each part counts with the comma or the
closing bracket behind it. So the size grows with the parts, and their order has no influence
on it.
-/

set_option autoImplicit false

namespace EdgeRoutes.Json

variable (style : Style)

/-- The bytes of the text of a value, in UTF-8. -/
def byteSize (value : Json) : Nat := String.utf8Len (value.chars style)

def itemSize (item : Json) : Nat := item.byteSize style + 1

def memberSize (member : String × Json) : Nat :=
  String.utf8Len (style.key member.1) + member.2.byteSize style + 2

/-- The bytes between brackets, with both brackets. The closing bracket is counted with the
last part, if there is one. -/
def enclosed (inside : Nat) : Nat := if inside = 0 then 2 else inside + 1

theorem enclosed_le {inside more : Nat} (le : inside ≤ more) : enclosed inside ≤ enclosed more := by
  unfold enclosed
  split <;> split <;> omega

theorem enclosed_lt {inside more : Nat} (less : inside < more) (two : 2 ≤ more) :
    enclosed inside < enclosed more := by
  unfold enclosed
  split <;> split <;> omega

theorem utf8Len_itemsChars (items : List Json) :
    String.utf8Len (itemsChars style items) = (items.map (itemSize style)).sum + 1 := by
  induction items with
  | nil => rfl
  | cons item items ih =>
    have comma : Char.utf8Size ',' = 1 := rfl
    simp only [itemsChars, List.cons_append, String.utf8Len_cons, String.utf8Len_append, ih, comma,
      List.map_cons, List.sum_cons, itemSize, byteSize]
    omega

theorem byteSize_array (items : List Json) :
    (Json.array items).byteSize style = enclosed (items.map (itemSize style)).sum := by
  cases items with
  | nil => rfl
  | cons item items =>
    have bracket : Char.utf8Size '[' = 1 := rfl
    simp only [byteSize, chars, List.cons_append, String.utf8Len_cons, String.utf8Len_append,
      utf8Len_itemsChars, bracket, List.map_cons, List.sum_cons, itemSize, enclosed]
    split <;> omega

theorem utf8Len_membersChars (members : List (String × Json)) :
    String.utf8Len (membersChars style members) = (members.map (memberSize style)).sum + 1 := by
  induction members with
  | nil => rfl
  | cons member members ih =>
    have comma : Char.utf8Size ',' = 1 := rfl
    have colon : Char.utf8Size ':' = 1 := rfl
    simp only [membersChars, List.cons_append, List.append_assoc, String.utf8Len_cons,
      String.utf8Len_append, ih, comma, colon, List.map_cons, List.sum_cons, memberSize, byteSize]
    omega

theorem byteSize_object (members : List (String × Json)) :
    (Json.object members).byteSize style = enclosed (members.map (memberSize style)).sum := by
  cases members with
  | nil => rfl
  | cons member members =>
    have brace : Char.utf8Size '\x7b' = 1 := rfl
    have colon : Char.utf8Size ':' = 1 := rfl
    simp only [byteSize, chars, List.cons_append, List.append_assoc, String.utf8Len_cons,
      String.utf8Len_append, utf8Len_membersChars, brace, colon, List.map_cons, List.sum_cons,
      memberSize, enclosed]
    split <;> omega

theorem sum_itemSize_sublist (written : ∀ text, style.text text ≠ []) {fewer more : List String}
    (sublist : fewer.Sublist more) :
    (fewer.map (itemSize style ∘ .string)).sum + 2 * more.length ≤
      (more.map (itemSize style ∘ .string)).sum + 2 * fewer.length := by
  have two (text : String) : 2 ≤ (itemSize style ∘ .string) text := by
    have visible : 0 < String.utf8Len (style.text text) := by
      obtain ⟨char, rest, same⟩ := List.exists_cons_of_ne_nil (written text)
      have positive := char.utf8Size_pos
      rw [same, String.utf8Len_cons]
      omega
    simp only [Function.comp, itemSize, byteSize, chars]
    omega
  induction sublist with
  | slnil => exact Nat.le_refl _
  | cons text _ ih =>
    have more := two text
    simp only [List.map_cons, List.sum_cons, List.length_cons]
    omega
  | cons_cons text _ ih =>
    simp only [List.map_cons, List.sum_cons, List.length_cons]
    omega

end EdgeRoutes.Json
