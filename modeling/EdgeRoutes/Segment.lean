import EdgeRoutes.Path
import EdgeRoutes.Text.Basic

/-! The segments of a page template.

A template such as `/items/[id]` is read as a list of segments: a literal is matched by
itself only, a bracketed parameter by any one segment of a request path. Segments are
ordered, literals by their text and the wildcard after all of them; this is the order in
which a trie keeps its children.
-/

set_option autoImplicit false

namespace EdgeRoutes

inductive Segment where
  | literal (text : String)
  | wildcard
  deriving DecidableEq, Repr

namespace Segment

def ofText (text : String) : Segment :=
  if text.toList.head? = some '[' ∧ text.toList.getLast? = some ']' then .wildcard
  else .literal text

/-- The segments of a page template; empty parts of the page do not count. -/
def ofPage (page : String) : List Segment :=
  (Path.segments page).map ofText

theorem mem_segments_of_literal {page text : String} (member : .literal text ∈ ofPage page) :
    text ∈ Path.segments page := by
  obtain ⟨part, partIn, same⟩ := List.mem_map.mp member
  unfold ofText at same
  split at same
  · cases same
  · cases same
    exact partIn

def Before : Segment → Segment → Prop
  | .literal first, .literal second => Text.Before first second
  | .literal _, .wildcard => True
  | .wildcard, _ => False

instance (first second : Segment) : Decidable (Before first second) :=
  match first, second with
  | .literal first, .literal second => inferInstanceAs (Decidable (Text.Before first second))
  | .literal _, .wildcard => .isTrue trivial
  | .wildcard, .literal _ => .isFalse id
  | .wildcard, .wildcard => .isFalse id

theorem Before.irrefl (segment : Segment) : ¬ segment.Before segment := by
  cases segment with
  | literal text => exact Text.Before.irrefl text
  | wildcard => exact id

theorem Before.trans {first second third : Segment} (left : first.Before second)
    (right : second.Before third) : first.Before third := by
  cases first <;> cases second <;> cases third <;> simp_all [Before]
  exact Text.Before.trans left right

theorem Before.total {first second : Segment} (differ : first ≠ second) :
    first.Before second ∨ second.Before first := by
  cases first with
  | wildcard =>
      cases second with
      | wildcard => exact absurd rfl differ
      | literal text => exact Or.inr trivial
  | literal text =>
      cases second with
      | wildcard => exact Or.inl trivial
      | literal other =>
          exact Text.Before.total fun same => differ (congrArg Segment.literal same)

end Segment

end EdgeRoutes
