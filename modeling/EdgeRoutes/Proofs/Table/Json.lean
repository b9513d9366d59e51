import EdgeRoutes.Proofs.Json.Reading
import EdgeRoutes.Proofs.Table.Members

/-! The objects of a table are made of strings and have their keys in order, whatever names
the literals have.
-/

set_option autoImplicit false

namespace EdgeRoutes

variable (keys : RouteConfig)

theorem TableNode.textual_of_members (node : TableNode)
    (each : ∀ member ∈ node.choices.members keys [], member.2.Textual) :
    (node.toJson keys).Textual := by
  refine .object (node.members_sorted keys) ?_
  intro member present
  unfold members RouteConfig.withPage at present
  cases page : node.page with
  | none =>
    rw [page] at present
    exact each member present
  | some text =>
    rw [page] at present
    rcases Members.mem_insert present with rfl | present
    · exact .string text
    · exact each member present

theorem Choices.textual_members (choices : Choices) {collected : List (String × Json)}
    (each : ∀ member ∈ collected, member.2.Textual) :
    ∀ member ∈ choices.members keys collected, member.2.Textual := by
  have nothing : ∀ member ∈ ([] : List (String × Json)), member.2.Textual := by simp
  induction choices generalizing collected with
  | none => exact each
  | wildcard page below ih =>
    intro member present
    rcases Members.mem_insert present with rfl | present
    · exact TableNode.textual_of_members keys ⟨page, below⟩ (ih nothing)
    · exact each member present
  | literal name page below others belowIH othersIH =>
    apply othersIH
    intro member present
    rcases Members.mem_insert present with rfl | present
    · exact TableNode.textual_of_members keys ⟨page, below⟩ (belowIH nothing)
    · exact each member present

theorem TableNode.textual_toJson (node : TableNode) : (node.toJson keys).Textual :=
  node.textual_of_members keys (node.choices.textual_members keys (by simp))

end EdgeRoutes
