import EdgeRoutes.Json.Basic

/-! Members by their keys.

Storing a value changes what is found under its key and nothing else. Members that are
sorted stay sorted, so each key stands there once and it does not matter from which end
they are searched.
-/

set_option autoImplicit false

namespace EdgeRoutes.Members

variable {Value : Type}

/-- The value under a key, the first if the key stands there more than once. -/
def find? (members : List (String × Value)) (key : String) : Option Value :=
  (members.find? (·.1 = key)).map (·.2)

def Sorted (members : List (String × Value)) : Prop :=
  members.Pairwise fun first second => Text.Before first.1 second.1

theorem find?_cons (present : String) (stored : Value) (others : List (String × Value))
    (key : String) :
    find? ((present, stored) :: others) key =
      if present = key then some stored else find? others key := by
  by_cases same : present = key <;> simp [find?, same]

theorem find?_insert (key : String) (value : Value) (members : List (String × Value))
    (wanted : String) :
    find? (insert key value members) wanted =
      if key = wanted then some value else find? members wanted := by
  induction members with
  | nil => exact find?_cons key value [] wanted
  | cons member others ih =>
    obtain ⟨present, stored⟩ := member
    unfold insert
    split
    case isTrue same =>
      subst same
      rw [find?_cons, find?_cons]
      split <;> rfl
    case isFalse differ =>
      split
      · exact find?_cons key value _ wanted
      · rw [find?_cons, find?_cons, ih]
        by_cases here : present = wanted
        · subst here
          rw [if_pos rfl, if_neg differ, if_pos rfl]
        · rw [if_neg here, if_neg here]

theorem mem_insert {key : String} {value : Value} {members : List (String × Value)}
    {member : String × Value} (found : member ∈ insert key value members) :
    member = (key, value) ∨ member ∈ members := by
  induction members with
  | nil => exact Or.inl (List.mem_singleton.mp found)
  | cons first others ih =>
    unfold insert at found
    split at found
    · rcases List.mem_cons.mp found with new | later
      · exact Or.inl new
      · exact Or.inr (List.mem_cons_of_mem first later)
    · split at found
      · exact List.mem_cons.mp found
      · rcases List.mem_cons.mp found with rfl | later
        · exact Or.inr List.mem_cons_self
        · exact (ih later).imp_right (List.mem_cons_of_mem first)

theorem insert_sorted (key : String) (value : Value) {members : List (String × Value)}
    (sorted : Sorted members) : Sorted (insert key value members) := by
  induction members with
  | nil => exact List.pairwise_singleton _ _
  | cons first others ih =>
    obtain ⟨after, othersSorted⟩ := List.pairwise_cons.mp sorted
    unfold insert
    split
    case isTrue same =>
      subst same
      exact List.pairwise_cons.mpr ⟨after, othersSorted⟩
    case isFalse differ =>
      split
      case isTrue before =>
        refine List.pairwise_cons.mpr ⟨?_, sorted⟩
        intro later member
        rcases List.mem_cons.mp member with rfl | member
        · exact before
        · exact before.trans (after later member)
      case isFalse notBefore =>
        refine List.pairwise_cons.mpr ⟨?_, ih othersSorted⟩
        intro later member
        rcases mem_insert member with rfl | member
        -- The new key is neither that of the first member nor before it.
        · exact (Text.Before.total differ).resolve_left notBefore
        · exact after later member

theorem Sorted.keys_nodup {members : List (String × Value)} (sorted : Sorted members) :
    (members.map (·.1)).Nodup := by
  refine List.pairwise_map.mpr (sorted.imp ?_)
  intro first second before same
  rw [same] at before
  exact Text.Before.irrefl second.1 before

theorem Sorted.find?_tail {first : String × Value} {others : List (String × Value)}
    (sorted : Sorted (first :: others)) : find? others first.1 = none := by
  unfold find?
  rw [Option.map_eq_none_iff, List.find?_eq_none]
  intro later member
  rw [decide_eq_true_eq]
  intro same
  have before := (List.pairwise_cons.mp sorted).1 later member
  rw [same] at before
  exact Text.Before.irrefl first.1 before

/-- A value under a new key is one more member. -/
theorem insert_perm {key : String} (value : Value) {members : List (String × Value)}
    (fresh : key ∉ members.map (·.1)) :
    (insert key value members).Perm ((key, value) :: members) := by
  induction members with
  | nil => exact List.Perm.refl _
  | cons first others ih =>
    rw [List.map_cons, List.mem_cons, not_or] at fresh
    unfold insert
    rw [if_neg fresh.1]
    split
    · exact List.Perm.refl _
    · exact ((ih fresh.2).cons first).trans (List.Perm.swap _ _ _)

theorem insert_eq_append {key : String} (value : Value) {members : List (String × Value)}
    (last : ∀ member ∈ members, Text.Before member.1 key) :
    insert key value members = members ++ [(key, value)] := by
  induction members with
  | nil => rfl
  | cons first others ih =>
    have before := last first List.mem_cons_self
    have differ : key ≠ first.1 := by
      rintro rfl
      exact Text.Before.irrefl _ before
    have notFirst : ¬ Text.Before key first.1 := fun after =>
      Text.Before.irrefl _ (before.trans after)
    rw [insert, if_neg differ, if_neg notFirst,
      ih fun member later => last member (List.mem_cons_of_mem first later)]
    rfl

theorem Sorted.ofEntries_eq {entries : List (String × Value)} (sorted : Sorted entries) :
    ofEntries entries = entries := by
  have collect (later collected : List (String × Value)) (all : Sorted (collected ++ later)) :
      later.foldl (fun members entry => insert entry.1 entry.2 members) collected =
        collected ++ later := by
    induction later generalizing collected with
    | nil => simp
    | cons entry later ih =>
      have last := (List.pairwise_append.mp all).2.2
      rw [List.foldl_cons, insert_eq_append entry.2 fun member present =>
        last member present entry List.mem_cons_self]
      rw [List.append_cons] at all
      rw [ih (collected ++ [entry]) all, List.append_assoc]
      rfl
  exact collect entries [] sorted

end EdgeRoutes.Members
