import EdgeRoutes.Path

/-! Paths and their parts, in terms of lists of characters.

A slash at the end adds an empty part, so it hides the extension of a path and leaves its
segments as they are. Any texts that are not empty and have no slash are the segments of a
path.
-/

set_option autoImplicit false

namespace EdgeRoutes.Path

theorem splitSlash_ne_nil (chars : List Char) : splitSlash chars ≠ [] := by
  cases chars with
  | nil => simp [splitSlash]
  | cons first rest =>
    unfold splitSlash
    split
    · simp
    · split <;> simp

theorem splitSlash_append (front back : List Char) :
    splitSlash (front ++ '/' :: back) = splitSlash front ++ splitSlash back := by
  induction front with
  | nil => rfl
  | cons first rest ih =>
    simp only [List.cons_append, splitSlash]
    split
    · rw [ih, List.cons_append]
    · rw [ih]
      cases pieces : splitSlash rest with
      | nil => exact absurd pieces (splitSlash_ne_nil rest)
      | cons part others => rfl

theorem splitSlash_of_not_mem {chars : List Char} (absent : '/' ∉ chars) :
    splitSlash chars = [chars] := by
  induction chars with
  | nil => rfl
  | cons first rest ih =>
    rw [List.mem_cons, not_or] at absent
    rw [splitSlash, if_neg (Ne.symm absent.1), ih absent.2]

theorem not_mem_of_mem_splitSlash {chars part : List Char} (member : part ∈ splitSlash chars) :
    '/' ∉ part := by
  induction chars generalizing part with
  | nil =>
    rw [splitSlash, List.mem_singleton] at member
    simp [member]
  | cons first rest ih =>
    unfold splitSlash at member
    split at member
    · rcases List.mem_cons.mp member with rfl | later
      · exact List.not_mem_nil
      · exact ih later
    · rename_i differ
      cases pieces : splitSlash rest with
      | nil => exact absurd pieces (splitSlash_ne_nil rest)
      | cons head others =>
        rw [pieces] at member ih
        rcases List.mem_cons.mp member with rfl | later
        · rw [List.mem_cons, not_or]
          exact ⟨Ne.symm differ, ih List.mem_cons_self⟩
        · exact ih (List.mem_cons_of_mem head later)

theorem parts_concat_slash (path : String) : parts (path ++ "/") = parts path ++ [""] := by
  unfold parts
  rw [String.toList_append]
  change (splitSlash (path.toList ++ '/' :: [])).map String.ofList = _
  rw [splitSlash_append, List.map_append]
  rfl

@[simp] theorem segments_concat_slash (path : String) :
    segments (path ++ "/") = segments path := by
  unfold segments
  rw [parts_concat_slash, List.filter_append]
  exact List.append_nil _

theorem hasExtension_iff (path : String) :
    hasExtension path = true ↔ ∃ last ∈ (parts path).getLast?, '.' ∈ last.toList := by
  unfold hasExtension
  rw [Option.any_eq_true]
  simp only [List.contains_eq_mem, decide_eq_true_eq, Option.mem_def]

theorem endsInSlash_iff (path : String) : endsInSlash path = true ↔ ['/'] <:+ path.toList := by
  unfold endsInSlash
  rw [beq_iff_eq, List.getLast?_eq_some_iff]
  constructor
  · rintro ⟨front, whole⟩
    exact ⟨front, whole.symm⟩
  · rintro ⟨front, whole⟩
    exact ⟨front, whole.symm⟩

theorem dropTrailingSlash_toList (path : String) :
    (dropTrailingSlash path).toList =
      if ['/'] <:+ path.toList then path.toList.dropLast else path.toList := by
  unfold dropTrailingSlash
  simp only [endsInSlash_iff]
  split <;> simp

@[simp] theorem dropTrailingSlash_concat_slash (path : String) :
    dropTrailingSlash (path ++ "/") = path := by
  apply String.toList_inj.mp
  rw [dropTrailingSlash_toList, String.toList_append, if_pos ⟨path.toList, rfl⟩]
  exact List.dropLast_concat

theorem dropTrailingSlash_eq_self_iff {path : String} :
    dropTrailingSlash path = path ↔ ¬ ['/'] <:+ path.toList := by
  rw [← String.toList_inj, dropTrailingSlash_toList]
  constructor
  · intro kept ends
    have length := congrArg List.length kept
    obtain ⟨front, whole⟩ := ends
    rw [if_pos ⟨front, whole⟩, ← whole] at length
    simp at length
  · exact fun bare => if_neg bare

theorem endsInSlash_append (path : String) {ending : String} (nonempty : ending ≠ "") :
    endsInSlash (path ++ ending) = endsInSlash ending := by
  have last : ending.toList ≠ [] := by simpa using nonempty
  unfold endsInSlash
  rw [String.toList_append, List.getLast?_append, List.getLast?_eq_some_getLast last,
    Option.some_or]

/-- A path ends in a slash, which is dropped, or is kept as it is. -/
theorem dropTrailingSlash_cases (path : String) :
    path = dropTrailingSlash path ++ "/" ∨
      dropTrailingSlash path = path ∧ ¬ ['/'] <:+ path.toList := by
  by_cases ends : ['/'] <:+ path.toList
  · obtain ⟨front, whole⟩ := ends
    left
    apply String.toList_inj.mp
    rw [String.toList_append, dropTrailingSlash_toList, if_pos ⟨front, whole⟩, ← whole,
      List.dropLast_concat]
    rfl
  · exact Or.inr ⟨dropTrailingSlash_eq_self_iff.mpr ends, ends⟩

@[simp] theorem segments_dropTrailingSlash (path : String) :
    segments (dropTrailingSlash path) = segments path := by
  rcases dropTrailingSlash_cases path with slash | ⟨same, _⟩
  · have kept := segments_concat_slash (dropTrailingSlash path)
    rw [← slash] at kept
    exact kept.symm
  · rw [same]

def IsSegment (text : String) : Prop :=
  text ≠ "" ∧ '/' ∉ text.toList

theorem isSegment_of_mem {path text : String} (member : text ∈ segments path) :
    IsSegment text := by
  obtain ⟨part, nonempty⟩ := List.mem_filter.mp member
  obtain ⟨chars, piece, rfl⟩ := List.mem_map.mp part
  refine ⟨by simpa using nonempty, ?_⟩
  rw [String.toList_ofList]
  exact not_mem_of_mem_splitSlash piece

/-- The path that has the given segments, each behind a slash. -/
def ofSegments (segments : List String) : String :=
  String.ofList (segments.flatMap fun segment => '/' :: segment.toList)

theorem splitSlash_flatMap {part : List Char} (free : '/' ∉ part) {texts : List String}
    (allowed : ∀ text ∈ texts, IsSegment text) :
    splitSlash (part ++ texts.flatMap fun text => '/' :: text.toList) =
      part :: texts.map String.toList := by
  induction texts generalizing part with
  | nil => simpa using splitSlash_of_not_mem free
  | cons text rest ih =>
    rw [List.flatMap_cons, List.cons_append, splitSlash_append, splitSlash_of_not_mem free,
      ih (allowed text List.mem_cons_self).2
        fun later member => allowed later (List.mem_cons_of_mem text member)]
    rfl

theorem segments_ofSegments {texts : List String} (allowed : ∀ text ∈ texts, IsSegment text) :
    segments (ofSegments texts) = texts := by
  -- In front of the first slash stands an empty part, which is no segment.
  have pieces := splitSlash_flatMap List.not_mem_nil allowed
  rw [List.nil_append] at pieces
  unfold segments parts ofSegments
  rw [String.toList_ofList, pieces, List.map_cons, List.map_map, List.filter_cons_of_neg (by simp),
    List.filter_eq_self.mpr]
  · simp
  · intro text member
    obtain ⟨original, originalIn, rfl⟩ := List.mem_map.mp member
    simpa using (allowed original originalIn).1

end EdgeRoutes.Path
