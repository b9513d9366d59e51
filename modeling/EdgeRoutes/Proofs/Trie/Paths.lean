import EdgeRoutes.Trie.Basic

/-! What a trie holds along its paths.

A change at the end of a path leaves the page of every other path alone; the nodes that it
adds are those on the way. A trie is known by its paths: two ordered tries with the same nodes
and the same pages along every path are equal. So a path that is there does not grow, and one
that has grown on the way to a page is no other than the path the page would have added.
-/

set_option autoImplicit false

namespace EdgeRoutes

namespace Branches

@[simp] theorem find?_none (wanted : Segment) : Branches.none.find? wanted = Option.none := rfl

theorem find?_isSome_iff (branches : Branches) (wanted : Segment) :
    (branches.find? wanted).isSome = true ↔ wanted ∈ branches.segments := by
  induction branches with
  | none => simp [segments]
  | branch present stored below others _ ih =>
    by_cases same : present = wanted
    · simp [find?, segments, same]
    · simp [find?, segments, same, ih, Ne.symm same]

theorem find?_eq_none {branches : Branches} {wanted : Segment}
    (absent : wanted ∉ branches.segments) : branches.find? wanted = Option.none := by
  rw [← find?_isSome_iff] at absent
  simpa using absent

theorem find?_chain (change : Option String → Option String) (segment : Segment)
    (path : List Segment) (others : Branches) (wanted : Segment) :
    (chain (change Option.none) segment path others).find? wanted =
      if wanted = segment then some (TrieNode.alter change {} path) else others.find? wanted := by
  cases path <;> simp [chain, find?, TrieNode.alter, alter, eq_comm]

/-- A change goes into the branch of the first segment and no other. -/
theorem find?_alter (change : Option String → Option String) {branches : Branches}
    (ordered : branches.Ordered) (segment : Segment) (path : List Segment) (wanted : Segment) :
    (branches.alter change segment path).find? wanted =
      if wanted = segment then some (((branches.find? segment).getD {}).alter change path)
      else branches.find? wanted := by
  induction branches with
  | none => simpa [alter] using find?_chain change segment path .none wanted
  | branch present stored below others _ ih =>
    obtain ⟨after, _, othersOrdered⟩ := ordered
    unfold alter
    split
    case isTrue same =>
      subst same
      cases path <;> by_cases here : wanted = present <;>
        simp [find?, TrieNode.alter, here, eq_comm (a := present)]
    case isFalse differ =>
      split
      case isTrue first =>
        -- The chain goes in front, so it must not hide a branch of its own segment further back.
        have absent : segment ∉ (branch present stored below others).segments := by
          intro member
          rcases List.mem_cons.mp member with same | later
          · exact differ same.symm
          · exact Segment.Before.irrefl segment (first.trans (after segment later))
        rw [find?_chain, find?_eq_none absent]
        rfl
      case isFalse notFirst =>
        simp only [find?, ih othersOrdered, if_neg differ]
        by_cases same : present = wanted
        · subst same
          simp [differ]
        · simp [same]

theorem Ordered.below {branches : Branches} (ordered : branches.Ordered) {segment : Segment}
    {node : TrieNode} (found : branches.find? segment = some node) : node.branches.Ordered := by
  induction branches with
  | none => simp at found
  | branch present stored below others _ ih =>
    obtain ⟨_, belowOrdered, othersOrdered⟩ := ordered
    simp only [find?] at found
    split at found
    · cases found
      exact belowOrdered
    · exact ih othersOrdered found

theorem find?_others {present : Segment} {stored : Option String} {below others : Branches}
    (ordered : (branch present stored below others).Ordered) (wanted : Segment) :
    others.find? wanted =
      if wanted = present then Option.none
      else (branch present stored below others).find? wanted := by
  by_cases same : wanted = present
  · subst same
    rw [if_pos rfl]
    apply find?_eq_none
    exact fun member => Segment.Before.irrefl wanted (ordered.1 wanted member)
  · simp [find?, same, Ne.symm same]

theorem head_eq {first second : Segment} {stored other : Option String}
    {below under others rest : Branches}
    (left : (branch first stored below others).Ordered)
    (right : (branch second other under rest).Ordered)
    (same : ∀ segment, (branch first stored below others).find? segment =
      (branch second other under rest).find? segment) : first = second := by
  have leftHead : first ∈ (branch second other under rest).segments := by
    rw [← find?_isSome_iff, ← same]
    simp [find?]
  have rightHead : second ∈ (branch first stored below others).segments := by
    rw [← find?_isSome_iff, same]
    simp [find?]
  rcases List.mem_cons.mp leftHead with equal | later
  · exact equal
  rcases List.mem_cons.mp rightHead with equal | earlier
  · exact equal.symm
  -- If each head stands behind the other, the order goes in a circle.
  have loop := (left.1 second earlier).trans (right.1 first later)
  exact absurd loop (Segment.Before.irrefl first)

theorem ext_find? {left right : Branches} (leftOrdered : left.Ordered)
    (rightOrdered : right.Ordered)
    (same : ∀ segment, left.find? segment = right.find? segment) : left = right := by
  induction left generalizing right with
  | none =>
    cases right with
    | none => rfl
    | branch segment stored below others =>
      have found := same segment
      simp [find?] at found
  | branch present stored below others _ ih =>
    cases right with
    | none =>
      have found := same present
      simp [find?] at found
    | branch segment other under rest =>
      have heads := head_eq leftOrdered rightOrdered same
      subst heads
      have first := same present
      simp only [find?, if_true, Option.some.injEq, TrieNode.mk.injEq] at first
      obtain ⟨rfl, rfl⟩ := first
      -- The rests agree too, for neither has a branch for the common first segment.
      have tails : others = rest := by
        apply ih leftOrdered.2.2 rightOrdered.2.2
        intro wanted
        rw [find?_others leftOrdered, find?_others rightOrdered, same]
      rw [tails]

end Branches

namespace TrieNode

@[simp] theorem descend?_nil (node : TrieNode) : node.descend? [] = some node := rfl

theorem descend?_cons (node : TrieNode) (segment : Segment) (path : List Segment) :
    node.descend? (segment :: path) = (node.child? segment).bind (·.descend? path) := rfl

theorem descend?_append (node : TrieNode) (path rest : List Segment) :
    node.descend? (path ++ rest) = (node.descend? path).bind (·.descend? rest) := by
  induction path generalizing node with
  | nil => rfl
  | cons segment path ih =>
    simp only [List.cons_append, descend?_cons]
    cases node.child? segment with
    | none => rfl
    | some child => simpa using ih child

theorem descend?_concat (node : TrieNode) (path : List Segment) (segment : Segment) :
    node.descend? (path ++ [segment]) = (node.descend? path).bind (·.child? segment) := by
  rw [descend?_append]
  congr 1
  funext below
  rw [descend?_cons]
  cases below.child? segment <;> rfl

theorem ordered_descend? {node last : TrieNode} (ordered : node.branches.Ordered)
    {path : List Segment} (reached : node.descend? path = some last) : last.branches.Ordered := by
  induction path generalizing node with
  | nil =>
    cases reached
    exact ordered
  | cons segment rest ih =>
    rw [descend?_cons, Option.bind_eq_some_iff] at reached
    obtain ⟨next, found, reached⟩ := reached
    exact ih (ordered.below found) reached

@[simp] theorem pageAt?_nil (node : TrieNode) : node.pageAt? [] = node.page := rfl

theorem pageAt?_cons (node : TrieNode) (segment : Segment) (path : List Segment) :
    node.pageAt? (segment :: path) = (node.child? segment).bind (·.pageAt? path) := by
  unfold pageAt?
  rw [descend?_cons, Option.bind_assoc]

theorem pageAt?_empty (path : List Segment) : ({} : TrieNode).pageAt? path = none := by
  cases path <;> rfl

theorem descend?_empty_isSome (path : List Segment) :
    (({} : TrieNode).descend? path).isSome = true ↔ path = [] := by
  cases path <;> simp [descend?_cons, child?]

theorem child?_alter (change : Option String → Option String) {node : TrieNode}
    (ordered : node.branches.Ordered) (segment : Segment) (path : List Segment)
    (wanted : Segment) :
    (node.alter change (segment :: path)).child? wanted =
      if wanted = segment then some (((node.child? segment).getD {}).alter change path)
      else node.child? wanted :=
  Branches.find?_alter change ordered segment path wanted

theorem child?_getD_ordered {node : TrieNode} (ordered : node.branches.Ordered)
    (segment : Segment) : ((node.child? segment).getD {}).branches.Ordered := by
  cases found : node.child? segment with
  | none => exact trivial
  | some child => exact ordered.below found

theorem pageAt?_cons_getD (node : TrieNode) (segment : Segment) (path : List Segment) :
    node.pageAt? (segment :: path) = ((node.child? segment).getD {}).pageAt? path := by
  rw [pageAt?_cons]
  cases node.child? segment with
  | none => exact (pageAt?_empty path).symm
  | some child => rfl

theorem pageAt?_alter (change : Option String → Option String) {node : TrieNode}
    (ordered : node.branches.Ordered) (path wanted : List Segment) :
    (node.alter change path).pageAt? wanted =
      if wanted = path then change (node.pageAt? path) else node.pageAt? wanted := by
  induction path generalizing node wanted with
  | nil => cases wanted <;> rfl
  | cons segment path ih =>
    cases wanted with
    | nil => rfl
    | cons first rest =>
      rw [pageAt?_cons, child?_alter change ordered]
      by_cases same : first = segment
      · subst same
        simp only [if_true, Option.bind_some, ih (child?_getD_ordered ordered first),
          List.cons.injEq, true_and, pageAt?_cons_getD]
      · simp [same, pageAt?_cons]

/-- A change adds the nodes on the way to it and no others. -/
theorem descend?_alter_isSome (change : Option String → Option String) {node : TrieNode}
    (ordered : node.branches.Ordered) (path wanted : List Segment) :
    ((node.alter change path).descend? wanted).isSome = true ↔
      (node.descend? wanted).isSome = true ∨ wanted <+: path := by
  induction path generalizing node wanted with
  | nil => cases wanted <;> simp [alter, descend?_cons, child?]
  | cons segment path ih =>
    cases wanted with
    | nil => simp
    | cons first rest =>
      rw [descend?_cons, child?_alter change ordered, descend?_cons, List.cons_prefix_cons]
      by_cases same : first = segment
      · subst same
        simp only [if_true, Option.bind_some, ih (child?_getD_ordered ordered first), true_and]
        cases node.child? first with
        | some child => rfl
        | none =>
          simp only [Option.getD_none, descend?_empty_isSome, Option.bind_none,
            Option.isSome_none, Bool.false_eq_true, false_or, or_iff_right_iff_imp]
          rintro rfl
          exact List.nil_prefix
      · simp [same]

theorem descend?_isSome_of_prefix {node : TrieNode} {start path : List Segment}
    (begins : start <+: path) (present : (node.descend? path).isSome = true) :
    (node.descend? start).isSome = true := by
  obtain ⟨rest, rfl⟩ := begins
  rw [descend?_append] at present
  cases reached : node.descend? start with
  | none => simp [reached] at present
  | some last => rfl

theorem child?_isSome (node : TrieNode) (segment : Segment) :
    (node.child? segment).isSome = (node.descend? [segment]).isSome := by
  rw [descend?_cons]
  cases node.child? segment <;> rfl

end TrieNode

theorem Branches.sizeOf_find? {branches : Branches} {segment : Segment} {node : TrieNode}
    (found : branches.find? segment = some node) : sizeOf node.branches < sizeOf branches := by
  induction branches with
  | none => simp at found
  | branch present stored below others _ ih =>
    simp only [Branches.find?] at found
    split at found
    · cases found
      simp only [Branches.branch.sizeOf_spec]
      omega
    · have smaller := ih found
      simp only [Branches.branch.sizeOf_spec]
      omega

/-- Two ordered tries with the same nodes and the same pages along every path are equal. -/
theorem TrieNode.ext_paths {left right : TrieNode} (leftOrdered : left.branches.Ordered)
    (rightOrdered : right.branches.Ordered)
    (sameNodes : ∀ path, (left.descend? path).isSome = (right.descend? path).isSome)
    (samePages : ∀ path, left.pageAt? path = right.pageAt? path) : left = right := by
  have pages : left.page = right.page := samePages []
  have levels : left.branches = right.branches := by
    apply Branches.ext_find? leftOrdered rightOrdered
    intro segment
    have present : (left.child? segment).isSome = (right.child? segment).isSome := by
      rw [child?_isSome, child?_isSome, sameNodes]
    cases leftChild : left.child? segment with
    | none =>
      have absent : right.child? segment = none := by simpa [leftChild] using present.symm
      exact leftChild.trans absent.symm
    | some first =>
      cases rightChild : right.child? segment with
      | none => simp [leftChild, rightChild] at present
      | some second =>
        -- A child is no part of the branches it is found in; only its own branches are smaller.
        have smaller := Branches.sizeOf_find? leftChild
        have equal : first = second := by
          apply ext_paths (leftOrdered.below leftChild) (rightOrdered.below rightChild)
          · intro path
            simpa [descend?_cons, leftChild, rightChild] using sameNodes (segment :: path)
          · intro path
            simpa [pageAt?_cons, leftChild, rightChild] using samePages (segment :: path)
        subst equal
        exact leftChild.trans rightChild.symm
  cases left
  cases right
  exact congr (congrArg TrieNode.mk pages) levels
termination_by sizeOf left.branches

namespace TrieNode

variable {node : TrieNode} {path : List Segment}

theorem pageAt?_attach (ordered : node.branches.Ordered) (page : String)
    (path wanted : List Segment) :
    (node.attach page path).pageAt? wanted =
      if wanted = path then some page else node.pageAt? wanted :=
  pageAt?_alter _ ordered path wanted

theorem descend?_attach_isSome (ordered : node.branches.Ordered) (page : String)
    (path wanted : List Segment) :
    ((node.attach page path).descend? wanted).isSome = true ↔
      (node.descend? wanted).isSome = true ∨ wanted <+: path :=
  descend?_alter_isSome _ ordered path wanted

theorem pageAt?_grow (ordered : node.branches.Ordered) (path wanted : List Segment) :
    (node.grow path).pageAt? wanted = node.pageAt? wanted := by
  refine (pageAt?_alter id ordered path wanted).trans ?_
  split
  case isTrue same => rw [same, id]
  case isFalse => rfl

theorem descend?_grow_isSome (ordered : node.branches.Ordered) (path wanted : List Segment) :
    ((node.grow path).descend? wanted).isSome = true ↔
      (node.descend? wanted).isSome = true ∨ wanted <+: path :=
  descend?_alter_isSome id ordered path wanted

theorem grow_of_isSome (ordered : node.branches.Ordered)
    (present : (node.descend? path).isSome = true) : node.grow path = node := by
  apply ext_paths (grow_ordered ordered path) ordered
  · intro wanted
    rw [Bool.eq_iff_iff, descend?_grow_isSome ordered, or_iff_left_iff_imp]
    exact fun begins => descend?_isSome_of_prefix begins present
  · exact pageAt?_grow ordered path

theorem attach_grow (ordered : node.branches.Ordered) (page : String) (path : List Segment) :
    (node.grow path).attach page path = node.attach page path := by
  have grown := grow_ordered ordered path
  apply ext_paths (attach_ordered grown page path) (attach_ordered ordered page path)
  · intro wanted
    rw [Bool.eq_iff_iff, descend?_attach_isSome grown, descend?_grow_isSome ordered,
      descend?_attach_isSome ordered, or_assoc, or_self]
  · intro wanted
    rw [pageAt?_attach grown, pageAt?_grow ordered, pageAt?_attach ordered]

end TrieNode

/-- What a level becomes by a page at segments that had none: a new branch stands among the
others, a node that was there gets the page, or a level below or behind becomes another. -/
inductive Branches.Gains (page : String) : Branches → Branches → Prop where
  | chain (segment : Segment) (path : List Segment) (others : Branches) :
      Gains page others (.chain (some page) segment path others)
  | fill (segment : Segment) (below others : Branches) :
      Gains page (.branch segment Option.none below others)
        (.branch segment (some page) below others)
  | under (segment : Segment) (stored : Option String) (others : Branches)
      {level grown : Branches} (inner : Gains page level grown) :
      Gains page (.branch segment stored level others) (.branch segment stored grown others)
  | behind (segment : Segment) (stored : Option String) (below : Branches)
      {rest grown : Branches} (inner : Gains page rest grown) :
      Gains page (.branch segment stored below rest) (.branch segment stored below grown)

theorem Branches.gains_alter (page : String) {branches : Branches} {segment : Segment}
    {path : List Segment}
    (free : (⟨Option.none, branches⟩ : TrieNode).pageAt? (segment :: path) = Option.none) :
    Gains page branches (branches.alter (fun _ => some page) segment path) := by
  induction branches generalizing segment path with
  | none => exact .chain segment path .none
  | branch present stored below others belowIH othersIH =>
    rw [TrieNode.pageAt?_cons, TrieNode.child?] at free
    unfold alter
    split
    case isTrue same =>
      rw [find?, if_pos same, Option.bind_some] at free
      cases path with
      | nil =>
        -- The branch is there without a page, and gets one.
        have empty : stored = Option.none := free
        subst empty
        exact .fill present below others
      | cons next path => exact .under present stored others (belowIH free)
    case isFalse differ =>
      split
      case isTrue => exact .chain segment path _
      case isFalse =>
        rw [find?, if_neg differ] at free
        refine .behind present stored below (othersIH ?_)
        rw [TrieNode.pageAt?_cons]
        exact free

theorem TrieNode.gains_alter (page : String) {node : TrieNode} {segment : Segment}
    {path : List Segment} (free : node.pageAt? (segment :: path) = none) :
    node.branches.Gains page (node.branches.alter (fun _ => some page) segment path) :=
  Branches.gains_alter page free

end EdgeRoutes
