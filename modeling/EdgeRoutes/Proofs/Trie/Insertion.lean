import EdgeRoutes.Proofs.Trie.Paths

/-! One insertion.

The nodes on the path of a page are added before it is known whether the page is refused. A
refused page leaves no nodes behind all the same: only a node with a page refuses another, and
such a node was there before, with all nodes on the way to it.
-/

set_option autoImplicit false

namespace EdgeRoutes.RouteTrie

variable {trie : RouteTrie} {page existing : String}

theorem grow_of_isSome {path : List Segment} (present : (trie.root.descend? path).isSome = true) :
    trie.grow path = trie :=
  RouteTrie.ext (TrieNode.grow_of_isSome trie.ordered present) rfl

theorem offer_taken (found : trie.root.pageAt? (Segment.ofPage page) = some existing) :
    trie.offer page = ⟨trie, if existing = page then .ok () else .error ⟨existing, page⟩⟩ := by
  obtain ⟨last, reached, _⟩ := Option.bind_eq_some_iff.mp found
  -- A node with a page is there, so nothing was missing on the way to it.
  have present : (trie.root.descend? (Segment.ofPage page)).isSome = true := by simp [reached]
  simp only [offer, grow_of_isSome present, found]

theorem exists_offer_free (free : trie.root.pageAt? (Segment.ofPage page) = none) :
    ∃ next, trie.offer page = ⟨next, .ok ()⟩ ∧ next.size = trie.size + 1 ∧
      next.root = trie.root.attach page (Segment.ofPage page) := by
  have grown : (trie.grow (Segment.ofPage page)).root.pageAt? (Segment.ofPage page) = none :=
    (TrieNode.pageAt?_grow trie.ordered _ _).trans free
  simp only [offer, grown]
  exact ⟨_, rfl, rfl, TrieNode.attach_grow trie.ordered page (Segment.ofPage page)⟩

theorem insert_taken (found : trie.root.pageAt? (Segment.ofPage page) = some existing) :
    trie.insert page = if existing = page then .ok trie else .error ⟨existing, page⟩ := by
  simp only [insert, offer_taken found]
  split <;> rfl

theorem exists_insert_free (free : trie.root.pageAt? (Segment.ofPage page) = none) :
    ∃ next, trie.insert page = .ok next ∧ next.size = trie.size + 1 ∧
      next.root = trie.root.attach page (Segment.ofPage page) := by
  obtain ⟨next, step, attached⟩ := exists_offer_free free
  refine ⟨next, ?_, attached⟩
  simp only [insert, step]
  rfl

theorem offer_eq_error_iff (conflict : Conflict) :
    (trie.offer page).outcome = .error conflict ↔
      trie.root.pageAt? (Segment.ofPage page) = some conflict.existing ∧
        conflict.existing ≠ page ∧ conflict.page = page := by
  cases found : trie.root.pageAt? (Segment.ofPage page) with
  | none =>
    obtain ⟨next, step, _⟩ := exists_offer_free found
    simp [step]
  | some existing =>
    simp only [offer_taken found]
    split
    case isTrue same =>
      subst same
      simp only [reduceCtorEq, Option.some.injEq, false_iff, not_and]
      exact fun named differ => absurd named.symm differ
    case isFalse differ =>
      simp only [Except.error.injEq, Option.some.injEq]
      constructor
      · rintro rfl
        exact ⟨rfl, differ, rfl⟩
      · rintro ⟨named, _, offered⟩
        cases conflict
        exact congr (congrArg Conflict.mk named) offered.symm

/-- What becomes of a trie that takes a page: the page is at its segments, every other path has
the page that it had, and only nodes on the way to the page are new. -/
structure Takes (trie : RouteTrie) (page : String) (next : RouteTrie) : Prop where
  stored : next.root.pageAt? (Segment.ofPage page) = some page
  elsewhere : ∀ path, path ≠ Segment.ofPage page →
    next.root.pageAt? path = trie.root.pageAt? path
  remains : ∀ path, (trie.root.descend? path).isSome = true →
    (next.root.descend? path).isSome = true
  added : ∀ path, (next.root.descend? path).isSome = true →
    (trie.root.descend? path).isSome = true ∨ path <+: Segment.ofPage page
  counted : next.size =
    trie.size + if trie.root.pageAt? (Segment.ofPage page) = none then 1 else 0
  repeated : next.offer page = ⟨next, .ok ()⟩

theorem offer_present (found : trie.root.pageAt? (Segment.ofPage page) = some page) :
    trie.offer page = ⟨trie, .ok ()⟩ := by
  rw [offer_taken found, if_pos rfl]

theorem takes_present (found : trie.root.pageAt? (Segment.ofPage page) = some page) :
    trie.Takes page trie where
  stored := found
  elsewhere _ _ := rfl
  remains _ present := present
  added _ present := Or.inl present
  counted := by rw [if_neg (by simp [found]), Nat.add_zero]
  repeated := offer_present found

theorem takes_attached {next : RouteTrie}
    (free : trie.root.pageAt? (Segment.ofPage page) = none) (size : next.size = trie.size + 1)
    (root : next.root = trie.root.attach page (Segment.ofPage page)) : trie.Takes page next := by
  have stored : next.root.pageAt? (Segment.ofPage page) = some page := by
    rw [root, TrieNode.pageAt?_attach trie.ordered, if_pos rfl]
  exact {
    stored := stored
    elsewhere := fun path other => by
      rw [root, TrieNode.pageAt?_attach trie.ordered, if_neg other]
    remains := fun path present => by
      rw [root, TrieNode.descend?_attach_isSome trie.ordered]
      exact Or.inl present
    added := fun path present => by
      rwa [root, TrieNode.descend?_attach_isSome trie.ordered] at present
    counted := by rw [size, if_pos free]
    repeated := offer_present stored }

/-- A page is refused exactly where another page has its segments, and then nothing at all has
changed; a page that is not refused has been taken. -/
theorem offer_atomic (trie : RouteTrie) (page : String) :
    (∀ conflict, (trie.offer page).outcome = .error conflict ↔
      trie.root.pageAt? (Segment.ofPage page) = some conflict.existing ∧
        conflict.existing ≠ page ∧ conflict.page = page) ∧
    (∀ conflict, (trie.offer page).outcome = .error conflict → (trie.offer page).trie = trie) ∧
    ((trie.offer page).outcome = .ok () → trie.Takes page (trie.offer page).trie) := by
  refine ⟨offer_eq_error_iff, ?_, ?_⟩
  · intro conflict refused
    rw [offer_taken ((offer_eq_error_iff conflict).mp refused).1]
  · intro accepted
    cases found : trie.root.pageAt? (Segment.ofPage page) with
    | none =>
      obtain ⟨next, step, size, root⟩ := exists_offer_free found
      rw [step]
      exact takes_attached found size root
    | some existing =>
      by_cases same : existing = page
      · subst same
        rw [offer_present found]
        exact takes_present found
      · have refused := (offer_eq_error_iff ⟨existing, page⟩).mpr ⟨found, same, rfl⟩
        cases accepted.symm.trans refused

/-- Neither the empty part nor the other name makes a new route of the refused page. -/
theorem offer_atomic_slug :
    let trie := (empty.offer "/items/[id]").trie
    (trie.offer "/items//[slug]").outcome = .error ⟨"/items/[id]", "/items//[slug]"⟩ ∧
      (trie.offer "/items//[slug]").trie = trie ∧
      (trie.offer "/items/new").outcome = .ok () ∧
      trie.Takes "/items/new" (trie.offer "/items/new").trie := by
  intro trie
  have refused : (trie.offer "/items//[slug]").outcome =
      .error ⟨"/items/[id]", "/items//[slug]"⟩ := rfl
  have accepted : (trie.offer "/items/new").outcome = .ok () := rfl
  exact ⟨refused, (offer_atomic trie _).2.1 _ refused, accepted,
    (offer_atomic trie _).2.2 accepted⟩

end EdgeRoutes.RouteTrie
