import EdgeRoutes.Proofs.Path
import EdgeRoutes.Proofs.Resolution.Narrowing
import Mathlib.Data.Set.Finite.Basic

/-! Which page a request is led to.

A request leads along template segments: at each step it takes the literal of its own text
where the trie has it, and the wildcard only where it has not. So a page is reached exactly
if its template matches the request and no other page has, where this template has a
wildcard, the requested text as a literal behind the same start. Such a literal shadows the
wildcard: the walk goes into its branch, whose paths never come back to those of the template.
A text that is no literal of any page is shadowed nowhere, so every template can be reached.
-/

set_option autoImplicit false

namespace EdgeRoutes

/-- The request segments lead from the first node along template segments to the second. -/
inductive TrieNode.Leads : TrieNode → List Segment → List String → TrieNode → Prop where
  | done (node : TrieNode) : Leads node [] [] node
  | literal {node next last : TrieNode} {taken : List Segment} {text : String}
      {requested : List String} (found : node.child? (.literal text) = some next)
      (onward : Leads next taken requested last) :
      Leads node (.literal text :: taken) (text :: requested) last
  | wildcard {node next last : TrieNode} {taken : List Segment} {text : String}
      {requested : List String} (absent : node.child? (.literal text) = none)
      (found : node.child? .wildcard = some next) (onward : Leads next taken requested last) :
      Leads node (.wildcard :: taken) (text :: requested) last

namespace TrieNode

theorem follow?_eq_some_iff (node last : TrieNode) (requested : List String) :
    node.follow? requested = some last ↔ ∃ taken, node.Leads taken requested last := by
  constructor
  · intro followed
    induction requested generalizing node with
    | nil =>
      cases followed
      exact ⟨[], .done last⟩
    | cons text rest ih =>
      rw [follow?, Option.bind_eq_some_iff] at followed
      obtain ⟨next, chosen, followed⟩ := followed
      obtain ⟨taken, onward⟩ := ih next followed
      simp only [Option.orElse_eq_orElse, Option.orElse_eq_or, Option.or_eq_some_iff] at chosen
      rcases chosen with found | ⟨absent, found⟩
      · exact ⟨.literal text :: taken, .literal found onward⟩
      · exact ⟨.wildcard :: taken, .wildcard absent found onward⟩
  · rintro ⟨taken, leads⟩
    induction leads with
    | done node => rfl
    | literal found _ ih => simp [follow?, found, ih]
    | wildcard absent found _ ih => simp [follow?, absent, found, ih]

/-- Where a wildcard is taken, the trie has no literal of the requested text. -/
def ClearFor (node : TrieNode) (taken : List Segment) (requested : List String) : Prop :=
  ∀ position text, taken[position]? = some .wildcard → requested[position]? = some text →
    node.descend? (taken.take position ++ [.literal text]) = none

theorem clearFor_nil (node : TrieNode) : node.ClearFor [] [] := by
  simp [ClearFor]

theorem clearFor_cons {node next : TrieNode} {segment : Segment} {taken : List Segment}
    {text : String} {requested : List String} (found : node.child? segment = some next) :
    node.ClearFor (segment :: taken) (text :: requested) ↔
      (segment = .wildcard → node.child? (.literal text) = none) ∧
        next.ClearFor taken requested := by
  -- A position behind the first is one behind the child.
  have onward (position : Nat) (wanted : String) :
      node.descend? ((segment :: taken).take (position + 1) ++ [.literal wanted]) =
        next.descend? (taken.take position ++ [.literal wanted]) := by
    rw [List.take_succ_cons, List.cons_append, descend?_cons, found, Option.bind_some]
  have here : node.descend? ((segment :: taken).take 0 ++ [.literal text]) =
      node.child? (.literal text) := node.descend?_concat [] (.literal text)
  constructor
  · intro clear
    refine ⟨?_, ?_⟩
    · rintro rfl
      exact here.symm.trans (clear 0 text rfl rfl)
    · intro position wanted wildcard asked
      exact (onward position wanted).symm.trans (clear (position + 1) wanted wildcard asked)
  · rintro ⟨first, later⟩ position wanted wildcard asked
    cases position with
    | zero =>
      cases asked
      exact here.trans (first (Option.some.inj wildcard))
    | succ position => exact (onward position wanted).trans (later position wanted wildcard asked)

/-- A request leads along the segments that it matches and that the trie has, if it passes no
literal by. -/
theorem leads_iff (node last : TrieNode) (taken : List Segment) (requested : List String) :
    node.Leads taken requested last ↔
      List.Forall₂ Segment.Matches taken requested ∧ node.descend? taken = some last ∧
        node.ClearFor taken requested := by
  constructor
  · intro leads
    induction leads with
    | done node => exact ⟨.nil, rfl, node.clearFor_nil⟩
    | literal found _ ih =>
      obtain ⟨fits, reached, clear⟩ := ih
      refine ⟨.cons rfl fits, by rw [descend?_cons, found, Option.bind_some, reached], ?_⟩
      rw [clearFor_cons found]
      exact ⟨by simp, clear⟩
    | wildcard absent found _ ih =>
      obtain ⟨fits, reached, clear⟩ := ih
      refine ⟨.cons trivial fits, by rw [descend?_cons, found, Option.bind_some, reached], ?_⟩
      rw [clearFor_cons found]
      exact ⟨fun _ => absent, clear⟩
  · rintro ⟨fits, reached, clear⟩
    -- A matching literal is the child of the requested text, and before a wildcard there is none.
    induction fits generalizing node with
    | nil =>
      cases reached
      exact .done last
    | @cons segment text taken requested matched fits ih =>
      rw [descend?_cons, Option.bind_eq_some_iff] at reached
      obtain ⟨next, found, reached⟩ := reached
      obtain ⟨free, later⟩ := (clearFor_cons found).mp clear
      cases segment with
      | literal present =>
        cases matched
        exact .literal found (ih next reached later)
      | wildcard => exact .wildcard (free rfl) found (ih next reached later)

end TrieNode

/-- Where the template has a wildcard, a page has the text as a literal behind the same
segments. -/
def ShadowedAt (pages : List String) (template : List Segment) (position : Nat) (text : String) :
    Prop :=
  template[position]? = some .wildcard ∧
    ∃ other ∈ pages, (Segment.ofPage other).take position = template.take position ∧
      (Segment.ofPage other)[position]? = some (.literal text)

/-- The page whose template a request is led along. -/
structure Chosen (pages requested : List String) (page : String) : Prop where
  listed : page ∈ pages
  fits : List.Forall₂ Segment.Matches (Segment.ofPage page) requested
  clear : ∀ position text, requested[position]? = some text →
    ¬ ShadowedAt pages (Segment.ofPage page) position text

theorem take_concat_prefix_iff {template other : List Segment} {position : Nat}
    (inside : position < template.length) (segment : Segment) :
    template.take position ++ [segment] <+: other ↔
      other.take position = template.take position ∧ other[position]? = some segment := by
  have length : (template.take position).length = position :=
    List.length_take_of_le inside.le
  rw [Narrowing.prefix_concat_iff, List.prefix_iff_eq_take, length, eq_comm]

theorem shadowedAt_iff {pages : List String} {template : List Segment} {position : Nat}
    (text : String) (wildcard : template[position]? = some .wildcard) :
    ShadowedAt pages template position text ↔
      ∃ other ∈ pages, template.take position ++ [.literal text] <+: Segment.ofPage other := by
  obtain ⟨inside, _⟩ := List.getElem?_eq_some_iff.mp wildcard
  simp only [ShadowedAt, wildcard, true_and, take_concat_prefix_iff inside]

namespace RouteTrie.Holds

variable {trie : RouteTrie} {pages : List String}

theorem page_follow?_iff (holds : trie.Holds pages) (requested : List String) (page : String) :
    (trie.root.follow? requested).bind (·.page) = some page ↔ Chosen pages requested page := by
  -- Every node lies on the way to a page, so a literal shadows exactly if the trie has its node.
  have blocked (template : List Segment) (position : Nat) (text : String)
      (wildcard : template[position]? = some .wildcard) :
      ShadowedAt pages template position text ↔
        ¬ trie.root.descend? (template.take position ++ [.literal text]) = none := by
    have nonempty : template.take position ++ [.literal text] ≠ [] := by simp
    rw [shadowedAt_iff text wildcard, ← ne_eq, Option.ne_none_iff_isSome, holds.descend?_iff]
    simp only [nonempty, false_or]
  have stored (template : List Segment) (last : TrieNode)
      (reached : trie.root.descend? template = some last) :
      last.page = some page ↔ page ∈ pages ∧ Segment.ofPage page = template := by
    rw [← holds.pageAt?_iff, TrieNode.pageAt?, reached, Option.bind_some]
  simp only [Option.bind_eq_some_iff, TrieNode.follow?_eq_some_iff, TrieNode.leads_iff]
  constructor
  · rintro ⟨last, ⟨taken, fits, reached, clear⟩, own⟩
    obtain ⟨listed, rfl⟩ := (stored taken last reached).mp own
    refine ⟨listed, fits, ?_⟩
    intro position text asked shadowed
    exact (blocked _ position text shadowed.1).mp shadowed (clear position text shadowed.1 asked)
  · intro chosen
    have own := (holds.pageAt?_iff (Segment.ofPage page) page).mpr ⟨chosen.listed, rfl⟩
    obtain ⟨last, reached, own⟩ := Option.bind_eq_some_iff.mp own
    refine ⟨last, ⟨Segment.ofPage page, chosen.fits, reached, ?_⟩, own⟩
    intro position text wildcard asked
    have clear := chosen.clear position text asked
    rwa [blocked _ position text wildcard, not_not] at clear

theorem page_walk?_iff (holds : trie.Holds pages) (staticRoutes requested : List String)
    (page : String) :
    ((trie.freeze staticRoutes).root.walk? requested).bind (·.page) = some page ↔
      Chosen pages requested page := by
  rw [← holds.page_follow?_iff, ← trie.root.page_walk?_freeze]
  rfl

theorem lookUp_eq_dynamic_iff (holds : trie.Holds pages) (staticRoutes : List String)
    (matcher : MatcherConfig) (path page target : String) :
    (trie.freeze staticRoutes).lookUp matcher path = .dynamic page target ↔
      Path.segments path ≠ [] ∧ Chosen pages (Path.segments path) page ∧
        target = page ++ matcher.pageSuffix := by
  unfold RouteTable.lookUp
  cases Path.segments path with
  | nil => simp
  | cons text rest =>
    rw [← holds.page_walk?_iff staticRoutes]
    cases found : ((trie.freeze staticRoutes).root.walk? (text :: rest)).bind (·.page) with
    | none => simp [found]
    | some last =>
      simp only [found, Resolution.dynamic.injEq, ne_eq, reduceCtorEq, not_false_eq_true,
        true_and, Option.some.injEq]
      apply and_congr_right
      rintro rfl
      exact eq_comm

end RouteTrie.Holds

def Segment.fill (value : String) : Segment → String
  | .literal text => text
  | .wildcard => value

def filled (template : List Segment) (values : Nat → String) : List String :=
  template.mapIdx fun position segment => segment.fill (values position)

theorem getElem?_filled (template : List Segment) (values : Nat → String) (position : Nat) :
    (filled template values)[position]? = template[position]?.map (·.fill (values position)) :=
  List.getElem?_mapIdx

theorem matches_filled (template : List Segment) (values : Nat → String) :
    List.Forall₂ Segment.Matches template (filled template values) := by
  induction template generalizing values with
  | nil => exact .nil
  | cons segment rest ih =>
    unfold filled
    rw [List.mapIdx_cons]
    refine .cons ?_ (ih fun position => values (position + 1))
    cases segment with
    | literal text => rfl
    | wildcard => trivial

theorem isSegment_of_mem_filled {page : String} {values : Nat → String}
    (allowed : ∀ position, Path.IsSegment (values position)) {text : String}
    (member : text ∈ filled (Segment.ofPage page) values) : Path.IsSegment text := by
  obtain ⟨position, asked⟩ := List.mem_iff_getElem?.mp member
  rw [getElem?_filled, Option.map_eq_some_iff] at asked
  obtain ⟨segment, present, rfl⟩ := asked
  cases segment with
  | literal text =>
    exact Path.isSegment_of_mem (Segment.mem_segments_of_literal (List.mem_of_getElem? present))
  | wildcard => exact allowed position

theorem chosen_filled_iff {pages : List String} {page : String} (listed : page ∈ pages)
    (values : Nat → String) :
    Chosen pages (filled (Segment.ofPage page) values) page ↔
      ¬ ∃ position, ShadowedAt pages (Segment.ofPage page) position (values position) := by
  -- Only a wildcard can be shadowed, and there the request has the value.
  have asked (position : Nat)
      (wildcard : (Segment.ofPage page)[position]? = some .wildcard) :
      (filled (Segment.ofPage page) values)[position]? = some (values position) := by
    rw [getElem?_filled, wildcard]
    rfl
  constructor
  · rintro chosen ⟨position, shadowed⟩
    exact chosen.clear position (values position) (asked position shadowed.1) shadowed
  · intro clear
    refine ⟨listed, matches_filled _ values, ?_⟩
    intro position text found shadowed
    rw [asked position shadowed.1, Option.some.injEq] at found
    subst found
    exact clear ⟨position, shadowed⟩

theorem exists_unshadowed (pages : List String) : ∃ value, Path.IsSegment value ∧
    ∀ template position, ¬ ShadowedAt pages template position value := by
  -- The pages have finitely many literals, and there are texts of every length.
  let literalOf (length : Nat) : Segment :=
    .literal (String.ofList (List.replicate (length + 1) 'x'))
  have different : Function.Injective literalOf := by
    intro first second same
    have texts := String.ofList_inj.mp (Segment.literal.inj same)
    have lengths := congrArg List.length texts
    simpa using lengths
  obtain ⟨segment, ⟨length, rfl⟩, absent⟩ :=
    (Set.infinite_range_of_injective different).exists_notMem_finset
      (pages.flatMap Segment.ofPage).toFinset
  refine ⟨String.ofList (List.replicate (length + 1) 'x'), ⟨by simp, by simp⟩, ?_⟩
  rintro template position ⟨_, other, otherIn, _, literal⟩
  apply absent
  rw [List.mem_toFinset, List.mem_flatMap]
  exact ⟨other, otherIn, List.mem_of_getElem? literal⟩

/-- A request for a page with values put in for its wildcards resolves to the page exactly if
no other page shadows a value; and for every page there are values that none shadows, with
which it is found. -/
theorem resolve_filled_iff (pages : List String) (trie : RouteTrie)
    (built : RouteTrie.ofPages pages = .ok trie) (page : String) (listed : page ∈ pages)
    (nonempty : Segment.ofPage page ≠ []) (staticRoutes : List String) (matcher : MatcherConfig) :
    (∀ (values : Nat → String) (path : String),
      Path.segments path = filled (Segment.ofPage page) values →
      Undecided matcher staticRoutes path →
      ((trie.freeze staticRoutes).resolve matcher path =
          .dynamic page (page ++ matcher.pageSuffix) ↔
        ¬ ∃ position, ShadowedAt pages (Segment.ofPage page) position (values position))) ∧
    ∃ (values : Nat → String) (path : String), (∀ position, Path.IsSegment (values position)) ∧
      (¬ ∃ position, ShadowedAt pages (Segment.ofPage page) position (values position)) ∧
      Path.segments path = filled (Segment.ofPage page) values ∧
      (trie.freeze staticRoutes).lookUp matcher path =
        .dynamic page (page ++ matcher.pageSuffix) := by
  have holds := RouteTrie.ofPages_eq_ok_iff.mp built
  have found (values : Nat → String) (path : String)
      (requested : Path.segments path = filled (Segment.ofPage page) values) :
      (trie.freeze staticRoutes).lookUp matcher path =
          .dynamic page (page ++ matcher.pageSuffix) ↔
        ¬ ∃ position, ShadowedAt pages (Segment.ofPage page) position (values position) := by
    have some : filled (Segment.ofPage page) values ≠ [] := by
      simpa [filled, List.mapIdx_eq_nil_iff] using nonempty
    rw [holds.lookUp_eq_dynamic_iff, requested, chosen_filled_iff listed]
    simp only [ne_eq, some, not_false_eq_true, true_and, and_true]
  refine ⟨?_, ?_⟩
  · intro values path requested undecided
    rw [RouteTable.resolve_of_undecided undecided]
    apply found
    rw [Path.segments_dropTrailingSlash, requested]
  · -- One value that is shadowed nowhere serves for all wildcards.
    obtain ⟨value, allowed, clear⟩ := exists_unshadowed pages
    let values : Nat → String := fun _ => value
    have unshadowed :
        ¬ ∃ position, ShadowedAt pages (Segment.ofPage page) position (values position) :=
      fun ⟨position, shadowed⟩ => clear _ position shadowed
    have requested : Path.segments (Path.ofSegments (filled (Segment.ofPage page) values)) =
        filled (Segment.ofPage page) values :=
      Path.segments_ofSegments fun _ => isSegment_of_mem_filled fun _ => allowed
    exact ⟨values, _, fun _ => allowed, unshadowed, requested,
      (found values _ requested).mpr unshadowed⟩

/-- The literal of the one page shadows this text for the wildcard of the other, which is not
found although its template matches. -/
theorem resolve_filled_shadowed :
    ∃ trie, RouteTrie.ofPages ["/a/b/c", "/a/[x]/d"] = .ok trie ∧
      "/a/[x]/d" ∈ ["/a/b/c", "/a/[x]/d"] ∧ Segment.ofPage "/a/[x]/d" ≠ [] ∧
      Path.segments "/a/b/d/" = filled (Segment.ofPage "/a/[x]/d") (fun _ => "b") ∧
      Undecided {} ["/about"] "/a/b/d/" ∧
      (trie.freeze ["/about"]).resolve {} "/a/b/d/" ≠ .dynamic "/a/[x]/d" "/a/[x]/d.html" := by
  obtain ⟨trie, built⟩ : ∃ trie, RouteTrie.ofPages ["/a/b/c", "/a/[x]/d"] = .ok trie := ⟨_, rfl⟩
  have listed : "/a/[x]/d" ∈ ["/a/b/c", "/a/[x]/d"] := by decide
  have nonempty : Segment.ofPage "/a/[x]/d" ≠ [] := by decide
  have requested :
      Path.segments "/a/b/d/" = filled (Segment.ofPage "/a/[x]/d") (fun _ => "b") := by decide
  have undecided : Undecided {} ["/about"] "/a/b/d/" := {
    outside := by decide
    plain := by decide
    unresolved := by decide
    nonempty := by decide
    dynamic := by decide }
  have shadowed : ShadowedAt ["/a/b/c", "/a/[x]/d"] (Segment.ofPage "/a/[x]/d") 1 "b" :=
    ⟨by decide, "/a/b/c", by decide, by decide, by decide⟩
  refine ⟨trie, built, listed, nonempty, requested, undecided, ?_⟩
  intro resolved
  exact ((resolve_filled_iff _ trie built _ listed nonempty ["/about"] {}).1 _ _ requested
    undecided).mp resolved ⟨1, shadowed⟩

end EdgeRoutes
