import EdgeRoutes.Proofs.Resolution.Shadowing
import Mathlib.Data.Nat.Find

/-! Adding a page.

Up to some length the template of a new page runs along the templates that are there already;
behind that it has a branch of its own. Only a request that matches the template as far as the
first segment of this branch can resolve to something else than before: either it finds the new
page, or the new literal shadows the wildcard that it took until then.
-/

set_option autoImplicit false

namespace EdgeRoutes

/-- The length of the longest start of the template that some page begins with. -/
def sharedLength (pages : List String) (template : List Segment) : Nat :=
  Nat.findGreatest (fun length => ∃ page ∈ pages, template.take length <+: Segment.ofPage page)
    template.length

section

variable {pages : List String} {template : List Segment}

theorem le_sharedLength {length : Nat} (inside : length ≤ template.length) {page : String}
    (listed : page ∈ pages) (begins : template.take length <+: Segment.ofPage page) :
    length ≤ sharedLength pages template :=
  Nat.le_findGreatest inside ⟨page, listed, begins⟩

theorem exists_of_lt_sharedLength {position : Nat}
    (within : position < sharedLength pages template) :
    ∃ page ∈ pages, template.take (position + 1) <+: Segment.ofPage page := by
  obtain ⟨page, listed, begins⟩ :=
    Nat.findGreatest_of_ne_zero (m := sharedLength pages template) rfl (by omega)
  refine ⟨page, listed, List.IsPrefix.trans ?_ begins⟩
  exact List.take_prefix_take_left within

end

/-- The request matches the template up to and with the first segment that it does not share
with the pages; where it shares all of them, the request matches it from end to end. -/
def MeetsNewPart (pages : List String) (template : List Segment) (requested : List String) :
    Prop :=
  List.Forall₂ Segment.Matches (template.take (sharedLength pages template + 1))
    (requested.take (sharedLength pages template + 1))

section

variable {pages others requested : List String} {page : String}

theorem ShadowedAt.of_added (added : ∀ other, other ∈ others ↔ other = page ∨ other ∈ pages)
    (apart : ¬ MeetsNewPart pages (Segment.ofPage page) requested) {other : String}
    (listed : other ∈ pages)
    (fits : List.Forall₂ Segment.Matches (Segment.ofPage other) requested) {position : Nat}
    {text : String} (asked : requested[position]? = some text)
    (shadowed : ShadowedAt others (Segment.ofPage other) position text) :
    ShadowedAt pages (Segment.ofPage other) position text := by
  obtain ⟨wildcard, shadowing, shadowingIn, start, literal⟩ := shadowed
  rcases (added shadowing).mp shadowingIn with rfl | old
  · obtain ⟨inside, _⟩ := List.getElem?_eq_some_iff.mp literal
    have begins : (Segment.ofPage shadowing).take position <+: Segment.ofPage other := by
      rw [start]
      exact List.take_prefix position _
    have next : (Segment.ofPage shadowing).take (position + 1) =
        (Segment.ofPage shadowing).take position ++ [.literal text] := by
      rw [List.take_add_one, literal]
      rfl
    rcases (le_sharedLength inside.le listed begins).eq_or_lt with last | within
    · -- The literal is the first segment of the new part, and the request has come to it.
      refine absurd ?_ apart
      have taken : requested.take (position + 1) = requested.take position ++ [text] := by
        rw [List.take_add_one, asked]
        rfl
      unfold MeetsNewPart
      rw [← last, next, start, taken]
      exact List.rel_append (List.forall₂_take position fits) (.cons rfl .nil)
    · -- The literal is shared, so an old page has it at the same place.
      obtain ⟨sharing, sharingIn, longer⟩ := exists_of_lt_sharedLength within
      rw [next, take_concat_prefix_iff inside] at longer
      exact ⟨wildcard, sharing, sharingIn, longer.1.trans start, longer.2⟩
  · exact ⟨wildcard, shadowing, old, start, literal⟩

theorem chosen_added_iff (added : ∀ other, other ∈ others ↔ other = page ∨ other ∈ pages)
    (apart : ¬ MeetsNewPart pages (Segment.ofPage page) requested) (other : String) :
    Chosen others requested other ↔ Chosen pages requested other := by
  constructor
  · intro chosen
    rcases (added other).mp chosen.listed with rfl | old
    · -- A request that matches all of the new template meets its new part.
      exact absurd (List.forall₂_take _ chosen.fits) apart
    · refine ⟨old, chosen.fits, ?_⟩
      rintro position text asked ⟨wildcard, shadowing, shadowingIn, found⟩
      exact chosen.clear position text asked
        ⟨wildcard, shadowing, (added shadowing).mpr (Or.inr shadowingIn), found⟩
  · intro chosen
    refine ⟨(added other).mpr (Or.inr chosen.listed), chosen.fits, ?_⟩
    intro position text asked shadowed
    exact chosen.clear position text asked
      (shadowed.of_added added apart chosen.listed chosen.fits asked)

theorem not_matches_take_of_short {template : List Segment} {length : Nat}
    (inside : length ≤ template.length) (short : requested.length < length) :
    ¬ List.Forall₂ Segment.Matches (template.take length) (requested.take length) := by
  intro fits
  have lengths := fits.length_eq
  rw [List.length_take_of_le inside, List.take_of_length_le short.le] at lengths
  omega

theorem matches_of_meetsNewPart {template : List Segment}
    (whole : sharedLength pages template = template.length)
    (meets : MeetsNewPart pages template requested) :
    List.Forall₂ Segment.Matches template requested := by
  unfold MeetsNewPart at meets
  rw [whole, List.take_of_length_le (Nat.le_succ _)] at meets
  have lengths := meets.length_eq
  rw [List.length_take] at lengths
  rwa [List.take_of_length_le (by omega)] at meets

end

/-- With a page added to the list, every path resolves as before unless its segments match the
template up to and with the first segment of the new part, or all of it if no part is new. -/
theorem resolve_added (pages others : List String) (before after : RouteTrie)
    (built : RouteTrie.ofPages pages = .ok before) (rebuilt : RouteTrie.ofPages others = .ok after)
    (page : String) (added : ∀ other, other ∈ others ↔ other = page ∨ other ∈ pages)
    (staticRoutes : List String) (matcher : MatcherConfig) (path : String) :
    (sharedLength pages (Segment.ofPage page) < (Segment.ofPage page).length →
      (Path.segments path).length < sharedLength pages (Segment.ofPage page) + 1 ∨
        ¬ List.Forall₂ Segment.Matches
          ((Segment.ofPage page).take (sharedLength pages (Segment.ofPage page) + 1))
          ((Path.segments path).take (sharedLength pages (Segment.ofPage page) + 1)) →
      (after.freeze staticRoutes).resolve matcher path =
        (before.freeze staticRoutes).resolve matcher path) ∧
    (sharedLength pages (Segment.ofPage page) = (Segment.ofPage page).length →
      ¬ List.Forall₂ Segment.Matches (Segment.ofPage page) (Path.segments path) →
      (after.freeze staticRoutes).resolve matcher path =
        (before.freeze staticRoutes).resolve matcher path) := by
  have holds := RouteTrie.ofPages_eq_ok_iff.mp built
  have holdsAfter := RouteTrie.ofPages_eq_ok_iff.mp rebuilt
  have kept (apart : ¬ MeetsNewPart pages (Segment.ofPage page) (Path.segments path)) :
      (after.freeze staticRoutes).resolve matcher path =
        (before.freeze staticRoutes).resolve matcher path := by
    refine RouteTable.resolve_congr rfl (RouteTable.lookUp_congr ?_)
    rw [Path.segments_dropTrailingSlash]
    apply Option.ext
    intro found
    -- Both walks are told by the lists of pages alone, and there the new page is never chosen.
    rw [holdsAfter.page_walk?_iff, holds.page_walk?_iff]
    exact chosen_added_iff added apart found
  constructor
  · rintro new (short | differs)
    · exact kept (not_matches_take_of_short new short)
    · exact kept differs
  · intro whole apart
    exact kept fun meets => apart (matches_of_meetsNewPart whole meets)

/-- A new literal beside a wildcard, and a page at a node that was there: neither is of concern
to a path that goes elsewhere. -/
theorem resolve_added_elsewhere :
    ∃ before beside ended : RouteTrie, RouteTrie.ofPages ["/a/[x]/d"] = .ok before ∧
      RouteTrie.ofPages ["/a/b/c", "/a/[x]/d"] = .ok beside ∧
      RouteTrie.ofPages ["/a/[x]/d", "/a/[x]"] = .ok ended ∧
      sharedLength ["/a/[x]/d"] (Segment.ofPage "/a/b/c") = 1 ∧
      sharedLength ["/a/[x]/d"] (Segment.ofPage "/a/[x]") = 2 ∧
      (beside.freeze []).resolve {} "/a/z/d" = (before.freeze []).resolve {} "/a/z/d" ∧
      (ended.freeze []).resolve {} "/a/z/d" = (before.freeze []).resolve {} "/a/z/d" := by
  obtain ⟨before, built⟩ : ∃ trie, RouteTrie.ofPages ["/a/[x]/d"] = .ok trie := ⟨_, rfl⟩
  obtain ⟨beside, branched⟩ : ∃ trie, RouteTrie.ofPages ["/a/b/c", "/a/[x]/d"] = .ok trie :=
    ⟨_, rfl⟩
  obtain ⟨ended, closed⟩ : ∃ trie, RouteTrie.ofPages ["/a/[x]/d", "/a/[x]"] = .ok trie :=
    ⟨_, rfl⟩
  refine ⟨before, beside, ended, built, branched, closed, by decide, by decide, ?_, ?_⟩
  · refine (resolve_added _ _ before beside built branched "/a/b/c" ?_ [] {} "/a/z/d").1
      (by decide) (by decide)
    simp
  · refine (resolve_added _ _ before ended built closed "/a/[x]" ?_ [] {} "/a/z/d").2
      (by decide) (by decide)
    simp [or_comm]

end EdgeRoutes
