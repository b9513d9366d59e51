import EdgeRoutes.Proofs.Resolution.Steps
import EdgeRoutes.Proofs.Table.Freezing
import EdgeRoutes.Proofs.Trie.Pages

/-! Looking a path up without a trie.

A reference that works on the list of pages alone: the request segments are taken one by
one, and each keeps those candidates that have its literal at its position, or, if there are
none, those that have a wildcard there. What the trie answers is what remains in the end.
The trie's node after some segments and the candidates after them belong together: both are
given by one list of template segments, which the candidates begin with and the node is at.
-/

set_option autoImplicit false

namespace EdgeRoutes

def Segment.Matches : Segment → String → Prop
  | .literal text, requested => text = requested
  | .wildcard, _ => True

instance (segment : Segment) (requested : String) : Decidable (segment.Matches requested) :=
  match segment with
  | .literal text => inferInstanceAs (Decidable (text = requested))
  | .wildcard => .isTrue trivial

namespace Narrowing

def keep (position : Nat) (segment : Segment) (candidates : List String) : List String :=
  candidates.filter fun page => (Segment.ofPage page)[position]? == some segment

/-- The candidates left by the request segments from the given position on: the ones with
the literal if there are any, else the ones with the wildcard. -/
def narrow (candidates : List String) (position : Nat) : List String → List String
  | [] => candidates
  | text :: rest =>
    if keep position (.literal text) candidates = [] then
      narrow (keep position .wildcard candidates) (position + 1) rest
    else narrow (keep position (.literal text) candidates) (position + 1) rest

/-- The candidates that the segments of a path leave, and have no further segments. -/
def finalists (pages segments : List String) : List String :=
  (narrow pages 0 segments).filter fun page => (Segment.ofPage page).length == segments.length

/-- The answer for a path: the page that is left, if the path has segments. -/
def answer (pages : List String) (pageSuffix path : String) : Resolution :=
  match Path.segments path with
  | [] => .noMatch
  | segments =>
    match finalists pages segments with
    | [] => .noMatch
    | page :: _ => .dynamic page (page ++ pageSuffix)

def under (pages : List String) (start : List Segment) : List String :=
  pages.filter fun page => start.isPrefixOf (Segment.ofPage page)

theorem mem_under {pages : List String} {start : List Segment} {page : String} :
    page ∈ under pages start ↔ page ∈ pages ∧ start <+: Segment.ofPage page := by
  simp [under]

theorem under_nil (pages : List String) : under pages [] = pages := by
  simp [under]

theorem prefix_concat_iff (start template : List Segment) (segment : Segment) :
    start ++ [segment] <+: template ↔
      start <+: template ∧ template[start.length]? = some segment := by
  constructor
  · rintro ⟨rest, rfl⟩
    exact ⟨⟨segment :: rest, by simp⟩, by simp⟩
  · rintro ⟨⟨rest, rfl⟩, found⟩
    rw [List.getElem?_append_right (Nat.le_refl _), Nat.sub_self] at found
    cases rest with
    | nil => simp at found
    | cons head rest =>
      simp only [List.getElem?_cons_zero, Option.some.injEq] at found
      subst found
      exact ⟨rest, by simp⟩

theorem keep_under (pages : List String) (start : List Segment) (segment : Segment) :
    keep start.length segment (under pages start) = under pages (start ++ [segment]) := by
  unfold keep under
  rw [List.filter_filter]
  apply List.filter_congr
  intro page _
  rw [Bool.eq_iff_iff]
  simp only [Bool.and_eq_true, beq_iff_eq, List.isPrefixOf_iff_prefix]
  rw [prefix_concat_iff, and_comm]

end Narrowing

open Narrowing

variable {trie : RouteTrie} {pages : List String}

theorem RouteTrie.Holds.under_eq_nil_iff (holds : trie.Holds pages) (start : List Segment)
    (segment : Segment) :
    under pages (start ++ [segment]) = [] ↔ trie.root.descend? (start ++ [segment]) = none := by
  have nonempty : start ++ [segment] ≠ [] := by simp
  rw [← Option.not_isSome_iff_eq_none, holds.descend?_iff, List.eq_nil_iff_forall_not_mem]
  simp only [mem_under, nonempty, false_or, not_exists]

theorem TrieNode.follow?_cons_at (root : TrieNode) (start : List Segment) (text : String)
    (rest : List String) :
    (root.descend? start).bind (·.follow? (text :: rest)) =
      if root.descend? (start ++ [.literal text]) = none then
        (root.descend? (start ++ [.wildcard])).bind (·.follow? rest)
      else (root.descend? (start ++ [.literal text])).bind (·.follow? rest) := by
  rw [descend?_concat, descend?_concat]
  cases root.descend? start with
  | none => rfl
  | some node =>
    simp only [Option.bind_some, follow?]
    cases node.child? (.literal text) <;> rfl

/-- Narrowing the candidates and following the trie take the same template segments. -/
theorem RouteTrie.Holds.narrow_under (holds : trie.Holds pages) (segments : List String)
    (start : List Segment) :
    ∃ taken, List.Forall₂ Segment.Matches taken segments ∧
      narrow (under pages start) start.length segments = under pages (start ++ taken) ∧
      (trie.root.descend? start).bind (·.follow? segments) =
        trie.root.descend? (start ++ taken) := by
  induction segments generalizing start with
  | nil =>
    refine ⟨[], List.Forall₂.nil, by simp [narrow], ?_⟩
    cases found : trie.root.descend? start <;> simp [found, TrieNode.follow?]
  | cons text rest ih =>
    -- The position is the number of template segments taken so far.
    have longer (segment : Segment) : start.length + 1 = (start ++ [segment]).length := by simp
    rw [TrieNode.follow?_cons_at, narrow, keep_under, keep_under]
    by_cases literals : under pages (start ++ [.literal text]) = []
    · obtain ⟨taken, fits, left, reached⟩ := ih (start ++ [.wildcard])
      refine ⟨.wildcard :: taken, .cons trivial fits, ?_, ?_⟩
      · rw [if_pos literals, longer .wildcard, left, List.append_cons start _ taken]
      · rw [if_pos ((holds.under_eq_nil_iff start _).mp literals), reached,
          List.append_cons start _ taken]
    · obtain ⟨taken, fits, left, reached⟩ := ih (start ++ [.literal text])
      refine ⟨.literal text :: taken, .cons rfl fits, ?_, ?_⟩
      · rw [if_neg literals, longer (.literal text), left, List.append_cons start _ taken]
      · have present := mt (holds.under_eq_nil_iff start (.literal text)).mpr literals
        rw [if_neg present, reached, List.append_cons start _ taken]

theorem RouteTrie.Holds.finalists_iff (holds : trie.Holds pages) (segments : List String) :
    ∃ taken, List.Forall₂ Segment.Matches taken segments ∧
      (∀ page, page ∈ finalists pages segments ↔
        page ∈ pages ∧ Segment.ofPage page = taken) ∧
      (trie.root.follow? segments).bind (·.page) = trie.root.pageAt? taken := by
  obtain ⟨taken, fits, left, reached⟩ := holds.narrow_under segments []
  rw [List.nil_append, under_nil, List.length_nil] at left
  refine ⟨taken, fits, ?_, ?_⟩
  · intro page
    unfold finalists
    rw [left, List.mem_filter, mem_under, beq_iff_eq, ← fits.length_eq]
    constructor
    · rintro ⟨⟨member, begins⟩, length⟩
      exact ⟨member, (begins.eq_of_length length.symm).symm⟩
    · rintro ⟨member, rfl⟩
      exact ⟨⟨member, List.prefix_rfl⟩, rfl⟩
  · unfold TrieNode.pageAt?
    rw [← List.nil_append taken, ← reached]
    rfl

theorem RouteTrie.Holds.lookUp_freeze (holds : trie.Holds pages) (staticRoutes : List String)
    (matcher : MatcherConfig) (path : String) :
    (trie.freeze staticRoutes).lookUp matcher path = answer pages matcher.pageSuffix path := by
  unfold RouteTable.lookUp answer
  cases Path.segments path with
  | nil => rfl
  | cons text rest =>
    obtain ⟨taken, fits, left, reached⟩ := holds.finalists_iff (text :: rest)
    have walked : ((trie.freeze staticRoutes).root.walk? (text :: rest)).bind (·.page) =
        trie.root.pageAt? taken := (trie.root.page_walk?_freeze _).trans reached
    simp only [walked]
    cases remaining : finalists pages (text :: rest) with
    | nil =>
      have absent : trie.root.pageAt? taken = none := by
        rw [holds.pageAt?_none_iff]
        intro page member same
        have final := (left page).mpr ⟨member, same⟩
        rw [remaining] at final
        exact List.not_mem_nil final
      rw [absent]
    | cons page others =>
      have final := (left page).mp (by rw [remaining]; exact List.mem_cons_self)
      rw [(holds.pageAt?_iff taken page).mpr final]

theorem RouteTrie.Holds.dynamic_answer (holds : trie.Holds pages)
    {pageSuffix path page target : String}
    (answered : answer pages pageSuffix path = .dynamic page target) :
    page ∈ pages ∧ target = page ++ pageSuffix ∧
      List.Forall₂ Segment.Matches (Segment.ofPage page) (Path.segments path) := by
  unfold answer at answered
  cases requested : Path.segments path with
  | nil => simp [requested] at answered
  | cons text rest =>
    obtain ⟨taken, fits, left, _⟩ := holds.finalists_iff (text :: rest)
    simp only [requested] at answered
    cases remaining : finalists pages (text :: rest) with
    | nil => simp [remaining] at answered
    | cons final others =>
      simp only [remaining, Resolution.dynamic.injEq] at answered
      obtain ⟨rfl, rfl⟩ := answered
      have member : final ∈ finalists pages (text :: rest) := by simp [remaining]
      obtain ⟨listed, rfl⟩ := (left final).mp member
      exact ⟨listed, rfl, fits⟩

/-- Where no earlier step decides, a path resolves to what narrowing the list of pages leaves:
at most one page, one of the list, whose segments match those of the path one for one. -/
theorem resolve_eq_answer (pages : List String) (trie : RouteTrie)
    (built : RouteTrie.ofPages pages = .ok trie) (staticRoutes : List String)
    (matcher : MatcherConfig) (path : String)
    (undecided : Undecided matcher staticRoutes path) :
    (trie.freeze staticRoutes).resolve matcher path =
      answer pages matcher.pageSuffix (Path.dropTrailingSlash path) ∧
    (∀ segments, ∀ first ∈ finalists pages segments, ∀ second ∈ finalists pages segments,
      first = second) ∧
    ∀ page target, (trie.freeze staticRoutes).resolve matcher path = .dynamic page target →
      page ∈ pages ∧ target = page ++ matcher.pageSuffix ∧
        List.Forall₂ Segment.Matches (Segment.ofPage page)
          (Path.segments (Path.dropTrailingSlash path)) := by
  have holds := RouteTrie.ofPages_eq_ok_iff.mp built
  have looked : (trie.freeze staticRoutes).resolve matcher path =
      answer pages matcher.pageSuffix (Path.dropTrailingSlash path) :=
    (RouteTable.resolve_of_undecided undecided).trans
      (holds.lookUp_freeze staticRoutes matcher _)
  refine ⟨looked, ?_, ?_⟩
  · intro segments first firstLeft second secondLeft
    obtain ⟨taken, _, left, _⟩ := holds.finalists_iff segments
    obtain ⟨firstIn, firstTaken⟩ := (left first).mp firstLeft
    obtain ⟨secondIn, secondTaken⟩ := (left second).mp secondLeft
    exact holds.unambiguous first firstIn second secondIn (firstTaken.trans secondTaken.symm)
  · intro page target resolved
    rw [looked] at resolved
    exact holds.dynamic_answer resolved

-- A literal that is taken is not given up for a wildcard, even if it leads nowhere.
example : answer ["/a/b/c", "/a/[x]/d"] ".html" "/a/b/d" = .noMatch := by decide

theorem resolve_eq_answer_wildcard :
    ∃ trie, RouteTrie.ofPages ["/a/b/c", "/a/[x]/d"] = .ok trie ∧
      Undecided {} ["/about"] "/a/z/d/" ∧
      (trie.freeze ["/about"]).resolve {} "/a/z/d/" = .dynamic "/a/[x]/d" "/a/[x]/d.html" := by
  obtain ⟨trie, built⟩ : ∃ trie, RouteTrie.ofPages ["/a/b/c", "/a/[x]/d"] = .ok trie := ⟨_, rfl⟩
  have undecided : Undecided {} ["/about"] "/a/z/d/" := {
    outside := by decide
    plain := by decide
    unresolved := by decide
    nonempty := by decide
    dynamic := by decide }
  refine ⟨trie, built, undecided, ?_⟩
  rw [(resolve_eq_answer _ trie built ["/about"] {} "/a/z/d/" undecided).1]
  rfl

end EdgeRoutes
