import EdgeRoutes.FileTree
import EdgeRoutes.Proofs.Reading

/-! What writing a file does to a tree.

A write that succeeds changes the entry that its path names and no other, and the path then
leads to a file with the written text.
-/

set_option autoImplicit false

namespace EdgeRoutes.FileTree

variable {tree after : FileTree}

inductive Place.OfFile : Place → List String → Prop where
  | present (names : List String) (content : Content) : OfFile (.entry names (.file content)) names
  | free (names : List String) : OfFile (.free names) names

/-- The path leads to a file of the tree, or to a free name in one of its directories. -/
def NamesFile (tree : FileTree) (path : String) (names : List String) : Prop :=
  ∃ place, tree.locate path = .ok place ∧ place.OfFile names

theorem lookup_replace_of_ne {names wanted : List String} (differ : wanted ≠ names)
    (entry : TreeEntry) (entries : List (List String × TreeEntry)) :
    (entries.map fun present => if present.1 == names then (names, entry) else present).lookup
      wanted = entries.lookup wanted := by
  induction entries with
  | nil => rfl
  | cons first others ih =>
    rw [List.map_cons, List.lookup_cons, List.lookup_cons, ih]
    by_cases here : first.1 = names
    · simp [here, beq_false_of_ne differ]
    · simp [here]

theorem lookup_replace_self {names : List String} (entry : TreeEntry)
    {entries : List (List String × TreeEntry)} (present : (entries.lookup names).isSome = true) :
    (entries.map fun present => if present.1 == names then (names, entry) else present).lookup
      names = some entry := by
  induction entries with
  | nil => cases present
  | cons first others ih =>
    rw [List.map_cons, List.lookup_cons]
    by_cases here : first.1 = names
    · simp [here]
    · have apart : (names == first.1) = false := beq_false_of_ne (Ne.symm here)
      rw [List.lookup_cons, apart] at present
      simpa [here, apart] using ih present

theorem lookup_put (tree : FileTree) (names wanted : List String) (entry : TreeEntry) :
    (tree.put names entry).entries.lookup wanted =
      if wanted = names then some entry else tree.entries.lookup wanted := by
  unfold put
  split
  case isTrue present =>
    split
    case isTrue same =>
      subst same
      exact lookup_replace_self entry present
    case isFalse differ => exact lookup_replace_of_ne differ entry tree.entries
  case isFalse absent =>
    have free : tree.entries.lookup names = none := Option.not_isSome_iff_eq_none.mp absent
    rw [List.lookup_append]
    by_cases same : wanted = names
    · subst same
      simp [free]
    · rw [List.lookup_cons, beq_false_of_ne same, if_neg same]
      exact Option.or_none

@[simp] theorem permit_put (tree : FileTree) (names : List String) (entry : TreeEntry) :
    (tree.put names entry).permit = tree.permit := by
  unfold put
  split <;> rfl

@[simp] theorem home_put (tree : FileTree) (names : List String) (entry : TreeEntry) :
    (tree.put names entry).home = tree.home := by
  unfold put
  split <;> rfl

/-- What is put takes its place unless the way to where paths start leads through it. -/
theorem find?_put {names : List String} (apart : names.isPrefixOf tree.home = false)
    (entry : TreeEntry) (wanted : List String) :
    (tree.put names entry).find? wanted =
      if wanted = names then some entry else tree.find? wanted := by
  unfold find?
  rw [home_put, lookup_put]
  by_cases same : wanted = names
  · subst same
    simp [apart]
  · simp [same]

def Open (tree : FileTree) (names : List String) : Prop :=
  ∃ place beyond, tree.arrive names = .ending place beyond

theorem Open.apart {names : List String} (opened : tree.Open names) :
    names.isPrefixOf tree.home = false := by
  obtain ⟨place, beyond, arrived⟩ := opened
  rw [Bool.eq_false_iff]
  intro through
  rw [arrive, find?, if_pos through] at arrived
  cases arrived

theorem open_of_arrive {here names : List String} {place : Place} {beyond : FileFault}
    (arrived : tree.arrive here = .ending place beyond) (offered : place.OfFile names) :
    here = names ∧ tree.Open names := by
  have same : here = names := by
    unfold arrive at arrived
    split at arrived <;> cases arrived <;> cases offered <;> rfl
  exact ⟨same, same ▸ ⟨place, beyond, arrived⟩⟩

theorem arrive_put {target : List String} (opened : tree.Open target) (content : Content)
    (here : List String) :
    (tree.put target (.file content)).arrive here =
      if here = target then .ending (.entry target (.file content)) .notDirectory
      else tree.arrive here := by
  unfold arrive
  rw [find?_put opened.apart]
  by_cases same : here = target <;> simp [same]

theorem turn_cases {other : FileTree} (same : other.permit = tree.permit)
    {directory : List String} {name : String} {turned : Turn}
    (taken : tree.turn directory name = .ok turned) :
    (∃ below, turned = .into below ∧ other.turn directory name = .ok (.into below)) ∨
      turned = tree.arrive (directory ++ [name]) ∧
        other.turn directory name = .ok (other.arrive (directory ++ [name])) := by
  unfold turn at taken ⊢
  rw [same]
  split at taken
  case isTrue stay =>
    cases taken
    exact .inl ⟨directory, rfl, if_pos stay⟩
  case isFalse named =>
    obtain ⟨_, permitted, taken⟩ := bind_eq_ok_iff.mp taken
    rw [if_neg named, permitted]
    split at taken
    case isTrue stay =>
      cases taken
      exact .inl ⟨directory, rfl, if_pos stay⟩
    -- What is left is a step back or a step to an entry, which the write may have changed.
    case isFalse move =>
      split at taken
      case isTrue back =>
        cases taken
        exact .inl ⟨directory.dropLast, rfl, (if_neg move).trans (if_pos back)⟩
      case isFalse forth =>
        split at taken
        case isTrue => cases taken
        case isFalse short =>
          cases taken
          exact .inr ⟨rfl, (if_neg move).trans ((if_neg forth).trans (if_neg short))⟩

variable {directory names target : List String} {place : Place}
  {jump jumpAfter : List String → List String → Except FileFault Place}

theorem open_of_walk
    (jumps : ∀ directory names, jump directory names = .ok place → tree.Open target)
    (found : tree.walk jump directory names = .ok place) (offered : place.OfFile target) :
    tree.Open target := by
  induction names generalizing directory with
  | nil =>
    cases found
    cases offered
  | cons name names ih =>
    obtain ⟨turned, taken, found⟩ := bind_eq_ok_iff.mp found
    cases turned with
    | into below => exact ih found
    | link goal => exact jumps _ _ found
    | ending last beyond =>
      obtain ⟨below, same, _⟩ | ⟨arrived, _⟩ := turn_cases rfl taken
      · cases same
      · cases names with
        | nil =>
          cases found
          exact (open_of_arrive arrived.symm offered).2
        | cons => cases found

theorem open_of_follow {links : Nat} (found : tree.follow links directory names = .ok place)
    (offered : place.OfFile target) : tree.Open target := by
  induction links generalizing directory names with
  | zero => exact open_of_walk (fun _ _ stopped => by cases stopped) found offered
  | succ links ih => exact open_of_walk (fun _ _ => ih) found offered

/-- A file that is put where a path leads stands in the place of no directory and of no link on
the way, so the path leads to it. -/
theorem walk_put (opened : tree.Open target) (content : Content)
    (jumps : ∀ directory names, jump directory names = .ok place →
      jumpAfter directory names = .ok (.entry target (.file content)))
    (found : tree.walk jump directory names = .ok place) (offered : place.OfFile target) :
    (tree.put target (.file content)).walk jumpAfter directory names =
      .ok (.entry target (.file content)) := by
  induction names generalizing directory with
  | nil =>
    cases found
    cases offered
  | cons name names ih =>
    obtain ⟨turned, taken, found⟩ := bind_eq_ok_iff.mp found
    obtain ⟨below, rfl, after⟩ | ⟨rfl, after⟩ := turn_cases (permit_put tree target _) taken
    · exact bind_eq_ok_iff.mpr ⟨_, after, ih found⟩
    · refine bind_eq_ok_iff.mpr ⟨_, after, ?_⟩
      rw [arrive_put opened]
      -- Only the place written to looks different, and there the walk ends.
      by_cases here : directory ++ [name] = target
      case pos =>
        obtain ⟨last, beyond, arrived⟩ := opened
        rw [here, arrived] at found
        rw [if_pos here]
        cases names with
        | nil => rfl
        | cons => cases found
      case neg =>
        rw [if_neg here]
        cases arrived : tree.arrive (directory ++ [name]) with
        | into below =>
          rw [arrived] at found
          exact ih found
        | link goal =>
          rw [arrived] at found
          exact jumps _ _ found
        | ending last beyond =>
          rw [arrived] at found
          cases names with
          | nil =>
            cases found
            exact absurd (open_of_arrive arrived offered).1 here
          | cons => cases found

theorem follow_put {links : Nat} (found : tree.follow links directory names = .ok place)
    (offered : place.OfFile target) (content : Content) :
    (tree.put target (.file content)).follow links directory names =
      .ok (.entry target (.file content)) := by
  have opened : tree.Open target := open_of_follow found offered
  induction links generalizing directory names with
  | zero => exact walk_put opened content (fun _ _ stopped => by cases stopped) found offered
  | succ links ih => exact walk_put opened content (fun _ _ => ih) found offered

theorem locate_eq_follow {path : String} (found : tree.locate path = .ok place)
    {other : FileTree} (home : other.home = tree.home) :
    other.locate path = other.follow linkLimit (start tree.home path) (Path.parts path) := by
  unfold locate at found ⊢
  split at found
  · cases found
  case isFalse whole =>
    split at found
    · cases found
    case isFalse short =>
      split at found
      · cases found
      case isFalse nonempty => rw [if_neg whole, if_neg short, if_neg nonempty, home]

namespace NamesFile

variable {path : String}

theorem isOpen (named : tree.NamesFile path names) : tree.Open names := by
  obtain ⟨place, found, offered⟩ := named
  rw [locate_eq_follow found rfl] at found
  exact open_of_follow found offered

theorem locate_put (named : tree.NamesFile path names) (content : Content) :
    (tree.put names (.file content)).locate path = .ok (.entry names (.file content)) := by
  obtain ⟨place, found, offered⟩ := named
  rw [locate_eq_follow found (home_put tree names _)]
  rw [locate_eq_follow found rfl] at found
  exact follow_put found offered content

end NamesFile

theorem exists_put_of_write {path : String} {content : Content}
    (written : tree.write path content = .ok after) :
    ∃ names, tree.NamesFile path names ∧ after = tree.put names (.file content) := by
  obtain ⟨place, found, written⟩ := bind_eq_ok_iff.mp written
  cases place with
  | free names =>
    obtain ⟨_, _, done⟩ := bind_eq_ok_iff.mp written
    cases done
    exact ⟨names, ⟨_, found, .free names⟩, rfl⟩
  | entry names entry =>
    cases entry with
    | file old =>
      obtain ⟨_, _, done⟩ := bind_eq_ok_iff.mp written
      cases done
      exact ⟨names, ⟨_, found, .present names old⟩, rfl⟩
    | directory => cases written
    | link goal => cases written

/-- After a write the path leads to the file that was written, and all other entries are as
before. -/
theorem locate_of_write {path : String} {content : Content}
    (written : tree.write path content = .ok after) :
    ∃ names, tree.NamesFile path names ∧
      after.locate path = .ok (.entry names (.file content)) ∧
      ∀ other, other ≠ names → after.find? other = tree.find? other := by
  obtain ⟨names, named, rfl⟩ := exists_put_of_write written
  refine ⟨names, named, named.locate_put content, fun other differ => ?_⟩
  rw [find?_put named.isOpen.apart, if_neg differ]

end EdgeRoutes.FileTree
