import EdgeRoutes.Toml.Document

/-! What an operation on the entries of a table looks at, and what it changes.

Every operation goes by the first part of its key. It looks at the item of that part alone and
puts another one there. So whatever is done to the rest of the table can be done before or
after it.
-/

set_option autoImplicit false

namespace EdgeRoutes.Toml.Entries

/-- The entries whose keys are kept, with their items looked at through `inner`. -/
def trim (keep : String → Bool) (inner : String → Item → Item) (entries : Entries) : Entries :=
  (entries.filter fun entry => keep entry.1).map fun entry => (entry.1, inner entry.1 entry.2)

def only (keep : String → Bool) (entries : Entries) : Entries :=
  entries.filter fun entry => keep entry.1

/-- Puts an item under a key: a new one at the end, and one that is there in its place unless
it moves. -/
def put (key : String) (moves : Bool) (item : Item) (entries : Entries) : Entries :=
  if moves || (entries.lookup key).isNone then erase key entries ++ [(key, item)]
  else replace key item entries

variable {keep : String → Bool} {inner : String → Item → Item} {key : String}

theorem trim_id (keep : String → Bool) : trim keep (fun _ item => item) = only keep := by
  funext entries
  simp [trim, only]

theorem lookup_trim (kept : keep key = true) (entries : Entries) :
    (trim keep inner entries).lookup key = (entries.lookup key).map (inner key) := by
  induction entries with
  | nil => rfl
  | cons entry entries ih =>
    obtain ⟨first, item⟩ := entry
    simp only [trim] at ih ⊢
    by_cases same : first = key
    · subst same
      simp [kept]
    · have other : (key == first) = false := by simpa using fun equal => same equal.symm
      by_cases keeps : keep first = true
      · simp [keeps, List.lookup_cons, other, ih]
      · simp [keeps, List.lookup_cons, other, ih]

theorem trim_erase (keep : String → Bool) (inner : String → Item → Item) (key : String)
    (entries : Entries) :
    trim keep inner (erase key entries) = erase key (trim keep inner entries) := by
  simp only [trim, erase, List.filter_map, List.filter_filter]
  congr 1
  exact List.filter_congr fun entry _ => Bool.and_comm _ _

theorem trim_replace (keep : String → Bool) (inner : String → Item → Item) (key : String)
    (item : Item) (entries : Entries) :
    trim keep inner (replace key item entries) =
      replace key (inner key item) (trim keep inner entries) := by
  induction entries with
  | nil => rfl
  | cons entry entries ih =>
    obtain ⟨first, old⟩ := entry
    simp only [trim, replace, List.map_cons] at ih ⊢
    by_cases same : first = key
    · subst same
      by_cases keeps : keep first = true <;> simp_all
    · by_cases keeps : keep first = true <;> simp_all

theorem trim_append (keep : String → Bool) (inner : String → Item → Item)
    (front back : Entries) :
    trim keep inner (front ++ back) = trim keep inner front ++ trim keep inner back := by
  simp [trim]

theorem trim_put_kept (kept : keep key = true) (moves : Bool) (item : Item) (entries : Entries) :
    trim keep inner (put key moves item entries) =
      put key moves (inner key item) (trim keep inner entries) := by
  have single : trim keep inner [(key, item)] = [(key, inner key item)] := by simp [trim, kept]
  have present : ((trim keep inner entries).lookup key).isNone = (entries.lookup key).isNone := by
    rw [lookup_trim kept, Option.isNone_map]
  unfold put
  rw [present]
  split
  · rw [trim_append, trim_erase, single]
  · exact trim_replace keep inner key item entries

theorem ne_of_mem_trim (dropped : keep key = false) {entries : Entries} {entry : String × Item}
    (member : entry ∈ trim keep inner entries) : entry.1 ≠ key := by
  simp only [trim, List.mem_map, List.mem_filter] at member
  obtain ⟨entry, ⟨_, kept⟩, rfl⟩ := member
  rintro rfl
  simp [dropped] at kept

theorem trim_put_dropped (dropped : keep key = false) (moves : Bool) (item : Item)
    (entries : Entries) :
    trim keep inner (put key moves item entries) = trim keep inner entries := by
  have erased : erase key (trim keep inner entries) = trim keep inner entries :=
    List.filter_eq_self.mpr fun entry member => by simpa using ne_of_mem_trim dropped member
  have replaced : replace key (inner key item) (trim keep inner entries) =
      trim keep inner entries := by
    refine (List.map_congr_left fun entry member => ?_).trans (List.map_id' _)
    simp [ne_of_mem_trim dropped member]
  unfold put
  split
  · have nothing : trim keep inner [(key, item)] = [] := by simp [trim, dropped]
    rw [trim_append, trim_erase, erased, nothing, List.append_nil]
  · rw [trim_replace, replaced]

theorem only_put_dropped (dropped : keep key = false) (moves : Bool) (item : Item)
    (entries : Entries) : only keep (put key moves item entries) = only keep entries := by
  have trimmed : trim keep (fun _ item => item) (put key moves item entries) =
      trim keep (fun _ item => item) entries := trim_put_dropped dropped moves item entries
  rwa [trim_id] at trimmed

def slot (key : String) (entries : Entries) : Entries := only (· == key) entries

theorem lookup_only (kept : keep key = true) (entries : Entries) :
    (only keep entries).lookup key = entries.lookup key := by
  have found : (trim keep (fun _ item => item) entries).lookup key =
      (entries.lookup key).map fun item => item := lookup_trim kept entries
  rwa [trim_id, Option.map_id'] at found

theorem lookup_eq_slot (key : String) (entries : Entries) :
    entries.lookup key = (slot key entries).lookup key :=
  (lookup_only (by simp) entries).symm

theorem slot_put {entries : Entries}
    (single : slot key entries = [] ∨ ∃ old, slot key entries = [(key, old)])
    (moves : Bool) (item : Item) : slot key (put key moves item entries) = [(key, item)] := by
  have put_slot : trim (· == key) (fun _ item => item) (put key moves item entries) =
      put key moves item (trim (· == key) (fun _ item => item) entries) :=
    trim_put_kept (by simp) moves item entries
  rw [trim_id] at put_slot
  refine put_slot.trans ?_
  change put key moves item (slot key entries) = _
  rcases single with empty | ⟨old, filled⟩
  · simp [empty, put, erase]
  · cases moves <;> simp [filled, put, erase, replace]

/-- What an operation does: it looks at the item of one key, and puts another there. -/
def ActsAt (key : String) (change : Option Item → Option (Bool × Item))
    (operation : Entries → Option Entries) : Prop :=
  ∀ entries, operation entries =
    (change (entries.lookup key)).map fun made => put key made.1 made.2 entries

def Local (key : String) (operation : Entries → Option Entries) : Prop :=
  ∃ change, ActsAt key change operation

section

variable {operation : Entries → Option Entries} {entries after : Entries}

/-- What is looked at but stays as it is can be trimmed before or after the operation. -/
theorem Local.trim_kept (acts : Local key operation) (kept : keep key = true)
    (same : ∀ item, inner key item = item) (entries : Entries) :
    (operation entries).map (trim keep inner) = operation (trim keep inner entries) := by
  obtain ⟨change, acts⟩ := acts
  have unchanged : inner key = id := funext same
  rw [acts, acts, lookup_trim kept, unchanged, Option.map_id, id_eq]
  cases change (entries.lookup key) with
  | none => rfl
  | some made =>
    exact congrArg some ((trim_put_kept kept made.1 made.2 entries).trans (by rw [same]))

theorem Local.only_kept (acts : Local key operation) (kept : keep key = true) (entries : Entries) :
    (operation entries).map (only keep) = operation (only keep entries) := by
  have trimmed : (operation entries).map (trim keep fun _ item => item) =
      operation (trim keep (fun _ item => item) entries) :=
    acts.trim_kept kept (fun _ => rfl) entries
  rwa [trim_id] at trimmed

theorem Local.only_dropped (acts : Local key operation) (dropped : keep key = false)
    (done : operation entries = some after) : only keep after = only keep entries := by
  obtain ⟨change, acts⟩ := acts
  rw [acts] at done
  obtain ⟨made, _, rfl⟩ := Option.map_eq_some_iff.mp done
  exact only_put_dropped dropped made.1 made.2 entries

theorem Local.slot_other (acts : Local key operation) {other : String} (apart : other ≠ key)
    (done : operation entries = some after) : slot other after = slot other entries :=
  acts.only_dropped (by simpa using apart.symm) done

end

theorem put_new {entries : Entries} (missing : entries.lookup key = none) (moves : Bool)
    (item : Item) : put key moves item entries = entries ++ [(key, item)] := by
  have erased : erase key entries = entries := by
    refine List.filter_eq_self.mpr fun entry member => ?_
    have apart := List.lookup_eq_none_iff.mp missing entry member
    exact bne_iff_ne.mpr fun same => by simp [same] at apart
  rw [put, missing, Option.isNone_none, Bool.or_true, if_pos rfl, erased]

theorem put_moves {entries : Entries} (item : Item) :
    put key true item entries = erase key entries ++ [(key, item)] := by
  simp [put]

theorem put_present {entries : Entries} {old : Item} (found : entries.lookup key = some old)
    (item : Item) : put key false item entries = replace key item entries := by
  simp [put, found]

def defineItem (item : Item) (path : List String) : Option Item → Option (Bool × Item)
  | none => (define item path .dotted true []).map fun made => (false, .table .dotted made)
  | some (.table .header _) => none
  | some (.table origin entries) =>
    (define item path origin true entries).map fun made => (false, .table origin made)
  | some (.tables elements) => do
    let last ← elements.getLast?
    let last ← define item path .header true last
    some (false, .tables (elements.dropLast ++ [last]))
  | some _ => none

theorem define_acts (item : Item) (key next : String) (path : List String) (origin : Origin)
    (inner : Bool) :
    ActsAt key (defineItem item (next :: path))
      (define item (key :: next :: path) origin inner) := by
  intro entries
  rw [define.eq_3 _ _ _ _ _ _ (by simp)]
  -- Only the item at the first key is looked at, so the cases are those of that item.
  cases found : entries.lookup key with
  | none =>
    cases made : define item (next :: path) .dotted true [] <;>
      simp [defineItem, made, put_new found]
  | some old =>
    cases old with
    | table origin below =>
      cases origin with
      | header => rfl
      | implied =>
        cases made : define item (next :: path) .implied true below <;>
          simp [defineItem, made, put_present found]
      | dotted =>
        cases made : define item (next :: path) .dotted true below <;>
          simp [defineItem, made, put_present found]
    | tables elements =>
      cases ends : elements.getLast? with
      | none => simp [defineItem, ends]
      | some last =>
        cases made : define item (next :: path) .header true last <;>
          simp [defineItem, ends, made, put_present found]
    | _ => rfl

theorem define_single {item : Item} {entries : Entries} (missing : entries.lookup key = none) :
    define item [key] .header false entries = some (entries ++ [(key, item)]) := by
  simp [define, missing]

theorem define_local (item : Item) (key : String) (path : List String) (origin : Origin)
    (inner : Bool) : Local key (define item (key :: path) origin inner) := by
  cases path with
  | cons next path => exact ⟨_, define_acts item key next path origin inner⟩
  | nil =>
    refine ⟨fun
      | none => if (origin == .dotted) ≠ inner then none else some (false, item)
      | some _ => none, fun entries => ?_⟩
    unfold define
    cases missing : entries.lookup key with
    | none => split <;> simp [put_new missing]
    | some found => simp

def alongItem (below : Entries → Option Entries) : Option Item → Option (Bool × Item)
  | none => (below []).map fun made => (false, .table .implied made)
  | some (.table origin entries) => (below entries).map fun made => (false, .table origin made)
  | some (.tables elements) => do
    let last ← elements.getLast?
    let last ← below last
    some (false, .tables (elements.dropLast ++ [last]))
  | some _ => none

theorem along_acts (change : Entries → Option Entries) (key : String) (path : List String) :
    ActsAt key (alongItem (along change path)) (along change (key :: path)) := by
  intro entries
  rw [along]
  cases found : entries.lookup key with
  | none => cases made : along change path [] <;> simp [alongItem, made, put_new found]
  | some old =>
    cases old with
    | table origin below =>
      cases made : along change path below <;> simp [alongItem, made, put_present found]
    | tables elements =>
      cases ends : elements.getLast? with
      | none => simp [alongItem, ends]
      | some last =>
        cases made : along change path last <;> simp [alongItem, ends, made, put_present found]
    | _ => rfl

def closeItem (added : List (List String × Item)) : Option Item → Option (Bool × Item)
  | none => (defineAll [] added).map fun made => (true, .table .header made)
  | some (.table .implied below) =>
    (defineAll below added).map fun made => (true, .table .header made)
  | some _ => none

theorem closeTable_acts (key : String) (added : List (List String × Item)) :
    ActsAt key (closeItem added) (closeTable key added) := by
  intro entries
  unfold closeTable
  cases found : entries.lookup key with
  | none => cases made : defineAll [] added <;> simp [closeItem, made, put_new found]
  | some old =>
    cases old with
    | table origin below =>
      cases origin with
      | implied => cases made : defineAll below added <;> simp [closeItem, made, put_moves]
      | _ => rfl
    | _ => rfl

def elementItem (added : List (List String × Item)) : Option Item → Option (Bool × Item)
  | none => (defineAll [] added).map fun made => (false, .tables [made])
  | some (.tables elements) =>
    (defineAll [] added).map fun made => (false, .tables (elements ++ [made]))
  | some _ => none

theorem closeElement_acts (key : String) (added : List (List String × Item)) :
    ActsAt key (elementItem added) (closeElement key added) := by
  intro entries
  unfold closeElement
  cases found : entries.lookup key with
  | none => cases made : defineAll [] added <;> simp [elementItem, made, put_new found]
  | some old =>
    cases old with
    | tables elements =>
      cases made : defineAll [] added <;> simp [elementItem, made, put_present found]
    | _ => rfl

theorem addTo_cons (isElement : Bool) (first second : String) (path : List String)
    (added : List (List String × Item)) :
    (Section.mk isElement (first :: second :: path) added).addTo =
      along (Section.mk isElement (second :: path) added).addTo [first] := by
  funext entries
  obtain ⟨last, ends⟩ : ∃ last, (second :: path).getLast? = some last :=
    ⟨_, List.getLast?_eq_some_getLast (List.cons_ne_nil second path)⟩
  simp only [Section.addTo, List.getLast?_cons_cons, ends, List.dropLast_cons_cons, along]
  rfl

theorem addTo_local (isElement : Bool) (key : String) (path : List String)
    (added : List (List String × Item)) :
    Local key (Section.mk isElement (key :: path) added).addTo := by
  cases path with
  | cons next path =>
    rw [addTo_cons]
    exact ⟨_, along_acts _ key []⟩
  | nil =>
    cases isElement with
    | false => exact ⟨_, closeTable_acts key added⟩
    | true => exact ⟨_, closeElement_acts key added⟩

/-- Where no item is, or the table of a key, all is done at another key below it. -/
structure Through (key : String) (change : Option Item → Option (Bool × Item)) : Prop where
  fresh : ∃ origin below, Local key below ∧
    change none = (below []).map fun made => (false, .table origin made)
  table (origin : Origin) : ∃ below, Local key below ∧
    ∀ old, change (some (.table origin old)) =
      (below old).map fun made => (false, .table origin made)

/-- An operation at one key that leads to another key below it. -/
def Descends (first second : String) (operation : Entries → Option Entries) : Prop :=
  ∃ change, ActsAt first change operation ∧ Through second change

theorem define_descends (item : Item) (first second : String) (path : List String)
    (origin : Origin) (inner : Bool) :
    Descends first second (define item (first :: second :: path) origin inner) := by
  refine ⟨_, define_acts item first second path origin inner, ?_, fun old => ?_⟩
  · exact ⟨.dotted, _, define_local item second path .dotted true, rfl⟩
  · cases old with
    | header => exact ⟨fun _ => none, ⟨fun _ => none, fun _ => rfl⟩, fun _ => rfl⟩
    | implied => exact ⟨_, define_local item second path .implied true, fun _ => rfl⟩
    | dotted => exact ⟨_, define_local item second path .dotted true, fun _ => rfl⟩

theorem addTo_descends (isElement : Bool) (first second : String) (path : List String)
    (added : List (List String × Item)) :
    Descends first second (Section.mk isElement (first :: second :: path) added).addTo := by
  rw [addTo_cons]
  have below := addTo_local isElement second path added
  exact ⟨_, along_acts _ first [], ⟨.implied, _, below, rfl⟩, fun _ => ⟨_, below, fun _ => rfl⟩⟩

end EdgeRoutes.Toml.Entries
