import EdgeRoutes.Proofs.Json.Spelling
import Mathlib.Data.List.Nodup

/-! The sources of records.

A record is written as an object or as the list of its fields in their order. In an object the
fields may come in any order between members of other names, and a field that has a default may
be left out where it holds this default. The reader takes the fields as they come; what it
returns is still the one record whose fields are all as the source gives them.
-/

set_option autoImplicit false

namespace EdgeRoutes.Json

/-- A field of a record: its key, the value it has where it is left out, how it is looked at and
replaced, and how its value is written. -/
structure Slot (Record : Type) where
  Value : Type
  name : String
  default? : Option Value
  get : Record → Value
  set : Record → Value → Record
  spelling : Spelling Value

variable {Record : Type}

namespace Slot

section

variable {Value : Type} (name : String)

@[simp] def required (spelling : Spelling Value) (get : Record → Value)
    (set : Record → Value → Record) : Slot Record := ⟨Value, name, none, get, set, spelling⟩

@[simp] def defaulted (default : Value) (spelling : Spelling Value) (get : Record → Value)
    (set : Record → Value → Record) : Slot Record := ⟨Value, name, some default, get, set, spelling⟩

end

/-- There is at most one source for a field. It writes the value, and without it the value is the
default. -/
def Gives (slot : Slot Record) (depth : Nat) (value : slot.Value) : List Source → Prop
  | [] => slot.default? = some value
  | [source] => slot.spelling depth source value
  | _ => False

theorem Gives.spells {slot : Slot Record} {depth : Nat} {value : slot.Value}
    {sources : List Source} (gives : slot.Gives depth value sources) {source : Source}
    (present : source ∈ sources) : slot.spelling depth source value := by
  match sources, gives with
  | [only], written => exact List.mem_singleton.mp present ▸ written

def Given (slot : Slot Record) (depth : Nat) (record : Record) (sources : List Source) : Prop :=
  slot.Gives depth (slot.get record) sources

def InOrder (depth : Nat) (record : Record) : List (Slot Record) → List Source → Prop
  | [], sources => sources = []
  | slot :: slots, sources =>
    slot.Given depth record (sources.take 1) ∧ InOrder depth record slots (sources.drop 1)

end Slot

def Source.under (name : String) (members : List Member) : List Source :=
  (members.filter fun member => Part.decoded? member.1.content = some name.toList).map
    (·.2.content)

def Source.Named (members : List Member) : Prop :=
  ∀ member ∈ members, ∃ name, Part.Spell member.1.content name

def Spelling.record (slots : List (Slot Record)) : Spelling Record
  | depth + 1, .array _ items, record => Slot.InOrder depth record slots (items.map (·.content))
  | depth + 1, .object _ members, record =>
    Source.Named members ∧ ∀ slot ∈ slots, slot.Given depth record (Source.under slot.name members)
  | _, _, _ => False

structure Slot.Lawful (slots : List (Slot Record)) : Prop where
  names : (slots.map (·.name)).Nodup
  get_set : ∀ slot ∈ slots, ∀ record value, slot.get (slot.set record value) = value
  frame : ∀ slot ∈ slots, ∀ other ∈ slots, other.name ≠ slot.name →
    ∀ record value, other.get (slot.set record value) = other.get record
  whole : ∀ blank record : Record,
    slots.foldl (fun made slot => slot.set made (slot.get record)) blank = record

namespace Slot

variable (slots : List (Slot Record)) (depth : Nat)

/-- The fields are taken as they come: the members of other names are passed over, and each of
the others replaces a field that has not been seen before. -/
inductive Follows : List String → Record → List Member → Record → Prop where
  | done {seen : List String} {record : Record}
      (complete : ∀ slot ∈ slots, slot.default? = none → slot.name ∈ seen) :
      Follows seen record [] record
  | passed {seen : List String} {record result : Record} {name : String}
      {member : Member} {members : List Member}
      (spells : Part.Spell member.1.content name) (foreign : ∀ slot ∈ slots, slot.name ≠ name)
      (others : Follows (name :: seen) record members result) :
      Follows seen record (member :: members) result
  | taken {seen : List String} {record result : Record} {slot : Slot Record}
      {member : Member} {members : List Member} {value : slot.Value}
      (spells : Part.Spell member.1.content slot.name) (present : slot ∈ slots)
      (fresh : slot.name ∉ seen) (written : slot.spelling depth member.2.content value)
      (others : Follows (slot.name :: seen) (slot.set record value) members result) :
      Follows seen record (member :: members) result

/-- The values are taken one by one in the order of the fields. Where they end early, the fields
that are left have defaults. -/
inductive Fills : List (Slot Record) → Record → List Source → Record → Prop where
  | done {record : Record} {slots : List (Slot Record)}
      (optional : ∀ slot ∈ slots, slot.default? ≠ none) : Fills slots record [] record
  | taken {slot : Slot Record} {slots : List (Slot Record)} {record result : Record}
      {value : slot.Value} {source : Source} {sources : List Source}
      (written : slot.spelling depth source value)
      (others : Fills slots (slot.set record value) sources result) :
      Fills (slot :: slots) record (source :: sources) result

/-- What becomes of a field, if some have been seen before and these are the values still to
come. -/
def Becomes (slot : Slot Record) (depth : Nat) (seen : List String) (record result : Record) :
    List Source → Prop
  | [] => slot.get result = slot.get record ∧ (slot.default? = none → slot.name ∈ seen)
  | [source] => slot.name ∉ seen ∧ slot.spelling depth source (slot.get result)
  | _ => False

end Slot

theorem Source.under_cons (name : String) {member : Member} (members : List Member)
    {key : String} (spells : Part.Spell member.1.content key) :
    under name (member :: members) =
      if key = name then member.2.content :: under name members else under name members := by
  have same : Part.decoded? member.1.content = some name.toList ↔ key = name := by
    rw [show Part.decoded? member.1.content = some key.toList from spells, Option.some_inj,
      String.toList_inj]
  unfold under
  rw [List.filter_cons]
  by_cases here : key = name
  · rw [if_pos here, if_pos (decide_eq_true (same.mpr here)), List.map_cons]
  · rw [if_neg here, if_neg (by simpa using fun found => here (same.mp found))]

namespace Slot

variable {slots : List (Slot Record)} {depth : Nat}

theorem Lawful.eq_of_name (lawful : Lawful slots) {first second : Slot Record}
    (here : first ∈ slots) (there : second ∈ slots) (same : first.name = second.name) :
    first = second :=
  List.inj_on_of_nodup_map lawful.names here there same

theorem Lawful.ext (lawful : Lawful slots) {first second : Record}
    (same : ∀ slot ∈ slots, slot.get first = slot.get second) : first = second := by
  rw [← lawful.whole first first, ← lawful.whole first second]
  apply List.foldl_ext
  intro made slot present
  rw [same slot present]

theorem becomes_congr {slot : Slot Record} {seen : List String} {name : String}
    {record changed result : Record} (apart : slot.name ≠ name)
    (kept : slot.get changed = slot.get record) (sources : List Source) :
    slot.Becomes depth (name :: seen) changed result sources ↔
      slot.Becomes depth seen record result sources := by
  match sources with
  | [] => simp [Becomes, kept, apart]
  | [source] => simp [Becomes, apart]
  | _ :: _ :: _ => simp [Becomes]

theorem becomes_seen_iff {slot : Slot Record} {seen : List String} {record result : Record}
    (sources : List Source) :
    slot.Becomes depth (slot.name :: seen) record result sources ↔
      sources = [] ∧ slot.get result = slot.get record := by
  match sources with
  | [] => simp [Becomes]
  | [source] => simp [Becomes]
  | _ :: _ :: _ => simp [Becomes]

theorem becomes_cons_iff {slot : Slot Record} {seen : List String} {record result : Record}
    (source : Source) (sources : List Source) :
    slot.Becomes depth seen record result (source :: sources) ↔
      sources = [] ∧ slot.name ∉ seen ∧ slot.spelling depth source (slot.get result) := by
  cases sources <;> simp [Becomes]

theorem Lawful.exists_record (lawful : Lawful slots) (blank : Record)
    {holds : (slot : Slot Record) → slot.Value → Prop}
    (each : ∀ slot ∈ slots, ∃ value, holds slot value) :
    ∃ record, ∀ slot ∈ slots, holds slot (slot.get record) := by
  have collect (some : List (Slot Record)) (within : ∀ slot ∈ some, slot ∈ slots) :
      ∃ record, ∀ slot ∈ some, holds slot (slot.get record) := by
    induction some with
    | nil => exact ⟨blank, List.forall_mem_nil _⟩
    | cons slot others ih =>
      have here := within slot List.mem_cons_self
      obtain ⟨record, held⟩ := ih fun other later => within other (List.mem_cons_of_mem _ later)
      obtain ⟨value, holds⟩ := each slot here
      -- The value that is set last leaves those that are set before it alone.
      refine ⟨slot.set record value, fun other there => ?_⟩
      by_cases same : other.name = slot.name
      · cases lawful.eq_of_name (within other there) here same
        rw [lawful.get_set slot here]
        exact holds
      · rw [lawful.frame slot here other (within other there) same]
        rcases List.mem_cons.mp there with rfl | later
        · exact absurd rfl same
        · exact held other later
  exact collect slots fun _ present => present

theorem follows_nil_iff {seen : List String} {record result : Record} :
    Follows slots depth seen record [] result ↔
      result = record ∧ ∀ slot ∈ slots, slot.default? = none → slot.name ∈ seen := by
  constructor
  · rintro ⟨complete⟩
    exact ⟨rfl, complete⟩
  · rintro ⟨rfl, complete⟩
    exact .done complete

/-- Fields that are taken as they come end in the one record that holds what the members give. -/
theorem follows_iff (lawful : Lawful slots) (seen : List String) (record result : Record)
    (members : List Member) :
    Follows slots depth seen record members result ↔
      Source.Named members ∧
        ∀ slot ∈ slots, slot.Becomes depth seen record result (Source.under slot.name members) := by
  induction members generalizing seen record with
  | nil =>
    rw [follows_nil_iff]
    constructor
    · rintro ⟨rfl, complete⟩
      exact ⟨List.forall_mem_nil _, fun slot present => ⟨rfl, complete slot present⟩⟩
    · rintro ⟨_, becomes⟩
      exact ⟨lawful.ext fun slot present => (becomes slot present).1,
        fun slot present => (becomes slot present).2⟩
  | cons member members ih =>
    constructor
    · intro follows
      cases follows with
      | @passed _ _ _ name _ _ spells foreign others =>
        obtain ⟨named, becomes⟩ := (ih _ _).mp others
        refine ⟨List.forall_mem_cons.mpr ⟨⟨name, spells⟩, named⟩, ?_⟩
        intro slot present
        rw [Source.under_cons slot.name members spells, if_neg (foreign slot present).symm]
        exact (becomes_congr (foreign slot present) rfl _).mp (becomes slot present)
      | @taken _ _ _ slot _ _ value spells present fresh written others =>
        obtain ⟨named, becomes⟩ := (ih _ _).mp others
        refine ⟨List.forall_mem_cons.mpr ⟨⟨slot.name, spells⟩, named⟩, ?_⟩
        intro other there
        rw [Source.under_cons other.name members spells]
        split
        case isTrue same =>
          cases lawful.eq_of_name present there same
          obtain ⟨last, kept⟩ := (becomes_seen_iff _).mp (becomes slot present)
          rw [lawful.get_set slot present] at kept
          exact (becomes_cons_iff _ _).mpr ⟨last, fresh, kept ▸ written⟩
        case isFalse apart =>
          have kept := lawful.frame slot present other there (Ne.symm apart) record value
          exact (becomes_congr (Ne.symm apart) kept _).mp (becomes other there)
    · rintro ⟨named, becomes⟩
      obtain ⟨⟨name, spells⟩, named⟩ := List.forall_mem_cons.mp named
      simp only [Source.under_cons _ members spells] at becomes
      -- A member changes at most the field of its own name.
      by_cases known : ∃ slot ∈ slots, slot.name = name
      case neg =>
        have foreign : ∀ slot ∈ slots, slot.name ≠ name :=
          fun slot present same => known ⟨slot, present, same⟩
        refine .passed spells foreign ((ih _ _).mpr ⟨named, fun slot present => ?_⟩)
        have here := becomes slot present
        rw [if_neg (foreign slot present).symm] at here
        exact (becomes_congr (foreign slot present) rfl _).mpr here
      case pos =>
        obtain ⟨slot, present, rfl⟩ := known
        have here := becomes slot present
        rw [if_pos rfl, becomes_cons_iff] at here
        obtain ⟨last, fresh, written⟩ := here
        refine .taken spells present fresh written ((ih _ _).mpr ⟨named, fun other there => ?_⟩)
        by_cases same : slot.name = other.name
        · cases lawful.eq_of_name present there same
          rw [becomes_seen_iff, lawful.get_set slot present]
          exact ⟨last, rfl⟩
        · have kept := lawful.frame slot present other there (Ne.symm same) record (slot.get result)
          have here := becomes other there
          rw [if_neg same] at here
          exact (becomes_congr (Ne.symm same) kept _).mpr here

theorem inOrder_nil_iff (record : Record) (slots : List (Slot Record)) :
    InOrder depth record slots [] ↔ ∀ slot ∈ slots, slot.default? = some (slot.get record) := by
  induction slots with
  | nil => simp [InOrder]
  | cons slot slots ih => simp [InOrder, Given, Gives, ih]

theorem Lawful.set_middle {front back : List (Slot Record)} {slot : Slot Record}
    (lawful : Lawful (front ++ slot :: back)) (record : Record) (value : slot.Value) :
    ∀ other ∈ front ++ back, other.get (slot.set record value) = other.get record := by
  have names := lawful.names
  rw [List.map_append, List.map_cons, List.nodup_middle, List.nodup_cons,
    ← List.map_append] at names
  intro other there
  have within : other ∈ front ++ slot :: back := by
    simp only [List.mem_append, List.mem_cons] at there ⊢
    exact there.imp_right Or.inr
  exact lawful.frame slot (by simp) other within
    (fun same => names.1 (same ▸ List.mem_map_of_mem there)) record value

theorem fills_nil_iff {record result : Record} :
    Fills depth slots record [] result ↔
      (∀ slot ∈ slots, slot.default? ≠ none) ∧ result = record := by
  constructor
  · rintro ⟨optional⟩
    exact ⟨optional, rfl⟩
  · rintro ⟨optional, rfl⟩
    exact .done optional

/-- The fields in `front` have been taken before, and those in `back` hold their defaults until
their values come. -/
theorem fills_iff (front : List (Slot Record)) {back : List (Slot Record)}
    (lawful : Lawful (front ++ back)) {record : Record}
    (blank : ∀ slot ∈ back, ∀ value, slot.default? = some value → slot.get record = value)
    (sources : List Source) (result : Record) :
    Fills depth back record sources result ↔
      InOrder depth result back sources ∧ ∀ slot ∈ front, slot.get result = slot.get record := by
  induction sources generalizing front back record with
  | nil =>
    rw [fills_nil_iff, inOrder_nil_iff]
    constructor
    · rintro ⟨optional, rfl⟩
      refine ⟨fun slot present => ?_, fun _ _ => rfl⟩
      obtain ⟨value, default⟩ := Option.ne_none_iff_exists'.mp (optional slot present)
      rw [default, blank slot present value default]
    · rintro ⟨defaults, kept⟩
      refine ⟨fun slot present => by simp [defaults slot present], lawful.ext ?_⟩
      intro slot present
      rcases List.mem_append.mp present with before | after
      · exact kept slot before
      · exact (blank slot after _ (defaults slot after)).symm
  | cons source sources ih =>
    cases back with
    | nil =>
      constructor
      · rintro ⟨⟩
      · rintro ⟨inOrder, _⟩
        cases inOrder
    | cons slot back =>
      have here : slot ∈ front ++ slot :: back := by simp
      have apart := lawful.set_middle record
      -- Once it is taken, the field joins those in front.
      have later (value : slot.Value) : Fills depth back (slot.set record value) sources result ↔
          InOrder depth result back sources ∧
            ∀ other ∈ front ++ [slot], other.get result = other.get (slot.set record value) := by
        apply ih
        · rwa [List.append_assoc]
        · intro other there
          rw [apart value other (List.mem_append_right _ there)]
          exact blank other (List.mem_cons_of_mem _ there)
      constructor
      · intro fills
        cases fills with
        | @taken _ _ _ _ value _ _ written others =>
          obtain ⟨inOrder, kept⟩ := (later value).mp others
          have given := kept slot (List.mem_append_right _ List.mem_cons_self)
          rw [lawful.get_set slot here] at given
          refine ⟨⟨?_, inOrder⟩, fun other there => ?_⟩
          · rw [← given] at written
            exact written
          · exact (kept other (List.mem_append_left _ there)).trans
              (apart value other (List.mem_append_left _ there))
      · rintro ⟨⟨written, inOrder⟩, kept⟩
        refine .taken written ((later _).mpr ⟨inOrder, fun other there => ?_⟩)
        rcases List.mem_append.mp there with before | same
        · exact (kept other before).trans (apart _ other (List.mem_append_left _ before)).symm
        · rw [List.mem_singleton.mp same, lawful.get_set slot here]

end Slot

end EdgeRoutes.Json
