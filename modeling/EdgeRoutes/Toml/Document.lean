import EdgeRoutes.Toml.Expression

/-! TOML documents.

The expressions of a text are grouped into sections: the entries before the first header,
and each header with the entries after it. Every section is finished before the next one
begins. A header may fill a table that longer headers only went through; nothing else may
be defined twice.
-/

set_option autoImplicit false

namespace EdgeRoutes.Toml

namespace Entries

def erase (key : String) (entries : Entries) : Entries :=
  entries.filter fun entry => entry.1 != key

/-- Goes along the parts of a header, making the tables that are missing, and changes the
entries at its end. In a list of tables the way leads through the last one. -/
def along (change : Entries → Option Entries) : List String → Entries → Option Entries
  | [], entries => change entries
  | key :: path, entries =>
    match entries.lookup key with
    | none => do
      let below ← along change path []
      some (entries ++ [(key, .table .implied below)])
    | some (.table origin below) => do
      let below ← along change path below
      some (replace key (.table origin below) entries)
    | some (.tables elements) => do
      let last ← elements.getLast?
      let last ← along change path last
      some (replace key (.tables (elements.dropLast ++ [last])) entries)
    | some _ => none

def defineAll (entries : Entries) (added : List (List String × Item)) : Option Entries :=
  added.foldlM (fun entries entry => define entry.2 entry.1 .header false entries) entries

/-- Finishes the table of a header. A table that was only implied so far moves to the end. -/
def closeTable (key : String) (added : List (List String × Item)) (entries : Entries) :
    Option Entries :=
  match entries.lookup key with
  | none => do some (entries ++ [(key, .table .header (← defineAll [] added))])
  | some (.table .implied below) => do
    let below ← defineAll below added
    some (erase key entries ++ [(key, .table .header below)])
  | some _ => none

def closeElement (key : String) (added : List (List String × Item)) (entries : Entries) :
    Option Entries :=
  match entries.lookup key with
  | none => do some (entries ++ [(key, .tables [← defineAll [] added])])
  | some (.tables elements) => do
    some (replace key (.tables (elements ++ [← defineAll [] added])) entries)
  | some _ => none

end Entries

structure Section where
  isElement : Bool
  path : List String
  entries : List (List String × Item)

/-- The entries before the first header, and the sections. -/
def sections : List Expression → List (List String × Item) × List Section
  | [] => ([], [])
  | expression :: others =>
    let (leading, found) := sections others
    match expression with
    | .entry path item => ((path, item) :: leading, found)
    | .header path => ([], ⟨false, path, leading⟩ :: found)
    | .element path => ([], ⟨true, path, leading⟩ :: found)

def Section.addTo (found : Section) (entries : Entries) : Option Entries := do
  let key ← found.path.getLast?
  let close := if found.isElement then Entries.closeElement else Entries.closeTable
  Entries.along (close key found.entries) found.path.dropLast entries

def Entries.ofExpressions? (expressions : List Expression) : Option Entries := do
  let (leading, found) := sections expressions
  let entries ← Entries.defineAll [] leading
  found.foldlM (fun entries next => next.addTo entries) entries

def parse? (source : String) : Option Entries := do
  Entries.ofExpressions? (← Expression.ofText? source)

end EdgeRoutes.Toml
