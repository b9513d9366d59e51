/-! Texts with placeholders.

Filling a template goes over it once: where a placeholder begins its value is put, and any
other character is kept. A value is never looked at again, so it may contain placeholders.
Splitting a template finds the same places and does not know the values.
-/

set_option autoImplicit false

namespace EdgeRoutes.Template

def startingAt? {Value : Type} (values : List (List Char × Value)) (text : List Char) :
    Option (List Char × Value) :=
  values.find? fun entry => entry.1.isPrefixOf text

/-- Puts the values in place of their placeholders. The count says how many characters the
placeholder that was just replaced still covers. -/
def fillFrom (values : List (List Char × List Char)) : Nat → List Char → List Char
  | _, [] => []
  | covered + 1, _ :: rest => fillFrom values covered rest
  | 0, char :: rest =>
    match startingAt? values (char :: rest) with
    | some (placeholder, value) => value ++ fillFrom values (placeholder.length - 1) rest
    | none => char :: fillFrom values 0 rest

def fill (values : List (List Char × List Char)) (template : List Char) : List Char :=
  fillFrom values 0 template

/-- A part of a template: a plain character, or the hole that a placeholder leaves. -/
inductive Piece (Hole : Type) where
  | char (char : Char)
  | hole (hole : Hole)
  deriving DecidableEq, Repr

def splitFrom {Hole : Type} (holes : List (List Char × Hole)) : Nat → List Char → List (Piece Hole)
  | _, [] => []
  | covered + 1, _ :: rest => splitFrom holes covered rest
  | 0, char :: rest =>
    match startingAt? holes (char :: rest) with
    | some (placeholder, hole) => .hole hole :: splitFrom holes (placeholder.length - 1) rest
    | none => .char char :: splitFrom holes 0 rest

def split {Hole : Type} (holes : List (List Char × Hole)) (template : List Char) :
    List (Piece Hole) :=
  splitFrom holes 0 template

end EdgeRoutes.Template
