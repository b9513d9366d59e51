import EdgeRoutes.Handler.Hole

/-! The scripts that handlers are written in.

The part of ECMAScript that the handler uses, with holes for its data. A block is a list of
statements, and each statement carries those that follow it. Calls of functions of the script
stand only on the right of an assignment.
-/

set_option autoImplicit false

namespace EdgeRoutes.Script

inductive Operator where
  | same
  | different
  | atLeast
  | below
  | plus
  | minus
  deriving DecidableEq, Repr

inductive Expression where
  | name (name : String)
  | hole (hole : Handler.Hole)
  | text (value : String)
  | number (value : Int)
  | null
  | group (inner : Expression)
  | and (left right : Expression)
  | or (left right : Expression)
  | binary (left : Expression) (operator : Operator) (right : Expression)
  | typeOf (value : Expression)
  | member (object : Expression) (name : String)
  | item (object key : Expression)
  | hasOwn (object key : Expression)
  | split (text separator : Expression)
  | pop (list : Expression)
  | indexOf (within part : Expression)
  | charAt (text position : Expression)
  | sliceFrom (text start : Expression)
  | slice (text start stop : Expression)
  deriving Repr

inductive Source where
  | value (value : Expression)
  | call (function : String) (first second : Expression)
  deriving Repr

inductive Block where
  | done
  | empty (rest : Block)
  | remark (text : String) (rest : Block)
  | store (declared : Bool) (name : String) (source : Source) (rest : Block)
  | assignPath (path : Expression) (rest : Block)
  | keep (name : String) (list : Expression) (parameter : String) (test : Expression)
      (rest : Block)
  | branch (condition : Expression) (body rest : Block)
  | loop (counter : String) (bound : Expression) (body rest : Block)
  | function (name first second : String) (body rest : Block)
  | giveBack (value : Expression) (rest : Block)
  deriving Repr

abbrev Block.declare := Block.store true

abbrev Block.assign := Block.store false

def Operator.symbol : Operator → String
  | .same => "==="
  | .different => "!=="
  | .atLeast => ">="
  | .below => "<"
  | .plus => "+"
  | .minus => "-"

def Expression.symbols : Expression → String
  | .name word => word
  | .hole place => String.ofList place.placeholder
  | .text content => "'" ++ content ++ "'"
  | .number amount => toString amount
  | .null => "null"
  | .group inner => "(" ++ inner.symbols ++ ")"
  | .and left right => left.symbols ++ " && " ++ right.symbols
  | .or left right => left.symbols ++ " || " ++ right.symbols
  | .binary left operator right => left.symbols ++ " " ++ operator.symbol ++ " " ++ right.symbols
  | .typeOf operand => "typeof " ++ operand.symbols
  | .member object property => object.symbols ++ "." ++ property
  | .item object key => object.symbols ++ "[" ++ key.symbols ++ "]"
  | .hasOwn object key =>
    "Object.prototype.hasOwnProperty.call(" ++ object.symbols ++ ", " ++ key.symbols ++ ")"
  | .split whole separator => whole.symbols ++ ".split(" ++ separator.symbols ++ ")"
  | .pop list => list.symbols ++ ".pop()"
  | .indexOf within part => within.symbols ++ ".indexOf(" ++ part.symbols ++ ")"
  | .charAt whole position => whole.symbols ++ ".charAt(" ++ position.symbols ++ ")"
  | .sliceFrom whole start => whole.symbols ++ ".slice(" ++ start.symbols ++ ")"
  | .slice whole start stop =>
    whole.symbols ++ ".slice(" ++ start.symbols ++ ", " ++ stop.symbols ++ ")"

def Source.symbols : Source → String
  | .value expression => expression.symbols
  | .call function first second =>
    function ++ "(" ++ first.symbols ++ ", " ++ second.symbols ++ ")"

/-- The lines of a block, each after the given margin; an empty line has none. -/
def Block.lines (margin : String) : Block → List String
  | .done => []
  | .empty rest => "" :: rest.lines margin
  | .remark text rest => (margin ++ "// " ++ text) :: rest.lines margin
  | .store declared name source rest =>
    (margin ++ (if declared then "var " else "") ++ name ++ " = " ++ source.symbols ++ ";") ::
      rest.lines margin
  | .assignPath path rest =>
    (margin ++ "request.uri = " ++ path.symbols ++ ";") :: rest.lines margin
  | .keep name list parameter test rest =>
    (margin ++ "var " ++ name ++ " = " ++ list.symbols ++ ".filter(function (" ++ parameter ++
      ") \x7b") :: (margin ++ "    return " ++ test.symbols ++ ";") :: (margin ++ "\x7d);") ::
      rest.lines margin
  | .branch condition body rest =>
    (margin ++ "if (" ++ condition.symbols ++ ") \x7b") :: body.lines (margin ++ "    ") ++
      (margin ++ "\x7d") :: rest.lines margin
  | .loop counter bound body rest =>
    (margin ++ "for (var " ++ counter ++ " = 0; " ++ counter ++ " < " ++ bound.symbols ++ "; " ++
      counter ++ "++) \x7b") :: body.lines (margin ++ "    ") ++
      (margin ++ "\x7d") :: rest.lines margin
  | .function name first second body rest =>
    (margin ++ "function " ++ name ++ "(" ++ first ++ ", " ++ second ++ ") \x7b") ::
      body.lines (margin ++ "    ") ++ (margin ++ "\x7d") :: rest.lines margin
  | .giveBack value rest => (margin ++ "return " ++ value.symbols ++ ";") :: rest.lines margin

end EdgeRoutes.Script
