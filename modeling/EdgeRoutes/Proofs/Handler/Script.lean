import EdgeRoutes.Handler.SourceText
import EdgeRoutes.Proofs.Script.Syntax

/-! The handler as a script: its tests, and its statements from the last ones to the first. -/

set_option autoImplicit false

namespace EdgeRoutes.Handler

open Script

def stringTest : Expression :=
  .binary (.typeOf (.item (.name "node") (.name "pageKey"))) .same (.text "string")

def servePage : Block :=
  .branch stringTest
    (.assignPath
      (.binary (.item (.name "node") (.name "pageKey")) .plus (.name "suffix")) .done) <|
  .giveBack (.name "request") .done

def objectTest : Expression :=
  .and (.hasOwn (.name "node") (.name "key"))
    (.binary (.typeOf (.item (.name "node") (.name "key"))) .same (.text "object"))

def childOf : Block :=
  .branch objectTest (.giveBack (.item (.name "node") (.name "key")) .done) <|
  .giveBack .null .done

def missingTest : Expression := .binary (.name "next") .same .null

def choose (rest : Block) : Block :=
  .declare "next" (.call "childOf" (.name "node") (.item (.name "segments") (.name "i"))) <|
  .branch missingTest
    (.assign "next" (.call "childOf" (.name "node") (.name "wildcardKey")) .done) rest

def turn : Block :=
  choose <|
  .branch missingTest (.giveBack (.name "request") .done) <|
  .assign "node" (.value (.name "next")) .done

def emptyTest : Expression :=
  .binary (.member (.name "segments") "length") .same (.number 0)

def search : Block :=
  .keep "segments" (.split (.name "uri") (.text "/")) "segment"
    (.binary (.name "segment") .different (.text "")) <|
  .branch emptyTest (.giveBack (.name "request") .done) <|
  .empty <|
  .remark "Exact literal first, wildcard second, never backtrack." <|
  .declare "node" (.value (.name "routeTrie")) <|
  .loop "i" (.member (.name "segments") "length") turn <|
  .empty servePage

def endsTest : Expression :=
  .and
    (.binary (.member (.name "uri") "length") .atLeast (.member (.name "suffix") "length"))
    (.binary
      (.sliceFrom (.name "uri")
        (.binary (.member (.name "uri") "length") .minus (.member (.name "suffix") "length")))
      .same (.name "suffix"))

def rootTest : Expression := .binary (.name "uri") .same (.text "")

def listedTest : Expression :=
  .binary (.indexOf (.name "staticRoutes") (.name "uri")) .different (.number (-1))

/-- The statements that look at a path without its trailing slash. -/
def pageTests : Block :=
  .branch endsTest (.giveBack (.name "request") .done) <|
  .empty <|
  .branch rootTest (.assignPath (.hole .rootPage) <| .giveBack (.name "request") .done) <|
  .empty <|
  .branch listedTest
    (.assignPath (.binary (.name "uri") .plus (.name "suffix")) <|
      .giveBack (.name "request") .done) <|
  .empty <|
  .function "childOf" "node" "key" childOf <|
  .empty search

def slashTest : Expression :=
  .binary (.charAt (.name "uri") (.binary (.member (.name "uri") "length") .minus (.number 1)))
    .same (.text "/")

def dropSlash (rest : Block) : Block :=
  .branch slashTest
    (.assign "uri" (.value (.slice (.name "uri") (.number 0) (.number (-1)))) .done) rest

def fileTest : Expression :=
  .or (.binary (.indexOf (.name "uri") (.hole .internalPrefix)) .same (.number 0))
    (.group (.and (.name "last")
      (.binary (.indexOf (.name "last") (.text ".")) .different (.number (-1)))))

def tests : Block :=
  .remark "Runtime files and anything with an extension are served as stored." <|
  .declare "last" (.value (.pop (.split (.name "uri") (.text "/")))) <|
  .branch fileTest (.giveBack (.name "request") .done) <|
  .empty <|
  dropSlash <|
  .empty pageTests

/-- The body of the handler. -/
def script : Block :=
  .declare "request" (.value (.member (.name "event") "request")) <|
  .declare "uri" (.value (.member (.name "request") "uri")) <|
  .empty <|
  .declare "staticRoutes" (.value (.hole .staticRoutes)) <|
  .declare "routeTrie" (.value (.hole .routeTrie)) <|
  .declare "suffix" (.value (.hole .pageSuffix)) <|
  .declare "wildcardKey" (.value (.hole .wildcardKey)) <|
  .declare "pageKey" (.value (.hole .pageKey)) <|
  .empty tests

def handlerLines (body : Block) : List String :=
  "function handler(event) \x7b" :: body.lines "    " ++ ["\x7d"]

theorem sourceLines_eq : sourceLines = handlerLines script := by
  decide +kernel

end EdgeRoutes.Handler
