import EdgeRoutes.Config.Basic
import EdgeRoutes.Handler.Template
import EdgeRoutes.Json.Printer
import EdgeRoutes.Table.Json

/-! The data of a handler and the holes of its text that they fill. -/

set_option autoImplicit false

namespace EdgeRoutes.Handler

inductive Hole where
  | staticRoutes
  | routeTrie
  | pageSuffix
  | rootPage
  | internalPrefix
  | wildcardKey
  | pageKey
  deriving DecidableEq, Repr

def Hole.placeholder : Hole → List Char
  | .staticRoutes => "__STATIC_ROUTES__".toList
  | .routeTrie => "__ROUTE_TRIE__".toList
  | .pageSuffix => "__PAGE_SUFFIX__".toList
  | .rootPage => "__ROOT_PAGE__".toList
  | .internalPrefix => "__INTERNAL_PREFIX__".toList
  | .wildcardKey => "__WILDCARD_KEY__".toList
  | .pageKey => "__PAGE_KEY__".toList

def Hole.all : List Hole :=
  [.staticRoutes, .routeTrie, .pageSuffix, .rootPage, .internalPrefix, .wildcardKey, .pageKey]

/-- What a handler knows: the static pages, the trie as JSON, and the configured texts. -/
structure Data where
  staticRoutes : List String := []
  routeTrie : Json := .object []
  pageSuffix : String := ""
  rootPage : String := ""
  internalPrefix : String := ""
  wildcardKey : String := ""
  pageKey : String := ""

namespace Data

def ofTable (config : Config) (table : RouteTable) : Data where
  staticRoutes := table.staticRoutes
  routeTrie := table.trieJson config.routes
  pageSuffix := config.matcher.pageSuffix
  rootPage := config.matcher.rootPage
  internalPrefix := config.matcher.internalPrefix
  wildcardKey := config.routes.wildcardKey
  pageKey := config.routes.pageKey

def value (data : Data) : Hole → Json
  | .staticRoutes => .strings data.staticRoutes
  | .routeTrie => data.routeTrie
  | .pageSuffix => .string data.pageSuffix
  | .rootPage => .string data.rootPage
  | .internalPrefix => .string data.internalPrefix
  | .wildcardKey => .string data.wildcardKey
  | .pageKey => .string data.pageKey

/-- The text of a template whose holes are filled with literals of the given style. -/
def fill (data : Data) (style : Json.Style) (template : List Char) : List Char :=
  Template.fill (Hole.all.map fun hole => (hole.placeholder, (data.value hole).chars style))
    template

end Data

end EdgeRoutes.Handler
