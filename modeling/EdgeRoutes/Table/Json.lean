import EdgeRoutes.Config.Basic
import EdgeRoutes.Json.Basic
import EdgeRoutes.Table.Basic

/-! The table as JSON.

A node becomes one object that holds its literals under their names, its wildcard under the
wildcard key and its page under the page key. The three share one space of keys: of two that
meet under one key the wildcard replaces a literal, and the page replaces both.
-/

set_option autoImplicit false

namespace EdgeRoutes

def RouteConfig.withPage (keys : RouteConfig) (page : Option String)
    (members : List (String × Json)) : List (String × Json) :=
  match page with
  | none => members
  | some page => Members.insert keys.pageKey (.string page) members

/-- Adds the children of a node to the members collected so far. -/
def Choices.members (keys : RouteConfig) :
    Choices → List (String × Json) → List (String × Json)
  | .none, collected => collected
  | .wildcard page below, collected =>
    Members.insert keys.wildcardKey (.object (keys.withPage page (below.members keys []))) collected
  | .literal name page below others, collected =>
    others.members keys
      (Members.insert name (.object (keys.withPage page (below.members keys []))) collected)

def TableNode.toJson (keys : RouteConfig) (node : TableNode) : Json :=
  .object (keys.withPage node.page (node.choices.members keys []))

namespace RouteTable

def staticRoutesJson (table : RouteTable) : Json := .strings table.staticRoutes

def trieJson (keys : RouteConfig) (table : RouteTable) : Json := table.root.toJson keys

def toJson (keys : RouteConfig) (table : RouteTable) : Json :=
  .object [("dynamicRoutes", table.trieJson keys), ("staticRoutes", table.staticRoutesJson)]

end RouteTable

end EdgeRoutes
