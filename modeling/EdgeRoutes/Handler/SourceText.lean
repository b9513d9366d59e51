import EdgeRoutes.Handler.Hole

/-! The text of the handler, with holes for the data.

The handler runs at the edge, before a stored file is served, and takes the steps of
`RouteTable.resolve` over the data that fills its holes. It is written in ECMAScript 5.1.
-/

set_option autoImplicit false

namespace EdgeRoutes.Handler

def sourceLines : List String := [
  "function handler(event) \x7b",
  "    var request = event.request;",
  "    var uri = request.uri;",
  "",
  "    var staticRoutes = __STATIC_ROUTES__;",
  "    var routeTrie = __ROUTE_TRIE__;",
  "    var suffix = __PAGE_SUFFIX__;",
  "    var wildcardKey = __WILDCARD_KEY__;",
  "    var pageKey = __PAGE_KEY__;",
  "",
  "    // Runtime files and anything with an extension are served as stored.",
  "    var last = uri.split('/').pop();",
  "    if (uri.indexOf(__INTERNAL_PREFIX__) === 0 || (last && last.indexOf('.') !== -1)) \x7b",
  "        return request;",
  "    \x7d",
  "",
  "    if (uri.charAt(uri.length - 1) === '/') \x7b",
  "        uri = uri.slice(0, -1);",
  "    \x7d",
  "",
  "    if (uri.length >= suffix.length && uri.slice(uri.length - suffix.length) === suffix) \x7b",
  "        return request;",
  "    \x7d",
  "",
  "    if (uri === '') \x7b",
  "        request.uri = __ROOT_PAGE__;",
  "        return request;",
  "    \x7d",
  "",
  "    if (staticRoutes.indexOf(uri) !== -1) \x7b",
  "        request.uri = uri + suffix;",
  "        return request;",
  "    \x7d",
  "",
  "    function childOf(node, key) \x7b",
  "        if (Object.prototype.hasOwnProperty.call(node, key) && typeof node[key] === 'object') \x7b",
  "            return node[key];",
  "        \x7d",
  "        return null;",
  "    \x7d",
  "",
  "    var segments = uri.split('/').filter(function (segment) \x7b",
  "        return segment !== '';",
  "    \x7d);",
  "    if (segments.length === 0) \x7b",
  "        return request;",
  "    \x7d",
  "",
  "    // Exact literal first, wildcard second, never backtrack.",
  "    var node = routeTrie;",
  "    for (var i = 0; i < segments.length; i++) \x7b",
  "        var next = childOf(node, segments[i]);",
  "        if (next === null) \x7b",
  "            next = childOf(node, wildcardKey);",
  "        \x7d",
  "        if (next === null) \x7b",
  "            return request;",
  "        \x7d",
  "        node = next;",
  "    \x7d",
  "",
  "    if (typeof node[pageKey] === 'string') \x7b",
  "        request.uri = node[pageKey] + suffix;",
  "    \x7d",
  "    return request;",
  "\x7d"]

/-- The text starts with an empty line, and every line ends with a line feed. -/
def sourceTemplate : List Char :=
  '\n' :: sourceLines.flatMap fun line => line.toList ++ ['\n']

end EdgeRoutes.Handler
