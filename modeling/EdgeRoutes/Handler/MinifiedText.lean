import EdgeRoutes.Handler.Hole

/-! The text of the handler without blanks and comments, with the same holes.

It comes with the names of the readable text, or with names of one letter. In both forms a
string may stand between backticks, which the edge runtime accepts.
-/

set_option autoImplicit false

namespace EdgeRoutes.Handler

def minifiedPieces : List String := [
  "function handler(event)\x7bvar request=event.request;var uri=request.uri;",
  "var staticRoutes=__STATIC_ROUTES__;var routeTrie=__ROUTE_TRIE__;",
  "var suffix=__PAGE_SUFFIX__;var wildcardKey=__WILDCARD_KEY__;var pageKey=__PAGE_KEY__;",
  "var last=uri.split(`/`).pop();",
  "if(uri.indexOf(__INTERNAL_PREFIX__)===0||last&&last.indexOf(`.`)!==-1)\x7b",
  "return request\x7dif(uri.charAt(uri.length-1)===`/`)\x7buri=uri.slice(0,-1)\x7d",
  "if(uri.length>=suffix.length&&uri.slice(uri.length-suffix.length)===suffix)\x7b",
  "return request\x7dif(uri===``)\x7brequest.uri=__ROOT_PAGE__;return request\x7d",
  "if(staticRoutes.indexOf(uri)!==-1)\x7brequest.uri=uri+suffix;return request\x7d",
  "function childOf(node,key)\x7b",
  "if(Object.prototype.hasOwnProperty.call(node,key)&&typeof node[key]===`object`)\x7b",
  "return node[key]\x7dreturn null\x7d",
  "var segments=uri.split(`/`).filter(function(segment)\x7breturn segment!==``\x7d);",
  "if(segments.length===0)\x7breturn request\x7dvar node=routeTrie;",
  "for(var i=0;i<segments.length;i++)\x7bvar next=childOf(node,segments[i]);",
  "if(next===null)\x7bnext=childOf(node,wildcardKey)\x7dif(next===null)\x7b",
  "return request\x7dnode=next\x7dif(typeof node[pageKey]===`string`)\x7b",
  "request.uri=node[pageKey]+suffix\x7dreturn request\x7d"]

def mangledPieces : List String := [
  "function handler(e)\x7bvar t=e.request;var n=t.uri;var r=__STATIC_ROUTES__;",
  "var i=__ROUTE_TRIE__;var a=__PAGE_SUFFIX__;var o=__WILDCARD_KEY__;var s=__PAGE_KEY__;",
  "var c=n.split(`/`).pop();",
  "if(n.indexOf(__INTERNAL_PREFIX__)===0||c&&c.indexOf(`.`)!==-1)\x7breturn t\x7d",
  "if(n.charAt(n.length-1)===`/`)\x7bn=n.slice(0,-1)\x7d",
  "if(n.length>=a.length&&n.slice(n.length-a.length)===a)\x7breturn t\x7dif(n===``)\x7b",
  "t.uri=__ROOT_PAGE__;return t\x7dif(r.indexOf(n)!==-1)\x7bt.uri=n+a;return t\x7d",
  "function l(e,t)\x7b",
  "if(Object.prototype.hasOwnProperty.call(e,t)&&typeof e[t]===`object`)\x7b",
  "return e[t]\x7dreturn null\x7d",
  "var u=n.split(`/`).filter(function(e)\x7breturn e!==``\x7d);if(u.length===0)\x7b",
  "return t\x7dvar d=i;for(var f=0;f<u.length;f++)\x7bvar p=l(d,u[f]);if(p===null)\x7b",
  "p=l(d,o)\x7dif(p===null)\x7breturn t\x7dd=p\x7dif(typeof d[s]===`string`)\x7b",
  "t.uri=d[s]+a\x7dreturn t\x7d"]

/-- The text on one line; `mangle` asks for the short names. -/
def minifiedTemplate (mangle : Bool) : List Char :=
  (if mangle then mangledPieces else minifiedPieces).flatMap String.toList

end EdgeRoutes.Handler
