/-
# Requests and routes

What the servers use of `net/http`: a request, and the way a `ServeMux` finds the handler of
a path.  The multiplexer looks at the path as it is encoded in the address: it cleans that
path, and decodes its segments one by one when it compares them with those of a pattern.
The handlers see the decoded path, which begins with a slash if there is one.  Patterns with a
method, a host or a wildcard are left out, and so are requests for an asterisk and `CONNECT`
requests without a path.
-/
import Mathlib.Data.List.Basic
import Arcsent.Go.Header

namespace Arcsent.Go

open Filepath (separator)

/-- A request, with the values of its header in order. -/
structure Request where
  method : String
  path : String
  /-- What the method `EscapedPath` of its address returns. -/
  escapedPath : Bytes
  header : List (String × Bytes)
  rawQuery : Bytes
  decodes : Url.unescape .path escapedPath = some (bytes path)
  rooted : path = "" ∨ escapedPath.head? = some separator

/-- The method `Query` of the address. -/
def Request.query (req : Request) : List (Bytes × Bytes) := Url.queryPairs req.rawQuery

/-- A request without a query, for a path with nothing encoded in it. -/
def Request.plain (method path : String) (header : List (String × Bytes))
    (hpath : Url.percent ∉ bytes path ∧ (bytes path).head? = some separator) : Request :=
  ⟨method, path, bytes path, header, [], Url.unescape_path_eq_self_iff.mpr hpath.1, .inr hpath.2⟩

/-- What becomes of a request: the multiplexer answers it, or a handler is called.  A
redirection is to a place on the same server. -/
inductive Answer (η : Type)
  | status (code : ℕ)
  | redirect (place : Bytes)
  | handler (h : η)
deriving DecidableEq

/-! ## Paths -/

/-- The function `cleanPath`. -/
def cleanPath (path : Bytes) : Bytes :=
  let rooted := if path.head? = some separator then path else separator :: path
  let cleaned := Filepath.clean rooted
  if rooted.getLast? = some separator ∧ cleaned ≠ [separator] then cleaned ++ [separator]
  else cleaned

/-- The function `pathUnescape`. -/
def pathUnescape (segment : Bytes) : Bytes := (Url.unescape .path segment).getD segment

/-- The segments of a path, as `firstSegment` finds them one after the other.  A slash at the
end stands before an empty one. -/
def segments : Bytes → List Bytes
  | [] => []
  | _ :: rest => (rest.splitOn separator).map pathUnescape

/-! ## Patterns -/

/-- A pattern that a handler is registered for. -/
structure Pattern where
  segments : List Bytes
  /-- It ends in a slash. -/
  subtree : Bool
deriving DecidableEq

/-- The function `parsePattern`. -/
def parsePattern (s : String) : Pattern :=
  let parts := segments (bytes s)
  if parts.getLast? = some [] then ⟨parts.dropLast, true⟩ else ⟨parts, false⟩

/-- The pattern of a subtree is for everything below its segments, any other one for its
segments only. -/
def Pattern.matches (p : Pattern) (parts : List Bytes) : Bool :=
  if p.subtree then p.segments.isPrefixOf parts && p.segments.length < parts.length
  else parts = p.segments

/-- The patterns that handlers are registered for. -/
abbrev Routes (η : Type) := List (Pattern × η)

variable {η : Type}

/-- The route with more segments; those that match one path do not have equally many. -/
def deeper (best : Option (Pattern × η)) (e : Pattern × η) : Option (Pattern × η) :=
  match best with
  | none => some e
  | some b => if b.1.segments.length < e.1.segments.length then some e else some b

/-- The method `match` of the tree of routes, which goes down as far as it can. -/
def matchRoute (routes : Routes η) (parts : List Bytes) : Option (Pattern × η) :=
  (routes.filter fun e => e.1.matches parts).foldl deeper none

/-- The function `exactMatch`. -/
def exactMatch (route : Option (Pattern × η)) (path : Bytes) : Bool :=
  match route with
  | none => false
  | some e =>
    if !e.1.subtree then true
    else if path.getLast? ≠ some separator then false
    -- the slash at the end is a segment of the pattern as well
    else e.1.segments.length + 1 = path.count separator

/-- Whether `matchOrRedirect` asks for a slash at the end of a path. -/
def lacksSlash (routes : Routes η) (path : Bytes) : Bool :=
  let withSlash := path ++ [separator]
  !exactMatch (matchRoute routes (segments path)) path && path.getLast? ≠ some separator &&
    exactMatch (matchRoute routes (segments withSlash)) withSlash

/-! ## The multiplexer -/

/-- What `Redirect` makes of the path of a `URL`: it is encoded and cleaned once more. -/
def redirectPlace (path : Bytes) : Bytes :=
  cleanPath (Url.URL.escapedPath ⟨[], path, [], false, []⟩)

/-- Where the method `findHandler` redirects a request to. -/
def redirection (routes : Routes η) (req : Request) : Option Bytes :=
  let path := if req.method = "CONNECT" then req.escapedPath else cleanPath req.escapedPath
  if lacksSlash routes path then some (redirectPlace (cleanPath (bytes req.path) ++ [separator]))
  else if path ≠ req.escapedPath then some (redirectPlace path)
  else none

/-- The answer to a request for a path with given segments. -/
def answerAt (routes : Routes η) (parts : List Bytes) : Answer η :=
  match matchRoute routes parts with
  | none => .status 404
  | some e => .handler e.2

/-- The method `ServeHTTP` of `ServeMux`. -/
def serveMux (routes : Routes η) (req : Request) : Answer η :=
  match redirection routes req with
  | some place => .redirect place
  | none => answerAt routes (segments req.escapedPath)

/-- A subtree is served below its root only, and the deepest pattern wins. -/
example : serveMux [(parsePattern "/", 0), (parsePattern "/api/", 1)]
    (.plain "GET" "/api/x" [] (by decide)) = .handler 1 := by decide +kernel

end Arcsent.Go
