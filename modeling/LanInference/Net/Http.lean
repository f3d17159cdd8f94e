/-
# Requests over HTTP

A request as its server sees it. A header can hold any text without control characters; a tab is
none of them.

Key definitions: `HttpRequest`, `isHeaderValue`.
-/
import LanInference.Json.Node

namespace LanInference

structure HttpRequest where
  method : String
  /-- The path and the query. -/
  target : String
  accept : Option String := none
  authorization : Option String := none
  contentType : Option String := none
  cacheControl : Option String := none
  body : Option Json.Node := none

/-- Whether a text can stand in a header. -/
def isHeaderValue (s : String) : Bool :=
  s.toList.all fun c => (' ' ≤ c && c.toNat != 0x7F) || c == '\t'

end LanInference
