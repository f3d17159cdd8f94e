/-
# Requests for a stream

What is streamed and from where, and the HTTP request that asks for it. A request whose URL is none
of a web server, or whose token cannot stand in a header, is never sent.

Key definitions: `StreamRequest`, `StreamRequest.url`, `StreamRequest.session`,
`StreamRequest.http?`.
-/
import LanInference.Chat
import LanInference.Net.Http
import LanInference.Net.Url
import LanInference.Stream.Session

namespace LanInference

structure StreamRequest where
  id : SessionId
  kind : StreamKind
  /-- The base URL of the provider's interface, such as `http://192.168.1.20:11434/api`. -/
  apiBase : String
  token : Option String := none
  deriving Repr, DecidableEq

namespace StreamRequest

def url (r : StreamRequest) : String := r.kind.url r.apiBase

def format (r : StreamRequest) : WireFormat := r.kind.wireFormat

/-- The session that a request begins. -/
def session (r : StreamRequest) : Session := { id := r.id, url := r.url, format := r.format }

/-- The `Authorization` header. -/
def authorization (r : StreamRequest) : Option String := r.token.map ("Bearer " ++ ·)

/-- The request as it is sent. -/
def http? (r : StreamRequest) : Option HttpRequest :=
  if r.authorization.all isHeaderValue then
    (Url.parse? r.url).map fun u =>
      { method := "POST"
        target := u.target
        accept := some r.format.mediaType
        authorization := r.authorization
        contentType := some "application/json"
        body := some r.kind.body }
  else none

end StreamRequest
end LanInference
