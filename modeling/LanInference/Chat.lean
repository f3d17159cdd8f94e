/-
# Chats and pulls

The providers a client can talk to, the messages of a chat, and what a stream asks of a server:
where the request goes, what it carries, and how the answer is coded.

Key definitions: `Provider`, `Provider.ofName?`, `Provider.apiBase`, `Role`, `ChatMessage`,
`StreamKind`, `StreamKind.url`, `StreamKind.body`.
-/
import LanInference.Json.Write
import LanInference.Text.Trim
import LanInference.Wire.Adapter

namespace LanInference

inductive Provider where
  /-- A server on the local network: newline-delimited JSON, no token. -/
  | ollama
  | openAi
  | openRouter
  deriving Repr, DecidableEq

namespace Provider

def name : Provider → String
  | ollama => "ollama"
  | openAi => "openai"
  | openRouter => "openrouter"

def all : List Provider := [ollama, openAi, openRouter]

/-- The provider of a name in any letter case. -/
def ofName? (s : String) : Option Provider := all.find? (·.name = s.map Char.toLower)

/-- What is said about a name that no provider has. -/
def unknownMessage (s : String) : String := "unknown provider: " ++ s

def wireFormat : Provider → WireFormat
  | ollama => .ndjson
  | _ => .sse

/-- Where a streaming chat is asked for, below the API base. -/
def chatPath : Provider → String
  | ollama => "chat"
  | _ => "chat/completions"

/-- Whether requests carry a token. -/
def requiresAuth : Provider → Bool
  | ollama => false
  | _ => true

/-- The API base of a server. -/
def apiBase (p : Provider) (server : String) : String :=
  Text.stripTrailing '/' server ++
    match p with
    | ollama => "/api"
    | _ => "/v1"

end Provider

inductive Role where
  | system
  | user
  | assistant
  deriving Repr, DecidableEq

namespace Role

def name : Role → String
  | system => "system"
  | user => "user"
  | assistant => "assistant"

def all : List Role := [system, user, assistant]

def ofName? (s : String) : Option Role := all.find? (·.name = s)

end Role

structure ChatMessage where
  role : Role
  content : String
  deriving Repr, DecidableEq

namespace ChatMessage

def node (m : ChatMessage) : Json.Node :=
  .ofMembers [("role", .ofString m.role.name), ("content", .ofString m.content)]

end ChatMessage

/-- What a stream asks for. -/
inductive StreamKind where
  | chat (provider : Provider) (model : String) (messages : List ChatMessage)
  /-- The pull of a model, which answers with progress. -/
  | pull (name : String)
  deriving Repr, DecidableEq

namespace StreamKind

def wireFormat : StreamKind → WireFormat
  | chat p _ _ => p.wireFormat
  | pull _ => .ndjson

/-- Where the request goes, below the API base. -/
def path : StreamKind → String
  | chat p _ _ => p.chatPath
  | pull _ => "pull"

def url (k : StreamKind) (apiBase : String) : String :=
  Text.stripTrailing '/' apiBase ++ "/" ++ k.path

/-- The body of the request. -/
def body : StreamKind → Json.Node
  | chat _ model messages => .ofMembers [("model", .ofString model),
      ("messages", .array (messages.map ChatMessage.node)), ("stream", .bool true)]
  | pull name => .ofMembers [("name", .ofString name)]

def requiresAuth : StreamKind → Bool
  | chat p _ _ => p.requiresAuth
  | pull _ => false

end StreamKind
end LanInference
