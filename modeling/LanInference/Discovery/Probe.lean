/-
# The validation probe

An endpoint is a chat server if the model listing below its base URL answers with status 200 and a
JSON object that has a member `models`.

Key definitions: `probeUrl`, `isModelListing`.
-/
import LanInference.Json.Value
import LanInference.Text.Trim
import LanInference.Text.Utf8

namespace LanInference

/-- The path of the model listing. -/
def probePath : String := "/api/tags"

/-- The member that a model listing has. -/
def probeMember : String := "models"

def probeUrl (baseUrl : String) : String := Text.stripTrailing '/' baseUrl ++ probePath

/-- Whether an answer is a model listing. -/
def isModelListing (status : UInt16) (body : List UInt8) : Bool :=
  status == 200 &&
    match (Utf8.decode? body).bind Json.Node.parse? |>.bind (Json.Node.value? 0) with
    | some (.object ms) => ms.any (·.1 = probeMember)
    | _ => false

end LanInference
