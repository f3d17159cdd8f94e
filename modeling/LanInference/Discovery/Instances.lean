/-
# Announced instances

A resolver reports instances of a service type by their full names as they resolve and leave. The
announced instances turn those reports into services that are added and removed: an instance that
moves is removed where it was and added where it is.

Key definitions: `BrowseEvent`, `BrowseError`, `fullyQualified`, `Instances`,
`Instances.instanceName`, `Instances.resolved`, `Instances.removed`.
-/
import LanInference.Discovery.Endpoint

namespace LanInference

inductive BrowseEvent where
  | added (s : Service)
  | removed (s : Service)
  deriving Repr, DecidableEq

/-- Why browsing fails. -/
inductive BrowseError where
  | daemon (reason : String)
  /-- The daemon has stopped. -/
  | closed
  deriving Repr, DecidableEq

def BrowseError.message : BrowseError → String
  | daemon reason => "mdns daemon: " ++ reason
  | closed => "mdns daemon stopped"

/-- A service type with exactly one dot at its end. -/
def fullyQualified (serviceType : String) : String := Text.stripTrailing '.' serviceType ++ "."

/-- The instances announced during one browse pass, by their normal full names, and the ending that
the full names of the service type have. -/
structure Instances where
  ending : String
  announced : OrderedMap Service
  deriving Repr, DecidableEq

namespace Instances

/-- No instance of a service type is announced yet. -/
def ofType (serviceType : String) : Instances := ⟨"." ++ normalName serviceType, .empty⟩

def size (is : Instances) : Nat := is.announced.size

def isEmpty (is : Instances) : Bool := is.announced.isEmpty

/-- The name of an instance: its full name without dots at the end and, if something is left before
it, without the ending of the service type in any letter case. -/
def instanceName (is : Instances) (fullName : String) : String :=
  let name := (Text.stripTrailing '.' fullName).toList
  let ending := is.ending.toList
  let kept := name.length - ending.length
  if ending.length < name.length ∧ (name.drop kept).map Char.toLower = ending then
    String.ofList (name.take kept)
  else String.ofList name

/-- An instance is at these addresses and this port. The preferred address counts; a report without
an address says nothing. -/
def resolved (is : Instances) (fullName : String) (addresses : List Address) (port : UInt16) :
    Instances × List BrowseEvent :=
  match Address.preferred? addresses with
  | none => (is, [])
  | some address =>
    let service := Service.ofAddress (is.instanceName fullName) address port
    let name := normalName fullName
    let after := { is with announced := is.announced.insert name service }
    match is.announced.get? name with
    | none => (after, [.added service])
    | some old => (after, if old = service then [] else [.removed old, .added service])

/-- An instance is gone. -/
def removed (is : Instances) (fullName : String) : Instances × List BrowseEvent :=
  let name := normalName fullName
  match is.announced.get? name with
  | none => (is, [])
  | some old => ({ is with announced := is.announced.erase name }, [.removed old])

end Instances
end LanInference
