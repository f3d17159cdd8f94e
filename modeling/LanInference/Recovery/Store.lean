/-
# Recovery stores

A recovery store keeps the partial text of streams under their session ids. Any type with the four
operations is one; the pending texts are what listing and reading give together.

Key definitions: `RecoveryError`, `RecoveryStore`, `StoreOp`, `StoreOp.apply`,
`recoverPartialResponses`, `MemoryStore`.
-/
import LanInference.OrderedMap

namespace LanInference

/-- Why a store refuses. -/
inductive RecoveryError where
  /-- Reading or writing failed. -/
  | io
  | invalidId (id : String)
  deriving Repr, DecidableEq

namespace RecoveryError

def message : RecoveryError → String
  | io => "recovery store I/O"
  | invalidId id => "invalid recovery id: " ++ id

end RecoveryError

/-- A store of partial texts by id. An operation gives the store after it, also when it fails. -/
class RecoveryStore (σ : Type) where
  put : σ → String → String → σ × Except RecoveryError Unit
  get : σ → String → Except RecoveryError (Option String)
  remove : σ → String → σ × Except RecoveryError Unit
  list : σ → Except RecoveryError (List String)

/-- A write that is owed to a store. -/
inductive StoreOp where
  | put (id text : String)
  | remove (id : String)
  deriving Repr, DecidableEq

namespace StoreOp

def id : StoreOp → String
  | put id _ => id
  | remove id => id

variable {σ : Type} [RecoveryStore σ]

def apply (op : StoreOp) (s : σ) : σ × Except RecoveryError Unit :=
  match op with
  | put id text => RecoveryStore.put s id text
  | remove id => RecoveryStore.remove s id

end StoreOp

/-- Whether the store has an entry, as far as it answers. -/
def hasEntry {σ : Type} [RecoveryStore σ] (store : σ) (id : String) : Bool :=
  match RecoveryStore.get store id with
  | .ok (some _) => true
  | _ => false

/-- The texts of these ids, added to those found so far. An id without a text is left out. -/
def collectTexts {σ : Type} [RecoveryStore σ] (s : σ) (found : OrderedMap String) :
    List String → Except RecoveryError (OrderedMap String)
  | [] => .ok found
  | id :: ids =>
    match RecoveryStore.get s id with
    | .error e => .error e
    | .ok none => collectTexts s found ids
    | .ok (some text) => collectTexts s (found.insert id text) ids

/-- The text of every pending id, or the first error. -/
def recoverPartialResponses {σ : Type} [RecoveryStore σ] (s : σ) :
    Except RecoveryError (OrderedMap String) :=
  match RecoveryStore.list s with
  | .error e => .error e
  | .ok ids => collectTexts s .empty ids

/-- A store in memory. It takes any id and never fails. -/
structure MemoryStore where
  texts : OrderedMap String := .empty
  deriving DecidableEq, Repr

instance : RecoveryStore MemoryStore where
  put s id text := (⟨s.texts.insert id text⟩, .ok ())
  get s id := .ok (s.texts.get? id)
  remove s id := (⟨s.texts.erase id⟩, .ok ())
  list s := .ok s.texts.keys

/-- The operations of a store that always fail. -/
structure Faults where
  put : Bool := false
  get : Bool := false
  remove : Bool := false
  list : Bool := false
  deriving DecidableEq, Repr

/-- A store some of whose operations always fail, changing nothing. -/
structure FaultyStore (σ : Type) where
  store : σ
  faults : Faults
  deriving DecidableEq, Repr

instance {σ : Type} [RecoveryStore σ] : RecoveryStore (FaultyStore σ) where
  put s id text :=
    if s.faults.put then (s, .error .io)
    else
      let (store, r) := RecoveryStore.put s.store id text
      ({ s with store }, r)
  get s id := if s.faults.get then .error .io else RecoveryStore.get s.store id
  remove s id :=
    if s.faults.remove then (s, .error .io)
    else
      let (store, r) := RecoveryStore.remove s.store id
      ({ s with store }, r)
  list s := if s.faults.list then .error .io else RecoveryStore.list s.store

end LanInference
