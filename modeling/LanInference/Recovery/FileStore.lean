/-
# The recovery store of a directory

Each id has a data file in one directory. A text is written to a temporary file of its own, which
then takes the data file's name, so that what a reader sees is always the old text or the new one.
Only ids of 1 to 128 ASCII letters, digits, hyphens and underscores have files.

Key definitions: `FileStore`, `FileStore.isValidId`, `FileStore.dataName`, `FileStore.tempName`,
`PutStep`, `PutStep.run`, `PutStep.runAll`, `FileStore.put`.
-/
import LanInference.Recovery.Directory
import LanInference.Recovery.Store
import LanInference.Text.Utf8

namespace LanInference

/-- A step of a write. -/
inductive PutStep where
  /-- The temporary file is made, empty. -/
  | create
  /-- Some bytes are written to it. -/
  | write (bytes : List UInt8)
  /-- What was written is made durable. -/
  | sync
  /-- The temporary file takes the name of the data file. -/
  | rename
  deriving Repr, DecidableEq

structure FileStore where
  directory : Directory
  deriving DecidableEq, Repr

namespace FileStore

/-- The ending of data files. -/
def ending : String := ".partial"

def isIdChar (c : Char) : Bool := c.isAlphanum || c == '-' || c == '_'

def isValidId (id : String) : Bool :=
  let cs := id.toList
  cs ≠ [] && decide (cs.length ≤ 128) && cs.all isIdChar

def dataName (id : String) : String := id ++ ending

def tempName (id : String) : String := "." ++ id ++ ".tmp"

/-- The id whose data file has this name. Names that start with a dot are not data files. -/
def idOfName? (name : String) : Option String :=
  let cs := name.toList
  let kept := cs.length - ending.toList.length
  if cs.head? ≠ some '.' ∧ ending.toList.length ≤ cs.length ∧ cs.drop kept = ending.toList then
    some (String.ofList (cs.take kept))
  else none

/-- The store of a directory, which is made if it is missing. -/
def openIn (d : Directory) : FileStore := ⟨if d.entries?.isNone then .empty else d⟩

end FileStore

namespace PutStep

def run (id : String) (d : Directory) : PutStep → Except FileError Directory
  | create => d.create (FileStore.tempName id)
  | write bytes => d.append (FileStore.tempName id) bytes
  | sync => .ok d
  | rename => d.rename (FileStore.tempName id) (FileStore.dataName id)

/-- Steps in order until one fails: the directory then, and whether all were done. -/
def runAll (id : String) (d : Directory) : List PutStep → Directory × Except RecoveryError Unit
  | [] => (d, .ok ())
  | s :: ss =>
    match s.run id d with
    | .ok d => runAll id d ss
    | .error _ => (d, .error .io)

/-- The steps of writing a text. -/
def plan (text : String) : List PutStep :=
  [create, write (Utf8.encode text.toList), sync, rename]

end PutStep

namespace FileStore

def put (s : FileStore) (id text : String) : FileStore × Except RecoveryError Unit :=
  if isValidId id then
    let (d, r) := PutStep.runAll id s.directory (PutStep.plan text)
    (⟨d⟩, r)
  else (s, .error (.invalidId id))

/-- The text of an id; an id without a data file has none. -/
def get (s : FileStore) (id : String) : Except RecoveryError (Option String) :=
  if isValidId id then
    match s.directory.read (dataName id) with
    | .ok bytes =>
      match Utf8.decode? bytes with
      | some cs => .ok (some (String.ofList cs))
      | none => .error .io
    | .error .notFound => .ok none
    | .error _ => .error .io
  else .error (.invalidId id)

def remove (s : FileStore) (id : String) : FileStore × Except RecoveryError Unit :=
  if isValidId id then
    match s.directory.unlink (dataName id) with
    | .ok d => (⟨d⟩, .ok ())
    | .error .notFound => (s, .ok ())
    | .error _ => (s, .error .io)
  else (s, .error (.invalidId id))

/-- The ids that have data files, in ascending order. -/
def list (s : FileStore) : Except RecoveryError (List String) :=
  if s.directory.entries?.isNone then .error .io
  else .ok ((s.directory.names.filterMap idOfName?).mergeSort fun a b => a ≤ b)

end FileStore

instance : RecoveryStore FileStore where
  put := FileStore.put
  get := FileStore.get
  remove := FileStore.remove
  list := FileStore.list

end LanInference
