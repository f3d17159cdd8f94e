/-
# A directory of files

One directory as a recovery store sees it: it may be missing, and each name in it belongs to a
file, to a file that is locked, or to a directory in the way. Operations fail as a file system's do:
nothing can be created in a missing directory, a directory can be neither read, written, replaced
nor unlinked, and a locked file can be read only. As far as its files go, a directory without write
permission, or on a medium mounted for reading, is one in which all of them are locked.

Key definitions: `DirectoryEntry`, `Directory`, `Directory.refusal?`, `Directory.create`,
`Directory.append`, `Directory.rename`, `Directory.read`, `Directory.unlink`.
Key theorems: `Directory.find?_bindEntry`, `Directory.find?_unbind`, `Directory.mem_names_iff`.
-/
import LanInference.OrderedMap

namespace LanInference

inductive DirectoryEntry where
  | file (bytes : List UInt8)
  /-- A file that may be read, and neither written, replaced nor unlinked. -/
  | locked (bytes : List UInt8)
  | folder
  deriving Repr, DecidableEq

/-- Why a file operation fails. -/
inductive FileError where
  | notFound
  | inTheWay
  | refused
  deriving Repr, DecidableEq

/-- Why what has a name can be neither replaced nor unlinked. -/
def DirectoryEntry.refusal? : DirectoryEntry → Option FileError
  | file _ => none
  | locked _ => some .refused
  | folder => some .inTheWay

/-- A directory's entries by name, or nothing if the directory is missing. -/
structure Directory where
  entries? : Option (OrderedMap DirectoryEntry)
  deriving DecidableEq, Repr

namespace Directory

def missing : Directory := ⟨none⟩

def empty : Directory := ⟨some .empty⟩

/-- What a name belongs to. -/
def find? (d : Directory) (name : String) : Option DirectoryEntry := d.entries?.bind (·.get? name)

/-- The names in the directory, in ascending order. -/
def names (d : Directory) : List String :=
  match d.entries? with
  | some es => es.keys
  | none => []

/-- The directory with a name bound, if the directory is there. -/
def bindEntry (d : Directory) (name : String) (e : DirectoryEntry) : Directory :=
  ⟨d.entries?.map (·.insert name e)⟩

/-- The directory without a name. -/
def unbind (d : Directory) (name : String) : Directory := ⟨d.entries?.map (·.erase name)⟩

/-- Why no new file can take a name. A name that is free can be taken. -/
def refusal? (d : Directory) (name : String) : Option FileError :=
  (d.find? name).bind DirectoryEntry.refusal?

/-- Makes an empty file of this name, in the place of a file that has it. -/
def create (d : Directory) (name : String) : Except FileError Directory :=
  if d.entries?.isNone then .error .notFound
  else match d.refusal? name with
    | some e => .error e
    | none => .ok (d.bindEntry name (.file []))

/-- Writes at the end of a file. -/
def append (d : Directory) (name : String) (bytes : List UInt8) : Except FileError Directory :=
  match d.find? name with
  | some (.file old) => .ok (d.bindEntry name (.file (old ++ bytes)))
  | some (.locked _) => .error .refused
  | some .folder => .error .inTheWay
  | none => .error .notFound

/-- Gives a file another name, in the place of a file that has it. -/
def rename (d : Directory) (source target : String) : Except FileError Directory :=
  match d.find? source with
  | some (.file bytes) =>
    match d.refusal? target with
    | some e => .error e
    | none => .ok ((d.unbind source).bindEntry target (.file bytes))
  | some (.locked _) => .error .refused
  | some .folder => .error .inTheWay
  | none => .error .notFound

/-- The bytes of a file. -/
def read (d : Directory) (name : String) : Except FileError (List UInt8) :=
  match d.find? name with
  | some (.file bytes) | some (.locked bytes) => .ok bytes
  | some .folder => .error .inTheWay
  | none => .error .notFound

/-- Takes a file away. -/
def unlink (d : Directory) (name : String) : Except FileError Directory :=
  if d.find? name = none then .error .notFound
  else match d.refusal? name with
    | some e => .error e
    | none => .ok (d.unbind name)

/-! ### What names belong to -/

theorem ne_missing_iff {d : Directory} : d ≠ missing ↔ ∃ es, d.entries? = some es := by
  rcases d with ⟨_ | es⟩ <;> simp [missing]

/-- In a directory that is there a name can be bound, and other names keep what they belong to. -/
theorem find?_bindEntry {d : Directory} (h : d ≠ missing) (name : String) (e : DirectoryEntry)
    (other : String) :
    (d.bindEntry name e).find? other = if other = name then some e else d.find? other := by
  obtain ⟨es, hes⟩ := ne_missing_iff.mp h
  rw [find?, bindEntry, hes, find?, hes]
  exact es.get?_insert name e other

theorem find?_unbind (d : Directory) (name other : String) :
    (d.unbind name).find? other = if other = name then none else d.find? other := by
  unfold find? unbind
  cases d.entries? with
  | none => simp
  | some es => exact es.get?_erase name other

/-- In a directory that is there, what a name is bound to decides who can take it. -/
theorem refusal?_bindEntry {d : Directory} (h : d ≠ missing) (name : String) (e : DirectoryEntry)
    (other : String) : (d.bindEntry name e).refusal? other =
      if other = name then e.refusal? else d.refusal? other := by
  rw [refusal?, find?_bindEntry h]
  split <;> rfl

theorem refusal?_unbind (d : Directory) (name other : String) :
    (d.unbind name).refusal? other = if other = name then none else d.refusal? other := by
  rw [refusal?, find?_unbind]
  split <;> rfl

theorem refusal?_congr {d d' : Directory} {name : String} (h : d.find? name = d'.find? name) :
    d.refusal? name = d'.refusal? name :=
  congrArg (·.bind DirectoryEntry.refusal?) h

/-- Only what is there is read. -/
theorem isSome_find?_of_read {d : Directory} {name : String} {bytes : List UInt8}
    (h : d.read name = .ok bytes) : (d.find? name).isSome = true := by
  cases hfind : d.find? name with
  | none =>
    rw [read, hfind] at h
    cases h
  | some e => rfl

theorem read_ne_notFound {d : Directory} {name : String} (h : (d.find? name).isSome = true) :
    d.read name ≠ .error .notFound := by
  obtain ⟨e, he⟩ := Option.isSome_iff_exists.mp h
  rw [read, he]
  cases e <;> simp

theorem refusal?_of_file {d : Directory} {name : String} {bytes : List UInt8}
    (h : d.find? name = some (.file bytes)) : d.refusal? name = none := by
  rw [refusal?, h]
  rfl

/-- What is refused is there. -/
theorem refusal?_ne_notFound (d : Directory) (name : String) :
    d.refusal? name ≠ some .notFound := by
  unfold refusal?
  cases d.find? name with
  | none => simp
  | some e => cases e <;> simp [DirectoryEntry.refusal?]

/-- A file is unlinked unless that is refused. -/
theorem unlink_eq_ok {d : Directory} {name : String} (h : d.find? name ≠ none)
    (hfree : d.refusal? name = none) : d.unlink name = .ok (d.unbind name) := by
  rw [unlink, if_neg h, hfree]

theorem unlink_eq_error {d : Directory} {name : String} {e : FileError}
    (h : d.refusal? name = some e) : d.unlink name = .error e := by
  have hfind : d.find? name ≠ none := fun hnone => by
    rw [refusal?, hnone] at h
    cases h
  rw [unlink, if_neg hfind, h]

theorem bindEntry_ne_missing {d : Directory} (h : d ≠ missing) (name : String)
    (e : DirectoryEntry) : d.bindEntry name e ≠ missing := by
  obtain ⟨es, hes⟩ := ne_missing_iff.mp h
  exact ne_missing_iff.mpr ⟨es.insert name e, by rw [bindEntry, hes]; rfl⟩

theorem unbind_ne_missing {d : Directory} (h : d ≠ missing) (name : String) :
    d.unbind name ≠ missing := by
  obtain ⟨es, hes⟩ := ne_missing_iff.mp h
  exact ne_missing_iff.mpr ⟨es.erase name, by rw [unbind, hes]; rfl⟩

/-- The names in a directory are those that belong to something. -/
theorem mem_names_iff {d : Directory} {name : String} : name ∈ d.names ↔ (d.find? name).isSome := by
  unfold names find?
  cases d.entries? with
  | none => simp
  | some es => exact OrderedMap.mem_keys_iff

theorem names_ascending (d : Directory) : d.names.Pairwise (· < ·) := by
  unfold names
  cases d.entries? with
  | none => exact List.Pairwise.nil
  | some es => exact es.keys_ascending

end Directory
end LanInference
