import Steward.Path

/-!
# Files and folders in memory

A tree of files and folders, in which scripts run without touching anything else. A place is the
list of names that lead to it from the root.

* `Disk.find?_put`: what is put somewhere is found there.
-/

namespace Steward.Shell

/-- The names that lead to a place from the root. -/
abbrev Place := List String

/-- The place of a path seen from a folder: empty names and `.` stay where they are, `..` leads
back. -/
def Place.of (folder : Place) (path : String) : Place :=
  let names := (Text.splitOn '/' path.toList).map String.ofList
  let start := if Text.startsWith ['/'] path.toList then [] else folder
  names.foldl (fun place name =>
    if name = "" || name = "." then place
    else if name = ".." then place.dropLast
    else place ++ [name]) start

/-- The path of a place. -/
def Place.path (place : Place) : String := "/" ++ "/".intercalate place

/-- What lies at a place. -/
inductive Entry where
  | file (content : ByteArray)
  | folder

/-- The files and folders, by their places; the root is a folder. -/
structure Disk where
  entries : List (Place × Entry) := []

namespace Disk

/-- What lies at a place. -/
def find? (d : Disk) (place : Place) : Option Entry :=
  if place = [] then some .folder else d.entries.lookup place

/-- The content of the file at a place. -/
def content? (d : Disk) (place : Place) : Option ByteArray :=
  match d.find? place with
  | some (.file content) => some content
  | _ => none

/-- Whether there is a folder at a place. -/
def isFolder (d : Disk) (place : Place) : Bool :=
  match d.find? place with
  | some .folder => true
  | _ => false

/-- The entries with one replaced, or added where there is none. -/
def putIn (place : Place) (e : Entry) : List (Place × Entry) → List (Place × Entry)
  | [] => [(place, e)]
  | (p, x) :: rest => if p = place then (p, e) :: rest else (p, x) :: putIn place e rest

/-- The disk with something at a place. -/
def put (d : Disk) (place : Place) (e : Entry) : Disk := ⟨putIn place e d.entries⟩

/-- The disk without what lies at a place and below it. -/
def remove (d : Disk) (place : Place) : Disk :=
  ⟨d.entries.filter fun (p, _) => !place.isPrefixOf p⟩

/-- The disk with a file written, if its folder is there and no folder is in its place. -/
def write? (d : Disk) (place : Place) (content : ByteArray) : Option Disk :=
  if d.isFolder place || !d.isFolder place.dropLast then none
  else some (d.put place (.file content))

/-- The disk with a folder at a place and on the way to it; `none` if a file is in the way. -/
def makeFolders? (d : Disk) (place : Place) : Option Disk :=
  go d [] place
where
  /-- Makes folders one below the other. -/
  go (d : Disk) (done : Place) : Place → Option Disk
    | [] => some d
    | name :: rest =>
      let place := done ++ [name]
      match d.find? place with
      | some .folder => go d place rest
      | some (.file _) => none
      | none => go (d.put place .folder) place rest

/-- The names of what lies in a folder. -/
def names (d : Disk) (folder : Place) : List String :=
  d.entries.filterMap fun (p, _) => if p.dropLast = folder then p.getLast? else none

/-- The disk with files in a folder, each with the folders that lead to it. -/
def ofFiles (folder : Place) (files : List (String × String)) : Disk :=
  let start := ((({} : Disk).makeFolders? folder).getD {}).put ["tmp"] .folder
  files.foldl (fun d (path, text) =>
    let place := Place.of folder path
    ((d.makeFolders? place.dropLast).getD d).put place (.file text.toUTF8)) start

theorem lookup_putIn (place other : Place) (e : Entry) (entries : List (Place × Entry)) :
    (putIn place e entries).lookup other =
      if other = place then some e else entries.lookup other := by
  induction entries with
  | nil => by_cases h : other = place <;> simp [putIn, List.lookup_cons, h, beq_false_of_ne]
  | cons f rest ih =>
    obtain ⟨p, x⟩ := f
    by_cases hp : p = place
    · subst hp
      by_cases ho : other = p <;> simp [putIn, List.lookup_cons, ho, beq_false_of_ne]
    · by_cases ho : other = p
      · subst ho
        simp [putIn, hp]
      · simp only [putIn, hp, if_false, List.lookup_cons, beq_false_of_ne ho]
        exact ih

theorem find?_put {d : Disk} {place : Place} (h : place ≠ []) (e : Entry) :
    (d.put place e).find? place = some e := by
  simp [find?, put, lookup_putIn, h]

theorem find?_put_of_ne {d : Disk} {place other : Place} (h : other ≠ place) (e : Entry) :
    (d.put place e).find? other = d.find? other := by
  simp [find?, put, lookup_putIn, h]

end Disk

end Steward.Shell
