import OverrunHarness.LoadError
/-!
# File systems

The part of a file system that loading an input depends on: which places hold a file, which hold a
directory, and what the current directory is.

Design points:

* A file system is a **map from places to entries**. A place is the list of names on the way to it,
  innermost first, so that the parent of a place is its tail.
* A path is walked one component at a time (`enter`). A component is only looked at if the place
  reached so far is a directory; this is where a missing directory, a file in the middle of a path
  and a slash behind a file are noticed. An empty component and `.` stay where they are.
* The walk does not ask whether its last component exists. Loading does, and so tells a missing
  file from one that cannot be read.
* Every change is made at one place and depends on what is there (`update`); only a directory that
  is removed takes along what is in it. A change that would be refused, because a file is to replace
  a directory, say, leaves everything as it is.
-/

namespace OverrunHarness

/-- The names on the way to a place from the root, innermost first. -/
abbrev Place := List Bytes

/-- What a place holds. -/
inductive Entry
  | file (content : Bytes)
  | directory
  /-- A device that takes whatever is written to it and is always read as empty. -/
  | sink
  deriving Repr, DecidableEq

/-- The entries at all places, and the current directory. -/
structure FileSystem where
  entry : Place → Option Entry
  current : Place

/-- The byte between the components of a path. -/
def slash : UInt8 := 0x2F

/-- The pieces of a path between its slashes; there is one more than there are slashes. -/
def pathComponents : Bytes → List Bytes
  | [] => [[]]
  | b :: rest =>
    if b = slash then [] :: pathComponents rest
    else
      match pathComponents rest with
      | [] => [[b]]
      | name :: names => (b :: name) :: names

/-- A path without a slash is its only component. -/
theorem pathComponents_of_not_mem {path : Bytes} (h : slash ∉ path) :
    pathComponents path = [path] := by
  induction path with
  | nil => rfl
  | cons b rest ih =>
    simp only [List.mem_cons, not_or] at h
    simp [pathComponents, Ne.symm h.1, ih h.2]

/-- The paths to all that lies on the way to where a path leads, outermost first; the last of them
is the path itself. -/
def pathsOnTheWay : Bytes → List Bytes
  | [] => [[]]
  | b :: rest =>
    let behind := (pathsOnTheWay rest).map (b :: ·)
    if b = slash then [] :: behind else behind

/-- Nothing lies on the way to where a path without a slash leads. -/
theorem pathsOnTheWay_of_not_mem {path : Bytes} (h : slash ∉ path) :
    pathsOnTheWay path = [path] := by
  induction path with
  | nil => rfl
  | cons b rest ih =>
    simp only [List.mem_cons, not_or] at h
    simp [pathsOnTheWay, Ne.symm h.1, ih h.2]

namespace FileSystem

/-- The longest name of a single component. -/
def nameLimit : Nat := 255

/-- Paths are shorter than this. -/
def pathLimit : Nat := 4096

/-- The names of the directories at the root of the file system `fresh`. -/
def rootNames : List String :=
  ["bin", "dev", "etc", "home", "lib", "mnt", "opt", "proc", "root", "run", "sbin", "srv", "sys",
    "tmp", "usr", "var"]

/-- The current directory of `fresh`. No path can spell its name, so that nothing depends on where
it is. -/
def work : Place := [[slash], Utf8.encode "tmp"]

/-- The names of the devices of `fresh`. There is no standard input: it is the null device, too. -/
def deviceNames : List String := ["null", "stdin"]

/-- A file system with hardly more in it than the null device, seen from an empty directory. -/
def fresh : FileSystem where
  entry place :=
    if place ∈ [] :: work :: rootNames.map fun name => [Utf8.encode name] then some .directory
    else if place ∈ deviceNames.map fun name => [Utf8.encode name, Utf8.encode "dev"] then
      some .sink
    else none
  current := work

/-- Follows one component of a path. -/
def enter (fs : FileSystem) (place : Place) (name : Bytes) : Except Int Place :=
  match fs.entry place with
  | none => .error SystemError.noSuchFile
  | some (.file _) | some .sink => .error SystemError.notADirectory
  | some .directory =>
    if name = [] ∨ name = Utf8.encode "." then .ok place
    else if name = Utf8.encode ".." then .ok place.tail
    else if nameLimit < name.length then .error SystemError.nameTooLong
    else .ok (name :: place)

/-- The place that a path leads to, whether or not it holds anything. -/
def locate (fs : FileSystem) (path : Bytes) : Except Int Place :=
  if path = [] then .error SystemError.noSuchFile
  else if pathLimit ≤ path.length then .error SystemError.nameTooLong
  else
    let start := if path.head? = some slash then [] else fs.current
    (pathComponents path).foldlM fs.enter start

/-- The content of the file that a path leads to. -/
def load (fs : FileSystem) (path : Bytes) : Except LoadError Bytes :=
  if 0 ∈ path then .error ⟨.opening, path, .nulInPath⟩
  else
    match fs.locate path with
    | .error code => .error ⟨.opening, path, .system code⟩
    | .ok place =>
      match fs.entry place with
      | none => .error ⟨.opening, path, .system SystemError.noSuchFile⟩
      | some .directory => .error ⟨.reading, path, .system SystemError.isADirectory⟩
      | some (.file content) => .ok content
      | some .sink => .ok []

/-- Changes what is where a path leads. A path that leads nowhere changes nothing. -/
def update (fs : FileSystem) (path : Bytes) (change : Option Entry → Option Entry) : FileSystem :=
  match fs.locate path with
  | .error _ => fs
  | .ok place =>
    { fs with entry := fun p => if p = place then change (fs.entry place) else fs.entry p }

/-- Creates a file, or replaces its content. -/
def write (fs : FileSystem) (path content : Bytes) : FileSystem :=
  fs.update path fun
    | none | some (.file _) => some (.file content)
    | other => other

/-- Creates a directory, and before it those on the way to it that are missing. -/
def makeDirectory (fs : FileSystem) (path : Bytes) : FileSystem :=
  (pathsOnTheWay path).foldl
    (fun fs p => fs.update p fun
      | none => some .directory
      | other => other)
    fs

/-- Removes a file. -/
def remove (fs : FileSystem) (path : Bytes) : FileSystem :=
  fs.update path fun
    | some (.file _) => none
    | other => other

/-- Removes a directory, with all that is in it. -/
def removeDirectory (fs : FileSystem) (path : Bytes) : FileSystem :=
  match fs.locate path with
  | .error _ => fs
  | .ok place =>
    if fs.entry place = some .directory then
      { fs with entry := fun p => if place <:+ p then none else fs.entry p }
    else fs

@[simp] theorem current_update (fs : FileSystem) (path : Bytes)
    (change : Option Entry → Option Entry) : (fs.update path change).current = fs.current := by
  rw [update]; split <;> rfl

@[simp] theorem current_removeDirectory (fs : FileSystem) (path : Bytes) :
    (fs.removeDirectory path).current = fs.current := by
  rw [removeDirectory]
  split
  · rfl
  · split <;> rfl

end FileSystem

end OverrunHarness
