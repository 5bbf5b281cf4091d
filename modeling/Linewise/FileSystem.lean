import Linewise.Fault

/-!
# Files

A file system maps places to files, directories and devices. A place is the list
of names that leads to it from the root. A path is a text; it is followed name by
name from the root or from the working directory, and either leads to something,
or to a free place in an existing directory, or fails.

## Main definitions

* `FileSystem.Place`, `FileSystem.Entry` — places, and what may be there.
* `FileSystem` — the entries, and the working directory.
* `FileSystem.follow` — where a path leads.
* `FileSystem.openInput`, `FileSystem.openOutput` — the place of a file that is read or written;
  opening an output makes it, or makes it empty.
* `FileSystem.read` — opens and reads a file.
* `FileSystem.changedFiles` — the files that differ from an earlier state.
-/

namespace Linewise

namespace FileSystem

/-- **A place**: the names that lead to it from the root. -/
abbrev Place := List Bytes

/-- A device. -/
inductive Device where
  /-- Takes everything, gives nothing. -/
  | null
  /-- Takes nothing. -/
  | full
  /-- Takes everything, and says only when it is closed that there was no room for it. -/
  | remote
deriving DecidableEq, Repr

/-- **What may be at a place.** -/
inductive Entry where
  /-- A file with its content. -/
  | file (content : Bytes)
  /-- A directory. -/
  | directory
  /-- A device. -/
  | device (device : Device)
deriving DecidableEq, Repr

end FileSystem

/-- **The files**, with the directory from which relative paths start. -/
structure FileSystem where
  /-- The working directory. -/
  working : FileSystem.Place := []
  /-- What is at the places that are taken; the root is always a directory. -/
  entries : List (FileSystem.Place × FileSystem.Entry) := []
deriving Repr

namespace FileSystem

/-- What is at a place. -/
def entry? (files : FileSystem) (place : Place) : Option Entry :=
  if place.isEmpty then some .directory
  else (files.entries.find? fun entry => entry.1 = place).map Prod.snd

/-- A list of entries with one of them set. -/
def setEntry (place : Place) (entry : Entry) : List (Place × Entry) → List (Place × Entry)
  | [] => [(place, entry)]
  | other :: rest =>
    if other.1 = place then (place, entry) :: rest else other :: setEntry place entry rest

/-- Puts something at a place. -/
def put (files : FileSystem) (place : Place) (entry : Entry) : FileSystem :=
  { files with entries := setEntry place entry files.entries }

/-- The byte between the names of a path. -/
def slash : UInt8 := ascii '/'

/-- The longest name. -/
def longestName : Nat := 255

/-- The longest path. -/
def longestPath : Nat := 4095

/-- The names of a path. -/
def names (path : Bytes) : List Bytes :=
  (Bytes.splitOn [slash] path).filter fun name => !name.isEmpty

/-- **Where a path leads.** -/
inductive Destination where
  /-- To something that is there. -/
  | taken (place : Place) (entry : Entry)
  /-- To a free place in an existing directory. -/
  | free (place : Place)
deriving DecidableEq, Repr

/-- Follows names from a directory. A file or device ends the way: nothing comes after it. -/
def walk (files : FileSystem) : Place → List Bytes → Except SystemError Destination
  | place, [] => .ok (.taken place .directory)
  | place, name :: rest =>
    if name = utf8 "." then files.walk place rest
    else if name = utf8 ".." then files.walk place.dropLast rest
    else if longestName < name.length then .error .nameTooLong
    else
      match files.entry? (place ++ [name]) with
      | some .directory => files.walk (place ++ [name]) rest
      | some entry =>
        if rest.isEmpty then .ok (.taken (place ++ [name]) entry) else .error .notDirectory
      | none => if rest.isEmpty then .ok (.free (place ++ [name])) else .error .notFound

/-- Does a path ask for a directory by a slash at its end? -/
def endsInSlash (path : Bytes) : Bool :=
  path.getLast? = some slash

/-- The directory from which a path starts. -/
def start (files : FileSystem) (path : Bytes) : Place :=
  if path.head? = some slash then [] else files.working

/-- **Where a path leads.** -/
def follow (files : FileSystem) (path : Bytes) : Except SystemError Destination :=
  if path.contains 0 then .error .invalidArgument
  else if path.isEmpty then .error .notFound
  else if longestPath < path.length then .error .nameTooLong
  else files.walk (files.start path) (names path)

/-- **The place of a file to be read.** A directory can be opened, but not read. -/
def openInput (files : FileSystem) (path : Bytes) : Except SystemError Place :=
  match files.follow path with
  | .error reason => .error reason
  | .ok (.free _) => .error .notFound
  | .ok (.taken place .directory) => .ok place
  | .ok (.taken place _) => if endsInSlash path then .error .notDirectory else .ok place

/-- **Opens a file to be written**: one that is there becomes empty, one that is not is made. -/
def openOutput (files : FileSystem) (path : Bytes) : Except SystemError (FileSystem × Place) :=
  match files.follow path with
  | .error reason => .error reason
  | .ok (.free place) =>
    if endsInSlash path then .error .isDirectory else .ok (files.put place (.file []), place)
  | .ok (.taken _ .directory) => .error .isDirectory
  | .ok (.taken place entry) =>
    if endsInSlash path then .error .notDirectory
    else
      match entry with
      | .file _ => .ok (files.put place (.file []), place)
      | _ => .ok (files, place)

/-- What can be read at a place. -/
def contents (files : FileSystem) (place : Place) : Except SystemError Bytes :=
  match files.entry? place with
  | some (.file content) => .ok content
  | some (.device _) => .ok []
  | some .directory => .error .isDirectory
  | none => .error .notFound

/-- **Opens and reads a file.** -/
def read (files : FileSystem) (path : Bytes) : Except Fault Bytes :=
  match files.openInput path with
  | .error reason => .error (.system (utf8 "open") path reason)
  | .ok place =>
    match files.contents place with
    | .error reason => .error (.system (utf8 "read") path reason)
    | .ok content => .ok content

/-- **Replaces a file as a whole**, or makes it. A directory stays one. -/
def replaceFile (files : FileSystem) (path content : Bytes) : Except SystemError FileSystem :=
  match files.follow path with
  | .error reason => .error reason
  | .ok (.taken _ .directory) => .error .isDirectory
  | .ok (.taken place _) | .ok (.free place) =>
    if endsInSlash path then .error .notDirectory else .ok (files.put place (.file content))

/-- Makes the directories on the way from one place along names. -/
def makeDirectories (files : FileSystem) (place : Place) : List Bytes → FileSystem
  | [] => files
  | name :: rest =>
    let next := place ++ [name]
    let files := if (files.entry? next).isSome then files else files.put next .directory
    files.makeDirectories next rest

/-- **Puts a file at a path**, with the directories on the way to it. A path that ends in a slash
makes a directory. -/
def install (files : FileSystem) (path content : Bytes) : FileSystem :=
  let origin := files.start path
  let way := (names path).filter fun name => name ≠ utf8 "."
  if endsInSlash path then files.makeDirectories origin way
  else
    (files.makeDirectories origin way.dropLast).put (origin ++ way) (.file content)

/-- A file system with the devices and an empty working directory. -/
def workingAt (place : Place) : FileSystem :=
  let devices : FileSystem :=
    { working := place
      entries :=
        [([utf8 "dev"], .directory), ([utf8 "dev", utf8 "null"], .device .null),
          ([utf8 "dev", utf8 "full"], .device .full)] }
  devices.makeDirectories [] place

/-- An empty working directory beside the devices. -/
def fresh : FileSystem :=
  workingAt [utf8 "tmp", utf8 "work"]

/-- **The files that are new or changed** since an earlier state, with their contents. -/
def changedFiles (before after : FileSystem) : List (Place × Bytes) :=
  after.entries.filterMap fun (place, entry) =>
    match entry with
    | .file content =>
      if before.entry? place = some (.file content) then none else some (place, content)
    | _ => none

/-- The path of a place from the working directory, if it lies in there. -/
def relative? (files : FileSystem) (place : Place) : Option Bytes :=
  if files.working.isPrefixOf place then
    some (Bytes.join [slash] (place.drop files.working.length))
  else none

/-- The path of a place from the root. -/
def absolute (place : Place) : Bytes :=
  slash :: Bytes.join [slash] place

/-- **The changed files in the working directory**, by path. -/
def changes (before after : FileSystem) : List (Bytes × Bytes) :=
  (before.changedFiles after).filterMap fun (place, content) =>
    (after.relative? place).map (·, content)

end FileSystem

end Linewise
