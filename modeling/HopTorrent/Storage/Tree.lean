import HopTorrent.Storage.Database
import HopTorrent.Storage.Location
import HopTorrent.Text.Cut

/-!
# Storage/Tree — directories and files, as far as databases need them

A tree knows what stands at a path.  Opening a database makes the directories above it, and fails
where a file is in the way, where a directory has its name, or where the file is no database.
-/

namespace HopTorrent.Storage

/-- What stands at a path. -/
inductive Node where
  | directory
  /-- A file that is no database. -/
  | plain
  | database (c : Contents)

/-- A place in the tree: names from the root down. -/
abbrev Path := List String

/-- What stands where; the root is always a directory. -/
structure Tree where
  nodes : Table Path Node
  /-- Where relative paths start. -/
  here : Path

namespace Tree

/-- The place that names lead to from another one: a dot stays, two dots go up. -/
def walk (start : Path) : List (List Char) → Path
  | [] => start
  | name :: rest =>
    if name.isEmpty ∨ name = ['.'] then walk start rest
    else if name = ['.', '.'] then walk start.dropLast rest
    else walk (start ++ [String.ofList name]) rest

/-- The place a path names. -/
def locate (t : Tree) (path : String) : Path :=
  walk (if path.startsWith "/" then [] else t.here) (Text.pieces '/' path.toList)

/-- The directory part of a path: all but its last name. -/
def parentOf (path : String) : String :=
  match Text.cutLast '/' path.toList with
  | some (dir, _) => if dir.isEmpty then "/" else String.ofList dir
  | none => ""

/-- What stands at a place. -/
def nodeAt (t : Tree) (p : Path) : Option Node :=
  if p.isEmpty then some .directory else t.nodes.get? p

/-- Puts something at a place. -/
def place (t : Tree) (p : Path) (n : Node) : Tree := { t with nodes := t.nodes.put p n }

/-- Why a directory cannot be made. -/
inductive Obstacle where
  /-- A name on the way is a file. -/
  | notDirectory
  /-- The name itself is a file. -/
  | exists_
deriving DecidableEq, Repr

/-- The text of an obstacle. -/
def Obstacle.message : Obstacle → String
  | notDirectory => "Not a directory (os error 20)"
  | exists_ => "File exists (os error 17)"

/-- Makes the directories from a place down to another, along the names between them. -/
def makeFrom (t : Tree) (start : Path) : List String → Except Obstacle Tree
  | [] => .ok t
  | name :: rest =>
    let p := start ++ [name]
    match t.nodeAt p with
    | some .directory => makeFrom t p rest
    | some _ => .error (if rest.isEmpty then .exists_ else .notDirectory)
    | none => makeFrom (t.place p .directory) p rest

/-- **Makes a directory** and those above it. -/
def makeDirectories (t : Tree) (path : String) : Except Obstacle Tree :=
  if path.isEmpty then .ok t else t.makeFrom [] (t.locate path)

/-- Whether a location is in memory, and so leaves nothing in the tree. -/
def vanishes (l : Location) : Bool := l.inMemory || l.path = ":memory:"

/-- Writes a database to its place. -/
def saveDatabase (t : Tree) (l : Location) (db : Database) : Tree :=
  if vanishes l then t else t.place (t.locate l.path) (.database db.contents)

/-- The contents of the database at a path, new ones if nothing stands there. -/
def contentsAt (t : Tree) (path : String) : Option Contents :=
  if path.endsWith "/" then none
  else
    match t.nodeAt (t.locate path) with
    | some (.database c) => some c
    | some _ => none
    | none => some .blank

/-- **Opens a database.** -/
def openDatabase (t : Tree) (l : Location) : Except Error (Database × Tree) :=
  if vanishes l then .ok (.empty, t)
  else
    match t.makeDirectories (parentOf l.path) with
    | .error o => .error (.storage ("failed to create directory: " ++ o.message))
    | .ok t =>
      match t.contentsAt l.path with
      | none => .error (.storage "failed to open database")
      | some c =>
        let db := Database.ofContents c
        .ok (db, t.saveDatabase l db)

end Tree

end HopTorrent.Storage
