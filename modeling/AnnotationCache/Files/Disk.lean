/-
  AnnotationCache.Files.Disk
  ──────────────────────────
  **A FILE SYSTEM AS A VALUE.**

  A disk maps locations, the lists of names from the root down, to files,
  folders and links.  Its items stand in a tree, but an item does not hold
  those below it: writing one file leaves every other location as it was.

  Paths are resolved name by name from the root or from the current folder,
  along a trail that remembers the way back up; a link on the way is replaced
  by its target, at most forty times.
-/
import AnnotationCache.Files.Access
import AnnotationCache.Files.Path
import AnnotationCache.Files.Tree

namespace AnnotationCache.Files

/-- What a file holds: a text, or bytes that are no text. -/
inductive Content where
  | text (s : String)
  | bytes (bytes : List UInt8)
  deriving DecidableEq, Repr, Inhabited

/-- An item of a disk. -/
inductive Item where
  | file (content : Content) (modified : Int)
  | folder (modified : Int)
  | link (target : String)
  deriving DecidableEq, Repr, Inhabited

/-- The kind of an item. -/
def Item.kind : Item → ItemKind
  | file _ _ => .file
  | folder _ => .folder
  | link _ => .link

/-- A file system: its items, the folder that paths start from, and the second
that writing stamps on what it writes. -/
structure Disk where
  items : Tree Item := .empty
  current : Location := []
  now : Int := 0
  deriving Inhabited, Repr

namespace Disk

/-! ## §1. Locations. -/

/-- The item at a location; the root is a folder. -/
def item? (d : Disk) (loc : Location) : Option Item :=
  if loc = [] then some (.folder 0) else d.items.get? loc

/-- The disk without the item at a location. -/
def drop (d : Disk) (loc : Location) : Disk :=
  { d with items := d.items.drop loc }

/-- The disk with an item at a location, in place of what was there. -/
def put (d : Disk) (loc : Location) (item : Item) : Disk :=
  { d with items := d.items.put loc item }

/-- The items below a location, by the names that lead to them from there. -/
def below (d : Disk) (loc : Location) : List (Location × Item) :=
  (d.items.part loc).entries

/-- The disk without a location and everything below it. -/
def dropTree (d : Disk) (loc : Location) : Disk :=
  { d with items := d.items.dropTree loc }

/-! ## §2. Paths. -/

/-- A way down from the root: the names that were passed, the last one first,
each with the part of the disk that it leads to. -/
abbrev Trail := List (String × Tree Item)

/-- Where a trail leads. -/
def Trail.location (trail : Trail) : Location :=
  (trail.map Prod.fst).reverse

/-- The item that a trail leads to. -/
def Trail.item : Trail → Option Item
  | [] => some (.folder 0)
  | (_, part) :: _ => part.value

/-- The part of the disk that a trail leads to. -/
def partAt (d : Disk) : Trail → Tree Item
  | [] => d.items
  | (_, part) :: _ => part

/-- A trail with one more name. -/
def follow (d : Disk) (trail : Trail) (name : String) : Trail :=
  (name, (d.partAt trail).branch name) :: trail

/-- The trail down to a location. -/
def trail (d : Disk) (loc : Location) : Trail :=
  loc.foldl d.follow []

theorem foldl_follow (d : Disk) (trail : Trail) (loc : Location) :
    Trail.location (loc.foldl d.follow trail) = Trail.location trail ++ loc ∧
      d.partAt (loc.foldl d.follow trail) = (d.partAt trail).part loc := by
  induction loc generalizing trail with
  | nil => simp
  | cons name rest ih =>
    obtain ⟨hloc, hpart⟩ := ih (d.follow trail name)
    rw [List.foldl_cons]
    exact ⟨by rw [hloc]; simp [follow, Trail.location], by rw [hpart]; rfl⟩

/-- The trail down to a location leads there. -/
@[simp] theorem location_trail (d : Disk) (loc : Location) :
    Trail.location (d.trail loc) = loc :=
  (d.foldl_follow [] loc).1

/-- What the trail down to a location leads to is the item there. -/
@[simp] theorem item_trail (d : Disk) (loc : Location) :
    Trail.item (d.trail loc) = d.item? loc := by
  have hloc := d.location_trail loc
  have hpart : d.partAt (d.trail loc) = d.items.part loc := (d.foldl_follow [] loc).2
  cases htrail : d.trail loc with
  | nil =>
    rw [htrail] at hloc
    simp [Trail.item, item?, ← hloc, Trail.location]
  | cons step rest =>
    rw [htrail] at hloc hpart
    have hne : loc ≠ [] := fun h => by simp [← hloc, Trail.location] at h
    simp only [item?, hne, if_false, Tree.get?, ← hpart]
    rfl

/-- The names of a path, in order; a slash at the end asks for a folder. -/
def names (path : String) : List String :=
  let pieces := Path.pieces path
  pieces.filter (· ≠ "") ++ (if pieces.getLast? = some "" then ["."] else [])

/-- How many links are followed on the way to an item. -/
def maxLinks : Nat := 40

/-- Follows names along a trail.  The last name is followed through a link only
if that is asked for, and it need not exist. -/
def walk (d : Disk) (followLast : Bool) (links : Nat) (trail : Trail) (path : List String) :
    Except FileError Location :=
  match path with
  | [] => .ok (Trail.location trail)
  | name :: rest =>
      match Trail.item trail with
      | none => .error .notFound
      | some (.file _ _) => .error .notAFolder
      | some (.link _) => .error .notAFolder
      | some (.folder _) =>
          if name = "." then d.walk followLast links trail rest
          else if name = ".." then d.walk followLast links trail.tail rest
          else if 255 < name.utf8ByteSize then .error .nameTooLong
          else
            let next := d.follow trail name
            match Trail.item next with
            | some (.link target) =>
                if rest.isEmpty && !followLast then .ok (Trail.location next)
                else
                  match links with
                  | 0 => .error .tooManyLinks
                  | links + 1 =>
                      d.walk followLast links (if Path.isAbsolute target then [] else trail)
                        (names target ++ rest)
            | _ => d.walk followLast links next rest
termination_by (links, path.length)

/-- The trail that a path starts from. -/
def start (d : Disk) (path : String) : Trail :=
  if Path.isAbsolute path then [] else d.trail d.current

/-- The location that a path leads to. -/
def locate (d : Disk) (path : String) (followLast : Bool) : Except FileError Location :=
  if path.isEmpty then .error .notFound
  else if path.toList.contains '\x00' then .error .invalidPath
  else if 4096 ≤ path.utf8ByteSize then .error .nameTooLong
  else d.walk followLast maxLinks (d.start path) (names path)

/-- The location and the item that a path leads to. -/
def find (d : Disk) (path : String) (followLast : Bool) : Except FileError (Location × Item) := do
  let loc ← d.locate path followLast
  match d.item? loc with
  | some item => return (loc, item)
  | none => throw .notFound

/-! ## §3. Requests. -/

/-- What is at a path, through links. -/
def kind (d : Disk) (path : String) : Option ItemKind :=
  match d.find path true with
  | .ok (_, item) => some item.kind
  | .error _ => none

/-- The text of a file. -/
def readText (d : Disk) (path : String) : Except FileError String := do
  match ← d.find path true with
  | (_, .file (.text s) _) => return s
  | (_, .file (.bytes _) _) => throw .notText
  | (_, .folder _) => throw .isAFolder
  | (_, .link _) => throw .tooManyLinks

/-- The second at which a file or folder was last modified. -/
def modified (d : Disk) (path : String) : Except FileError Int := do
  match ← d.find path true with
  | (_, .file _ t) => return t
  | (_, .folder t) => return t
  | (_, .link _) => throw .tooManyLinks

/-- A path without the slashes at its end; the root keeps one. -/
def withoutEnd (path : String) : String :=
  match (path.toList.reverse.dropWhile (· = '/')).reverse with
  | [] => if Path.isAbsolute path then "/" else ""
  | chars => String.ofList chars

/-- Makes one folder in a folder that exists. -/
def makeFolder (d : Disk) (path : String) : Except FileError Disk := do
  let loc ← d.locate (withoutEnd path) false
  match d.item? loc with
  | some _ => throw .alreadyExists
  | none => return d.put loc (.folder d.now)

/-- Makes the first of some folders, of which each lies in the next one, after
the others. -/
def makeChain (d : Disk) : List String → Except FileError Disk × Disk
  | [] => (.error .notFound, d)
  | path :: above =>
      let settle (failure : FileError) (d : Disk) : Except FileError Disk × Disk :=
        if d.kind path = some .folder then (.ok d, d) else (.error failure, d)
      if path.isEmpty then (.ok d, d)
      else
        match d.makeFolder path with
        | .ok d => (.ok d, d)
        | .error .notFound =>
            match d.makeChain above with
            | (.ok d, _) =>
                match d.makeFolder path with
                | .ok d => (.ok d, d)
                | .error failure => settle failure d
            | (.error failure, d) => (.error failure, d)
        | .error failure => settle failure d

/-- Makes a folder and the folders above it. -/
def makeFolders (d : Disk) (path : String) : Except FileError Unit × Disk :=
  match d.makeChain (Path.ancestors path) with
  | (.ok d, _) => (.ok ⟨⟩, d)
  | (.error failure, d) => (.error failure, d)

/-- Where a file of this path is written: an existing file, or a new one in a
folder that exists. -/
def writable (d : Disk) (path : String) : Except FileError Location := do
  if path.toList.getLast? = some '/' then throw .isAFolder
  let loc ← d.locate path true
  match d.item? loc with
  | some (.folder _) => throw .isAFolder
  | some _ => return loc
  | none =>
      match d.item? loc.dropLast with
      | some (.folder _) => return loc
      | _ => throw .notFound

/-- Writes a file. -/
def writeContent (d : Disk) (path : String) (content : Content) : Except FileError Disk := do
  return d.put (← d.writable path) (.file content d.now)

/-- The items in a folder. -/
def list (d : Disk) (path : String) : Except FileError (List (String × ItemKind)) := do
  match ← d.find path true with
  | (loc, .folder _) =>
      return (d.items.part loc).branches.filterMap fun (name, part) =>
        part.value.map fun item => (name, item.kind)
  | _ => throw .notAFolder

/-- Removes a file or a link. -/
def remove (d : Disk) (path : String) : Except FileError Disk := do
  match ← d.find path false with
  | (_, .folder _) => throw .isAFolder
  | (loc, _) => return d.drop loc

/-- Sets the modification time of what a path leads to. -/
def touch (d : Disk) (path : String) (time : Int) : Except FileError Disk := do
  match ← d.find path true with
  | (loc, .file content _) => return d.put loc (.file content time)
  | (loc, .folder _) => return d.put loc (.folder time)
  | (_, .link _) => throw .tooManyLinks

/-- Makes a link. -/
def makeLink (d : Disk) (path target : String) : Except FileError Disk := do
  let loc ← d.locate path false
  match d.item? loc with
  | some _ => throw .alreadyExists
  | none => return d.put loc (.link target)

/-- Removes an item and everything below it. -/
def removeTree (d : Disk) (path : String) : Except FileError Disk := do
  let (loc, _) ← d.find path false
  return d.dropTree loc

/-! ## §4. A disk answers requests. -/

/-- A request that changes the disk only if it succeeds. -/
def update (change : Disk → Except FileError Disk) : ExceptT FileError (StateM Disk) PUnit :=
  ExceptT.mk fun d =>
    match change d with
    | .ok d => (.ok ⟨⟩, d)
    | .error failure => (.error failure, d)

/-- **The requests, answered by a disk.** -/
def files : Access (StateM Disk) where
  kind path := fun d => (d.kind path, d)
  readText path := ExceptT.mk fun d => (d.readText path, d)
  modified path := ExceptT.mk fun d => (d.modified path, d)
  makeFolders path := ExceptT.mk fun d => d.makeFolders path
  write path text := update (·.writeContent path (.text text))
  list path := ExceptT.mk fun d => (d.list path, d)
  remove path := update (·.remove path)

end Disk

end AnnotationCache.Files
