import ToxEvents.Wire.Input
import ToxEvents.Text.Utf8
set_option autoImplicit false

/-!
# Files and directories

A disk is a list of files and directories seen from one working directory. A path is followed part
by part: what comes before a part has to be a directory, also before a part of one or two dots. A
path with a slash at its end leads to no file; where a file is to be written, the name before such a
slash is not even looked up. Directories above a file are there with it.
-/
namespace ToxEvents
open Wire

inductive DiskError where
  | notFound
  | permissionDenied
  | notDirectory
  | isDirectory
  | nameTooLong
  | containsNul
  | notText
deriving DecidableEq, Repr

def DiskError.message : DiskError → String
  | notFound => "No such file or directory (os error 2)"
  | permissionDenied => "Permission denied (os error 13)"
  | notDirectory => "Not a directory (os error 20)"
  | isDirectory => "Is a directory (os error 21)"
  | nameTooLong => "File name too long (os error 36)"
  | containsNul => "file name contained an unexpected NUL byte"
  | notText => "stream did not contain valid UTF-8"

/-- The names that lead from the working directory or the root to a place. -/
abbrev Route := List String

inductive DiskNode where
  | file (bytes : Bytes)
  | directory
deriving DecidableEq, Repr

structure Disk where
  files : List (Route × Bytes) := []
  directories : List Route := []
  unreadable : List Route := []
  /-- Files that may not be written, and directories in which no file may be made. -/
  unwritable : List Route := []
deriving DecidableEq, Repr

def maxNameSize : Nat := 255

def maxPathSize : Nat := 4095

namespace Disk

/-- The part of a route that stands for the root, so that absolute paths have routes too. -/
def rootPart : String := "/"

def parts (path : String) : List String :=
  (if path.startsWith "/" then [rootPart] else [])
    ++ (path.splitToList (· == '/')).filter (· != "")

def isBelow (route other : Route) : Bool := route.isPrefixOf other

/-- What a route leads to. The working directory and the root are always there. -/
def node? (disk : Disk) (route : Route) : Option DiskNode :=
  match disk.files.lookup route with
  | some bytes => some (.file bytes)
  | none =>
    if route.all (· == "..") || route == [rootPart] || disk.directories.contains route
        || disk.files.any (fun (other, _) => isBelow route other)
        || disk.directories.any (isBelow route) then some .directory
    else none

/-- The route one part further. One dot stays; two dots lead back, and on from where nothing is left
to go back. -/
def follow (here : Route) (part : String) : Route :=
  if part == "." then here
  else if part != ".." then here ++ [part]
  else if here == [rootPart] then here
  else if here.getLastD ".." == ".." then here ++ [".."]
  else here.dropLast

def walk (disk : Disk) : Route → List String → Except DiskError (Route × Option DiskNode)
  | here, [] => .ok (here, disk.node? here)
  | here, part :: rest =>
    match disk.node? here with
    | none => .error .notFound
    | some (.file _) => .error .notDirectory
    | some .directory =>
      if maxNameSize < (Utf8.encode part.toList).length then .error .nameTooLong
      else walk disk (follow here part) rest

def routeOf (path : String) : Route := (parts path).foldl follow []

/-- The parts that are followed to read a file. A slash at the end asks for a directory. -/
def partsToRead (path : String) : List String :=
  if path.endsWith "/" then parts path ++ ["."] else parts path

/-- The parts that are followed to write a file, without a name that a slash follows. -/
def partsToWrite (path : String) : List String :=
  if path.endsWith "/" then (parts path).dropLast ++ ["."] else parts path

def resolve (disk : Disk) (choose : String → List String) (path : String) :
    Except DiskError (Route × Option DiskNode) :=
  if path.contains (Char.ofNat 0) then .error .containsNul
  else if path.isEmpty then .error .notFound
  else if maxPathSize < path.utf8ByteSize then .error .nameTooLong
  else disk.walk [] (choose path)

def read (disk : Disk) (path : String) : Except DiskError Bytes :=
  match disk.resolve partsToRead path with
  | .error e => .error e
  | .ok (_, none) => .error .notFound
  | .ok (route, some node) =>
    if disk.unreadable.contains route then .error .permissionDenied else
    match node with
    | .directory => .error .isDirectory
    | .file bytes => .ok bytes

def readText (disk : Disk) (path : String) : Except DiskError (List Char) :=
  match disk.read path with
  | .error e => .error e
  | .ok bytes =>
    match Utf8.decode? bytes with
    | some text => .ok text
    | none => .error .notText

/-- Whether a path leads to a file, which need not be readable. -/
def isFile (disk : Disk) (path : String) : Bool :=
  match disk.resolve partsToRead path with
  | .ok (_, some (.file _)) => true
  | _ => false

def put (disk : Disk) (route : Route) (bytes : Bytes) : Disk :=
  { disk with files := (route, bytes) :: disk.files.filter (·.1 != route) }

/-- Whether what is at a place may not be written; a new file is up to its directory. -/
def forbids (disk : Disk) (route : Route) : Option DiskNode → Bool
  | some _ => disk.unwritable.contains route
  | none => disk.unwritable.contains route.dropLast

/-- Replaces a file's whole contents, or makes a new file. -/
def write (path : String) (bytes : Bytes) (disk : Disk) : Except DiskError Unit × Disk :=
  match disk.resolve partsToWrite path with
  | .error e => (.error e, disk)
  | .ok (route, node) =>
    if node = some .directory then (.error .isDirectory, disk)
    else if disk.forbids route node then (.error .permissionDenied, disk)
    else (.ok (), disk.put route bytes)

def pathOf (route : Route) : String :=
  if route.head? = some rootPart then rootPart ++ "/".intercalate route.tail
  else "/".intercalate route

def place (disk : Disk) (path : String) (node : DiskNode) : Disk :=
  match node with
  | .file bytes => { disk with files := (routeOf path, bytes) :: disk.files }
  | .directory => { disk with directories := routeOf path :: disk.directories }

def lock (disk : Disk) (path : String) : Disk :=
  { disk with unreadable := routeOf path :: disk.unreadable }

/-- The files of a disk that are not on it as they were before. -/
def changes (before after : Disk) : List (String × Bytes) :=
  (after.files.filter fun file => !before.files.contains file).map fun (route, bytes) =>
    (pathOf route, bytes)

def ofFiles (files : List (String × Bytes)) : Disk :=
  { files := files.map fun (path, bytes) => (routeOf path, bytes) }

end Disk

end ToxEvents
