import AutoItServer.Path.Basic

/-!
The disk: directories, and files with their bytes and the time of their last change.

A relative path starts at the working directory. There are no links: a thing is reached by the names
on the way to it, and by `..`.

* `Disk.locate?`: the place that a path leads to, name by name; every step but the last goes through
  a directory that exists.
* `Disk.file?`, `Disk.isFile`: the file at a path.
* `Disk.write`, `Disk.delete`, `Disk.makeDirectory`: changes of the disk.
* `File.text?`: the text of a file, if its bytes are UTF-8.
-/

namespace AutoItServer

/-- A file: its bytes, and when it was last changed. -/
structure File where
  bytes : List UInt8
  modified : Nat
deriving Repr, DecidableEq

namespace File

/-- The bytes of a text. -/
def encode (t : Text) : List UInt8 :=
  t.flatMap String.utf8EncodeChar

/-- The text of a file, if its bytes are UTF-8. -/
def text? (f : File) : Option Text :=
  (String.fromUTF8? ⟨f.bytes.toArray⟩).map String.toList

/-- The number of bytes. -/
def size (f : File) : Nat :=
  f.bytes.length

end File

/-- What stands at a place of the disk. -/
inductive Node where
  | directory
  | file (f : File)
deriving Repr, DecidableEq

/-- The disk: what stands at which place, a place being the names from the root on, and the place
that is the working directory, if there is one. The root itself is always a directory. -/
structure Disk where
  nodes : List (List Text × Node)
  workingDirectory : Option (List Text)
deriving Repr, DecidableEq

namespace Disk

/-- A disk with nothing on it, and without working directory. -/
def empty : Disk :=
  ⟨[], none⟩

/-- What stands at a place. -/
def node? (d : Disk) (place : List Text) : Option Node :=
  if place.isEmpty then some .directory else (d.nodes.find? fun n => n.1 == place).map Prod.snd

/-- Whether a place is a directory. -/
def isDirectoryAt (d : Disk) (place : List Text) : Bool :=
  d.node? place == some .directory

/-- The place reached from a directory by the parts of a path. -/
def locateFrom? (d : Disk) (place : List Text) : List Text → Option (List Text)
  | [] => some place
  | part :: parts =>
    if !d.isDirectoryAt place then none
    else if part = [] ∨ part = ['.'] then locateFrom? d place parts
    else if part = ['.', '.'] then locateFrom? d place.dropLast parts
    else if (d.node? (place ++ [part])).isSome then locateFrom? d (place ++ [part]) parts
    else none

/-- The place where a path starts: the root, or the working directory. The empty path starts
nowhere. -/
def startOf? (d : Disk) (p : Path) : Option (List Text) :=
  if p.isAbsolute then some [] else if p.text.isEmpty then none else d.workingDirectory

/-- The place that a path leads to. -/
def locate? (d : Disk) (p : Path) : Option (List Text) :=
  (d.startOf? p).bind fun place => locateFrom? d place (Text.splitOnChar '/' p.text)

/-- The file at a path. -/
def file? (d : Disk) (p : Path) : Option File :=
  match (d.locate? p).bind d.node? with
  | some (.file f) => some f
  | _ => none

/-- Whether a path leads to a file. -/
def isFile (d : Disk) (p : Path) : Bool :=
  (d.file? p).isSome

/-- Whether a path leads to anything. -/
def contains (d : Disk) (p : Path) : Bool :=
  (d.locate? p).isSome

/-- The text of the file at a path. -/
def text? (d : Disk) (p : Path) : Option Text :=
  (d.file? p).bind File.text?

/-- Puts something at a place. -/
def set (d : Disk) (place : List Text) (n : Node) : Disk :=
  { d with nodes := (d.nodes.filter fun e => !(e.1 == place)) ++ [(place, n)] }

/-- Makes the directories on the way to a place, itself included. -/
def makeDirectories (d : Disk) (place : List Text) : List Text → Disk
  | [] => d
  | part :: parts =>
    let next := place ++ [part]
    let d' := if (d.node? next).isSome then d else d.set next .directory
    makeDirectories d' next parts

/-- The place that the components of a path lead to from another place, whatever stands there. -/
def placeFrom (place : List Text) (p : Path) : List Text :=
  p.components.foldl (fun place c => match c with
    | .name n => place ++ [n]
    | .parent => place.dropLast
    | _ => place) place

/-- The names on the way of an absolute path, dots taken out. -/
def placeOf (p : Path) : List Text :=
  placeFrom [] p

/-- The place that a path names, whether something stands there or not. -/
def placeFor? (d : Disk) (p : Path) : Option (List Text) :=
  (d.startOf? p).map fun place => placeFrom place p

/-- Makes a directory and those above it. -/
def makeDirectory (d : Disk) (p : Path) : Disk :=
  match d.placeFor? p with
  | some place => makeDirectories d [] place
  | none => d

/-- Writes a file, with the directories above it. -/
def write (d : Disk) (p : Path) (f : File) : Disk :=
  match d.placeFor? p with
  | some place => (makeDirectories d [] place.dropLast).set place (.file f)
  | none => d

/-- Deletes the file at a path. -/
def delete (d : Disk) (p : Path) : Disk :=
  match d.locate? p with
  | some place =>
    if d.isFile p then { d with nodes := d.nodes.filter fun e => !(e.1 == place) } else d
  | none => d

end Disk

end AutoItServer
