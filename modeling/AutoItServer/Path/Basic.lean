import AutoItServer.Text.Basic
import AutoItServer.Text.Case

/-!
Paths of files, spelled with `/`.

A path keeps its spelling, but two paths are the same when their components are: repeated slashes, a
dot in the middle and a slash at the end do not count.

* `Path.components`: the root, a leading dot, `..` and names.
* `Path.same`, `Path.le`: equality and order by components.
* `Path.join`, `Path.parent?`, `Path.fileName?`, `Path.extension?`: the usual operations.
-/

namespace AutoItServer

/-- A path as it is spelled. -/
structure Path where
  text : Text
deriving Repr, DecidableEq, Inhabited

namespace Path

/-- A part of a path. -/
inductive Component where
  | root
  | current
  | parent
  | name (n : Text)
deriving Repr, DecidableEq

namespace Component

/-- The spelling of a component. -/
def text : Component → Text
  | root => ['/']
  | current => ['.']
  | parent => ['.', '.']
  | name n => n

/-- The place of the kinds of components in the order. -/
def rank : Component → Nat
  | root => 0
  | current => 1
  | parent => 2
  | name _ => 3

/-- Roots come before dots, dots before names, and names follow their characters. -/
def le : Component → Component → Bool
  | name a, name b => Text.le a b
  | a, b => a.rank ≤ b.rank

/-- Whether a component is a name. -/
def isName : Component → Bool
  | name _ => true
  | _ => false

end Component

/-- A path from a literal. -/
def ofString (s : String) : Path :=
  ⟨s.toList⟩

/-- Whether a path starts at the root. -/
def isAbsolute (p : Path) : Bool :=
  p.text.head? == some '/'

/-- The component of one part between slashes, if it counts. `first` says whether nothing stands
before it. -/
def component? (first : Bool) (part : Text) : Option Component :=
  if part.isEmpty then none
  else if part = ['.'] then if first then some .current else none
  else if part = ['.', '.'] then some .parent
  else some (.name part)

/-- The components of a path. -/
def components (p : Path) : List Component :=
  match Text.splitOnChar '/' p.text with
  | [] => []
  | part :: parts =>
    let rest := parts.filterMap (component? false)
    if p.isAbsolute then .root :: rest else (component? true part).toList ++ rest

/-- Whether two paths have the same components. -/
def same (p q : Path) : Bool :=
  p.components == q.components

/-- Lists of components in the order of their first difference, the shorter one first. -/
def componentsLe : List Component → List Component → Bool
  | [], _ => true
  | _ :: _, [] => false
  | a :: as, b :: bs => if a = b then componentsLe as bs else a.le b

/-- The order of paths by components. -/
def le (p q : Path) : Bool :=
  componentsLe p.components q.components

/-- The components written out. -/
def ofComponents : List Component → Path
  | .root :: rest => ⟨'/' :: Text.join ['/'] (rest.map Component.text)⟩
  | parts => ⟨Text.join ['/'] (parts.map Component.text)⟩

/-- The second path seen from the first one. An absolute path stays as it is. -/
def join (p q : Path) : Path :=
  if q.isAbsolute then q
  else if p.text.isEmpty || p.text.getLast? = some '/' then ⟨p.text ++ q.text⟩
  else ⟨p.text ++ '/' :: q.text⟩

/-- The path without its last component; the root and the empty path have none. -/
def parent? (p : Path) : Option Path :=
  match p.components.getLast? with
  | none => none
  | some .root => none
  | some _ => some (ofComponents p.components.dropLast)

/-- The last component, if it is a name. -/
def fileName? (p : Path) : Option Text :=
  match p.components.getLast? with
  | some (.name n) => some n
  | _ => none

/-- The part of a file name after its last dot. A name without dot, or with none but the first
character, has no extension. -/
def extensionOf? (name : Text) : Option Text :=
  if name.contains '.' then
    let ext := (name.reverse.takeWhile (· ≠ '.')).reverse
    if ext.length + 1 = name.length then none else some ext
  else none

/-- The extension of a file name. -/
def extension? (p : Path) : Option Text :=
  p.fileName?.bind extensionOf?

/-- The name shown for a file: its last component, or the whole path. -/
def label (p : Path) : Text :=
  p.fileName?.getD p.text

end Path

end AutoItServer
