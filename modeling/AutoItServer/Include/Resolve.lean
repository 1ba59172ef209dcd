import AutoItServer.Disk.Basic
import AutoItServer.Include.Directive
import AutoItServer.Path.Normalize

/-!
From a directive to a file.

* `Include.search?`: a file name looked for in a list of directories, of which the first is the
  library directory. The library can be moved behind the others.
* `Include.beside?`: a file name looked for in the directory of a document.
* `Include.resolve`: the file of a directive, or `notFound`.
-/

namespace AutoItServer

namespace Include

/-- Why there is no file for a line. -/
inductive Error where
  | notFound (spec : Text)
  | notADirective
deriving Repr, DecidableEq

/-- The wording of an error. -/
def Error.message : Error → Text
  | notFound spec => "Include file not found: ".toList ++ spec
  | notADirective => "Line is not an #include directive".toList

/-- A file name as a path: backslashes are separators too. -/
def specPath (spec : Text) : Path :=
  ⟨spec.map fun c => if c = '\\' then '/' else c⟩

/-- The file name with `.au3` if it has no extension. -/
def withExtension (spec : Text) : Text :=
  if (specPath spec).extension?.isSome then spec else spec ++ ".au3".toList

/-- The normal form of a path, if that is a file. -/
def existing? (d : Disk) (p : Path) : Option Path :=
  p.normalize?.filter d.isFile

/-- The directories in the order in which they are searched. -/
def searchOrder (libraryFirst : Bool) (directories : List Path) : List Path :=
  match directories with
  | library :: rest => if libraryFirst then directories else rest ++ [library]
  | [] => []

/-- The first file of a name in a list of directories. An absolute name is looked for as it is. -/
def search? (d : Disk) (spec : Text) (directories : List Path) (libraryFirst : Bool) :
    Option Path :=
  if spec.isEmpty then none
  else
    let p := specPath spec
    if p.isAbsolute then existing? d p
    else (searchOrder libraryFirst directories).findSome? fun dir => existing? d (dir.join p)

/-- The file of a name in the directory of a document. -/
def beside? (d : Disk) (document : Path) (spec : Text) : Option Path :=
  let p := specPath spec
  if p.isAbsolute then existing? d p
  else document.parent?.bind fun dir => existing? d (dir.join p)

/-- The file of a directive in a document. -/
def resolve (d : Disk) (directive : Directive) (document : Path) (directories : List Path) :
    Except Error Path :=
  let found := match directive.kind with
    | .quoted =>
      (beside? d document directive.spec).or (search? d directive.spec directories false)
    | .bracketed => search? d (withExtension directive.spec) directories true
  match found with
  | some p => .ok p
  | none => .error (.notFound directive.spec)

/-- The file of the directive on a line. -/
def resolveLine (d : Disk) (document : Path) (line : Text) (n : Nat) (directories : List Path) :
    Except Error Path :=
  match Directive.parse? line n with
  | none => .error .notADirective
  | some directive => resolve d directive document directories

end Include

end AutoItServer
