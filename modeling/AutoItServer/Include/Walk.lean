import AutoItServer.Include.Resolve
import AutoItServer.Settings.Basic

/-!
The files that a document includes, directly or through other files.

The walk goes depth first, takes directives in the order of the document, and lists each file once.
A file at the depth limit is listed, but its own directives are not followed.

* `Include.target?`: the file that a directive leads to. Standard libraries in angle brackets are
  known from the catalogue and not looked for.
* `Include.reachable`: the files, in the order in which they are met.
-/

namespace AutoItServer

namespace Include

/-- The texts of files, as far as they can be read. -/
abbrev Content := Path → Option Text

/-- The file that a directive of a document leads to. -/
def target? (d : Disk) (settings : Settings) (document : Path) (directive : Directive) :
    Option Path :=
  if directive.kind = .bracketed && settings.isAllowlisted directive.spec then none
  else match resolve d directive document settings.includePaths with
    | .ok p => some p
    | .error _ => none

/-- The files met so far: those that are not entered again, and those of the answer. -/
structure Walk where
  visited : List Path
  files : List Path
deriving Repr, DecidableEq

/-- Lists a file, unless it is met again. -/
def Walk.meet? (w : Walk) (p : Path) : Option Walk :=
  if w.visited.any p.same then none else some ⟨p :: w.visited, w.files ++ [p]⟩

/-- Follows the directives of a document; below it files are entered down to `depth` levels. -/
def walk (d : Disk) (settings : Settings) (content : Content) :
    Nat → Path → List Directive → Walk → Walk
  | 0, document, directives, w =>
    directives.foldl (fun w directive =>
      match (target? d settings document directive).bind w.meet? with
      | none => w
      | some w => w) w
  | depth + 1, document, directives, w =>
    directives.foldl (fun w directive =>
      match target? d settings document directive with
      | none => w
      | some p => match w.meet? p with
        | none => w
        | some w => match content p with
          | none => w
          | some t => walk d settings content depth p (Directive.findAll t) w) w

/-- The files reachable from a document through the given directives. -/
def reachableFrom (d : Disk) (settings : Settings) (content : Content) (document : Path)
    (directives : List Directive) : List Path :=
  let root := document.normalize?.getD document
  (walk d settings content (settings.maxIncludeDepth - 1) document directives ⟨[root], []⟩).files

/-- The files reachable from a document with a text. -/
def reachable (d : Disk) (settings : Settings) (content : Content) (document : Path) (t : Text) :
    List Path :=
  reachableFrom d settings content document (Directive.findAll t)

/-- The signatures of files in order; a later file replaces what an earlier one says, and a file
that cannot be read says nothing. -/
def signatures (content : Content) (files : List Path) : SignatureMap :=
  files.foldl (fun merged p => match content p with
    | none => merged
    | some t => merged.overlay (Signature.ofText t p.label)) ∅

end Include

end AutoItServer
