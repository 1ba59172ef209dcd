import AutoItServer.Include.Resolve
import AutoItServer.Settings.Basic

/-!
The places where the file of a directive may be.

* `Include.candidates`: those of one directive, the first that is a file being the one meant.
* `Include.wanted`: those of all directives of a document that are followed.
-/

namespace AutoItServer

namespace Include

/-- The directories in which the file of a directive is looked for, in order. -/
def placesFor (kind : IncludeKind) (document : Path) (directories : List Path) : List Path :=
  match kind with
  | .quoted => document.parent?.toList ++ directories.drop 1 ++ directories.take 1
  | .bracketed => directories

/-- The path that a directive spells. -/
def spelledPath (directive : Directive) : Path :=
  match directive.kind with
  | .quoted => specPath directive.spec
  | .bracketed => specPath (withExtension directive.spec)

/-- The places where the file of a directive may be. -/
def candidates (directive : Directive) (document : Path) (directories : List Path) : List Path :=
  let p := spelledPath directive
  if p.isAbsolute then [p] else (placesFor directive.kind document directories).map (·.join p)

/-- The places, in normal form, where the files may be that a document includes. -/
def wanted (settings : Settings) (document : Path) (t : Text) : List Path :=
  let followed := (Directive.findAll t).filter fun directive =>
    !(directive.kind = .bracketed && settings.isAllowlisted directive.spec)
  (followed.flatMap fun directive => candidates directive document settings.includePaths).filterMap
    Path.normalize?

end Include

end AutoItServer
