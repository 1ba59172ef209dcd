import AutoItServer.Checker.Publication
import AutoItServer.Document.Basic
import AutoItServer.Include.Cache
import AutoItServer.Index.Cache
import AutoItServer.Settings.Reader

/-!
The state behind an editor: its open documents, the settings, and what is remembered of files.

Each event drops what it can make stale.

* `Editor.content`: the text of a file: that of an open document, or the one on disk.
* `Editor.openDocument`, `Editor.closeDocument`, `Editor.change`: events of documents.
* `Editor.fileChanged`: a file was created, changed or deleted on disk.
* `Editor.adopt`, `Editor.configure`, `Editor.setFolders`: new settings and folders.
* `Editor.buildIndex`: the symbols of the workspace.
* `Editor.includesOf`: what a document includes, remembered from the last time if its directives are
  the same.
-/

namespace AutoItServer

/-- What happened to a file on disk. -/
inductive FileEvent where
  | created
  | changed
  | deleted
deriving Repr, DecidableEq

/-- The state of the editor's server. `reported` are the messages on settings shown so far,
`published` the documents that show findings of the checker, and `walks` counts how often an include
graph was walked. -/
structure Editor where
  documents : OrderedMap Uri Document
  folders : List Uri
  settings : Settings
  fileCache : FileCache
  includeCache : IncludeCache
  index : Index
  reported : List Text
  published : List Uri
  walks : Nat

namespace Editor

/-- The state at the start. -/
def start (settings : Settings) : Editor where
  documents := ∅
  folders := []
  settings := settings
  fileCache := .empty
  includeCache := .empty
  index := .empty
  reported := []
  published := []
  walks := 0

/-! ### Documents and files -/

/-- An open document. -/
def document? (e : Editor) (u : Uri) : Option Document :=
  e.documents.find? u

/-- The open document of a file. -/
def openAt? (e : Editor) (p : Path) : Option Document :=
  (Uri.ofPath? p).bind e.document?

/-- The text of a file: an open document comes before the disk. -/
def content (e : Editor) (d : Disk) : Include.Content := fun p =>
  match e.openAt? p with
  | some doc => some doc.text
  | none => e.fileCache.peek? d p

/-- The file cache after the texts of files have been asked for. Open documents are not read. -/
def fetch (e : Editor) (d : Disk) (paths : List Path) : FileCache :=
  e.fileCache.readAll d (paths.filter fun p => (e.openAt? p).isNone)

/-! ### Events -/

/-- The text of a document is another one now: what was computed with its file is dropped. -/
def edited (e : Editor) (u : Uri) : Editor :=
  match u.path? with
  | none => e
  | some p => { e with includeCache := (e.includeCache.invalidateContaining p).1 }

/-- A document is opened. -/
def openDocument (e : Editor) (u : Uri) (t : Text) (version : Option Int) : Editor :=
  { e with documents := e.documents.insert u ⟨t, version, 0⟩ }.edited u

/-- A document is closed; its file counts again as it is on disk. -/
def closeDocument (e : Editor) (u : Uri) : Editor :=
  { e with documents := e.documents.erase u, includeCache := e.includeCache.remove u }.edited u

/-- A document is changed. -/
def change (e : Editor) (u : Uri) (c : Change) : Editor :=
  { e with documents := e.documents.modify u (·.apply c) }.edited u

/-- The editor gives a document a new version. -/
def setVersion (e : Editor) (u : Uri) (version : Int) : Editor :=
  { e with documents := e.documents.modify u fun doc => { doc with version := some version } }

/-- A file was created, changed or deleted on disk. A new file may be what a directive did not find
before, so creation drops everything that is remembered of includes. -/
def fileChanged (e : Editor) (p : Path) (event : FileEvent) : Editor :=
  { e with
    fileCache := e.fileCache.invalidate p
    includeCache := if event = .created then e.includeCache.invalidateAll
      else (e.includeCache.invalidateContaining p).1
    index := if e.settings.isSourceFile p then e.index.invalidateFile p else e.index }

/-- The messages that have not been reported, each once. -/
def unreported (reported : List Text) : List Text → List Text
  | [] => []
  | m :: ms =>
    if reported.contains m then unreported reported ms else m :: unreported (m :: reported) ms

/-- New settings come in, with what was wrong about them. The second part are the messages to
show. -/
def adopt (e : Editor) (settings : Settings) (errors : List Settings.Error) : Editor × List Text :=
  let fresh := unreported e.reported (errors.map Settings.Error.message)
  ({ e with
      settings
      includeCache := if e.settings.includesDiffer settings then e.includeCache.invalidateAll
        else e.includeCache
      index := if e.settings.symbolsDiffer settings then e.index.invalidateAll else e.index
      reported := fresh ++ e.reported }, fresh)

/-- Settings come in as they are written. -/
def configure (e : Editor) (json : Json) : Editor × List Text :=
  let (settings, errors) := Settings.read json
  e.adopt settings errors

/-- The workspace has new folders. -/
def setFolders (e : Editor) (folders : List Uri) : Editor :=
  { e with folders, index := e.index.invalidateAll }

/-- The folders that are paths. -/
def roots (e : Editor) : List Path :=
  e.folders.filterMap Uri.path?

/-- Builds the index from given folders and settings, which may be older than those of the state. -/
def buildIndexFrom (e : Editor) (d : Disk) (roots : List Path) (settings : Settings) :
    Editor × List IndexedFile :=
  let built := e.index.build d roots settings e.fileCache
  ({ e with index := built.index, fileCache := built.cache }, built.results)

/-- The symbols of the workspace. -/
def buildIndex (e : Editor) (d : Disk) : Editor × List IndexedFile :=
  e.buildIndexFrom d e.roots e.settings

/-- The checker has run. The second part is what is published. -/
def checked (e : Editor) (output : Text) : Editor × List (Uri × List Diagnostic) :=
  let publications := (Report.read output).publish e.published
  ({ e with published := Report.showing publications }, publications)

/-! ### Includes -/

/-- What a document includes, computed afresh. -/
def computeIncludes (e : Editor) (d : Disk) (p : Path) (directives : List Directive) :
    IncludeEntry :=
  let content := e.content d
  let files := Include.reachableFrom d e.settings content p directives
  ⟨.ofDirectives directives, files, Include.signatures content files⟩

/-- What a document with a path and a text includes. -/
def includesOf (e : Editor) (d : Disk) (u : Uri) (p : Path) (t : Text) : Editor × IncludeEntry :=
  let directives := Directive.findAll t
  match e.includeCache.get? u (.ofDirectives directives) with
  | some entry => (e, entry)
  | none =>
    let entry := e.computeIncludes d p directives
    ({ e with
        fileCache := e.fetch d entry.files
        includeCache := (e.includeCache.store u e.includeCache.generation entry).1
        walks := e.walks + 1 }, entry)

end Editor

end AutoItServer
