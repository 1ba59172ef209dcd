import AutoItServer.Call.Context
import AutoItServer.Editor.Basic
import AutoItServer.Header.Writer
import AutoItServer.Lookup.Site
import AutoItServer.Lookup.Word

/-!
What an editor asks about its open documents.

A question about a document that is not open has no answer. Those that need the includes of a
document also give the state afterwards, in which the includes are remembered.

* `Editor.hover`, `Editor.completion`, `Editor.signatureHelp`, `Editor.definition`: at a position.
* `Editor.documentSymbols`, `Editor.workspaceSymbols`: lists of symbols.
* `Editor.openInclude`, `Editor.insertHeader`: the two commands.
-/

namespace AutoItServer

/-! ### Answers -/

/-- What is shown for the word under the pointer, as markdown, and where that word stands. -/
structure Hover where
  markdown : Text
  range : Range
deriving Repr, DecidableEq

/-- What a completion inserts. -/
inductive CompletionKind where
  | function
  | variable
  | keyword
  | constant
deriving Repr, DecidableEq

/-- Documentation as plain text or as markdown. -/
inductive Documentation where
  | plain (t : Text)
  | markdown (t : Text)
deriving Repr, DecidableEq

/-- One completion. -/
structure Completion where
  label : Text
  kind : CompletionKind
  detail : Option Text
  documentation : Option Documentation
deriving Repr, DecidableEq

/-- A signature with the index of the argument at the cursor. -/
structure SignatureHelp where
  signature : Signature
  argument : Nat
deriving Repr, DecidableEq

/-- A range of a document. -/
structure Location where
  uri : Uri
  range : Range
deriving Repr, DecidableEq

/-- A symbol and where it stands. -/
structure LocatedSymbol where
  name : Text
  kind : SymbolKind
  container : Option Text
  location : Location
deriving Repr, DecidableEq

/-- A text to insert into a document. -/
structure Insertion where
  uri : Uri
  position : Position
  text : Text
deriving Repr, DecidableEq

namespace Editor

/-! ### Signatures and words -/

/-- The name shown for a document. -/
def labelOf (u : Uri) : Text :=
  match u.path? with
  | some p => p.label
  | none => Uri.pathText u.path

/-- What a document includes; a document without path includes nothing. -/
def included (e : Editor) (d : Disk) (u : Uri) (t : Text) : Editor × Option IncludeEntry :=
  match u.path? with
  | none => (e, none)
  | some p =>
    let (e, entry) := e.includesOf d u p t
    (e, some entry)

/-- The signatures known in a document: those of the catalogue, of the includes and its own. -/
def signaturesOf (e : Editor) (d : Disk) (u : Uri) (t : Text) : Editor × SignatureMap :=
  let (e, entry) := e.included d u t
  let included := (entry.map IncludeEntry.signatures).getD ∅
  (e, Signature.overlay [Catalogue.signatures, included, Signature.ofText t (labelOf u)])

/-- A piece of source as markdown. -/
def sourceBlock (source : Text) : Text :=
  "```autoit\n".toList ++ source ++ "\n```".toList

/-- A signature as markdown. -/
def signatureMarkdown (s : Signature) : Text :=
  sourceBlock s.label ++ if s.doc.isEmpty then [] else "\n\n".toList ++ s.doc

/-- The line at a position, and the byte column on it. -/
def lineAndColumn? (t : Text) (p : Position) : Option (Text × Nat) :=
  (Text.lineAt? p.line t).map fun line => (line, Text.columnToByte p.character line)

/-- The word at a position. -/
def wordAt? (t : Text) (p : Position) : Option Word :=
  (lineAndColumn? t p).bind fun (line, column) => Word.at? line column

/-! ### Questions at a position -/

/-- What is shown for the word at a position: the documentation of a macro, or the signature of a
function. Variables show nothing. -/
def hover (e : Editor) (d : Disk) (u : Uri) (p : Position) : Editor × Option Hover :=
  match e.document? u with
  | none => (e, none)
  | some doc =>
    let t := doc.text
    match wordAt? t p with
    | none => (e, none)
    | some w =>
      let start := Text.positionToByte ⟨p.line, 0⟩ t
      let range := Text.byteRange (start + w.start) (start + w.stop) t
      if Lookup.isMacro w.text then
        (e, (Catalogue.macroDoc? w.text).map fun info =>
          ⟨sourceBlock w.text ++ "\n\n".toList ++ info, range⟩)
      else if Lookup.isVariable w.text then (e, none)
      else
        let (e, signatures) := e.signaturesOf d u t
        (e, (signatures.find? (Text.lower w.text)).map fun s => ⟨signatureMarkdown s, range⟩)

/-- The sigil of the word that is being typed at a position, which may be all there is of it. -/
def typedSigil? (t : Text) (p : Position) : Option Char :=
  (lineAndColumn? t p).bind fun (line, column) =>
    (((Text.takeBytes column line).reverse.dropWhile isIdentifier).head?).filter Word.isSigil

/-- Removes the symbols whose lower-cased name came before. -/
def distinctNames (seen : List Text) : List Symbol → List Symbol
  | [] => []
  | s :: ss =>
    let key := Text.lower s.name
    if seen.contains key then distinctNames seen ss else s :: distinctNames (key :: seen) ss

/-- The variables of a document as completions. -/
def variableCompletions (e : Editor) (t : Text) : List Completion :=
  let options := { e.settings.symbolOptions with withVariables := true }
  let listed := (Outline.symbols options t).filter fun s => s.kind ≠ .function && s.kind ≠ .region
  (distinctNames [] listed).map fun s => ⟨s.name, .variable, s.container, none⟩

/-- The completions at a position: macros after `@`, variables after `$`, otherwise variables,
functions and keywords. -/
def completion (e : Editor) (d : Disk) (u : Uri) (p : Position) :
    Editor × Option (List Completion) :=
  match e.document? u with
  | none => (e, none)
  | some doc =>
    let t := doc.text
    let sigil := typedSigil? t p
    if sigil = some '@' then
      (e, some (Catalogue.macros.map fun (name, info) =>
        ⟨name, .constant, none, some (.plain info)⟩))
    else
      let names := e.variableCompletions t
      if sigil = some '$' then (e, some names)
      else
        let (e, signatures) := e.signaturesOf d u t
        let functions : List Completion := signatures.values.map fun s =>
          ⟨s.name, .function, some s.label, some (.markdown s.doc)⟩
        let keywords : List Completion :=
          Catalogue.keywordTexts.map fun k => ⟨k, .keyword, none, none⟩
        (e, some (names ++ functions ++ keywords))

/-- The signature of the call around a position. -/
def signatureHelp (e : Editor) (d : Disk) (u : Uri) (p : Position) :
    Editor × Option SignatureHelp :=
  match e.document? u with
  | none => (e, none)
  | some doc =>
    let t := doc.text
    match lineAndColumn? t p with
    | none => (e, none)
    | some (_, column) =>
      let context := Call.context (Call.continuedPrefix t p.line column)
      match context.function with
      | none => (e, none)
      | some name =>
        let (e, signatures) := e.signaturesOf d u t
        (e, (signatures.find? (Text.lower name)).map fun s => ⟨s, context.argument⟩)

/-- The place of a definition in the editor. -/
def locationOf? (e : Editor) (d : Disk) (u : Uri) (t : Text) (site : Site) : Option Location :=
  let at_ (u : Uri) (p : Position) : Location := ⟨u, ⟨p, p⟩⟩
  match site.path with
  | none => some (at_ u (Text.byteToPosition site.offset t))
  | some p => (Uri.ofPath? p).bind fun target =>
    if site.offset = 0 then some (at_ target ⟨0, 0⟩)
    else (e.content d p).map fun other => at_ target (Text.byteToPosition site.offset other)

/-- Where the word at a position is defined, or the file that an include line names. -/
def definition (e : Editor) (d : Disk) (u : Uri) (p : Position) : Editor × Option Location :=
  match e.document? u with
  | none => (e, none)
  | some doc =>
    let t := doc.text
    match Text.lineAt? p.line t with
    | none => (e, none)
    | some line =>
      match Directive.parse? line p.line with
      | some directive =>
        (e, u.path?.bind fun document =>
          match Include.resolve d directive document e.settings.includePaths with
          | .ok target => e.locationOf? d u t ⟨some target, 0⟩
          | .error _ => none)
      | none =>
        match wordAt? t p with
        | none => (e, none)
        | some w =>
          let (e, entry) := e.included d u t
          let files := (entry.map IncludeEntry.files).getD []
          let content := e.content d
          let found := (Lookup.site? t w.text files content).bind (e.locationOf? d u t)
          ({ e with fileCache := e.fetch d (Lookup.consulted t w.text files content) }, found)

/-! ### Symbols -/

/-- The symbols of a document. -/
def documentSymbols (e : Editor) (u : Uri) : Option (List LocatedSymbol) :=
  (e.document? u).map fun doc =>
    (Outline.symbols e.settings.symbolOptions doc.text).map fun s =>
      ⟨s.name, s.kind, s.container, ⟨u, Text.byteRange s.start s.stop doc.text⟩⟩

/-- The symbols of the workspace whose names hold a query. -/
def workspaceSymbols (e : Editor) (d : Disk) (query : Text) : Editor × List LocatedSymbol :=
  let (e, files) := e.buildIndex d
  (e, (Index.matching files query).filterMap fun (p, s) =>
    (Uri.ofPath? p).map fun u => ⟨s.name, s.kind, s.container, ⟨u, s.range⟩⟩)

/-! ### Commands -/

/-- The file that the include on a line names. -/
def openInclude (e : Editor) (d : Disk) (u : Uri) (n : Nat) : Except Include.Error Uri :=
  match (e.document? u).bind (fun doc => Text.lineAt? n doc.text), u.path? with
  | some line, some p =>
    match Include.resolveLine d p line n e.settings.includePaths with
    | .error cause => .error cause
    | .ok target => match Uri.ofPath? target with
      | some uri => .ok uri
      | none => .error (.notFound target.text)
  | _, _ => .error .notADirective

/-- A header for the function on a line, unless it has one. Its lines end as those of the document
do. -/
def insertHeader (e : Editor) (u : Uri) (n : Nat) : Option Insertion :=
  (e.document? u).bind fun doc =>
    let t := doc.text
    ((FunctionDef.findAll t).find? fun f => f.line = n).bind fun f =>
      let lines := (Text.lines t).map Line.text
      if (Header.above? lines f.line).isSome then none
      else
        let params := (Parameter.split f.params).filterMap Parameter.parse?
        let eol : Text := if Text.occursIn ['\r', '\n'] t then ['\r', '\n'] else ['\n']
        some ⟨u, ⟨n, 0⟩, (Header.generate f.name params).flatMap (· ++ eol)⟩

end Editor

end AutoItServer
