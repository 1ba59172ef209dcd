import AutoItServer.Protocol.Encode
import AutoItServer.Protocol.Params

/-!
What the editor asks and tells the server once it runs.

* `Request`, `Notification`: the two kinds of messages.
* `Request.reader?`, `Notification.reader?`: how the parameters of a method are read; methods that
  are not there have no reader.
* `Editor.answer`: the value that answers a request, and what is sent to the editor besides.
* `Editor.hear`: what a notification does.
-/

namespace AutoItServer

/-- A message to the editor: a method and its parameters. -/
abbrev Sent := Text × Json

/-! ### The messages -/

/-- What the editor asks. -/
inductive Request where
  | hover (u : Uri) (p : Position)
  | completion (u : Uri) (p : Position)
  | signatureHelp (u : Uri) (p : Position)
  | definition (u : Uri) (p : Position)
  | documentSymbols (u : Uri)
  | workspaceSymbols (query : Text)
  | command (name : Text) (arguments : List Json)

/-- What the editor tells. -/
inductive Notification where
  | started
  | opened (u : Uri) (t : Text) (version : Int)
  | changed (u : Uri) (version : Int) (changes : List Change)
  | closed (u : Uri)
  | saved (u : Uri)
  | filesChanged (events : List (Uri × FileEvent))
  | configured (settings : Json)
  | checked (output : Text)

/-! ### Reading them -/

/-- How the parameters of a request are read. -/
def Request.reader? (method : String) : Option (Params.Reader Request) :=
  match method with
  | "textDocument/hover" => some fun j => do
    let (u, p) ← Params.place (← Params.object "struct HoverParams" j)
    return .hover u p
  | "textDocument/completion" => some fun j => do
    let (u, p) ← Params.place (← Params.object "struct CompletionParams" j)
    return .completion u p
  | "textDocument/signatureHelp" => some fun j => do
    let (u, p) ← Params.place (← Params.object "struct SignatureHelpParams" j)
    return .signatureHelp u p
  | "textDocument/definition" => some fun j => do
    let (u, p) ← Params.place (← Params.object "struct GotoDefinitionParams" j)
    return .definition u p
  | "textDocument/documentSymbol" => some fun j => do
    let j ← Params.object "struct DocumentSymbolParams" j
    return .documentSymbols (← Params.field "textDocument" Params.document j)
  | "workspace/symbol" => some fun j => do
    let j ← Params.object "struct WorkspaceSymbolParams" j
    return .workspaceSymbols (← Params.field "query" Params.text j)
  | "workspace/executeCommand" => some fun j => do
    let j ← Params.object "struct ExecuteCommandParams" j
    let name ← Params.field "command" Params.text j
    let arguments ← match j.get? "arguments" with
      | none => .ok []
      | some v => Params.list Params.anything v
    return .command name arguments
  | _ => none

/-- The event that a number stands for. Numbers that stand for none count as a change. -/
def FileEvent.ofNumber (n : Int) : FileEvent :=
  if n = 1 then .created else if n = 3 then .deleted else .changed

/-- How the parameters of a notification are read. -/
def Notification.reader? (method : String) : Option (Params.Reader Notification) :=
  match method with
  | "initialized" => some fun j => do
    let _ ← Params.object "struct InitializedParams" j
    return .started
  | "textDocument/didOpen" => some fun j => do
    let doc ← Params.field "textDocument" (Params.object "struct TextDocumentItem") j
    let u ← Params.field "uri" Params.uri doc
    let _ ← Params.field "languageId" Params.text doc
    let version ← Params.field "version" Params.signed doc
    return .opened u (← Params.field "text" Params.text doc) version
  | "textDocument/didChange" => some fun j => do
    let doc ← Params.field "textDocument" (Params.object "struct VersionedTextDocumentIdentifier") j
    let u ← Params.field "uri" Params.uri doc
    let version ← Params.field "version" Params.signed doc
    return .changed u version (← Params.field "contentChanges" (Params.list Params.change) j)
  | "textDocument/didClose" => some fun j => do
    return .closed (← Params.field "textDocument" Params.document j)
  | "textDocument/didSave" => some fun j => do
    let u ← Params.field "textDocument" Params.document j
    let _ ← Params.field? "text" Params.text j
    return .saved u
  | "workspace/didChangeWatchedFiles" => some fun j => do
    let event (j : Json) : Except Params.Error (Uri × FileEvent) := do
      let u ← Params.field "uri" Params.uri j
      return (u, .ofNumber (← Params.field "type" Params.signed j))
    return .filesChanged (← Params.field "changes" (Params.list event) j)
  | "workspace/didChangeConfiguration" => some fun j => do
    return .configured (← Params.field "settings" Params.anything j)
  | "wren/checkerOutput" => some fun j => do
    let _ ← Params.field "uri" Params.uri j
    return .checked (← Params.field "output" Params.text j)
  | _ => none

/-! ### Answering -/

/-- How loud a message is shown. -/
inductive Loudness where
  | error
  | warning

/-- A message that the editor shows. -/
def shown (loudness : Loudness) (t : Text) : Sent :=
  let number := match loudness with
    | .error => 1
    | .warning => 2
  ("window/showMessage".toList, .record [("type", .nat number), ("message", .str t)])

/-- The document and the line that the arguments of a command name. -/
def commandTarget? : List Json → Option (Uri × Nat)
  | .str u :: line :: _ => do
    let uri ← Uri.parse? u
    return (uri, ← line.word?)
  | _ => none

/-- Runs a command. Commands that are not there and arguments that do not fit do nothing. -/
def Editor.command (e : Editor) (d : Disk) (name : Text) (arguments : List Json) :
    Json × List Sent :=
  match commandTarget? arguments with
  | none => (.null, [])
  | some (u, n) =>
    if name = "wren.openInclude".toList then
      match e.openInclude d u n with
      | .ok target => (Protocol.ofUri target, [])
      | .error cause => (.null, [shown .error cause.message])
    else if name = "wren.insertHeader".toList then
      match e.insertHeader u n with
      | some i =>
        (.null, [("workspace/applyEdit".toList, .record [("edit", Protocol.ofInsertion i)])])
      | none => (.null, [])
    else (.null, [])

/-- The answer to a request, the state afterwards, and what is sent besides. -/
def Editor.answer (e : Editor) (d : Disk) : Request → Editor × Json × List Sent
  | .hover u p =>
    let (e, answer) := e.hover d u p
    (e, .opt Protocol.ofHover answer, [])
  | .completion u p =>
    let (e, answer) := e.completion d u p
    (e, .opt (.list Protocol.ofCompletion) answer, [])
  | .signatureHelp u p =>
    let (e, answer) := e.signatureHelp d u p
    (e, .opt Protocol.ofSignatureHelp answer, [])
  | .definition u p =>
    let (e, answer) := e.definition d u p
    (e, .opt Protocol.ofLocation answer, [])
  | .documentSymbols u => (e, .opt (.list Protocol.ofSymbol) (e.documentSymbols u), [])
  | .workspaceSymbols query =>
    let (e, symbols) := e.workspaceSymbols d query
    (e, .list Protocol.ofSymbol symbols, [])
  | .command name arguments => (e, e.command d name arguments)

/-- New settings come in; what is wrong with them is shown once. -/
def Editor.configureShowing (e : Editor) (settings : Json) : Editor × List Sent :=
  let (e, messages) := e.configure settings
  (e, messages.map (shown .warning))

/-- A file event of a document that has a path. -/
def Editor.hearFile (e : Editor) (event : Uri × FileEvent) : Editor :=
  match event.1.path? with
  | some p => e.fileChanged p event.2
  | none => e

/-- The state after a notification, and what is sent because of it. -/
def Editor.hear (e : Editor) : Notification → Editor × List Sent
  | .started => (e, [])
  | .opened u t version => (e.openDocument u t (some version), [])
  | .changed u version changes => ((changes.foldl (·.change u ·) e).setVersion u version, [])
  | .closed u => (e.closeDocument u, [])
  | .saved u => (e.hearFile (u, .changed), [])
  | .filesChanged events => (events.foldl hearFile e, [])
  | .configured settings => e.configureShowing settings
  | .checked output =>
    let (e, publications) := e.checked output
    (e, publications.map fun (u, diagnostics) => ("textDocument/publishDiagnostics".toList,
      .record [("uri", Protocol.ofUri u),
        ("diagnostics", .list Protocol.ofDiagnostic diagnostics)]))

end AutoItServer
