import AutoItServer.Protocol.Request

/-!
The server: its life, and how it takes one message after another.

It waits for the request to start, runs, and is stopped by the request to shut down. Before it runs
and after it is stopped requests are refused and notifications are dropped.

* `Message`: a method with parameters, asked or told.
* `Failure`: why a request fails, with its code and wording.
* `Server.handle`: takes a message; the reply holds the answer and what is sent to the editor.
-/

namespace AutoItServer

/-- A message to the server. -/
structure Message where
  method : Text
  params : Option Json
  wantsAnswer : Bool

/-- Why a request fails. -/
inductive Failure where
  | notStarted
  | invalidRequest
  | unknownMethod
  | badParams (cause : Params.Error)

/-- The code of a failure. -/
def Failure.code : Failure → Int
  | notStarted => -32002
  | invalidRequest => -32600
  | unknownMethod => -32601
  | badParams _ => -32602

/-- The wording of a failure. -/
def Failure.message : Failure → Text
  | notStarted => "Server not initialized".toList
  | invalidRequest => "Invalid request".toList
  | unknownMethod => "Method not found".toList
  | badParams cause => cause.message

/-- The answer to a message, if it wants one, and what is sent to the editor because of it. -/
structure Reply where
  answer : Option (Except Failure Json)
  sent : List Sent

/-- The stages of the server's life. -/
inductive Stage where
  | waiting
  | running
  | stopped
deriving Repr, DecidableEq

/-- The server. -/
structure Server where
  stage : Stage
  editor : Editor

/-! ### Starting -/

/-- The parameters of the request to start. -/
structure StartParams where
  folders : List Uri
  settings : Option Json

/-- Reads the parameters of the request to start. The root counts if no folders are given. -/
def StartParams.read (j : Json) : Except Params.Error StartParams := do
  let folder (j : Json) : Except Params.Error Uri := do
    let u ← Params.field "uri" Params.uri (← Params.object "struct WorkspaceFolder" j)
    let _ ← Params.field "name" Params.text j
    return u
  let j ← Params.object "struct InitializeParams" j
  let root ← Params.field? "rootUri" Params.uri j
  let settings ← Params.field? "initializationOptions" Params.anything j
  let _ ← Params.field "capabilities" (Params.object "struct ClientCapabilities") j
  let folders ← Params.field? "workspaceFolders" (Params.list folder) j
  return ⟨folders.getD root.toList, settings⟩

/-- What the server offers. -/
def capabilities : Json :=
  let triggers (characters : List String) : Json :=
    .record [("triggerCharacters", .list .text characters)]
  .record [
    ("textDocumentSync", .record [("openClose", .bool true), ("change", .nat 2),
      ("save", .bool true)]),
    ("hoverProvider", .bool true),
    ("completionProvider", triggers ["$", "@"]),
    ("signatureHelpProvider", triggers ["(", ","]),
    ("definitionProvider", .bool true),
    ("documentSymbolProvider", .bool true),
    ("workspaceSymbolProvider", .bool true),
    ("executeCommandProvider",
      .record [("commands", .list .text ["wren.openInclude", "wren.insertHeader"])])]

/-- The answer to the request to start. -/
def greeting : Json :=
  .record [("capabilities", capabilities),
    ("serverInfo", .record [("name", .text "wren"), ("version", .text "0.1.0")])]

/-! ### Methods that do nothing -/

/-- Requests of the protocol that the server does not answer. -/
def unansweredRequests : List String :=
  ["textDocument/willSaveWaitUntil", "textDocument/declaration", "textDocument/typeDefinition",
    "textDocument/implementation", "textDocument/references", "textDocument/prepareCallHierarchy",
    "callHierarchy/incomingCalls", "callHierarchy/outgoingCalls",
    "textDocument/prepareTypeHierarchy",
    "typeHierarchy/supertypes", "typeHierarchy/subtypes", "textDocument/documentHighlight",
    "textDocument/documentLink", "documentLink/resolve", "textDocument/codeLens",
    "codeLens/resolve",
    "textDocument/foldingRange", "textDocument/selectionRange", "textDocument/semanticTokens/full",
    "textDocument/semanticTokens/full/delta", "textDocument/semanticTokens/range",
    "textDocument/inlineValue", "textDocument/inlayHint", "inlayHint/resolve",
    "textDocument/moniker",
    "completionItem/resolve", "textDocument/diagnostic", "workspace/diagnostic",
    "textDocument/codeAction", "codeAction/resolve", "textDocument/documentColor",
    "textDocument/colorPresentation", "textDocument/formatting", "textDocument/rangeFormatting",
    "textDocument/onTypeFormatting", "textDocument/rename", "textDocument/prepareRename",
    "textDocument/linkedEditingRange", "workspaceSymbol/resolve", "workspace/willCreateFiles",
    "workspace/willRenameFiles", "workspace/willDeleteFiles"]

/-- Notifications of the protocol that the server does not listen to. -/
def ignoredNotifications : List String :=
  ["textDocument/willSave", "workspace/didChangeWorkspaceFolders", "workspace/didCreateFiles",
    "workspace/didRenameFiles", "workspace/didDeleteFiles"]

namespace Server

/-- The server before it is asked to start. -/
def fresh : Server :=
  ⟨.waiting, .start .standard⟩

/-! ### Replies -/

/-- Nothing is answered and nothing is sent. -/
def silence : Reply :=
  ⟨none, []⟩

/-- A request fails; a notification is dropped. -/
def fail (m : Message) (cause : Failure) : Reply :=
  if m.wantsAnswer then ⟨some (.error cause), []⟩ else silence

/-- The refusal of a message that comes when the server does not run. -/
def refusal (s : Server) (m : Message) : Reply :=
  fail m (if s.stage = .waiting then .notStarted else .invalidRequest)

/-- Reads the parameters of a message. -/
def readParams {α : Type} (read : Params.Reader α) (m : Message) : Except Params.Error α :=
  match m.params with
  | none => .error .absent
  | some j => read j

/-! ### Taking messages -/

/-- The request to start. -/
def handleStart (s : Server) (m : Message) : Server × Reply :=
  if s.stage ≠ .waiting then (s, fail m .invalidRequest)
  else if !m.wantsAnswer then (s, silence)
  else
    match readParams StartParams.read m with
    | .error cause => (s, fail m (.badParams cause))
    | .ok params =>
      let e := s.editor.setFolders params.folders
      let (e, sent) := match params.settings with
        | none => (e, [])
        | some settings => e.configureShowing settings
      (⟨.running, e⟩, ⟨some (.ok greeting), sent⟩)

/-- The request to shut down. It takes no parameters. -/
def handleStop (s : Server) (m : Message) : Server × Reply :=
  if s.stage ≠ .running then (s, s.refusal m)
  else
    let stopped := { s with stage := .stopped }
    match m.params with
    | some value => (stopped, fail m (.badParams (.unwanted value)))
    | none => (stopped, if m.wantsAnswer then ⟨some (.ok .null), []⟩ else silence)

/-- A request while the server runs. -/
def handleRequest (s : Server) (d : Disk) (read : Params.Reader Request) (m : Message) :
    Server × Reply :=
  if s.stage ≠ .running then (s, s.refusal m)
  else if !m.wantsAnswer then (s, silence)
  else
    match readParams read m with
    | .error cause => (s, fail m (.badParams cause))
    | .ok request =>
      let (e, value, sent) := s.editor.answer d request
      ({ s with editor := e }, ⟨some (.ok value), sent⟩)

/-- A notification while the server runs. One whose parameters do not fit is dropped. -/
def handleNotification (s : Server) (read : Params.Reader Notification) (m : Message) :
    Server × Reply :=
  if s.stage ≠ .running then (s, s.refusal m)
  else if m.wantsAnswer then (s, fail m .invalidRequest)
  else
    match readParams read m with
    | .error _ => (s, silence)
    | .ok notification =>
      let (e, sent) := s.editor.hear notification
      ({ s with editor := e }, ⟨none, sent⟩)

/-- Takes a message. -/
def handle (s : Server) (d : Disk) (m : Message) : Server × Reply :=
  let method := String.ofList m.method
  if method = "initialize" then s.handleStart m
  else if method = "shutdown" then s.handleStop m
  else
    match Request.reader? method, Notification.reader? method with
    | some read, _ => s.handleRequest d read m
    | none, some read => s.handleNotification read m
    | none, none =>
      if s.stage ≠ .running && (unansweredRequests ++ ignoredNotifications).contains method then
        (s, s.refusal m)
      else if ignoredNotifications.contains method then (s, fail m .invalidRequest)
      else (s, fail m .unknownMethod)

end Server

end AutoItServer
