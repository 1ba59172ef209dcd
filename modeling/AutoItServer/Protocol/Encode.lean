import AutoItServer.Editor.Query
import AutoItServer.Json.Printer

/-!
The answers of the server as JSON values. What is absent is left out.
-/

namespace AutoItServer

namespace Protocol

/-! ### Places -/

/-- A position. -/
def ofPosition (p : Position) : Json :=
  .record [("line", .nat p.line), ("character", .nat p.character)]

/-- A range, from its start to its end. -/
def ofRange (r : Range) : Json :=
  .record [("start", ofPosition r.start), ("end", ofPosition r.stop)]

/-- An identifier. -/
def ofUri (u : Uri) : Json :=
  .str u.text

/-- A range of a document. -/
def ofLocation (l : Location) : Json :=
  .record [("uri", ofUri l.uri), ("range", ofRange l.range)]

/-! ### Answers to questions -/

/-- A text that the editor renders. -/
def markdown (t : Text) : Json :=
  .record [("kind", .text "markdown"), ("value", .str t)]

/-- What is shown under the pointer. -/
def ofHover (h : Hover) : Json :=
  .record [("contents", markdown h.markdown), ("range", ofRange h.range)]

/-- The number of a kind of completion. -/
def completionNumber : CompletionKind → Nat
  | .function => 3
  | .variable => 6
  | .keyword => 14
  | .constant => 21

/-- Documentation: plain text as it is, markdown marked as such. -/
def ofDocumentation : Documentation → Json
  | .plain t => .str t
  | .markdown t => markdown t

/-- One completion. -/
def ofCompletion (c : Completion) : Json :=
  .recordOf [("label", some (.str c.label)), ("kind", some (.nat (completionNumber c.kind))),
    ("detail", c.detail.map .str), ("documentation", c.documentation.map ofDocumentation)]

/-- A parameter of a signature with its documentation. -/
def ofParameter (p : Text × Option Text) : Json :=
  .recordOf [("label", some (.str p.1)), ("documentation", p.2.map .str)]

/-- A signature, of which the argument at the cursor is marked. -/
def ofSignatureHelp (h : SignatureHelp) : Json :=
  .record [
    ("signatures", .arr [.record [("label", .str h.signature.label),
      ("documentation", markdown h.signature.doc),
      ("parameters", .list ofParameter h.signature.params.entries),
      ("activeParameter", .nat h.argument)]]),
    ("activeSignature", .nat 0),
    ("activeParameter", .nat h.argument)]

/-! ### Symbols -/

/-- The number of a kind of symbol. -/
def symbolNumber : SymbolKind → Nat
  | .region => 3
  | .enumeration => 10
  | .function => 12
  | .variable => 13
  | .constant => 14

/-- A symbol and where it stands. -/
def ofSymbol (s : LocatedSymbol) : Json :=
  .recordOf [("name", some (.str s.name)), ("kind", some (.nat (symbolNumber s.kind))),
    ("location", some (ofLocation s.location)), ("containerName", s.container.map .str)]

/-! ### Edits and diagnostics -/

/-- A workspace edit that makes one insertion. -/
def ofInsertion (i : Insertion) : Json :=
  let edit : Json := .record [("range", ofRange ⟨i.position, i.position⟩), ("newText", .str i.text)]
  .record [("changes", .obj [(i.uri.text, .arr [edit])])]

/-- The number of a severity. -/
def severityNumber : Severity → Nat
  | .error => 1
  | .warning => 2

/-- A finding of the checker. -/
def ofDiagnostic (x : Diagnostic) : Json :=
  .record [("range", ofRange ⟨x.position, x.position⟩),
    ("severity", .nat (severityNumber x.severity)),
    ("source", .text "au3check"), ("message", .str x.message)]

end Protocol

end AutoItServer
