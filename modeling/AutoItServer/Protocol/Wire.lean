import AutoItServer.Json.Reader
import AutoItServer.Protocol.Server

/-!
Messages as they stand on the wire.

A message is a JSON value after a header that gives its length in bytes.

* `Wire.length?`: the length that a header line gives.
* `Wire.frame`: a value with its header.
* `Wire.Incoming.read`: a message from the editor.
* `Wire.outgoing`: what goes to the editor because of a message.
-/

namespace AutoItServer

namespace Wire

/-! ### Headers -/

/-- The number that digits stand for. -/
def number? (t : Text) : Option Nat :=
  if t.isEmpty || !t.all Char.isDigit then none
  else some (t.foldl (fun n c => 10 * n + (c.toNat - '0'.toNat)) 0)

/-- The length that a header line gives. -/
def length? (line : Text) : Option Nat :=
  let name := "content-length:".toList
  if Text.asciiLower (line.take name.length) = name then number? (Text.trim (line.drop name.length))
  else none

/-- A value with its header. -/
def frame (j : Json) : Text :=
  let body := j.render
  "Content-Length: ".toList ++ Text.ofNat (Text.byteLength body) ++ "\r\n\r\n".toList ++ body

/-! ### Messages -/

/-- What comes from the editor. Answers to what the server has asked need no reaction. -/
inductive Incoming where
  | message (id : Option Json) (m : Message)
  | answer
  | malformed

/-- Reads what comes from the editor. -/
def Incoming.read (body : Text) : Incoming :=
  match Json.parse? body with
  | none => .malformed
  | some j =>
    match (j.get? "method").bind Json.str? with
    | none => .answer
    | some method =>
      let id := j.get? "id"
      .message id ⟨method, j.get? "params", id.isSome⟩

/-- A value of the protocol. -/
def envelope (members : List (String × Json)) : Json :=
  .record (("jsonrpc", .text "2.0") :: members)

/-- The answer to a request. -/
def ofAnswer (id : Json) : Except Failure Json → Json
  | .ok value => envelope [("id", id), ("result", value)]
  | .error cause =>
    envelope [("id", id),
      ("error", .record [("code", .int cause.code), ("message", .str cause.message)])]

/-- The answer to what is no JSON value. -/
def parseError : Json :=
  envelope [("id", .null),
    ("error", .record [("code", .int (-32700)), ("message", .text "Parse error")])]

/-- A message to the editor. Edits are asked for, under the given number; all else is told. -/
def ofSent (number : Nat) (s : Sent) : Json :=
  let id := if s.1 = "workspace/applyEdit".toList then [("id", Json.nat number)] else []
  envelope (id ++ [("method", .str s.1), ("params", s.2)])

/-- What goes to the editor because of a message. -/
def outgoing (id : Option Json) (number : Nat) (reply : Reply) : List Json :=
  reply.sent.map (ofSent number) ++ (reply.answer.map (ofAnswer (id.getD .null))).toList

end Wire

end AutoItServer
