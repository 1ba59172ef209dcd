import AutoItServer.Editor.Query

/-!
A session: the disk and the editor's state, moved by events.

The disk changes on its own; the editor hears of it only by an event of its own. Questions are
events too, because they leave something behind in the caches.

* `Event`: what can happen.
* `Session.step`, `Session.run`: one event, and a list of them.
-/

namespace AutoItServer

/-- What can happen in a session. -/
inductive Event where
  | write (p : Path) (f : File)
  | delete (p : Path)
  | noticed (p : Path) (event : FileEvent)
  | opened (u : Uri) (t : Text) (version : Option Int)
  | closed (u : Uri)
  | changed (u : Uri) (c : Change)
  | configured (settings : Settings) (errors : List Settings.Error)
  | foldersSet (folders : List Uri)
  | hover (u : Uri) (p : Position)
  | completion (u : Uri) (p : Position)
  | signatureHelp (u : Uri) (p : Position)
  | definition (u : Uri) (p : Position)
  | indexBuilt
  | indexBuiltFrom (roots : List Path) (settings : Settings)
  | indexForgot (p : Path)
  | indexDropped

/-- The disk and the state of the editor. -/
structure Session where
  disk : Disk
  editor : Editor

namespace Session

/-- A session before anything has happened. -/
def start (disk : Disk) (settings : Settings) : Session :=
  ⟨disk, .start settings⟩

/-- Moves the editor alone. -/
def withEditor (s : Session) (e : Editor) : Session :=
  { s with editor := e }

/-- What an event does. -/
def step (s : Session) : Event → Session
  | .write p f => { s with disk := s.disk.write p f }
  | .delete p => { s with disk := s.disk.delete p }
  | .noticed p event => s.withEditor (s.editor.fileChanged p event)
  | .opened u t version => s.withEditor (s.editor.openDocument u t version)
  | .closed u => s.withEditor (s.editor.closeDocument u)
  | .changed u c => s.withEditor (s.editor.change u c)
  | .configured settings errors => s.withEditor (s.editor.adopt settings errors).1
  | .foldersSet folders => s.withEditor (s.editor.setFolders folders)
  | .hover u p => s.withEditor (s.editor.hover s.disk u p).1
  | .completion u p => s.withEditor (s.editor.completion s.disk u p).1
  | .signatureHelp u p => s.withEditor (s.editor.signatureHelp s.disk u p).1
  | .definition u p => s.withEditor (s.editor.definition s.disk u p).1
  | .indexBuilt => s.withEditor (s.editor.buildIndex s.disk).1
  | .indexBuiltFrom roots settings => s.withEditor (s.editor.buildIndexFrom s.disk roots settings).1
  | .indexForgot p => s.withEditor { s.editor with index := s.editor.index.invalidateFile p }
  | .indexDropped => s.withEditor { s.editor with index := s.editor.index.invalidateAll }

/-- What a list of events does. -/
def run (s : Session) (events : List Event) : Session :=
  events.foldl step s

end Session

end AutoItServer
