import AutoItServer.Editor.Query
import Mathlib.Tactic.Lemma
import Mathlib.Tactic.SplitIfs

/-!
What a question leaves behind.

A question moves nothing but the caches, and those in one of two ways.

* `Editor.Asked`: texts of files were read; and if the includes of the document were not remembered,
  they were computed in the state before the question and are remembered now.
* `asked_hover`, `asked_completion`, `asked_signatureHelp`, `asked_definition`: every question about
  a document is of this kind.
-/

namespace AutoItServer

namespace Editor

/-- What a question about a document can do to the state. -/
inductive Asked (e : Editor) (d : Disk) (u : Uri) : Editor → Prop where
  | recalled (paths : List Path) : Asked e d u { e with fileCache := e.fileCache.readAll d paths }
  | walked (paths : List Path) {doc : Document} {p : Path} (hdoc : e.document? u = some doc)
      (hpath : u.path? = some p) :
      Asked e d u { e with
        fileCache := e.fileCache.readAll d paths
        includeCache := e.includeCache.push u (e.computeIncludes d p (Directive.findAll doc.text))
        walks := e.walks + 1 }

variable {e e' : Editor} {d : Disk} {u : Uri} {doc : Document}

lemma asked_self : Asked e d u e :=
  .recalled []

/-- More files may be read afterwards. -/
lemma Asked.read (h : Asked e d u e') (paths : List Path) :
    Asked e d u { e' with fileCache := e'.fileCache.readAll d paths } := by
  cases h with
  | recalled before =>
    simp only [FileCache.readAll, ← List.foldl_append]
    exact .recalled (before ++ paths)
  | walked before hdoc hpath =>
    simp only [FileCache.readAll, ← List.foldl_append]
    exact .walked (before ++ paths) hdoc hpath

/-- The includes of a document are the ones remembered, or are computed and remembered. -/
lemma asked_included (hdoc : e.document? u = some doc) :
    Asked e d u (e.included d u doc.text).1 := by
  rw [included]
  split
  · exact asked_self
  · rename_i p hpath
    simp only [includesOf]
    split
    · exact asked_self
    · simp only [IncludeCache.store, if_pos, fetch]
      exact .walked _ hdoc hpath

lemma asked_signaturesOf (hdoc : e.document? u = some doc) :
    Asked e d u (e.signaturesOf d u doc.text).1 :=
  asked_included hdoc

/-! ### The questions -/

lemma asked_hover (e : Editor) (d : Disk) (u : Uri) (p : Position) :
    Asked e d u (e.hover d u p).1 := by
  rw [hover]
  split
  · exact asked_self
  · rename_i doc hdoc
    dsimp only
    split
    · exact asked_self
    · split_ifs
      · exact asked_self
      · exact asked_self
      · exact asked_signaturesOf hdoc

lemma asked_completion (e : Editor) (d : Disk) (u : Uri) (p : Position) :
    Asked e d u (e.completion d u p).1 := by
  rw [completion]
  split
  · exact asked_self
  · rename_i doc hdoc
    dsimp only
    split_ifs
    · exact asked_self
    · exact asked_self
    · exact asked_signaturesOf hdoc

lemma asked_signatureHelp (e : Editor) (d : Disk) (u : Uri) (p : Position) :
    Asked e d u (e.signatureHelp d u p).1 := by
  rw [signatureHelp]
  split
  · exact asked_self
  · rename_i doc hdoc
    dsimp only
    split
    · exact asked_self
    · split
      · exact asked_self
      · exact asked_signaturesOf hdoc

lemma asked_definition (e : Editor) (d : Disk) (u : Uri) (p : Position) :
    Asked e d u (e.definition d u p).1 := by
  rw [definition]
  split
  · exact asked_self
  · rename_i doc hdoc
    dsimp only
    split
    · exact asked_self
    · split
      · exact asked_self
      · split
        · exact asked_self
        · exact (asked_included hdoc).read _

end Editor

end AutoItServer
