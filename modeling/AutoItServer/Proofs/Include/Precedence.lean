import AutoItServer.Include.Walk
import AutoItServer.Proofs.Data.OrderedMap

/-!
Which definition of a function counts.

A table of signatures has layers: the built-in functions, the included files, and the document.
Within a text, among the files and from layer to layer the later definition replaces the earlier
one, and takes its place in the table.

* `Signature.last?`: the signature of the last definition of a name in a text.
* `Signature.overlay_eq_ofList`: layers are the insertion of all their entries.
* `Include.find?_signatures`: of several files the last one that defines a name counts.
* `Include.merged_eq_ofList`: the whole table is the insertion of every definition, in order.
* `Include.merged_precedence` (**precedence**): what the table says of a name, and in which order
  its names stand.
-/

namespace AutoItServer

namespace Signature

/-- The lower-cased names of the functions that a text defines, one for each definition. -/
def definedNames (t : Text) : List Text :=
  (FunctionDef.findAll t).map fun d => Text.lower d.name

/-- The signature of the last definition of a lower-cased name in a text. -/
def last? (name t file : Text) : Option Signature :=
  ((FunctionDef.findAll t).filter fun d => Text.lower d.name == name).getLast?.map
    (ofDef ((Text.lines t).map Line.text) file)

/-- The signatures of all definitions of a text, in order. -/
def definitions (t file : Text) : List (Text × Signature) :=
  (FunctionDef.findAll t).map fun d =>
    (Text.lower d.name, ofDef ((Text.lines t).map Line.text) file d)

lemma map_fst_definitions (t file : Text) : (definitions t file).map Prod.fst = definedNames t := by
  rw [definitions, List.map_map, definedNames]
  rfl

/-- Of several definitions in a text the last one counts. -/
lemma find?_ofText (name t file : Text) : (ofText t file).find? name = last? name t file := by
  show (OrderedMap.ofList (definitions t file)).find? name = _
  rw [OrderedMap.find?_ofList, definitions, List.filter_map, List.getLast?_map,
    Option.map_map, last?]
  rfl

/-- **Layers** are the insertion of all their entries, one after another. -/
lemma overlay_eq_ofList (layers : List SignatureMap) :
    overlay layers = OrderedMap.ofList (layers.flatMap OrderedMap.entries) :=
  List.foldl_flatMap.symm

/-- Layers may be put together in two stages. -/
lemma overlay_overlay (below middle above : List SignatureMap) :
    overlay (below ++ overlay middle :: above) = overlay (below ++ middle ++ above) := by
  simp only [overlay_eq_ofList, List.flatMap_append, List.flatMap_cons, ← List.append_assoc]
  rw [OrderedMap.ofList_append, OrderedMap.ofList_append_ofList, ← OrderedMap.ofList_append]

end Signature

namespace Include

open Signature (definitions definedNames)

/-! ### Signatures of several files -/

/-- The signature of a name in a file, as far as the file can be read. -/
def signatureIn? (content : Content) (name : Text) (p : Path) : Option Signature :=
  (content p).bind fun t => (Signature.ofText t p.label).find? name

/-- **The last file that defines a name** gives it its signature. -/
lemma find?_signatures (content : Content) (files : List Path) (name : Text) :
    (signatures content files).find? name =
      files.reverse.findSome? (signatureIn? content name) := by
  induction files using List.reverseRecOn with
  | nil => rfl
  | append_singleton files p ih =>
    rw [signatures, List.foldl_append, ← signatures, List.foldl_cons, List.foldl_nil,
      List.reverse_append, List.reverse_singleton, List.singleton_append, List.findSome?_cons]
    cases hp : content p with
    | none => simp [signatureIn?, hp, ih]
    | some t =>
      have hnodup : (Signature.ofText t p.label).keys.Nodup := OrderedMap.nodup_keys_ofList _
      simp only [OrderedMap.find?_overlay hnodup, ih]
      cases hname : (Signature.ofText t p.label).find? name <;> simp [signatureIn?, hp, hname]

/-- The signatures of the files that can be read. -/
def layersOf (content : Content) (files : List Path) : List SignatureMap :=
  files.filterMap fun p => (content p).map fun t => Signature.ofText t p.label

/-- The files are layers, one above the other. -/
lemma signatures_eq_overlay (content : Content) (files : List Path) :
    signatures content files = Signature.overlay (layersOf content files) := by
  rw [signatures, Signature.overlay, layersOf, List.foldl_filterMap]
  congr 1
  funext merged p
  cases content p <;> rfl

/-- All definitions of a file, as far as the file can be read. -/
def definitionsIn (content : Content) (p : Path) : List (Text × Signature) :=
  (content p).elim [] fun t => definitions t p.label

/-- The signatures of files are the insertion of all their definitions. -/
lemma signatures_eq_ofList (content : Content) (files : List Path) :
    signatures content files = OrderedMap.ofList (files.flatMap (definitionsIn content)) := by
  induction files using List.reverseRecOn with
  | nil => rfl
  | append_singleton files p ih =>
    rw [signatures, List.foldl_append, ← signatures, List.foldl_cons, List.foldl_nil, ih,
      List.flatMap_append, List.flatMap_singleton]
    cases hp : content p with
    | none => simp [definitionsIn, hp]
    | some t =>
      show (OrderedMap.ofList _).insertAll (OrderedMap.ofList (definitions t p.label)).entries = _
      rw [← OrderedMap.ofList_append, OrderedMap.ofList_append_ofList, definitionsIn, hp]
      rfl

/-! ### The whole table -/

variable {builtIns : SignatureMap}

/-- **The table** is the insertion of the built-in functions, of every definition in the files, and
of every definition in the document. -/
lemma merged_eq_ofList (builtIns : SignatureMap) (content : Content) (files : List Path)
    (t file : Text) :
    Signature.overlay [builtIns, signatures content files, Signature.ofText t file] =
      OrderedMap.ofList
        (builtIns.entries ++ files.flatMap (definitionsIn content) ++ definitions t file) := by
  calc Signature.overlay [builtIns, signatures content files, Signature.ofText t file]
      = .ofList (builtIns.entries ++ (signatures content files).entries ++
          (Signature.ofText t file).entries) := by
        rw [Signature.overlay_eq_ofList]
        simp
    _ = .ofList (builtIns.entries ++ (signatures content files).entries ++ definitions t file) :=
        OrderedMap.ofList_append_ofList _ _
    _ = .ofList (builtIns.entries ++ files.flatMap (definitionsIn content) ++
      definitions t file) := by
        rw [OrderedMap.ofList_append, signatures_eq_ofList, OrderedMap.ofList_append_ofList,
          ← OrderedMap.ofList_append]

/-- What the table says of a name, from the top layer down. -/
lemma find?_merged (h : builtIns.keys.Nodup) (content : Content) (files : List Path)
    (name t file : Text) :
    (Signature.overlay [builtIns, signatures content files, Signature.ofText t file]).find? name =
      (Signature.last? name t file).or
        ((files.reverse.findSome? fun p => (content p).bind fun s =>
          Signature.last? name s p.label).or
          (builtIns.find? name)) := by
  have hfiles : (signatures content files).keys.Nodup := by
    rw [signatures_eq_ofList]
    exact OrderedMap.nodup_keys_ofList _
  have htext : (Signature.ofText t file).keys.Nodup := OrderedMap.nodup_keys_ofList _
  simp only [Signature.overlay, List.foldl_cons, List.foldl_nil]
  rw [OrderedMap.find?_overlay htext, OrderedMap.find?_overlay hfiles, OrderedMap.find?_overlay h,
    Signature.find?_ofText, find?_signatures, OrderedMap.find?_empty, Option.or_none]
  have hlast : signatureIn? content name =
      fun p => (content p).bind fun s => Signature.last? name s p.label := by
    funext p
    simp only [signatureIn?, Signature.find?_ofText]
  rw [hlast]

/-- The names of the table, in the order of their first appearance. -/
lemma keys_merged (builtIns : SignatureMap) (content : Content) (files : List Path)
    (t file : Text) :
    (Signature.overlay [builtIns, signatures content files, Signature.ofText t file]).keys =
      (builtIns.keys ++ files.flatMap (fun p => (content p).elim [] definedNames) ++
        definedNames t).eraseDups := by
  have hfiles : ∀ p, (definitionsIn content p).map Prod.fst = (content p).elim [] definedNames := by
    intro p
    rw [definitionsIn]
    cases content p with
    | none => rfl
    | some t => exact Signature.map_fst_definitions t p.label
  rw [merged_eq_ofList, OrderedMap.keys_ofList, List.map_append, List.map_append, List.map_flatMap,
    Signature.map_fst_definitions, funext hfiles]
  rfl

/-- **Precedence.** A name has the signature of its last definition in the document; if there is
none, of its last definition in the last readable file that has one; if there is none, of the
built-in function. No other name has one. The names stand in the order in which they first appear in
the built-in functions, the files and the document, each once. Putting layers together in two stages
makes no difference, and the files are layers themselves. -/
theorem merged_precedence (builtIns : SignatureMap) (h : builtIns.keys.Nodup) (content : Content)
    (files : List Path) (t file : Text) :
    let merged := Signature.overlay [builtIns, signatures content files, Signature.ofText t file]
    (∀ name, merged.find? name = (Signature.last? name t file).or
      ((files.reverse.findSome? fun p => (content p).bind fun s =>
        Signature.last? name s p.label).or
        (builtIns.find? name))) ∧
    (∀ name, name ∈ merged.keys ↔ (merged.find? name).isSome) ∧
    merged.keys = (builtIns.keys ++ files.flatMap (fun p => (content p).elim [] definedNames) ++
      definedNames t).eraseDups ∧
    merged.keys.Nodup ∧
    (∀ below middle above, Signature.overlay (below ++ Signature.overlay middle :: above) =
      Signature.overlay (below ++ middle ++ above)) ∧
    merged = Signature.overlay
      (builtIns :: layersOf content files ++ [Signature.ofText t file]) := by
  intro merged
  refine ⟨fun name => find?_merged h content files name t file,
    fun _ => OrderedMap.mem_keys_iff_isSome,
    keys_merged builtIns content files t file, ?_, Signature.overlay_overlay, ?_⟩
  · show (Signature.overlay _).keys.Nodup
    rw [merged_eq_ofList]
    exact OrderedMap.nodup_keys_ofList _
  · show Signature.overlay _ = _
    rw [signatures_eq_overlay]
    exact Signature.overlay_overlay [builtIns] (layersOf content files) [Signature.ofText t file]

/-- One built-in function. -/
def boxOnly : SignatureMap :=
  .ofList [("msgbox".toList, ⟨"MsgBox".toList, "MsgBox($text)".toList, [], ∅, none⟩)]

/-- Two files that define functions, with a file between them that cannot be read. -/
def threeFiles : Content := fun p =>
  if p = .ofString "/a.au3" then some "Func Add($a)\nEndFunc\nFunc MSGBOX($b)\nEndFunc".toList
  else if p = .ofString "/c.au3" then some "Func add($c)\nEndFunc\nFunc Sub()\nEndFunc".toList
  else none

/-- The built-in function is replaced by the first file, a function of the first file by the last
one, and a function of the last file by the second definition in the document. Each keeps the place
of the one that it replaces. -/
theorem merged_precedence_layers :
    let merged := Signature.overlay [boxOnly,
      signatures threeFiles [.ofString "/a.au3", .ofString "/b.au3", .ofString "/c.au3"],
      Signature.ofText "Func sub($x)\nEndFunc\nFunc SUB($y)\nEndFunc".toList "main.au3".toList]
    merged.keys = ["msgbox".toList, "add".toList, "sub".toList] ∧
    (merged.find? "msgbox".toList).map Signature.label = some "MSGBOX($b)".toList ∧
    (merged.find? "add".toList).map Signature.label = some "add($c)".toList ∧
    (merged.find? "sub".toList).map Signature.label = some "SUB($y)".toList := by
  intro merged
  obtain ⟨hfind, -, hkeys, -⟩ := merged_precedence boxOnly (by decide) threeFiles
    [.ofString "/a.au3", .ofString "/b.au3", .ofString "/c.au3"]
    "Func sub($x)\nEndFunc\nFunc SUB($y)\nEndFunc".toList "main.au3".toList
  refine ⟨hkeys.trans ?_, ?_, ?_, ?_⟩
  · decide
  · rw [hfind]
    decide
  · rw [hfind]
    decide
  · rw [hfind]
    decide

end Include

end AutoItServer
