import AutoItServer.Lookup.Site
import AutoItServer.Proofs.Include.Precedence
import AutoItServer.Proofs.Text.Case

/-!
The definition that a word leads to is the one whose signature is shown.

Two searches answer for the same word. The search for the definition takes the first one, in the
document and then file by file, and compares names up to the case of ASCII letters. The table of
signatures keeps the last one, and its keys are lower-cased by Unicode. They agree where names are
ASCII and no name is defined twice.

* `Lookup.Defined`: the definitions that count for a document, with the file they stand in.
* `Lookup.Unambiguous`: all their names are ASCII, and no two of them have the same name.
* `function?_eq_some_iff`, `find?_ofText_eq_some_iff`: under these conditions both searches in one
  text find the definition of the name, if there is one.
* `Lookup.Signed`: a signature with the file whose table has it. There is at most one
  (`signed_unique`), and it is the one shown (`find?_merged_eq_some_iff`) and the one found
  (`site?_eq_some_iff`).
* `Lookup.site_agrees` (**one answer**): the two searches over the document and all files.
-/

namespace AutoItServer

namespace Lookup

open Include (Content signatures signatureIn?)
open AutoItServer.Text (IsAscii lower sameIgnoringCase)

variable {t u word file : Text} {files : List Path} {content : Content} {p q : Path}
  {d e : FunctionDef}

/-- A definition that counts for a document: in its text, or in a file that can be read. -/
inductive Defined (t : Text) (files : List Path) (content : Content) :
    Option Path → FunctionDef → Prop where
  | inside {d : FunctionDef} (hd : d ∈ FunctionDef.findAll t) : Defined t files content none d
  | included {p : Path} {u : Text} {d : FunctionDef} (hp : p ∈ files) (hu : content p = some u)
      (hd : d ∈ FunctionDef.findAll u) : Defined t files content (some p) d

/-- All names are ASCII, and no name is defined twice, whatever the case of its letters. -/
structure Unambiguous (t : Text) (files : List Path) (content : Content) : Prop where
  isAscii : ∀ place d, Defined t files content place d → IsAscii d.name
  once : ∀ place d place' e, Defined t files content place d → Defined t files content place' e →
    sameIgnoringCase d.name e.name → place = place' ∧ d = e

/-! ### One text -/

/-- A text all of whose names are ASCII, each defined once. -/
structure Plain (t : Text) : Prop where
  isAscii : ∀ d ∈ FunctionDef.findAll t, IsAscii d.name
  once : ∀ d ∈ FunctionDef.findAll t, ∀ e ∈ FunctionDef.findAll t,
    lower d.name = lower e.name → d = e

/-- The first definition of a name is the only one. -/
lemma function?_eq_some_iff (h : Plain t) (hword : IsAscii word) {offset : Nat} :
    function? t word = some offset ↔
      ∃ d ∈ FunctionDef.findAll t, lower d.name = lower word ∧ d.offset = offset := by
  have hsame {d : FunctionDef} (hd : d ∈ FunctionDef.findAll t) :
      sameIgnoringCase d.name word ↔ lower d.name = lower word :=
    Text.sameIgnoringCase_iff_lower_eq (h.isAscii d hd) hword
  rw [function?, Option.map_eq_some_iff]
  constructor
  · rintro ⟨d, hd, rfl⟩
    have hmem := List.mem_of_find?_eq_some hd
    have hname := List.find?_some hd
    exact ⟨d, hmem, (hsame hmem).mp hname, rfl⟩
  · rintro ⟨d, hd, hname, rfl⟩
    have hsome : ((FunctionDef.findAll t).find? fun d => sameIgnoringCase d.name word).isSome :=
      List.find?_isSome.mpr ⟨d, hd, (hsame hd).mpr hname⟩
    obtain ⟨e, he⟩ := Option.isSome_iff_exists.mp hsome
    have hmem := List.mem_of_find?_eq_some he
    have hfirst := List.find?_some he
    exact ⟨e, he, by rw [h.once e hmem d hd (((hsame hmem).mp hfirst).trans hname.symm)]⟩

/-- The last definition of a name is the only one. -/
lemma find?_ofText_eq_some_iff (h : Plain t) {name : Text} {s : Signature} :
    (Signature.ofText t file).find? name = some s ↔
      ∃ d ∈ FunctionDef.findAll t, lower d.name = name ∧
        Signature.ofDef ((Text.lines t).map Line.text) file d = s := by
  rw [Signature.find?_ofText, Signature.last?, Option.map_eq_some_iff]
  have hlisted {d : FunctionDef} : d ∈ (FunctionDef.findAll t).filter
      (fun d => lower d.name == name) ↔
      d ∈ FunctionDef.findAll t ∧ lower d.name = name := by
    rw [List.mem_filter, beq_iff_eq]
  constructor
  · rintro ⟨d, hd, rfl⟩
    obtain ⟨hmem, hname⟩ := hlisted.mp (List.mem_of_getLast? hd)
    exact ⟨d, hmem, hname, rfl⟩
  · rintro ⟨d, hd, hname, rfl⟩
    cases hlast : ((FunctionDef.findAll t).filter fun d => lower d.name == name).getLast? with
    | none =>
      rw [List.getLast?_eq_none_iff] at hlast
      exact absurd (hlast ▸ hlisted.mpr ⟨hd, hname⟩) List.not_mem_nil
    | some e =>
      obtain ⟨hmem, hname'⟩ := hlisted.mp (List.mem_of_getLast? hlast)
      exact ⟨e, rfl, by rw [h.once e hmem d hd (hname'.trans hname.symm)]⟩

/-- **In one text** the definition that is found is the one with the signature. -/
lemma function?_eq_some_iff_signature (h : Plain t) (hword : IsAscii word) {offset : Nat} :
    function? t word = some offset ↔
      ∃ s, (Signature.ofText t file).find? (lower word) = some s ∧ s.offset = some offset := by
  rw [function?_eq_some_iff h hword]
  constructor
  · rintro ⟨d, hd, hname, rfl⟩
    exact ⟨_, (find?_ofText_eq_some_iff h).mpr ⟨d, hd, hname, rfl⟩, rfl⟩
  · rintro ⟨s, hs, hoffset⟩
    obtain ⟨d, hd, hname, rfl⟩ := (find?_ofText_eq_some_iff h).mp hs
    exact ⟨d, hd, hname, Option.some.inj hoffset⟩

/-! ### The document and its files -/

/-- A place that counts for a document, and the signature that a name has there. -/
inductive Signed (t file : Text) (files : List Path) (content : Content) (name : Text) :
    Option Path → Signature → Prop where
  | inside {s : Signature} (hs : (Signature.ofText t file).find? name = some s) :
      Signed t file files content name none s
  | included {p : Path} {u : Text} {s : Signature} (hp : p ∈ files) (hu : content p = some u)
      (hs : (Signature.ofText u p.label).find? name = some s) :
      Signed t file files content name (some p) s

/-- The signatures of the document come before those of the files. -/
lemma find?_merged (t file : Text) (files : List Path) (content : Content) (name : Text) :
    (Signature.overlay [signatures content files, Signature.ofText t file]).find? name =
      ((Signature.ofText t file).find? name).or
        (files.reverse.findSome? (signatureIn? content name)) := by
  have hempty : (∅ : SignatureMap).keys.Nodup := List.nodup_nil
  have hlast : signatureIn? content name =
      fun p => (content p).bind fun u => Signature.last? name u p.label := by
    funext p
    simp only [signatureIn?, Signature.find?_ofText]
  calc (Signature.overlay [signatures content files, Signature.ofText t file]).find? name
      = (Signature.overlay [∅, signatures content files, Signature.ofText t file]).find? name := rfl
    _ = (Signature.last? name t file).or
          ((files.reverse.findSome? fun p => (content p).bind fun u =>
            Signature.last? name u p.label).or
            (OrderedMap.find? name ∅)) := Include.find?_merged hempty content files name t file
    _ = ((Signature.ofText t file).find? name).or
      (files.reverse.findSome? (signatureIn? content name)) := by
        rw [OrderedMap.find?_empty, Option.or_none, hlast, Signature.find?_ofText]

/-- What the table says of a name is its signature at some place, -/
lemma exists_signed_of_merged {name : Text} {s : Signature}
    (hs : (Signature.overlay [signatures content files, Signature.ofText t file]).find? name =
      some s) :
    ∃ place, Signed t file files content name place s := by
  rw [find?_merged, Option.or_eq_some_iff] at hs
  rcases hs with hs | ⟨-, hs⟩
  · exact ⟨none, .inside hs⟩
  · obtain ⟨p, hp, hs⟩ := List.exists_of_findSome?_eq_some hs
    obtain ⟨u, hu, hs⟩ := Option.bind_eq_some_iff.mp hs
    exact ⟨some p, .included (List.mem_reverse.mp hp) hu hs⟩

/-- and it says something of every name that has a signature. -/
lemma Signed.isSome_merged {name : Text} {place : Option Path} {s : Signature}
    (hs : Signed t file files content name place s) :
    ((Signature.overlay [signatures content files, Signature.ofText t file]).find?
      name).isSome := by
  rw [find?_merged, Option.isSome_or]
  cases hs with
  | inside hs => simp [hs]
  | included hp hu hs =>
    have hfile : (files.reverse.findSome? (signatureIn? content name)).isSome :=
      List.findSome?_isSome_iff.mpr ⟨_, List.mem_reverse.mpr hp,
        by rw [signatureIn?, hu, Option.bind_some, hs]; rfl⟩
    rw [hfile, Bool.or_true]

namespace Unambiguous

variable (h : Unambiguous t files content) {name : Text} {place place' : Option Path}
  {s s' : Signature}

include h

/-- No name is defined twice, in lower case. -/
lemma eq_of_lower_eq (hd : Defined t files content place d) (he : Defined t files content place' e)
    (hname : lower d.name = lower e.name) : place = place' ∧ d = e := by
  refine h.once place d place' e hd he ?_
  rwa [Text.sameIgnoringCase_iff_lower_eq (h.isAscii _ d hd) (h.isAscii _ e he)]

lemma plain_inside : Plain t where
  isAscii d hd := h.isAscii none d (.inside hd)
  once _ hd _ he hname := (h.eq_of_lower_eq (.inside hd) (.inside he) hname).2

lemma plain_included (hp : p ∈ files) (hu : content p = some u) : Plain u where
  isAscii d hd := h.isAscii (some p) d (.included hp hu hd)
  once _ hd _ he hname := (h.eq_of_lower_eq (.included hp hu hd) (.included hp hu he) hname).2

/-- A name with a signature is defined where it has it. -/
lemma exists_defined (hs : Signed t file files content name place s) :
    ∃ d, Defined t files content place d ∧ lower d.name = name ∧ s.offset = some d.offset := by
  cases hs with
  | inside hs =>
    obtain ⟨d, hd, hname, rfl⟩ := (find?_ofText_eq_some_iff h.plain_inside).mp hs
    exact ⟨d, .inside hd, hname, rfl⟩
  | included hp hu hs =>
    obtain ⟨d, hd, hname, rfl⟩ := (find?_ofText_eq_some_iff (h.plain_included hp hu)).mp hs
    exact ⟨d, .included hp hu hd, hname, rfl⟩

/-- **A name has one signature**, at one place. -/
lemma signed_unique (hs : Signed t file files content name place s)
    (hs' : Signed t file files content name place' s') : place = place' ∧ s = s' := by
  obtain ⟨d, hd, hname, -⟩ := h.exists_defined hs
  obtain ⟨e, he, hname', -⟩ := h.exists_defined hs'
  obtain ⟨rfl, -⟩ := h.eq_of_lower_eq hd he (hname.trans hname'.symm)
  refine ⟨rfl, ?_⟩
  cases hs with
  | inside hs =>
    cases hs' with
    | inside hs' => exact Option.some.inj (hs.symm.trans hs')
  | included hp hu hs =>
    cases hs' with
    | included hp' hu' hs' =>
      obtain rfl := Option.some.inj (hu.symm.trans hu')
      exact Option.some.inj (hs.symm.trans hs')

/-- The place of a signature is the document exactly if the local signatures have the name, -/
lemma place_eq_none_iff (hs : Signed t file files content name place s) :
    place = none ↔ name ∈ (Signature.ofText t file).keys := by
  rw [OrderedMap.mem_keys_iff_isSome, Option.isSome_iff_exists]
  constructor
  · rintro rfl
    cases hs with
    | inside hs => exact ⟨s, hs⟩
  · rintro ⟨s', hs'⟩
    exact (h.signed_unique hs (.inside hs')).1

/-- and otherwise the file whose signatures have it. -/
lemma place_eq_some_iff (hs : Signed t file files content name place s) :
    place = some p ↔ p ∈ files ∧ ∃ u, content p = some u ∧
      name ∈ (Signature.ofText u p.label).keys := by
  simp only [OrderedMap.mem_keys_iff_isSome, Option.isSome_iff_exists]
  constructor
  · rintro rfl
    cases hs with
    | included hp hu hs => exact ⟨hp, _, hu, s, hs⟩
  · rintro ⟨hp, u, hu, s', hs'⟩
    exact (h.signed_unique hs (.included hp hu hs')).1

/-- **The table** has the signature of a name at its place. -/
lemma find?_merged_eq_some_iff :
    (Signature.overlay [signatures content files, Signature.ofText t file]).find? name = some s ↔
      ∃ place, Signed t file files content name place s := by
  refine ⟨exists_signed_of_merged, ?_⟩
  rintro ⟨place, hs⟩
  obtain ⟨s', hs'⟩ := Option.isSome_iff_exists.mp hs.isSome_merged
  obtain ⟨place', hplace⟩ := exists_signed_of_merged hs'
  rw [hs', (h.signed_unique hs hplace).2]

/-! ### The search for the definition -/

section Search

variable (hword : IsAscii word) (hvariable : isVariable word = false)

include hword hvariable

lemma inText?_inside_eq_some_iff (file : Text) {offset : Nat} :
    inText? word t = some offset ↔
      ∃ s, (Signature.ofText t file).find? (lower word) = some s ∧ s.offset = some offset := by
  rw [inText?, hvariable, if_neg (by decide)]
  exact function?_eq_some_iff_signature h.plain_inside hword

lemma inText?_included_eq_some_iff (hp : p ∈ files) (hu : content p = some u) {offset : Nat} :
    inText? word u = some offset ↔
      ∃ s, (Signature.ofText u p.label).find? (lower word) = some s ∧ s.offset = some offset := by
  rw [inText?, hvariable, if_neg (by decide)]
  exact function?_eq_some_iff_signature (h.plain_included hp hu) hword

variable (hsigil : isMacro word = false)

include hsigil

/-- What the search finds is a place where the word has a signature, -/
lemma exists_signed_of_site? (file : Text) {site : Site}
    (hsite : site? t word files content = some site) :
    ∃ s, Signed t file files content (lower word) site.path s ∧ s.offset = some site.offset := by
  rw [site?, hsigil, if_neg (by decide)] at hsite
  split at hsite
  · rename_i offset hoffset
    obtain rfl := Option.some.inj hsite
    obtain ⟨s, hs, hoffset⟩ := (h.inText?_inside_eq_some_iff hword hvariable file).mp hoffset
    exact ⟨s, .inside hs, hoffset⟩
  · split at hsite
    · rename_i found hfound
      obtain rfl := Option.some.inj hsite
      obtain ⟨p, hp, hfile⟩ := List.exists_of_findSome?_eq_some hfound
      obtain ⟨offset, hoffset, rfl⟩ := Option.map_eq_some_iff.mp hfile
      obtain ⟨u, hu, hoffset⟩ := Option.bind_eq_some_iff.mp hoffset
      obtain ⟨s, hs, hoffset⟩ := (h.inText?_included_eq_some_iff hword hvariable hp hu).mp hoffset
      exact ⟨s, .included hp hu hs, hoffset⟩
    · rw [hvariable, if_neg (by decide)] at hsite
      cases hsite

/-- and it finds something for every word that has one. -/
lemma isSome_site? (hs : Signed t file files content (lower word) place s) :
    (site? t word files content).isSome := by
  rw [site?, hsigil, if_neg (by decide)]
  obtain ⟨d, -, -, hoffset⟩ := h.exists_defined hs
  cases hinside : inText? word t with
  | some offset => rfl
  | none =>
    cases hs with
    | inside hs =>
      rw [(h.inText?_inside_eq_some_iff hword hvariable file).mpr ⟨s, hs, hoffset⟩] at hinside
      cases hinside
    | @included p u _ hp hu hs =>
      have hfile : inFile? content word p = some ⟨some p, d.offset⟩ := by
        rw [inFile?, hu, Option.bind_some,
          (h.inText?_included_eq_some_iff hword hvariable hp hu).mpr ⟨s, hs, hoffset⟩]
        rfl
      have hsome : (files.findSome? (inFile? content word)).isSome :=
        List.findSome?_isSome_iff.mpr ⟨p, hp, by rw [hfile]; rfl⟩
      obtain ⟨site, hsite⟩ := Option.isSome_iff_exists.mp hsome
      simp only [hsite]
      rfl

/-- **The search** leads to the place of the signature. -/
lemma site?_eq_some_iff (file : Text) {site : Site} :
    site? t word files content = some site ↔
      ∃ s, Signed t file files content (lower word) site.path s ∧ s.offset = some site.offset := by
  refine ⟨h.exists_signed_of_site? hword hvariable hsigil file, ?_⟩
  rintro ⟨s, hs, hoffset⟩
  obtain ⟨found, hfound⟩ := Option.isSome_iff_exists.mp (h.isSome_site? hword hvariable hsigil hs)
  obtain ⟨s', hs', hoffset'⟩ := h.exists_signed_of_site? hword hvariable hsigil file hfound
  obtain ⟨hplace, rfl⟩ := h.signed_unique hs hs'
  have hsame : found = site := by
    cases found
    cases site
    simp_all
  rw [hfound, hsame]

end Search

end Unambiguous

/-- **One answer.** All names are ASCII and none is defined twice, in the document and the files
that can be read. Then a word without sigil leads to a definition exactly if the table of the
included and the local signatures has its lower case. The definition stands in the document exactly
if the local signatures have it, and otherwise in the file whose signatures have it. Its offset is
that of the signature there, which is the one in the table. -/
theorem site_agrees (h : Unambiguous t files content) (file word : Text) (hword : IsAscii word)
    (hvariable : isVariable word = false) (hsigil : isMacro word = false) :
    let locals := Signature.ofText t file
    let merged := Signature.overlay [signatures content files, locals]
    ((site? t word files content).isSome ↔ lower word ∈ merged.keys) ∧
    ∀ site, site? t word files content = some site →
      (site.path = none ↔ lower word ∈ locals.keys) ∧
      (∀ p, site.path = some p ↔ p ∈ files ∧ ∃ u, content p = some u ∧
        lower word ∈ (Signature.ofText u p.label).keys) ∧
      ∃ s, Signed t file files content (lower word) site.path s ∧ s.offset = some site.offset ∧
        merged.find? (lower word) = some s := by
  intro locals merged
  have hsearch {site : Site} : site? t word files content = some site ↔
      ∃ s, Signed t file files content (lower word) site.path s ∧ s.offset = some site.offset :=
    h.site?_eq_some_iff hword hvariable hsigil file
  refine ⟨?_, fun site hsite => ?_⟩
  · rw [OrderedMap.mem_keys_iff_isSome, Option.isSome_iff_exists, Option.isSome_iff_exists]
    constructor
    · rintro ⟨site, hsite⟩
      obtain ⟨s, hs, -⟩ := hsearch.mp hsite
      exact ⟨s, h.find?_merged_eq_some_iff.mpr ⟨_, hs⟩⟩
    · rintro ⟨s, hs⟩
      obtain ⟨place, hs⟩ := h.find?_merged_eq_some_iff.mp hs
      obtain ⟨d, -, -, hoffset⟩ := h.exists_defined hs
      exact ⟨⟨place, d.offset⟩, hsearch.mpr ⟨s, hs, hoffset⟩⟩
  · obtain ⟨s, hs, hoffset⟩ := hsearch.mp hsite
    exact ⟨h.place_eq_none_iff hs, fun _ => h.place_eq_some_iff hs, s, hs, hoffset,
      h.find?_merged_eq_some_iff.mpr ⟨_, hs⟩⟩

/-- A document with one function, -/
def mainText : Text :=
  "Func Main()\nEndFunc".toList

/-- and a library with one function below a comment; no other file can be read. -/
def oneLibrary : Content := fun p =>
  if p = .ofString "/lib.au3" then some "; helpers\nFunc Helper($x)\nEndFunc".toList else none

/-- The library is listed twice, behind a file that cannot be read. -/
def listedTwice : List Path :=
  [.ofString "/none.au3", .ofString "/lib.au3", .ofString "/lib.au3"]

lemma eq_of_defined_oneLibrary {place : Option Path}
    (hd : Defined mainText listedTwice oneLibrary place d) :
    (place = none ∧ d = ⟨"Main".toList, [], 0, 0⟩) ∨
      (place = some (.ofString "/lib.au3") ∧ d = ⟨"Helper".toList, "$x".toList, 1, 10⟩) := by
  cases hd with
  | inside hd =>
    have hfound : FunctionDef.findAll mainText = [⟨"Main".toList, [], 0, 0⟩] := by decide +kernel
    exact Or.inl ⟨rfl, List.mem_singleton.mp (hfound ▸ hd)⟩
  | @included p u _ hp hu hd =>
    rw [oneLibrary] at hu
    split_ifs at hu with hlib
    have hfound : FunctionDef.findAll u = [⟨"Helper".toList, "$x".toList, 1, 10⟩] := by
      rw [← Option.some.inj hu]
      decide +kernel
    exact Or.inr ⟨by rw [hlib], List.mem_singleton.mp (hfound ▸ hd)⟩

lemma unambiguous_oneLibrary : Unambiguous mainText listedTwice oneLibrary where
  isAscii place d hd := by
    rcases eq_of_defined_oneLibrary hd with ⟨-, rfl⟩ | ⟨-, rfl⟩ <;> decide
  once place d place' e hd he hname := by
    rcases eq_of_defined_oneLibrary hd with ⟨rfl, rfl⟩ | ⟨rfl, rfl⟩ <;>
      rcases eq_of_defined_oneLibrary he with ⟨rfl, rfl⟩ | ⟨rfl, rfl⟩
    · exact ⟨rfl, rfl⟩
    · exact absurd hname (by decide)
    · exact absurd hname (by decide)
    · exact ⟨rfl, rfl⟩

/-- The function of the library in other letters leads to its line there, and the table has it. -/
theorem site_agrees_oneLibrary :
    site? mainText "HELPER".toList listedTwice oneLibrary = some ⟨some (.ofString "/lib.au3"), 10⟩ ∧
      "helper".toList ∈ (Signature.overlay [signatures oneLibrary listedTwice,
        Signature.ofText mainText "main.au3".toList]).keys ∧
      "helper".toList ∉ (Signature.ofText mainText "main.au3".toList).keys := by
  have hlower : lower "HELPER".toList = "helper".toList := by decide +kernel
  have hsite : site? mainText "HELPER".toList listedTwice oneLibrary =
      some ⟨some (.ofString "/lib.au3"), 10⟩ := by decide +kernel
  obtain ⟨hkeys, hplace⟩ := site_agrees unambiguous_oneLibrary "main.au3".toList "HELPER".toList
    (by decide) (by decide) (by decide)
  rw [hlower] at hkeys hplace
  refine ⟨hsite, hkeys.mp (by rw [hsite]; rfl), fun hlocal => ?_⟩
  cases (hplace _ hsite).1.mpr hlocal

end Lookup

end AutoItServer
