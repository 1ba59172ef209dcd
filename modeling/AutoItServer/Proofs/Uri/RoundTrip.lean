import AutoItServer.Proofs.Path.Place
import AutoItServer.Uri.Basic

/-!
The identifier of a file leads back to the file.

Percent-encoding writes bytes that are read back as they were, whatever follows them, because a
percent sign of a name is encoded itself.

* `Uri.decodeBytes_encode`: the bytes of an encoded text are those of the text.
* `Uri.textOfBytes_encode`: the bytes of a text are read as that text.
* `Uri.path?_of_ofPath?` (**round trip**): the identifier of a path has a path with the same
  components. It may be spelled with one slash more, behind what looks like the name of a drive.
* `Uri.isAbsolute_of_path?`: the path of an identifier is absolute.
* `Uri.ofPath?_congr`: paths with the same components have the same identifier.
-/

namespace AutoItServer

namespace Uri

open AutoItServer.Path (atPlace)

/-! ### Bytes -/

/-- A digit has the value it was written for. -/
lemma hexValue?_hexUpper : ∀ n < 16, hexValue? (hexUpper n) = some n := by
  decide

/-- An encoded byte is read back, whatever follows it. -/
lemma decodeBytes_encodeByte (b : UInt8) (rest : Text) :
    decodeBytes (encodeByte b ++ rest) = b :: decodeBytes rest := by
  have hb : b.toNat < 256 := b.toNat_lt
  have hbyte : 16 * (b.toNat / 16) + b.toNat % 16 = b.toNat := Nat.div_add_mod b.toNat 16
  simp only [encodeByte, List.cons_append, List.nil_append, decodeBytes,
    hexValue?_hexUpper (b.toNat / 16) (by omega),
    hexValue?_hexUpper (b.toNat % 16) (by omega), hbyte, UInt8.ofNat_toNat]

/-- Encoded bytes are read back, whatever follows them. -/
lemma decodeBytes_encodeBytes (bytes : List UInt8) (rest : Text) :
    decodeBytes (bytes.flatMap encodeByte ++ rest) = bytes ++ decodeBytes rest := by
  induction bytes with
  | nil => rfl
  | cons b bytes ih =>
    rw [List.flatMap_cons, List.append_assoc, decodeBytes_encodeByte, ih, List.cons_append]

/-- A character other than a percent sign stands for its own bytes. -/
lemma decodeBytes_cons {c : Char} (hc : c ≠ '%') (rest : Text) :
    decodeBytes (c :: rest) = String.utf8EncodeChar c ++ decodeBytes rest := by
  rw [decodeBytes]
  intro a b rest' h
  exact absurd h hc

/-- **An encoded text is read back**: its bytes are those of the text. -/
lemma decodeBytes_encode {must : Char → Bool} (hmust : must '%') (t : Text) :
    decodeBytes (encode must t) = File.encode t := by
  induction t with
  | nil => rfl
  | cons c t ih =>
    rw [encode, File.encode, List.flatMap_cons, List.flatMap_cons, ← encode, ← File.encode, ← ih]
    by_cases hc : must c
    · rw [if_pos hc, decodeBytes_encodeBytes]
    · have hne : c ≠ '%' := fun h => hc (h ▸ hmust)
      rw [if_neg hc, List.singleton_append, decodeBytes_cons hne]

/-- The bytes of a text are read as that text. -/
lemma textOfBytes_encode (t : Text) : textOfBytes (File.encode t) = t := by
  have hbytes : (⟨(File.encode t).toArray⟩ : ByteArray) = (String.ofList t).toByteArray := by
    rw [String.toByteArray_ofList, List.utf8Encode, ByteArray.ext_iff, List.data_toByteArray,
      File.encode]
  have hvalid : ((String.ofList t).toByteArray).IsValidUTF8 := (String.ofList t).isValidUTF8
  have hread : String.fromUTF8? ⟨(File.encode t).toArray⟩ = some (String.ofList t) := by
    rw [hbytes, String.fromUTF8?, dif_pos hvalid]
    rfl
  rw [textOfBytes, hread]
  exact String.toList_ofList

/-- Only a slash is written with the byte of a slash first. -/
lemma eq_slash_of_utf8EncodeChar {c : Char} {bytes : List UInt8}
    (h : '/'.toNat.toUInt8 :: bytes = String.utf8EncodeChar c) : c = '/' := by
  have hbyte : ∀ {n : Nat} {rest : List UInt8}, n < 256 →
      '/'.toNat.toUInt8 :: bytes = UInt8.ofNat n :: rest → n = 47 := by
    intro n rest hn h
    have hval := congrArg UInt8.toNat (List.cons.inj h).1
    rw [UInt8.toNat_ofNat_of_lt' hn] at hval
    exact hval.symm
  rw [String.utf8EncodeChar] at h
  split_ifs at h with h1 h2 h3
  · have hval := hbyte (by omega) h
    exact Char.ext (UInt32.toNat_inj.mp hval)
  all_goals
    have hval := hbyte (by omega) h
    omega

/-- A text whose bytes start with a slash starts with it. -/
lemma textOfBytes_slash (bytes : List UInt8) :
    ∃ t, textOfBytes ('/'.toNat.toUInt8 :: bytes) = '/' :: t := by
  rw [textOfBytes]
  split
  · rename_i s hs
    rw [String.fromUTF8?] at hs
    split_ifs at hs with hvalid
    have hbytes : s.toList.utf8Encode = ⟨('/'.toNat.toUInt8 :: bytes).toArray⟩ := by
      rw [← String.toByteArray_ofList, String.ofList_toList, ← Option.some.inj hs]
      rfl
    rw [List.utf8Encode, ByteArray.ext_iff, List.data_toByteArray] at hbytes
    replace hbytes := List.toArray_inj hbytes
    cases ht : s.toList with
    | nil =>
      rw [ht] at hbytes
      cases hbytes
    | cons c t =>
      rw [ht, List.flatMap_cons] at hbytes
      obtain ⟨b, rest, hb⟩ := List.exists_cons_of_ne_nil (String.utf8EncodeChar_ne_nil (c := c))
      rw [hb, List.cons_append, List.cons.injEq] at hbytes
      have hc : c = '/' := eq_slash_of_utf8EncodeChar (hbytes.1 ▸ hb.symm)
      exact ⟨t, by rw [hc]⟩
  · exact ⟨_, rfl⟩

/-! ### Paths -/

/-- The path of a place below the root, written name by name. -/
lemma flatMap_slash {ns : List Text} (h : ns ≠ []) :
    ns.flatMap (fun n => '/' :: n) = (atPlace ns).text := by
  rw [Path.atPlace_text]
  induction ns with
  | nil => exact absurd rfl h
  | cons n ns ih =>
    cases ns with
    | nil => simp [Text.join]
    | cons m ns =>
      have hjoin : Text.join ['/'] (n :: m :: ns) = n ++ '/' :: Text.join ['/'] (m :: ns) := by
        simp [Text.join]
      rw [List.flatMap_cons, ih (by simp), hjoin, List.cons_append]

/-- A slash at the end makes no other path. -/
lemma components_slash_end (ns : List Text) :
    Path.components ⟨(atPlace ns).text ++ ['/']⟩ = (atPlace ns).components := by
  have hne : (atPlace ns).text ≠ [] := by simp [Path.atPlace_text]
  rw [Path.components_append_slash, if_neg hne]
  simp [Text.splitOnChar, Path.component?]

/-- The bytes of the segments of a file are those of its path. -/
lemma flatMap_decodeBytes (ns : List Text) :
    (ns.map (encode inComponent)).flatMap (fun part => '/'.toNat.toUInt8 :: decodeBytes part) =
      File.encode (ns.flatMap fun n => '/' :: n) := by
  induction ns with
  | nil => rfl
  | cons n ns ih =>
    rw [List.map_cons, List.flatMap_cons, ih, decodeBytes_encode (by decide), List.flatMap_cons,
      File.encode, File.encode, File.encode, List.flatMap_append, List.flatMap_cons]
    rfl

/-- The names and `..` of an absolute path are read back from their spelling. -/
lemma filterMap_component?_text {cs : List Path.Component}
    (hcs : ∀ c ∈ cs, c = .parent ∨ ∃ n, c = .name n ∧ Path.IsPart n) :
    (cs.map Path.Component.text).filterMap (Path.component? false) = cs ∧
      ∀ part ∈ cs.map Path.Component.text, '/' ∉ part := by
  constructor
  · rw [List.filterMap_map, List.filterMap_congr (g := some) fun c hc => ?_, List.filterMap_some]
    rcases hcs c hc with rfl | ⟨n, rfl, hn⟩
    · rfl
    · exact Path.component?_of_isPart hn
  · intro part hpart
    obtain ⟨c, hc, rfl⟩ := List.mem_map.mp hpart
    rcases hcs c hc with rfl | ⟨n, rfl, hn⟩
    · decide
    · exact hn.2.1

/-- **Round trip**: the identifier of a file has a path with the components of the file's path. -/
lemma path?_of_ofPath? {p : Path} {u : Uri} (h : ofPath? p = some u) :
    ∃ q, u.path? = some q ∧ q.components = p.components := by
  rw [ofPath?] at h
  split_ifs at h with hp
  obtain ⟨t, rfl⟩ := Path.isAbsolute_iff.mp hp
  obtain rfl := Option.some.inj h
  rw [Path.components_slash]
  obtain ⟨hback, hslash⟩ :=
    filterMap_component?_text fun c => Path.mem_filterMap_component? (t := t)
  generalize (Text.splitOnChar '/' t).filterMap (Path.component? false) = cs at hback hslash
  have hparts : (List.drop 1 (.root :: cs)).map (fun c => encode inComponent c.text) =
      (cs.map Path.Component.text).map (encode inComponent) := by
    rw [List.map_map]
    rfl
  simp only [path?, hparts]
  generalize cs.map Path.Component.text = ns at hback hslash
  -- the decoded text is that of the path; the root has one empty segment
  have htext : textOfBytes ((if (ns.map (encode inComponent)).isEmpty then [[]] else
      ns.map (encode inComponent)).flatMap fun part => '/'.toNat.toUInt8 :: decodeBytes part) =
      (atPlace ns).text := by
    cases ns with
    | nil => decide +kernel
    | cons n ns =>
      rw [if_neg (by simp), flatMap_decodeBytes, textOfBytes_encode, flatMap_slash (by simp)]
  have hcomponents : (atPlace ns).components = .root :: cs := by
    rw [Path.components_atPlace_of_notMem hslash, hback]
  have hsegments : (if (ns.map (encode inComponent)).isEmpty then [[]] else
      ns.map (encode inComponent)).isEmpty = false := by
    cases ns <;> rfl
  have hhostless (path : UriPath) : isHostless ⟨fileScheme, some [], path, none, none⟩ = true := rfl
  rw [htext, hsegments, hhostless, Bool.not_false, Bool.and_self, if_pos rfl]
  refine ⟨_, rfl, ?_⟩
  split_ifs
  · exact (components_slash_end ns).trans hcomponents
  · exact hcomponents

/-- The path of an identifier is absolute. -/
lemma isAbsolute_of_path? {u : Uri} {p : Path} (h : u.path? = some p) : p.isAbsolute := by
  rw [path?] at h
  split at h
  · rename_i parts _
    cases parts with
    | nil =>
      rw [if_neg (by simp)] at h
      cases h
    | cons part rest =>
      obtain ⟨t, ht⟩ := textOfBytes_slash (decodeBytes part ++
        rest.flatMap fun part => '/'.toNat.toUInt8 :: decodeBytes part)
      simp only [List.flatMap_cons, List.cons_append, ht] at h
      split_ifs at h <;> exact Path.isAbsolute_iff.mpr ⟨_, (Option.some.inj h).symm⟩
  · cases h

/-- Paths with the same components have the same identifier. -/
lemma ofPath?_congr {p q : Path} (h : p.components = q.components) : ofPath? p = ofPath? q := by
  have habsolute : p.isAbsolute = q.isAbsolute := by
    rw [Bool.eq_iff_iff, Path.isAbsolute_iff_root_mem, Path.isAbsolute_iff_root_mem, h]
  rw [ofPath?, ofPath?, h, habsolute]

end Uri

end AutoItServer
