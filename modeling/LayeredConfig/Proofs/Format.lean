import Mathlib.Data.String.Basic
import LayeredConfig.Proofs.Json.RoundTrip

set_option autoImplicit false

/-!
# Texts of a null

A text of nothing but ASCII white space is a null in YAML. In JSON it is the word, with white space
around it.
-/
namespace LayeredConfig

namespace Text

/-- The bytes of an array from an index on, behind those collected before. -/
theorem toList_loop_eq (bytes : ByteArray) (i : Nat) (front : List UInt8) :
    ByteArray.toList.loop bytes i front = front.reverse ++ bytes.data.toList.drop i := by
  fun_induction ByteArray.toList.loop bytes i front with
  | case1 i front h ih =>
    have hlength : i < bytes.data.toList.length := by simpa using h
    have hget : bytes.get! i = bytes.data.toList[i] := getElem!_pos bytes.data i h
    rw [ih, List.reverse_cons, List.append_assoc, List.drop_eq_getElem_cons hlength, hget]
    rfl
  | case2 i front h =>
    have hlength : bytes.data.toList.length ≤ i := by simpa using h
    rw [List.drop_eq_nil_of_le hlength, List.append_nil]

theorem toList_toUTF8 (text : String) :
    text.toUTF8.toList = text.toList.flatMap String.utf8EncodeChar := by
  have hbytes : text.toUTF8 = (text.toList.flatMap String.utf8EncodeChar).toByteArray :=
    String.utf8Encode_toList.symm
  rw [ByteArray.toList, toList_loop_eq, hbytes, List.data_toByteArray]
  rfl

end Text

theorem Json.parse?_null {front back : List Char} (hfront : ∀ c ∈ front, isSpace c)
    (hback : ∀ c ∈ back, isSpace c) : parse? (front ++ "null".toList ++ back) = some .null := by
  have hword : Reads "null".toList [.null] := reads_render .null
  have hread : Reads (front ++ "null".toList ++ back) [.null] :=
    ((Reads.of_isSpace hfront).append hword).append (Reads.of_isSpace hback)
  unfold parse?
  rw [hread.tokens?_eq_some]
  rfl

namespace Format

def asciiBlanks : List Char := [' ', '\t', '\n', '\x0c', '\r']

/-- A text that a format reads as a null. -/
inductive SpellsNull : Format → String → Prop
  | yaml {text : String} (h : ∀ c ∈ text.toList, c ∈ asciiBlanks) : SpellsNull .yaml text
  | json {front back : List Char} (hfront : ∀ c ∈ front, Json.isSpace c)
      (hback : ∀ c ∈ back, Json.isSpace c) :
      SpellsNull .json (String.ofList (front ++ "null".toList ++ back))

theorem parse?_of_spellsNull {format : Format} {text : String} (h : format.SpellsNull text) :
    format.parse? text.toUTF8 = some .null := by
  cases h with
  | yaml h =>
    have hblank : asciiBlanks.all fun c =>
        (String.utf8EncodeChar c).all Text.isAsciiBlank := by decide +kernel
    have hall : text.toUTF8.toList.all Text.isAsciiBlank := by
      rw [Text.toList_toUTF8, List.all_eq_true]
      intro byte hbyte
      obtain ⟨c, hc, hencoded⟩ := List.mem_flatMap.1 hbyte
      exact List.all_eq_true.1 (List.all_eq_true.1 hblank c (h c hc)) byte hencoded
    exact if_pos hall
  | json hfront hback =>
    simp only [parse?, Json.fromUTF8?_toUTF8, Option.bind_some, String.toList_ofList,
      Json.parse?_null hfront hback, Option.map_some, Json.Value.toNode]

theorem parse_of_spellsNull {format : Format} {text : String} (h : format.SpellsNull text)
    (origin : String) : format.parse origin text.toUTF8 = .ok .null := by
  unfold parse
  rw [parse?_of_spellsNull h]

end Format

end LayeredConfig
