import Mathlib.Data.List.Forall2
import LayeredConfig.Proofs.Schema.Primitive
import LayeredConfig.Proofs.Schema.Sequence

set_option autoImplicit false

/-!
# Keys and values of maps

An object decodes to a map entry by entry, each value as a node of its own. The keys are not parsed:
a text is a key as it stands, and no text is a number that the same text would decode to as a value.
-/
namespace LayeredConfig.Schema

variable {key value : Schema} {entries : List (String × Node)} {result : Value}
variable {readKey : String → Except DecodeError Value} {read : Node → Except DecodeError Value}
variable {pairs : List (Value × Value)}

theorem decodeEntries_eq_ok_iff : decodeEntries readKey read entries = .ok pairs ↔
    List.Forall₂ (fun entry pair => readKey entry.1 = .ok pair.1 ∧ read entry.2 = .ok pair.2)
      entries pairs := by
  induction entries generalizing pairs with
  | nil =>
    rw [decodeEntries, List.forall₂_nil_left_iff, Except.ok.injEq]
    exact eq_comm
  | cons entry rest ih =>
    obtain ⟨name, node⟩ := entry
    simp only [decodeEntries, bind_eq_ok_iff, map_eq_ok_iff, ih, List.forall₂_cons_left_iff]
    constructor
    · rintro ⟨own, hkey, v, hvalue, more, hmore, rfl⟩
      exact ⟨(own, v), more, ⟨hkey, hvalue⟩, hmore, rfl⟩
    · rintro ⟨⟨own, v⟩, more, ⟨hkey, hvalue⟩, hmore, rfl⟩
      exact ⟨own, hkey, v, hvalue, more, hmore, rfl⟩

/-- Every entry has a key that is one of the key schema and a value that decodes, and the map has
them in their order. -/
theorem decode_object_map_eq_ok_iff : (Node.object entries).decode (map key value) = .ok result ↔
    ∃ pairs, List.Forall₂ (fun entry pair => decodeKey .parsed key entry.1 = .ok pair.1 ∧
      entry.2.decode value = .ok pair.2) entries pairs ∧ result = .map pairs := by
  change ((decodeEntries (decodeKey .parsed key) (value.decode .parsed) entries).map
    Value.map).mapError _ = _ ↔ _
  simp only [mapError_eq_ok_iff, map_eq_ok_iff, decodeEntries_eq_ok_iff, Node.decode,
    @eq_comm _ result]

theorem decodeKey_text_eq_ok_iff {name : String} :
    decodeKey .parsed text name = .ok result ↔ result = .text name := by
  change Except.ok (Value.text name) = .ok result ↔ _
  rw [Except.ok.injEq, eq_comm]

/-- With integers as keys a map decodes from the empty object alone, whatever the keys spell and the
values are: the first key of any other object is refused as a plain text. With texts as keys it
decodes as soon as every value does, and no entry is lost. -/
theorem decode_map_integer_keys (type : IntegerType) (value : Schema)
    (entries : List (String × Node)) :
    (∀ result, (Node.object entries).decode (map (integer type) value) = .ok result ↔
      entries = [] ∧ result = .map []) ∧
    (∀ name node, ∃ error,
      (Node.object ((name, node) :: entries)).decode (map (integer type) value) = .error error ∧
      error = .undecodable (.invalidType (.text name) (.number type.name)) ∧
      error.message = "failed to deserialize config: invalid type: string " ++ Text.quote name ++
        ", expected " ++ type.name) ∧
    ∀ result, (Node.object entries).decode (map text value) = .ok result ↔
      ∃ pairs, List.Forall₂ (fun entry pair => pair.1 = .text entry.1 ∧
        entry.2.decode value = .ok pair.2) entries pairs ∧ result = .map pairs := by
  refine ⟨fun result => ?integer, fun name node => ⟨_, rfl, rfl, rfl⟩,
    fun result => ?text⟩
  case integer =>
    cases entries with
    | nil => exact ⟨fun h => ⟨rfl, (Except.ok.inj h).symm⟩, fun h => congrArg Except.ok h.2.symm⟩
    | cons entry rest => exact iff_of_false nofun nofun
  case text => simp only [decode_object_map_eq_ok_iff, decodeKey_text_eq_ok_iff]

/-- The key `1` is the text of an integer, and no other key could be confused with it. -/
theorem not_decode_map_integer_keys :
    ¬ ∀ (type : IntegerType) (value : Schema) (entries : Keyed Node), Keyed.Ascending entries →
      entries.Pairwise (fun left right => ∀ n, type.Spells left.1 n → ¬ type.Spells right.1 n) →
      ((∃ result, (Node.object entries).decode (map (integer type) value) = .ok result) ↔
        ∀ entry ∈ entries, (∃ n, (Node.scalar entry.1).decode (integer type) = .ok (.integer n)) ∧
          ∃ v, entry.2.decode value = .ok v) := by
  intro h
  obtain ⟨result, hresult⟩ := (h ⟨true, 32⟩ text [("1", .scalar "a")] (by simp [Keyed.Ascending])
    (by simp)).2 (by simpa using ⟨⟨1, rfl⟩, ⟨.text "a", rfl⟩⟩)
  cases hresult

end LayeredConfig.Schema
