import Mathlib.Data.List.Forall2
import LayeredConfig.Schema.Decode

set_option autoImplicit false

/-!
# Fields and variants by name

Where no two fields answer to one key, the name of a field finds this field and no other, and a
visit of an object that holds fields only, each once, has the value of every field that it met. So
the record is put together from these values. In the same way the name of a variant finds it.
-/
namespace LayeredConfig.Schema

variable {fields : List (Field × Schema)} {field : Field} {schema : Schema} {key : String}
variable {variants : List (Variant × Schema)} {variant : Variant} {reading : Reading}
variable {decodeField : String → Node → Except DecodeError Value}
variable {seen found : List (String × Value)} {entries : List (String × Node)}
variable {members : List (String × Value)}

theorem answersTo_iff : field.answersTo key ↔ key ∈ field.names := by
  simp [Field.answersTo, Field.names]

/-- A key is the name of one field at most. -/
theorem not_answersTo_of_nodup {other : Field × Schema}
    (h : (knownFields (other :: fields)).Nodup) (hmem : (field, schema) ∈ fields)
    (hkey : key ∈ field.names) : ¬ other.1.answersTo key := by
  intro hother
  have hdisjoint := (List.nodup_append.1 h).2.2
  have hknown : key ∈ knownFields fields := List.mem_flatMap.2 ⟨_, hmem, hkey⟩
  exact hdisjoint key (answersTo_iff.1 hother) key hknown rfl

theorem fieldFor?_of_mem (h : (knownFields fields).Nodup) (hmem : (field, schema) ∈ fields)
    (hkey : key ∈ field.names) : fieldFor? fields key = some field := by
  induction fields with
  | nil => simp at hmem
  | cons entry rest ih =>
    rcases List.mem_cons.1 hmem with rfl | hrest
    · simp [fieldFor?, answersTo_iff.2 hkey]
    · have hnot := not_answersTo_of_nodup h hrest hkey
      simpa [fieldFor?, hnot] using ih (List.nodup_append.1 h).2.1 hrest

theorem decodeField_of_mem (h : (knownFields fields).Nodup) (hmem : (field, schema) ∈ fields)
    (hkey : key ∈ field.names) (node : Node) :
    Schema.decodeField reading fields key node = schema.decode reading node := by
  induction fields with
  | nil => simp at hmem
  | cons entry rest ih =>
    rw [Schema.decodeField]
    rcases List.mem_cons.1 hmem with rfl | hrest
    · rw [if_pos (answersTo_iff.2 hkey)]
    · rw [if_neg (not_answersTo_of_nodup h hrest hkey)]
      exact ih (List.nodup_append.1 h).2.1 hrest

theorem lookup_cons_of_ne {other : String} (h : key ≠ other) (value : Value)
    (seen : List (String × Value)) : ((other, value) :: seen).lookup key = seen.lookup key := by
  rw [List.lookup_cons, beq_false_of_ne h]

/-- The visit keeps the value of each entry under its key, and what it had seen before. -/
theorem visitEntries_of_fields (strict : Bool) (hkeys : (entries.map Prod.fst).Nodup)
    (hfields : ∀ entry ∈ entries, ∃ field value, fieldFor? fields entry.1 = some field ∧
      field.name = entry.1 ∧ decodeField entry.1 entry.2 = .ok value)
    (hseen : ∀ entry ∈ entries, seen.lookup entry.1 = none) :
    ∃ found, visitEntries fields strict decodeField seen entries = .ok found ∧
      (∀ entry ∈ entries, ∀ value, decodeField entry.1 entry.2 = .ok value →
        found.lookup entry.1 = some value) ∧
      ∀ key, key ∉ entries.map Prod.fst → found.lookup key = seen.lookup key := by
  induction entries generalizing seen with
  | nil => exact ⟨seen, rfl, by simp, fun _ _ => rfl⟩
  | cons entry rest ih =>
    obtain ⟨key, node⟩ := entry
    obtain ⟨hnotMem, hrest⟩ := List.nodup_cons.1 hkeys
    obtain ⟨⟨field, value, hfield, hname, hvalue⟩, hlater⟩ := List.forall_mem_cons.1 hfields
    obtain ⟨hnone, hunseen⟩ := List.forall_mem_cons.1 hseen
    obtain rfl : field.name = key := hname
    have hne : ∀ entry ∈ rest, entry.1 ≠ field.name := fun entry hentry heq =>
      hnotMem (List.mem_map.2 ⟨entry, hentry, heq⟩)
    have hnext : ∀ entry ∈ rest, ((field.name, value) :: seen).lookup entry.1 = none := by
      intro entry hentry
      rw [lookup_cons_of_ne (hne entry hentry), hunseen entry hentry]
    obtain ⟨found, hvisit, hfound, hother⟩ := ih hrest hlater hnext
    refine ⟨found, ?visit, List.forall_mem_cons.2 ⟨fun own hown => ?first, hfound⟩,
      fun key hkey => ?other⟩
    case visit =>
      simp only [visitEntries, hfield, hnone, hvalue, Except.bind, Option.isSome_none,
        Bool.false_eq_true, if_false]
      exact hvisit
    case first =>
      obtain rfl : value = own := Except.ok.inj (hvalue.symm.trans hown)
      rw [hother _ hnotMem, List.lookup_cons_self]
    case other =>
      obtain ⟨hkey, hlater⟩ := not_or.1 (mt List.mem_cons.2 hkey)
      rw [hother key hlater, lookup_cons_of_ne hkey]

theorem assemble_of_lookup
    (h : List.Forall₂ (fun entry member => member.1 = entry.1.label ∧
      found.lookup entry.1.name = some member.2) fields members) :
    assemble found fields = .ok members := by
  induction h with
  | nil => rfl
  | @cons entry member _ _ hfirst _ ih =>
    obtain ⟨field, schema⟩ := entry
    obtain ⟨label, value⟩ := member
    obtain ⟨rfl, hvalue⟩ := hfirst
    simp only [assemble, hvalue, ih, Except.map]

/-! ## Units -/

theorem decodeUnit_eq_ok_iff (h : reading ≠ .taken) {expected : Expected} {node : Node}
    {value : Value} :
    decodeUnit reading expected node = .ok value ↔ node = .null ∧ value = .unit := by
  cases node <;> simp [decodeUnit, h, @eq_comm _ value]

theorem decodeNoPayload_eq_ok_iff (h : reading ≠ .taken) {node : Node} {value : Value} :
    decodeNoPayload reading node = .ok value ↔ node = .null ∧ value = .unit := by
  cases reading with
  | parsed | verbatim => exact decodeUnit_eq_ok_iff h
  | taken => exact absurd rfl h

/-! ## Variants by name -/

/-- The first variant of the name, with the schema of its payload. -/
def entryFor? (variants : List (Variant × Schema)) (name : String) : Option (Variant × Schema) :=
  variants.find? (·.1.name == name)

theorem variantFor?_eq (variants : List (Variant × Schema)) (name : String) :
    variantFor? variants name = (entryFor? variants name).map Prod.fst :=
  List.find?_map

theorem name_of_entryFor? {name : String} (h : entryFor? variants name = some (variant, schema)) :
    variant.name = name := by
  simpa using List.find?_some h

theorem entryFor?_of_mem (h : (variants.map (·.1.name)).Nodup)
    (hmem : (variant, schema) ∈ variants) :
    entryFor? variants variant.name = some (variant, schema) := by
  induction variants with
  | nil => simp at hmem
  | cons entry rest ih =>
    obtain ⟨hnotMem, hrest⟩ := List.nodup_cons.1 h
    rcases List.mem_cons.1 hmem with rfl | hlater
    · simp [entryFor?]
    · have hne : entry.1.name ≠ variant.name := fun heq =>
        hnotMem (List.mem_map.2 ⟨_, hlater, heq.symm⟩)
      simpa [entryFor?, hne] using ih hrest hlater

theorem variantFor?_of_mem (h : (variants.map (·.1.name)).Nodup)
    (hmem : (variant, schema) ∈ variants) : variantFor? variants variant.name = some variant := by
  rw [variantFor?_eq, entryFor?_of_mem h hmem, Option.map_some]

/-- Variants of other names do not count. -/
theorem decodePayload_of_entryFor? {name : String}
    (h : entryFor? variants name = some (variant, schema)) (node : Node) :
    decodePayload reading variants name node =
      decodePayload reading [(variant, schema)] name node := by
  induction variants with
  | nil => cases h
  | cons entry rest ih =>
    obtain ⟨first, own⟩ := entry
    by_cases hname : first.name = name
    · obtain ⟨rfl, rfl⟩ : first = variant ∧ own = schema := by simpa [entryFor?, hname] using h
      simp only [decodePayload, hname, beq_self_eq_true, if_true]
    · rw [← ih (by simpa [entryFor?, hname] using h)]
      simp only [decodePayload, beq_false_of_ne hname, Bool.false_eq_true, if_false]

/-- A payload that is parsed fails as its schema does, whatever its shape is. -/
theorem decodePayload_singleton (h : variant.payload ≠ .unit) (node : Node) :
    decodePayload .parsed [(variant, schema)] variant.name node =
      (schema.decode .parsed node).map (.variant variant.label) := by
  have hplain : (schema.decode .parsed node).mapError (misplaced .parsed schema node) =
      schema.decode .parsed node := by
    cases schema.decode .parsed node <;> rfl
  cases hkind : variant.payload with
  | unit => exact absurd hkind h
  | newtype | tuple | struct => simp [decodePayload, hkind, hplain]

theorem decodePayload_of_mem (h : (variants.map (·.1.name)).Nodup)
    (hmem : (variant, schema) ∈ variants) (hpayload : variant.payload ≠ .unit) (node : Node) :
    decodePayload .parsed variants variant.name node =
      (schema.decode .parsed node).map (.variant variant.label) := by
  rw [decodePayload_of_entryFor? (entryFor?_of_mem h hmem), decodePayload_singleton hpayload]

theorem decode_external_of_none {type name : String} (h : variantFor? variants name = none)
    (payload : Node) : (external type variants).decode reading (.object [(name, payload)]) =
      .error (unknownVariant variants name) := by
  simp only [decode, h]

theorem decode_external_of_variant {type name : String}
    (h : variantFor? variants name = some variant) (payload : Node) :
    (external type variants).decode reading (.object [(name, payload)]) =
      decodePayload reading variants variant.name payload := by
  simp only [decode, h]

end LayeredConfig.Schema
