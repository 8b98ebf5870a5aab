import LayeredConfig.Proofs.Keyed
import LayeredConfig.Proofs.Schema.Encoding
import LayeredConfig.Proofs.Schema.Maps
import LayeredConfig.Proofs.Schema.Records
import LayeredConfig.Settings.Basic

set_option autoImplicit false

/-!
# Decoding what was encoded

The JSON form of a value becomes a tree in which booleans and integers are texts, and units and
absent options both are null. Decoding this tree at the schema of the value gives the value again.
-/
namespace LayeredConfig

namespace Json

theorem Value.toNode_eq_null_iff {value : Value} : value.toNode = .null ↔ value = .null := by
  cases value <;> simp [Value.toNode]

end Json

namespace Schema

/-- The schema decodes the JSON form of each of its values to the value. -/
def RoundTrips (schema : Schema) : Prop :=
  ∀ value, schema.Admits value → schema.decode .parsed (schema.encode value).toNode = .ok value

variable {item inner : Schema} {schemas : List Schema} {values : List Value}
variable {fields : List (Field × Schema)} {members : List (String × Value)}
variable {variants : List (Variant × Schema)} {expected : Expected}
variable {read : Node → Except DecodeError Value} {write : Value → Node}

/-! ## Primitives -/

theorem roundTrips_unit : (unit expected).RoundTrips := by
  rintro _ rfl
  rfl

theorem roundTrips_text : text.RoundTrips := by
  rintro _ ⟨s, rfl⟩
  rfl

theorem roundTrips_bool : bool.RoundTrips := by
  rintro _ ⟨b, rfl⟩
  change bool.decodePrimitive (.scalar (Json.boolText b)) = _
  rw [decodePrimitive, primitive?, boolOf?_boolText]
  rfl

theorem roundTrips_integer (type : IntegerType) : (integer type).RoundTrips := by
  rintro _ ⟨n, rfl, hrange⟩
  have htext : (Json.Number.integer n).text.toList = Decimal.ofInt n := by
    rw [Json.Number.text, String.toList_ofList]
  change (integer type).decodePrimitive (.scalar (Json.Number.integer n).text) = _
  rw [decodePrimitive, primitive?, integerOf?_of_toList htext (IntegerType.contains_iff.2 hrange)]
  rfl

/-! ## Containers -/

theorem decode_option {node : Node} (h : node ≠ .null) (inner : Schema) :
    (option inner).decode .parsed node = (inner.decode .parsed node).map .some := by
  cases node with
  | null => exact absurd rfl h
  | scalar text | object fields | array items => rfl

theorem roundTrips_option (h : inner.RoundTrips)
    (hnull : ∀ value, inner.Admits value → inner.encode value ≠ .null) :
    (option inner).RoundTrips := by
  rintro _ (rfl | ⟨v, rfl, hv⟩)
  · rfl
  · have hnode : (inner.encode v).toNode ≠ .null := mt Json.Value.toNode_eq_null_iff.1 (hnull v hv)
    change (option inner).decode .parsed (inner.encode v).toNode = _
    rw [decode_option hnode, h v hv]
    rfl

theorem roundTrips_newtype (name : String) (h : inner.RoundTrips) :
    (newtype name inner).RoundTrips := by
  intro value hvalue
  exact h value hvalue

theorem decodeItems_map (h : ∀ value ∈ values, read (write value) = .ok value) :
    decodeItems read (values.map write) = .ok values := by
  have hread : (values.map write).map read = values.map .ok := by
    rw [List.map_map]
    exact List.map_congr_left h
  rw [decodeItems_eq, hread, gather_map_ok]

theorem roundTrips_list (h : item.RoundTrips) : (list item).RoundTrips := by
  rintro _ ⟨values, rfl, hvalues⟩
  have hitems : decodeItems (item.decode .parsed)
      (values.map fun v => (item.encode v).toNode) = .ok values :=
    decodeItems_map fun v hv => h v (hvalues v hv)
  change (decodeItems (item.decode .parsed) (Json.toNodes (values.map item.encode))).map
    Value.list = _
  rw [Json.toNodes_eq_map, List.map_map]
  exact congrArg (·.map Value.list) hitems

theorem decodeEntries_text (write : Value → Node) {entries : Keyed Value}
    (h : ∀ entry ∈ entries, read (write entry.2) = .ok entry.2) :
    decodeEntries (decodeKey .parsed text) read (entries.map fun entry => (entry.1, write entry.2)) =
      .ok (textEntries entries) := by
  rw [decodeEntries_eq_ok_iff, textEntries, List.forall₂_map_left_iff, List.forall₂_map_right_iff,
    List.forall₂_same]
  exact fun entry hentry => ⟨rfl, h entry hentry⟩

theorem roundTrips_map (h : item.RoundTrips) : (map text item).RoundTrips := by
  rintro _ ⟨entries, rfl, hascending, hvalues⟩
  have hentries : decodeEntries (decodeKey .parsed text) (item.decode .parsed)
      (entries.map fun entry => (entry.1, (item.encode entry.2).toNode)) =
        .ok (textEntries entries) :=
    decodeEntries_text (fun v => (item.encode v).toNode) fun entry hentry =>
      h entry.2 (hvalues entry hentry)
  have hnode : (encode (map text item) (.map (textEntries entries))).toNode =
      .object (entries.map fun entry => (entry.1, (item.encode entry.2).toNode)) := by
    have hkeys : Keyed.Ascending
        (entries.map fun entry => (entry.1, (item.encode entry.2).toNode)) := by
      simpa [Keyed.Ascending, Function.comp_def] using hascending
    change Node.object (Keyed.ofList (Json.toFields ((textEntries entries).map fun entry =>
      (keyText entry.1, item.encode entry.2)))) = _
    rw [Json.toFields_eq_map, textEntries, List.map_map, List.map_map]
    exact congrArg Node.object (Keyed.ofList_of_ascending hkeys)
  rw [hnode]
  exact congrArg (·.map Value.map) hentries

theorem decodeTuple_encodeItems (h : ∀ schema ∈ schemas, schema.RoundTrips)
    (hvalues : AdmitsItems schemas values) (size length : Nat) :
    decodeTuple .parsed expected size length schemas
      (Json.toNodes (encodeItems schemas values)) = .ok values := by
  induction schemas generalizing values with
  | nil =>
    cases values with
    | nil => rfl
    | cons value rest => exact hvalues.elim
  | cons schema schemas ih =>
    obtain ⟨hschema, hschemas⟩ := List.forall_mem_cons.1 h
    cases values with
    | nil => exact hvalues.elim
    | cons value rest =>
      change (schema.decode .parsed (schema.encode value).toNode).bind (fun value =>
        (decodeTuple .parsed expected size length schemas
          (Json.toNodes (encodeItems schemas rest))).map (value :: ·)) = _
      rw [hschema value hvalues.1, ih hschemas hvalues.2]
      rfl

theorem roundTrips_tuple (h : ∀ schema ∈ schemas, schema.RoundTrips) :
    (tuple expected schemas).RoundTrips := by
  rintro _ ⟨values, rfl, hvalues⟩
  exact congrArg (·.map Value.list) (decodeTuple_encodeItems h hvalues _ _)

/-! ## Records -/

theorem admitsFields_iff : AdmitsFields fields members ↔
    List.Forall₂ (fun entry member => member.1 = entry.1.label ∧ entry.2.Admits member.2)
      fields members := by
  induction fields generalizing members with
  | nil => cases members <;> simp [AdmitsFields]
  | cons entry rest ih => cases members <;> simp [AdmitsFields, ih]

/-- The nodes of the fields by their names, in the order of the fields. -/
def fieldNodes (fields : List (Field × Schema)) (members : List (String × Value)) :
    List (String × Node) :=
  (fields.zip members).map fun pair => (pair.1.1.name, (pair.1.2.encode pair.2.2).toNode)

theorem toFields_encodeFields (fields : List (Field × Schema)) (members : List (String × Value)) :
    Json.toFields (encodeFields fields members) = fieldNodes fields members := by
  induction fields generalizing members with
  | nil => cases members <;> rfl
  | cons entry rest ih =>
    cases members with
    | nil => rfl
    | cons member members => exact congrArg (_ :: ·) (ih members)

theorem nodup_names (h : (knownFields fields).Nodup) : (fields.map (·.1.name)).Nodup := by
  suffices hsublist : (fields.map (·.1.name)).Sublist (knownFields fields) from h.sublist hsublist
  clear h
  induction fields with
  | nil => exact .slnil
  | cons entry rest ih => exact (ih.trans (List.sublist_append_right entry.1.aliases _)).cons_cons _

theorem nodup_keys_fieldNodes (hnodup : (knownFields fields).Nodup)
    (hlength : fields.length = members.length) :
    ((fieldNodes fields members).map Prod.fst).Nodup := by
  have hnames : (fieldNodes fields members).map Prod.fst = fields.map (·.1.name) := by
    calc (fieldNodes fields members).map Prod.fst
        = ((fields.zip members).map Prod.fst).map (·.1.name) := by simp [fieldNodes]
      _ = fields.map (·.1.name) := by rw [List.map_fst_zip hlength.le]
  rw [hnames]
  exact nodup_names hnodup

theorem exists_field_of_mem_fieldNodes {entry : String × Node} (hnodup : (knownFields fields).Nodup)
    (hread : ∀ pair ∈ fields.zip members,
      decodeField .parsed fields pair.1.1.name (pair.1.2.encode pair.2.2).toNode = .ok pair.2.2)
    (hmem : entry ∈ fieldNodes fields members) :
    ∃ field value, fieldFor? fields entry.1 = some field ∧ field.name = entry.1 ∧
      decodeField .parsed fields entry.1 entry.2 = .ok value := by
  obtain ⟨pair, hpair, rfl⟩ := List.mem_map.1 hmem
  have hfield : pair.1 ∈ fields := (List.of_mem_zip hpair).1
  exact ⟨pair.1.1, pair.2.2, fieldFor?_of_mem hnodup hfield List.mem_cons_self, rfl,
    hread pair hpair⟩

theorem roundTrips_record (strict : Bool) (hnodup : (knownFields fields).Nodup)
    (h : ∀ entry ∈ fields, entry.2.RoundTrips) : (record expected fields strict).RoundTrips := by
  rintro _ ⟨members, rfl, hmembers⟩
  obtain ⟨hlength, hpairs⟩ := List.forall₂_iff_zip.1 (admitsFields_iff.1 hmembers)
  have hread : ∀ pair ∈ fields.zip members,
      decodeField .parsed fields pair.1.1.name (pair.1.2.encode pair.2.2).toNode =
        .ok pair.2.2 := by
    intro pair hpair
    have hfield : pair.1 ∈ fields := (List.of_mem_zip hpair).1
    rw [decodeField_of_mem hnodup hfield List.mem_cons_self]
    exact h pair.1 hfield pair.2.2 (hpairs hpair).2
  -- The tree has the fields in key order, so the visit is followed by name and not by position.
  have hkeys := nodup_keys_fieldNodes hnodup hlength
  have hperm : (Keyed.ofList (fieldNodes fields members)).Perm (fieldNodes fields members) :=
    Keyed.perm_ofList hkeys
  have hunseen : ∀ entry ∈ Keyed.ofList (fieldNodes fields members),
      ([] : List (String × Value)).lookup entry.1 = none := fun _ _ => rfl
  obtain ⟨found, hvisit, hfound, -⟩ := visitEntries_of_fields strict
    ((hperm.map Prod.fst).nodup_iff.2 hkeys)
    (fun entry hentry => exists_field_of_mem_fieldNodes hnodup hread (hperm.mem_iff.1 hentry))
    hunseen
  have hassemble : assemble found fields = .ok members := by
    refine assemble_of_lookup (List.forall₂_iff_zip.2 ⟨hlength, fun {entry member} hpair => ?_⟩)
    have hentry : (entry.1.name, (entry.2.encode member.2).toNode) ∈
        Keyed.ofList (fieldNodes fields members) :=
      hperm.mem_iff.2 (List.mem_map.2 ⟨_, hpair, rfl⟩)
    exact ⟨(hpairs hpair).1, hfound _ hentry _ (hread _ hpair)⟩
  change (visitEntries fields strict (decodeField .parsed fields) []
    (Keyed.ofList (Json.toFields (encodeFields fields members)))).bind (fun seen =>
      (assemble seen fields).map Value.record) = _
  rw [toFields_encodeFields, hvisit]
  simp only [Except.bind, hassemble, Except.map]

/-! ## Enumerations -/

theorem exists_variant_of_admits {label : String} {payload : Value}
    (h : AdmitsVariant variants label payload) :
    ∃ variant schema, (variant, schema) ∈ variants ∧ variant.label = label ∧
      encodeVariant variants label payload = variant.encode (schema.encode payload) ∧
      (variant.payload = .unit → payload = .unit) ∧
      (variant.payload ≠ .unit → schema.Admits payload) := by
  induction variants with
  | nil => simp [AdmitsVariant] at h
  | cons entry rest ih =>
    obtain ⟨variant, schema⟩ := entry
    rw [AdmitsVariant] at h
    by_cases hlabel : variant.label = label
    · rw [if_pos hlabel] at h
      refine ⟨variant, schema, List.mem_cons_self, hlabel, ?_, ?_, ?_⟩
      · rw [encodeVariant, if_pos hlabel]
      · intro hunit
        simpa [hunit] using h
      · intro hpayload
        cases hkind : variant.payload with
        | unit => exact absurd hkind hpayload
        | newtype | tuple | struct => simpa [hkind] using h
    · rw [if_neg hlabel] at h
      obtain ⟨found, own, hmem, hfound, hencode, hadmits⟩ := ih h
      refine ⟨found, own, List.mem_cons_of_mem _ hmem, hfound, ?_, hadmits⟩
      rw [encodeVariant, if_neg hlabel, hencode]

theorem roundTrips_external (type : String) (hnodup : (variants.map (·.1.name)).Nodup)
    (h : ∀ entry ∈ variants, entry.1.payload ≠ .unit → entry.2.RoundTrips) :
    (external type variants).RoundTrips := by
  rintro _ ⟨label, payload, rfl, hpayload⟩
  obtain ⟨variant, schema, hmem, rfl, hencode, hunit, hother⟩ := exists_variant_of_admits hpayload
  have hfor : variantFor? variants variant.name = some variant := variantFor?_of_mem hnodup hmem
  change (external type variants).decode .parsed
    (encodeVariant variants variant.label payload).toNode = _
  rw [hencode]
  by_cases hkind : variant.payload = .unit
  · obtain rfl := hunit hkind
    rw [Variant.encode_of_unit hkind]
    change unitVariant variants variant.name = _
    simp only [unitVariant, hfor, hkind]
  · have hnode : (variant.encode (schema.encode payload)).toNode =
        .object [(variant.name, (schema.encode payload).toNode)] := by
      rw [Variant.encode_of_ne_unit hkind]
      rfl
    rw [hnode, decode_external_of_variant hfor, decodePayload_of_mem hnodup hmem hkind,
      h _ hmem hkind payload (hother hkind)]
    rfl

theorem roundTrips_of_plain {schema : Schema} (h : schema.Plain) : schema.RoundTrips := by
  induction h with
  | unit => exact roundTrips_unit
  | bool => exact roundTrips_bool
  | @integer type hbits => exact roundTrips_integer type
  | text => exact roundTrips_text
  | option hinner hnull ih => exact roundTrips_option ih hnull
  | list hitem ih => exact roundTrips_list ih
  | map hitem ih => exact roundTrips_map ih
  | tuple hschemas ih => exact roundTrips_tuple ih
  | newtype hinner ih => exact roundTrips_newtype _ ih
  | record hnodup hfields ih => exact roundTrips_record _ hnodup ih
  | external hnodup hvariants ih => exact roundTrips_external _ hnodup ih

/-- For every plain schema and every value of it, the tree of the value's JSON form decodes at the
schema to the value. -/
theorem decode_encode {schema : Schema} (h : schema.Plain) {value : Value}
    (hvalue : schema.Admits value) : (schema.encode value).toNode.decode schema = .ok value := by
  rw [Node.decode, roundTrips_of_plain h value hvalue]
  rfl

/-- A text that looks like a boolean, an absent option, a map with an empty key, the least integer of
its type, and variants in both forms, one with a null payload. -/
theorem decode_encode_nested : ∃ schema value,
    schema = record (.struct "Job") [(⟨"name", "name", [], none⟩, text),
      (⟨"retries", "retries", [], none⟩, option (integer ⟨false, 8⟩)),
      (⟨"limits", "limits", [], none⟩, map text (pair bool (integer ⟨true, 64⟩))),
      (⟨"steps", "steps", [], none⟩, list (external "Step" [(⟨"Stop", "Stop", .unit⟩, unit .unit),
        (⟨"Wait", "Wait", .newtype⟩, option text)]))] false ∧
    value = .record [("name", .text "true"), ("retries", .none),
      ("limits", .map [(.text "", .list [.bool false, .integer (-9223372036854775808)])]),
      ("steps", .list [.variant "Stop" .unit, .variant "Wait" .none])] ∧
    schema.Plain ∧ schema.Admits value ∧
    Node.decode (.object [("limits", .object [("", .array [.scalar "false",
        .scalar "-9223372036854775808"])]), ("name", .scalar "true"), ("retries", .null),
      ("steps", .array [.scalar "Stop", .object [("Wait", .null)]])]) schema = .ok value := by
  refine ⟨_, _, rfl, rfl, ?plain, ?admits, decode_encode ?plain ?admits⟩
  case plain =>
    have hretries : (option (integer ⟨false, 8⟩)).Plain := by
      refine .option (.integer (by decide)) fun value hvalue => ?_
      rw [Admits] at hvalue
      obtain ⟨n, rfl, -⟩ := hvalue
      simp [encode]
    have hpayload : (option text).Plain := by
      refine .option .text fun value hvalue => ?_
      rw [Admits] at hvalue
      obtain ⟨s, rfl⟩ := hvalue
      simp [encode]
    have hlimits : (pair bool (integer ⟨true, 64⟩)).Plain :=
      .tuple (by simpa using ⟨.bool, .integer (by decide)⟩)
    refine .record (by decide) ?_
    simpa using ⟨.text, hretries, .map hlimits, .list (.external (by decide) (by simpa))⟩
  case admits =>
    have hlimits : (map text (pair bool (integer ⟨true, 64⟩))).Admits
        (.map [(.text "", .list [.bool false, .integer (-9223372036854775808)])]) := by
      rw [Admits]
      refine ⟨[("", .list [.bool false, .integer (-9223372036854775808)])], rfl, ?_, ?_⟩
      · simp [Keyed.Ascending]
      · simp [pair, Admits, AdmitsItems, IntegerType.least, IntegerType.greatest]
    simpa [Admits, AdmitsFields, AdmitsVariant] using hlimits

end Schema

end LayeredConfig
