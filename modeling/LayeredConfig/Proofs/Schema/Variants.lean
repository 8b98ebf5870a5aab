import LayeredConfig.Proofs.Schema.Records
import LayeredConfig.Proofs.Schema.Sequence

set_option autoImplicit false

/-!
# Nodes that stand for a variant

Where variants are named outside, a text stands for the variant of this name if it has no payload,
and an object of one entry for the variant that its key names, with the payload in the entry. Nothing
else is a value of such an enumeration.
-/
namespace LayeredConfig

/-- Schemas that payloads of the shape have: a tuple has items, a struct has fields. -/
def Payload.Fits : Payload → Schema → Prop
  | .unit, _ | .newtype, _ => True
  | .tuple, schema => ∃ expected schemas, schema = .tuple expected schemas
  | .struct, schema => (∃ expected fields strict, schema = .record expected fields strict) ∨
      ∃ expected fields label rest, schema = .collecting expected fields label rest

namespace Schema

variable {variants : List (Variant × Schema)} {variant : Variant} {schema : Schema}
variable {schemas : List Schema} {fields : List (Field × Schema)} {strict : Bool} {label : String}
variable {expected : Expected} {type name : String} {node : Node} {value : Value} {kind : Payload}
variable {reading : Reading} {rest : Schema}

/-! ## Records under another title -/

/-- What messages call the record does not matter to what it takes. -/
theorem decodePositions_titled (title expected : Expected) (size length index : Nat)
    (fields : List (Field × Schema)) (items : List Node) (members : List (String × Value)) :
    decodePositions .parsed title size length index fields items = .ok members ↔
      decodePositions .parsed expected size length index fields items = .ok members := by
  induction fields generalizing index items members with
  | nil => cases items <;> rfl
  | cons entry rest ih =>
    obtain ⟨field, schema⟩ := entry
    cases items with
    | nil =>
      rw [decodePositions, decodePositions]
      cases field.default with
      | none => exact iff_of_false nofun nofun
      | some value => simp only [map_eq_ok_iff, ih]
    | cons item items => simp only [decodePositions, bind_eq_ok_iff, map_eq_ok_iff, ih]

theorem decode_record_titled (title : Expected) :
    node.decode (record expected fields strict) = .ok value ↔
      (node.kind = .object ∨ node.kind = .array) ∧
        node.decode (record title fields strict) = .ok value := by
  cases node with
  | null | scalar text => exact iff_of_false nofun fun h => by cases h.2
  | object entries => exact (and_iff_right (.inl rfl)).symm
  | array items =>
    rw [and_iff_right (.inr rfl)]
    change ((decodePositions .parsed expected fields.length items.length 0 fields items).map
      Value.record).mapError _ = _ ↔ ((decodePositions .parsed title fields.length items.length 0
        fields items).map Value.record).mapError _ = _
    simp only [mapError_eq_ok_iff, map_eq_ok_iff, decodePositions_titled expected title]

theorem decode_collecting_titled (title : Expected) :
    node.decode (collecting expected fields label rest) = .ok value ↔
      node.kind = .object ∧ node.decode (collecting title fields label rest) = .ok value := by
  cases node with
  | null | scalar text | array items => exact iff_of_false nofun fun h => by cases h.2
  | object entries => exact (and_iff_right rfl).symm

/-! ## Payloads -/

/-- The node is a payload of this shape and schema, and stands for the value. -/
inductive IsPayload : Payload → Schema → Node → Value → Prop where
  | unit {schema : Schema} : IsPayload .unit schema .null .unit
  | newtype {schema : Schema} {node : Node} {value : Value} :
      node.decode schema = .ok value → IsPayload .newtype schema node value
  | tuple {expected : Expected} {schemas : List Schema} {items : List Node} {values : List Value} :
      items.length = schemas.length → outcomes schemas items = values.map .ok →
      IsPayload .tuple (.tuple expected schemas) (.array items) (.list values)
  | record {expected : Expected} {fields : List (Field × Schema)} {strict : Bool} {node : Node}
      {value : Value} (name : String) : node.kind = .object ∨ node.kind = .array →
      node.decode (.record (.struct name) fields strict) = .ok value →
      IsPayload .struct (.record expected fields strict) node value
  | collecting {expected : Expected} {fields : List (Field × Schema)} {label : String}
      {rest : Schema} {node : Node} {value : Value} (name : String) : node.kind = .object →
      node.decode (.collecting (.struct name) fields label rest) = .ok value →
      IsPayload .struct (.collecting expected fields label rest) node value

theorem decode_tuple_eq_ok_iff : node.decode (tuple expected schemas) = .ok value ↔
    ∃ items values, node = .array items ∧ items.length = schemas.length ∧
      outcomes schemas items = values.map .ok ∧ value = .list values := by
  cases node with
  | null | scalar text | object entries => exact iff_of_false nofun (by simp)
  | array items =>
    rw [decode_array_tuple, bind_eq_ok_iff]
    by_cases hlength : items.length = schemas.length
    · simp [gather_eq_ok_iff, hlength, @eq_comm _ value]
    · simp [hlength]

theorem isPayload_unit_iff :
    IsPayload .unit schema node value ↔ node = .null ∧ value = .unit := by
  constructor
  · rintro ⟨⟩
    exact ⟨rfl, rfl⟩
  · rintro ⟨rfl, rfl⟩
    exact .unit

theorem isPayload_iff_decode (hfits : kind.Fits schema) (hkind : kind ≠ .unit) :
    IsPayload kind schema node value ↔ node.decode schema = .ok value := by
  cases kind with
  | unit => exact absurd rfl hkind
  | newtype => exact ⟨fun h => by cases h; assumption, .newtype⟩
  | tuple =>
    obtain ⟨expected, schemas, rfl⟩ := hfits
    rw [decode_tuple_eq_ok_iff]
    constructor
    · rintro ⟨⟩
      exact ⟨_, _, rfl, ‹_›, ‹_›, rfl⟩
    · rintro ⟨items, values, rfl, hlength, hvalues, rfl⟩
      exact .tuple hlength hvalues
  | struct =>
    obtain ⟨expected, fields, strict, rfl⟩ | ⟨expected, fields, label, rest, rfl⟩ := hfits
    · constructor
      · rintro ⟨⟩
        exact (decode_record_titled (.struct _)).2 ⟨‹_›, ‹_›⟩
      · -- The relation holds under any title, so the empty one will do.
        intro h
        obtain ⟨hnode, hdecode⟩ := (decode_record_titled (.struct "")).1 h
        exact .record "" hnode hdecode
    · constructor
      · rintro ⟨⟩
        exact (decode_collecting_titled (.struct _)).2 ⟨‹_›, ‹_›⟩
      · intro h
        obtain ⟨hnode, hdecode⟩ := (decode_collecting_titled (.struct "")).1 h
        exact .collecting "" hnode hdecode

/-! ## Nodes of both kinds -/

theorem decode_name_eq_ok_iff : (Node.scalar name).decode (external type variants) = .ok value ↔
    ∃ variant schema, entryFor? variants name = some (variant, schema) ∧
      variant.payload = .unit ∧ value = .variant variant.label .unit := by
  change (unitVariant variants name).mapError _ = _ ↔ _
  rw [mapError_eq_ok_iff, unitVariant, variantFor?_eq]
  cases hentry : entryFor? variants name with
  | none => simp
  | some entry =>
    obtain ⟨variant, schema⟩ := entry
    cases hkind : variant.payload <;> simp [hkind, @eq_comm _ value]

theorem decodePayload_singleton_eq_ok_iff (hfits : variant.payload.Fits schema) :
    decodePayload .parsed [(variant, schema)] variant.name node = .ok value ↔
      ∃ payload, IsPayload variant.payload schema node payload ∧
        value = .variant variant.label payload := by
  by_cases hkind : variant.payload = .unit
  · have hparsed : Reading.parsed ≠ .taken := nofun
    simp [decodePayload, hkind, map_eq_ok_iff, decodeNoPayload_eq_ok_iff hparsed,
      isPayload_unit_iff, @eq_comm _ value]
  · rw [decodePayload_singleton hkind, map_eq_ok_iff]
    simp only [isPayload_iff_decode hfits hkind, Node.decode, mapError_eq_ok_iff, @eq_comm _ value]

theorem decode_entry_eq_ok_iff (hfits : ∀ entry ∈ variants, entry.1.payload.Fits entry.2) :
    (Node.object [(name, node)]).decode (external type variants) = .ok value ↔
      ∃ variant schema payload, entryFor? variants name = some (variant, schema) ∧
        IsPayload variant.payload schema node payload ∧ value = .variant variant.label payload := by
  cases hentry : entryFor? variants name with
  | none =>
    have hnone : variantFor? variants name = none := by rw [variantFor?_eq, hentry, Option.map_none]
    rw [Node.decode, mapError_eq_ok_iff, decode_external_of_none hnone]
    simp
  | some entry =>
    obtain ⟨variant, schema⟩ := entry
    have hfor : variantFor? variants name = some variant := by
      rw [variantFor?_eq, hentry, Option.map_some]
    have hmem : (variant, schema) ∈ variants := List.mem_of_find?_eq_some hentry
    obtain rfl := name_of_entryFor? hentry
    rw [Node.decode, mapError_eq_ok_iff, decode_external_of_variant hfor,
      decodePayload_of_entryFor? hentry, decodePayload_singleton_eq_ok_iff (hfits _ hmem)]
    simp

theorem decode_external_of_length {entries : List (String × Node)} (h : entries.length ≠ 1) :
    (Node.object entries).decode (external type variants) =
      .error (.undecodable (.invalidType .mapping .enumVariant)) := by
  cases entries with
  | nil => rfl
  | cons entry rest =>
    cases rest with
    | nil => exact absurd rfl h
    | cons next more => rfl

theorem decode_object_eq_ok_iff (hfits : ∀ entry ∈ variants, entry.1.payload.Fits entry.2)
    {entries : List (String × Node)} :
    (Node.object entries).decode (external type variants) = .ok value ↔
      ∃ name content variant schema payload, entries = [(name, content)] ∧
        entryFor? variants name = some (variant, schema) ∧
        IsPayload variant.payload schema content payload ∧
        value = .variant variant.label payload := by
  by_cases hlength : entries.length = 1
  · obtain ⟨⟨name, content⟩, rfl⟩ := List.length_eq_one_iff.1 hlength
    rw [decode_entry_eq_ok_iff hfits]
    constructor
    · rintro ⟨variant, schema, payload, hentry⟩
      exact ⟨name, content, variant, schema, payload, rfl, hentry⟩
    · rintro ⟨_, _, variant, schema, payload, ⟨rfl⟩, hentry⟩
      exact ⟨variant, schema, payload, hentry⟩
  · rw [decode_external_of_length hlength]
    refine iff_of_false nofun ?_
    rintro ⟨name, content, variant, schema, payload, rfl, -⟩
    exact hlength rfl

/-- A node is a value of an enumeration exactly if it is the name of a variant without a payload, or
an object with the name of a variant as its only key and a payload of this variant behind it. Without
a payload both forms give the same value. A null, an array and an object of another size are refused,
whatever their content is. -/
theorem decode_external_exact (hfits : ∀ entry ∈ variants, entry.1.payload.Fits entry.2) :
    (∀ (node : Node) (value : Value), node.decode (external type variants) = .ok value ↔
      ∃ name variant schema payload, entryFor? variants name = some (variant, schema) ∧
        value = .variant variant.label payload ∧
        (node = .scalar name ∧ variant.payload = .unit ∧ payload = .unit ∨
          ∃ content, node = .object [(name, content)] ∧
            IsPayload variant.payload schema content payload)) ∧
    (∀ name variant schema, entryFor? variants name = some (variant, schema) →
      variant.payload = .unit →
      (Node.scalar name).decode (external type variants) = .ok (.variant variant.label .unit) ∧
      (Node.object [(name, .null)]).decode (external type variants) =
        .ok (.variant variant.label .unit)) ∧
    ∀ node : Node, node.kind = .null ∨ node.kind = .array ∨
        (∃ entries, node = .object entries ∧ entries.length ≠ 1) →
      ∃ error, node.decode (external type variants) = .error error ∧
        error = .undecodable (.invalidType node.found .enumVariant) ∧
        error.message = "failed to deserialize config: invalid type: " ++ node.found.describe ++
          ", expected an enum variant" := by
  refine ⟨fun node value => ?exact, fun name variant schema hentry hunit => ⟨?bare, ?keyed⟩,
    fun node hnode => ?other⟩
  case exact =>
    cases node with
    | null | array items => exact iff_of_false nofun (by simp)
    | scalar name =>
      rw [decode_name_eq_ok_iff]
      constructor
      · rintro ⟨variant, schema, hentry, hunit, rfl⟩
        exact ⟨name, variant, schema, .unit, hentry, rfl, .inl ⟨rfl, hunit, rfl⟩⟩
      · rintro ⟨_, variant, schema, _, hentry, rfl, ⟨⟨rfl⟩, hunit, rfl⟩ | ⟨content, ⟨⟩, -⟩⟩
        exact ⟨variant, schema, hentry, hunit, rfl⟩
    | object entries =>
      rw [decode_object_eq_ok_iff hfits]
      constructor
      · rintro ⟨name, content, variant, schema, payload, rfl, hentry, hpayload, rfl⟩
        exact ⟨name, variant, schema, payload, hentry, rfl, .inr ⟨content, rfl, hpayload⟩⟩
      · rintro ⟨name, variant, schema, payload, hentry, rfl, ⟨⟨⟩, -⟩ | ⟨content, ⟨rfl⟩, hpayload⟩⟩
        exact ⟨name, content, variant, schema, payload, rfl, hentry, hpayload, rfl⟩
  case bare => exact decode_name_eq_ok_iff.2 ⟨variant, schema, hentry, hunit, rfl⟩
  case keyed =>
    refine (decode_entry_eq_ok_iff hfits).2 ⟨variant, schema, .unit, hentry, ?_, rfl⟩
    rw [hunit]
    exact .unit
  case other =>
    cases node with
    | null | array items => exact ⟨_, rfl, rfl, rfl⟩
    | scalar name => simp [Node.kind] at hnode
    | object entries =>
      have hlength : entries.length ≠ 1 := by simpa [Node.kind] using hnode
      exact ⟨_, decode_external_of_length hlength, rfl, rfl⟩

/-- A null is the payload of an optional text, the fields of a struct stand in an array, and two
keys are too many even where each is the name of a variant with its payload. -/
theorem decode_external_exact_shapes : ∃ variants : List (Variant × Schema),
    variants = [(⟨"Unit", "unit", .unit⟩, unit .unit), (⟨"Maybe", "maybe", .newtype⟩, option text),
      (⟨"Tuple", "tuple", .tuple⟩, tuple (.tupleVariantOf "Shape" "Tuple") [bool, text]),
      (⟨"Struct", "struct", .struct⟩, record (.structVariantOf "Shape" "Struct")
        [(⟨"w", "w", [], none⟩, integer ⟨true, 32⟩)] false)] ∧
    (∀ entry ∈ variants, entry.1.payload.Fits entry.2) ∧
    (Node.object [("unit", .null)]).decode (external "Shape" variants) =
      .ok (.variant "Unit" .unit) ∧
    (Node.object [("maybe", .null)]).decode (external "Shape" variants) =
      .ok (.variant "Maybe" .none) ∧
    (∀ value, (Node.scalar "maybe").decode (external "Shape" variants) ≠ .ok value) ∧
    (Node.object [("struct", .array [.scalar " 7"])]).decode (external "Shape" variants) =
      .ok (.variant "Struct" (.record [("w", .integer 7)])) ∧
    (Node.object [("maybe", .null), ("unit", .null)]).decode (external "Shape" variants) =
      .error (.undecodable (.invalidType .mapping .enumVariant)) := by
  refine ⟨_, rfl, ?fits, ((decode_external_exact ?fits).2.1 "unit" _ _ rfl rfl).2, ?maybe, ?bare,
    ?struct, ?several⟩
  case maybe =>
    exact ((decode_external_exact ?fits).1 _ _).2
      ⟨"maybe", _, _, _, rfl, rfl, .inr ⟨.null, rfl, .newtype rfl⟩⟩
  case bare =>
    intro value hvalue
    obtain ⟨_, _, _, _, hentry, -, ⟨⟨rfl⟩, hunit, -⟩ | ⟨_, ⟨⟩, -⟩⟩ :=
      ((decode_external_exact ?fits).1 _ _).1 hvalue
    cases hentry
    cases hunit
  case struct =>
    exact ((decode_external_exact ?fits).1 _ _).2
      ⟨"struct", _, _, _, rfl, rfl, .inr ⟨_, rfl, .record "Struct" (.inr rfl) rfl⟩⟩
  case several =>
    obtain ⟨error, herror, rfl, -⟩ := (decode_external_exact ?fits).2.2
      (.object [("maybe", .null), ("unit", .null)]) (.inr (.inr ⟨_, rfl, by simp⟩))
    exact herror
  case fits => simp [Payload.Fits]

end Schema

end LayeredConfig
