import LayeredConfig.Proofs.Schema.Records
import LayeredConfig.Proofs.Schema.Sequence
import LayeredConfig.Settings.Basic

set_option autoImplicit false

/-!
# Texts as they are and texts that are parsed

The readings of a node take the same steps and part only where a boolean, a number or a character
meets a text, and where a node is taken for a unit. So what they make of the schemas at the leaves
carries over to every schema that is built from them.
-/
namespace LayeredConfig.Schema

/-! ## Results that have more values -/

section Extends

variable {ε α β : Type}

/-- The wide result has every value that the narrow one has. -/
def Extends (narrow wide : Except ε α) : Prop := ∀ value, narrow = .ok value → wide = .ok value

variable {narrow wide : Except ε α}

theorem Extends.refl (result : Except ε α) : Extends result result := fun _ h => h

theorem Extends.error (error : ε) (wide : Except ε α) : Extends (.error error) wide := by
  intro value hvalue
  cases hvalue

theorem Extends.map (h : Extends narrow wide) (f : α → β) :
    Extends (narrow.map f) (wide.map f) := by
  intro value hvalue
  obtain ⟨own, hown, rfl⟩ := map_eq_ok_iff.1 hvalue
  exact map_eq_ok_iff.2 ⟨own, h own hown, rfl⟩

theorem Extends.bind {next other : α → Except ε β} (h : Extends narrow wide)
    (hnext : ∀ value, Extends (next value) (other value)) :
    Extends (narrow.bind next) (wide.bind other) := by
  intro last hlast
  obtain ⟨value, hvalue, hrest⟩ := bind_eq_ok_iff.1 hlast
  exact bind_eq_ok_iff.2 ⟨value, h value hvalue, hnext value last hrest⟩

theorem Extends.mapError {ε' : Type} (h : Extends narrow wide) (f g : ε → ε') :
    Extends (narrow.mapError f) (wide.mapError g) := by
  intro value hvalue
  rw [mapError_eq_ok_iff] at hvalue ⊢
  exact h value hvalue

end Extends

/-! ## Containers -/

variable {read other : Node → Except DecodeError Value}
variable {fields : List (Field × Schema)} {variants : List (Variant × Schema)}
variable {first second : Reading} {schemas : List Schema} {key : Schema}

theorem extends_decodeItems (h : ∀ node, Extends (read node) (other node)) (items : List Node) :
    Extends (decodeItems read items) (decodeItems other items) := by
  induction items with
  | nil => exact .refl _
  | cons item rest ih => exact (h item).bind fun value => ih.map (value :: ·)

theorem extends_decodeEntries {readKey otherKey : String → Except DecodeError Value}
    (hkey : ∀ name, Extends (readKey name) (otherKey name))
    (h : ∀ node, Extends (read node) (other node)) (entries : List (String × Node)) :
    Extends (decodeEntries readKey read entries) (decodeEntries otherKey other entries) := by
  induction entries with
  | nil => exact .refl _
  | cons entry rest ih =>
    obtain ⟨name, node⟩ := entry
    exact (hkey name).bind fun key => (h node).bind fun value => ih.map ((key, value) :: ·)

theorem decodeHeld_eq_ok_iff {schema : Schema} {node : Node} {value : Value} :
    schema.decodeHeld node = .ok value ↔
      ∃ s, node = .scalar s ∧ schema.decodeVerbatim s = .ok value := by
  unfold decodeHeld
  cases hunsupported : schema.unsupported? with
  | none => cases node <;> simp
  | some error =>
    -- An integer is no text, be it one that can be held or not.
    cases schema with
    | integer type => exact iff_of_false nofun fun ⟨s, _, hs⟩ => nomatch hs
    | _ => cases hunsupported

/-- All readings have the same keys, unless the key is wrapped. -/
theorem decodeKey_eq_ok_iff (hoption : ∀ inner, key ≠ option inner)
    (hnewtype : ∀ name inner, key ≠ newtype name inner) {name : String} {value : Value} :
    decodeKey first key name = .ok value ↔ decodeKey .parsed key name = .ok value := by
  cases first with
  | parsed => rfl
  | verbatim | taken =>
    cases key with
    | option inner => exact absurd rfl (hoption inner)
    | newtype name inner => exact absurd rfl (hnewtype name inner)
    | external | untagged => rfl
    | _ => simp [decodeKey, decodeHeld_eq_ok_iff]

theorem extends_decodeKey (hoption : ∀ inner, key ≠ option inner)
    (hnewtype : ∀ name inner, key ≠ newtype name inner) (name : String) :
    Extends (decodeKey first key name) (decodeKey second key name) := by
  intro value hvalue
  rw [decodeKey_eq_ok_iff hoption hnewtype] at hvalue ⊢
  exact hvalue

theorem extends_decodeTuple
    (h : ∀ schema ∈ schemas, ∀ node, Extends (schema.decode first node) (schema.decode second node))
    (expected : Expected) (size length : Nat) (items : List Node) :
    Extends (decodeTuple first expected size length schemas items)
      (decodeTuple second expected size length schemas items) := by
  induction schemas generalizing items with
  | nil => cases items <;> exact .refl _
  | cons schema schemas ih =>
    obtain ⟨hschema, hschemas⟩ := List.forall_mem_cons.1 h
    cases items with
    | nil => exact .refl _
    | cons item rest => exact (hschema item).bind fun value => (ih hschemas rest).map (value :: ·)

/-! ## Records -/

theorem extends_visitEntries {decodeField decodeOther : String → Node → Except DecodeError Value}
    (h : ∀ key node, Extends (decodeField key node) (decodeOther key node)) (strict : Bool)
    (seen : List (String × Value)) (entries : List (String × Node)) :
    Extends (visitEntries fields strict decodeField seen entries)
      (visitEntries fields strict decodeOther seen entries) := by
  induction entries generalizing seen with
  | nil => exact .refl _
  | cons entry rest ih =>
    obtain ⟨key, node⟩ := entry
    unfold visitEntries
    cases fieldFor? fields key with
    | none =>
      cases strict with
      | true => exact .refl _
      | false => exact ih seen
    | some field =>
      dsimp only
      split
      · exact .refl _
      · exact (h key node).bind fun value => ih ((field.name, value) :: seen)

theorem extends_decodeField
    (h : ∀ entry ∈ fields, ∀ node,
      Extends (entry.2.decode first node) (entry.2.decode second node))
    (key : String) (node : Node) :
    Extends (decodeField first fields key node) (decodeField second fields key node) := by
  induction fields with
  | nil => exact .refl _
  | cons entry rest ih =>
    obtain ⟨hentry, hrest⟩ := List.forall_mem_cons.1 h
    unfold decodeField
    split
    · exact hentry node
    · exact ih hrest

theorem extends_decodePositions
    (h : ∀ entry ∈ fields, ∀ node,
      Extends (entry.2.decode first node) (entry.2.decode second node))
    (expected : Expected) (size length index : Nat) (items : List Node) :
    Extends (decodePositions first expected size length index fields items)
      (decodePositions second expected size length index fields items) := by
  induction fields generalizing index items with
  | nil => cases items <;> exact .refl _
  | cons entry rest ih =>
    obtain ⟨field, schema⟩ := entry
    obtain ⟨hentry, hrest⟩ := List.forall_mem_cons.1 h
    cases items with
    | nil =>
      unfold decodePositions
      cases field.default with
      | none => exact .refl _
      | some value => exact (ih hrest (index + 1) []).map ((field.label, value) :: ·)
    | cons item items =>
      exact (hentry item).bind fun value =>
        (ih hrest (index + 1) items).map ((field.label, value) :: ·)

/-! ## Enumerations -/

theorem extends_decodeUnit (hfirst : first ≠ .taken) (expected : Expected) (node : Node) :
    Extends (decodeUnit first expected node) (decodeUnit second expected node) := by
  intro value hvalue
  obtain ⟨rfl, rfl⟩ := (decodeUnit_eq_ok_iff hfirst).1 hvalue
  rfl

theorem extends_decodeNoPayload (hfirst : first ≠ .taken) (node : Node) :
    Extends (decodeNoPayload first node) (decodeNoPayload second node) := by
  intro value hvalue
  obtain ⟨rfl, rfl⟩ := (decodeNoPayload_eq_ok_iff hfirst).1 hvalue
  cases second <;> rfl

theorem extends_decodePayload (hfirst : first ≠ .taken)
    (h : ∀ entry ∈ variants, entry.1.payload ≠ .unit → ∀ node,
      Extends (entry.2.decode first node) (entry.2.decode second node))
    (name : String) (node : Node) :
    Extends (decodePayload first variants name node) (decodePayload second variants name node) := by
  induction variants with
  | nil => exact .refl _
  | cons entry rest ih =>
    obtain ⟨variant, schema⟩ := entry
    obtain ⟨hentry, hrest⟩ := List.forall_mem_cons.1 h
    unfold decodePayload
    split
    · cases hkind : variant.payload with
      | unit => exact (extends_decodeNoPayload hfirst node).map (Value.variant variant.label)
      | newtype => exact (hentry (by simp [hkind]) node).map (Value.variant variant.label)
      | tuple | struct =>
        exact ((hentry (by simp [hkind]) node).mapError _ _).map (Value.variant variant.label)
    · exact ih hrest

/-! ## Schemas from their leaves -/

/-- Schemas built from leaves without a map whose keys are wrapped. What is collected, and what does
not name its variant outside, has texts as they are in both readings, so nothing is asked of it. -/
inductive BuiltFrom (leaf : Schema → Prop) : Schema → Prop where
  | leaf {schema : Schema} : leaf schema → BuiltFrom leaf schema
  | unit {expected : Expected} : BuiltFrom leaf (.unit expected)
  | text : BuiltFrom leaf .text
  | any : BuiltFrom leaf .any
  | ignored : BuiltFrom leaf .ignored
  | option {inner : Schema} : BuiltFrom leaf inner → BuiltFrom leaf (.option inner)
  | list {item : Schema} : BuiltFrom leaf item → BuiltFrom leaf (.list item)
  | map {key value : Schema} : (∀ inner, key ≠ .option inner) →
      (∀ name inner, key ≠ .newtype name inner) → BuiltFrom leaf value →
      BuiltFrom leaf (.map key value)
  | tuple {expected : Expected} {schemas : List Schema} :
      (∀ schema ∈ schemas, BuiltFrom leaf schema) → BuiltFrom leaf (.tuple expected schemas)
  | newtype {name : String} {inner : Schema} : BuiltFrom leaf inner →
      BuiltFrom leaf (.newtype name inner)
  | record {expected : Expected} {fields : List (Field × Schema)} {strict : Bool} :
      (∀ entry ∈ fields, BuiltFrom leaf entry.2) → BuiltFrom leaf (.record expected fields strict)
  | collecting {expected : Expected} {fields : List (Field × Schema)} {label : String}
      {rest : Schema} : (∀ entry ∈ fields, BuiltFrom leaf entry.2) →
      BuiltFrom leaf (.collecting expected fields label rest)
  | external {type : String} {variants : List (Variant × Schema)} :
      (∀ entry ∈ variants, entry.1.payload ≠ .unit → BuiltFrom leaf entry.2) →
      BuiltFrom leaf (.external type variants)
  | untagged {type : String} {variants : List (Variant × Schema)} :
      BuiltFrom leaf (.untagged type variants)
  | internal {type tag : String} {variants : List (Variant × Schema)} :
      BuiltFrom leaf (.internal type tag variants)

theorem BuiltFrom.extends {leaf : Schema → Prop} {schema : Schema} (hfirst : first ≠ .taken)
    (hleaf : ∀ schema, leaf schema → ∀ node,
      Extends (schema.decode first node) (schema.decode second node))
    (h : BuiltFrom leaf schema) (node : Node) :
    Extends (schema.decode first node) (schema.decode second node) := by
  induction h generalizing node with
  | leaf hschema => exact hleaf _ hschema node
  | unit => exact extends_decodeUnit hfirst _ node
  | text | any | ignored | untagged | internal => exact .refl _
  | option hinner ih =>
    cases node with
    | null => exact .refl _
    | scalar _ | object _ | array _ => exact (ih _).map Value.some
  | list hitem ih =>
    cases node with
    | array items => exact (extends_decodeItems ih items).map Value.list
    | null | scalar _ | object _ => exact .refl _
  | @map key value hoption hnewtype hvalue ih =>
    cases node with
    | object entries =>
      exact (extends_decodeEntries (extends_decodeKey hoption hnewtype) ih entries).map Value.map
    | null | scalar _ | array _ => exact .refl _
  | tuple hschemas ih =>
    cases node with
    | array items => exact (extends_decodeTuple ih _ _ _ items).map Value.list
    | null | scalar _ | object _ => exact .refl _
  | newtype hinner ih => exact ih node
  | record hfields ih =>
    cases node with
    | object entries =>
      exact (extends_visitEntries (extends_decodeField ih) _ [] entries).bind fun seen => .refl _
    | array items => exact (extends_decodePositions ih _ _ _ _ items).map Value.record
    | null | scalar _ => exact .refl _
  | collecting hfields ih =>
    cases node with
    | object entries =>
      -- What the fields leave over is taken verbatim on both sides.
      exact (extends_visitEntries (extends_decodeField ih) _ [] entries).bind fun seen => .refl _
    | null | scalar _ | array _ => exact .refl _
  | @external type variants hvariants ih =>
    cases node with
    | scalar _ => exact .refl _
    | null | array _ => exact .error _ _
    | object entries =>
      match entries with
      | [] | _ :: _ :: _ => exact .error _ _
      | [(name, payload)] =>
        cases hvariant : variantFor? variants name with
        | none =>
          rw [decode_external_of_none hvariant, decode_external_of_none hvariant]
          exact .refl _
        | some variant =>
          rw [decode_external_of_variant hvariant, decode_external_of_variant hvariant]
          exact extends_decodePayload hfirst ih variant.name payload

/-- Schemas of values that only parsing makes of a text. -/
def IsParsed : Schema → Prop
  | .bool | .integer _ | .float _ _ => True
  | _ => False

theorem decode_verbatim_ne_ok {schema : Schema} (h : schema.IsParsed) (node : Node)
    (value : Value) : schema.decode .verbatim node ≠ .ok value := by
  intro hvalue
  cases schema with
  | bool | integer type | float format name =>
    obtain ⟨s, rfl, hs⟩ := decodeHeld_eq_ok_iff.1 hvalue
    cases hs
  | _ => exact absurd h id

theorem decode_verbatim_char_eq_ok_iff {node : Node} {value : Value} :
    char.decode .verbatim node = .ok value ↔
      ∃ c, node = .scalar (String.singleton c) ∧ value = .char c := by
  cases node with
  | null | object entries | array items => exact iff_of_false nofun (by simp)
  | scalar s =>
    change char.decodeVerbatim s = _ ↔ _
    unfold decodeVerbatim
    dsimp only
    split
    next c hc =>
      obtain rfl : s = String.singleton c := by
        rw [← String.toList_inj, hc, String.toList_singleton]
      constructor
      · intro h
        exact ⟨c, rfl, (Except.ok.inj h).symm⟩
      · rintro ⟨own, hnode, rfl⟩
        obtain rfl : c = own := by
          simpa using congrArg String.toList (Node.scalar.inj hnode)
        rfl
    next hlength =>
      refine iff_of_false nofun ?_
      rintro ⟨c, ⟨rfl⟩, -⟩
      exact hlength c (String.toList_singleton c)

/-- Where no character is read, a node that decodes with its texts as they are also decodes when
they are parsed, and to the same value. -/
theorem extends_parsed {schema : Schema} (h : BuiltFrom IsParsed schema) (node : Node) :
    Extends (schema.decode .verbatim node) (schema.decode .parsed node) :=
  h.extends (by decide) (fun _ hleaf node value hvalue =>
    absurd hvalue (decode_verbatim_ne_ok hleaf node value)) node

/-- Nothing is parsed at the schema. -/
abbrev Textual (schema : Schema) : Prop := BuiltFrom (fun _ => False) schema

theorem Textual.decode_eq_ok_iff {schema : Schema} (h : schema.Textual) {node : Node}
    {value : Value} :
    schema.decode .verbatim node = .ok value ↔ node.decode schema = .ok value := by
  rw [Node.decode, mapError_eq_ok_iff]
  exact ⟨h.extends (by decide) (fun _ hleaf => hleaf.elim) node value,
    h.extends (by decide) (fun _ hleaf => hleaf.elim) node value⟩

end LayeredConfig.Schema
