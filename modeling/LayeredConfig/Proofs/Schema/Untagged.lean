import LayeredConfig.Proofs.Schema.Reading

set_option autoImplicit false

/-!
# Variants that are not named

Of an enumeration that does not name its variants the first one counts whose payload the node is.
The payload is read with all texts as they are, so a variant for numbers never counts, and a variant
for texts takes every text, whatever the text spells.
-/
namespace LayeredConfig.Schema

variable {variants rest : List (Variant × Schema)} {variant : Variant}
variable {schema : Schema} {entry : Variant × Schema} {node : Node} {payload value : Value}
variable {type : String}

/-- The node is a payload of the variant, with its texts as they are. The fields of a struct have
names, so an array is none. -/
structure Takes (entry : Variant × Schema) (node : Node) (payload : Value) : Prop where
  named : entry.1.payload = .struct → node.kind ≠ .array
  reads : entry.2.decode .verbatim node = .ok payload

theorem decodeUntagged_of_takes (h : Takes (variant, schema) node payload) :
    decodeUntagged type ((variant, schema) :: rest) node =
      .ok (.variant variant.label payload) := by
  have hnamed : ¬ (variant.payload = .struct ∧ node.kind = .array) := not_and.2 h.named
  unfold decodeUntagged
  simp only [if_neg hnamed, h.reads]
  rfl

theorem decodeUntagged_of_not_takes (h : ∀ payload, ¬ Takes (variant, schema) node payload) :
    decodeUntagged type ((variant, schema) :: rest) node = decodeUntagged type rest node := by
  conv_lhs => unfold decodeUntagged
  by_cases hnamed : variant.payload = .struct ∧ node.kind = .array
  · simp only [if_pos hnamed]
    rfl
  · simp only [if_neg hnamed]
    cases hread : schema.decode .verbatim node with
    | error error => rfl
    | ok payload => exact absurd ⟨not_and.1 hnamed, hread⟩ (h payload)

theorem decodeUntagged_cons_eq_ok_iff :
    decodeUntagged type ((variant, schema) :: rest) node = .ok value ↔
      (∃ payload, Takes (variant, schema) node payload ∧ value = .variant variant.label payload) ∨
      (∀ payload, ¬ Takes (variant, schema) node payload) ∧
        decodeUntagged type rest node = .ok value := by
  by_cases h : ∃ payload, Takes (variant, schema) node payload
  · obtain ⟨payload, hpayload⟩ := h
    rw [decodeUntagged_of_takes hpayload]
    constructor
    · intro hvalue
      exact .inl ⟨payload, hpayload, (Except.ok.inj hvalue).symm⟩
    · rintro (⟨other, hother, rfl⟩ | ⟨hnone, -⟩)
      · rw [Except.ok.inj (hpayload.reads.symm.trans hother.reads)]
      · exact absurd hpayload (hnone payload)
  · rw [decodeUntagged_of_not_takes (not_exists.1 h)]
    constructor
    · intro hvalue
      exact .inr ⟨not_exists.1 h, hvalue⟩
    · rintro (⟨payload, hpayload, -⟩ | ⟨-, hvalue⟩)
      · exact absurd ⟨payload, hpayload⟩ h
      · exact hvalue

theorem decodeUntagged_eq_ok_iff : decodeUntagged type variants node = .ok value ↔
    ∃ before variant schema after payload, variants = before ++ (variant, schema) :: after ∧
      (∀ earlier ∈ before, ∀ other, ¬ Takes earlier node other) ∧
      Takes (variant, schema) node payload ∧ value = .variant variant.label payload := by
  induction variants with
  | nil => exact iff_of_false nofun (by simp)
  | cons entry rest ih =>
    obtain ⟨variant, schema⟩ := entry
    rw [decodeUntagged_cons_eq_ok_iff, ih]
    -- The head is the variant that counts, or it stands before it and takes nothing.
    constructor
    · rintro (⟨payload, htakes, rfl⟩ |
        ⟨hnone, before, own, ownSchema, after, payload, rfl, hbefore, htakes⟩)
      · exact ⟨[], variant, schema, rest, payload, rfl, by simp, htakes, rfl⟩
      · exact ⟨(variant, schema) :: before, own, ownSchema, after, payload, rfl,
          List.forall_mem_cons.2 ⟨hnone, hbefore⟩, htakes⟩
    · rintro ⟨before, own, ownSchema, after, payload, hsplit, hbefore, htakes, rfl⟩
      cases before with
      | nil =>
        obtain ⟨⟨rfl, rfl⟩, -⟩ : (variant = own ∧ schema = ownSchema) ∧ rest = after := by
          simpa using hsplit
        exact .inl ⟨payload, htakes, rfl⟩
      | cons entry before =>
        obtain ⟨rfl, rfl⟩ := List.cons.inj hsplit
        obtain ⟨hentry, hlater⟩ := List.forall_mem_cons.1 hbefore
        exact .inr ⟨hentry, before, own, ownSchema, after, payload, rfl, hlater, htakes, rfl⟩

theorem decodeUntagged_eq_error_iff {error : DecodeError} :
    decodeUntagged type variants node = .error error ↔
      (∀ entry ∈ variants, ∀ payload, ¬ Takes entry node payload) ∧ error = .noVariant type := by
  induction variants with
  | nil =>
    rw [decodeUntagged, Except.error.injEq, eq_comm]
    simp
  | cons entry rest ih =>
    obtain ⟨variant, schema⟩ := entry
    rw [List.forall_mem_cons]
    by_cases h : ∃ payload, Takes (variant, schema) node payload
    · obtain ⟨payload, hpayload⟩ := h
      rw [decodeUntagged_of_takes hpayload]
      exact iff_of_false nofun fun hall => hall.1.1 payload hpayload
    · rw [decodeUntagged_of_not_takes (not_exists.1 h), ih, and_iff_right (not_exists.1 h)]

/-! ## What a variant takes -/

theorem not_takes_of_isParsed (h : entry.2.IsParsed) : ¬ Takes entry node payload :=
  fun htakes => decode_verbatim_ne_ok h node payload htakes.reads

theorem takes_text_iff : Takes (variant, .text) node payload ↔
    ∃ s, node = .scalar s ∧ payload = .text s := by
  constructor
  · rintro ⟨-, hread⟩
    cases node with
    | scalar s => exact ⟨s, rfl, (Except.ok.inj hread).symm⟩
    | null | object entries | array items => cases hread
  · rintro ⟨s, rfl, rfl⟩
    exact ⟨fun _ => nofun, rfl⟩

theorem takes_char_iff : Takes (variant, .char) node payload ↔
    ∃ c, node = .scalar (String.singleton c) ∧ payload = .char c := by
  rw [← decode_verbatim_char_eq_ok_iff]
  refine ⟨Takes.reads, fun h => ⟨?_, h⟩⟩
  obtain ⟨c, rfl, -⟩ := decode_verbatim_char_eq_ok_iff.1 h
  exact fun _ => nofun

theorem Takes.decode_eq (h : Takes entry node payload) (hbuilt : BuiltFrom IsParsed entry.2) :
    node.decode entry.2 = .ok payload :=
  mapError_eq_ok_iff.2 (extends_parsed hbuilt node payload h.reads)

theorem takes_iff_decode (htextual : entry.2.Textual) : Takes entry node payload ↔
    (entry.1.payload = .struct → node.kind ≠ .array) ∧ node.decode entry.2 = .ok payload := by
  rw [← htextual.decode_eq_ok_iff]
  exact ⟨fun h => ⟨h.named, h.reads⟩, fun h => ⟨h.1, h.2⟩⟩

/-- A table with one text. -/
def keyTable : Schema :=
  .record (.structVariantOf "OneOrMany" "Table") [(⟨"key", "key", [], none⟩, .text)] false

/-- A number, a text, any number of texts, or a table. -/
def oneOrManyVariants : List (Variant × Schema) :=
  [(⟨"Num", "Num", .newtype⟩, .integer ⟨true, 64⟩), (⟨"One", "One", .newtype⟩, .text),
    (⟨"Many", "Many", .newtype⟩, .list .text), (⟨"Table", "Table", .struct⟩, keyTable)]

def oneOrMany : Schema := .untagged "OneOrMany" oneOrManyVariants

theorem takes_keyTable_iff (hstruct : variant.payload = .struct) :
    Takes (variant, keyTable) node payload ↔
      node.kind = .object ∧ node.decode keyTable = .ok payload := by
  have htextual : keyTable.Textual := .record (List.forall_mem_singleton.2 .text)
  rw [takes_iff_decode htextual, forall_prop_of_true hstruct]
  cases node with
  | null | scalar s => exact iff_of_false (fun h => by cases h.2) nofun
  | object entries => exact and_congr_left' (iff_of_true nofun rfl)
  | array items => exact iff_of_false (fun h => h.1 rfl) nofun

theorem decode_oneOrMany_eq_ok_iff : node.decode oneOrMany = .ok value ↔
    (∃ s, node = .scalar s ∧ value = .variant "One" (.text s)) ∨
    (∃ payload, node.decode (list text) = .ok payload ∧ value = .variant "Many" payload) ∨
    node.kind = .object ∧
      ∃ payload, node.decode keyTable = .ok payload ∧ value = .variant "Table" payload := by
  have hnum : ∀ payload, ¬ Takes (⟨"Num", "Num", .newtype⟩, .integer ⟨true, 64⟩) node payload :=
    fun _ => not_takes_of_isParsed trivial
  have hmany : ∀ payload, Takes (⟨"Many", "Many", .newtype⟩, .list .text) node payload ↔
      node.decode (list text) = .ok payload := by
    intro payload
    rw [takes_iff_decode (.list .text), and_iff_right nofun]
  have htable : ∀ payload, Takes (⟨"Table", "Table", .struct⟩, keyTable) node payload ↔
      node.kind = .object ∧ node.decode keyTable = .ok payload := fun _ => takes_keyTable_iff rfl
  change (decodeUntagged "OneOrMany" oneOrManyVariants node).mapError _ = _ ↔ _
  simp only [oneOrManyVariants, mapError_eq_ok_iff, decodeUntagged_cons_eq_ok_iff, hnum,
    takes_text_iff, hmany, htable, false_and, exists_false, false_or, not_false_iff, implies_true,
    true_and]
  constructor
  · rintro (⟨_, ⟨s, hs, rfl⟩, rfl⟩ | ⟨-, ⟨payload, hlist, rfl⟩ |
      ⟨-, ⟨payload, ⟨hkind, hrecord⟩, rfl⟩ | ⟨-, ⟨⟩⟩⟩⟩)
    · exact .inl ⟨s, hs, rfl⟩
    · exact .inr (.inl ⟨payload, hlist, rfl⟩)
    · exact .inr (.inr ⟨hkind, payload, hrecord, rfl⟩)
  · rintro (⟨s, hs, rfl⟩ | ⟨payload, hlist, rfl⟩ | ⟨hkind, payload, hrecord, rfl⟩)
    · exact .inl ⟨_, ⟨s, hs, rfl⟩, rfl⟩
    · -- What decodes to a list is no text, and a table is neither.
      cases node with
      | array items => exact .inr ⟨by simp, .inl ⟨payload, hlist, rfl⟩⟩
      | null | scalar s | object entries => cases hlist
    · cases node with
      | object entries => exact .inr ⟨by simp, .inr ⟨nofun, .inl ⟨payload, ⟨hkind, hrecord⟩, rfl⟩⟩⟩
      | null | scalar s | array items => cases hkind

/-- An enumeration that does not name its variants decodes to the first variant that takes the node,
and fails exactly if there is none. A variant for booleans or numbers takes nothing, one for
characters the texts of a single character. What is built without characters takes nothing that does
not decode in its own right, to the same value, and all that does if nothing in it is parsed. -/
theorem decode_untagged_exact (type : String) (variants : List (Variant × Schema)) :
    (∀ (node : Node) (value : Value), node.decode (untagged type variants) = .ok value ↔
      ∃ before variant schema after payload, variants = before ++ (variant, schema) :: after ∧
        (∀ earlier ∈ before, ∀ other, ¬ Takes earlier node other) ∧
        Takes (variant, schema) node payload ∧ value = .variant variant.label payload) ∧
    (∀ (node : Node) (error : ConfigError), node.decode (untagged type variants) = .error error ↔
      (∀ entry ∈ variants, ∀ payload, ¬ Takes entry node payload) ∧
        error = .undecodable (.noVariant type)) ∧
    (∀ (entry : Variant × Schema) (node : Node) (payload : Value),
      (entry.2.IsParsed → ¬ Takes entry node payload) ∧
      (entry.2 = .char → (Takes entry node payload ↔
        ∃ c, node = .scalar (String.singleton c) ∧ payload = .char c)) ∧
      (BuiltFrom IsParsed entry.2 → Takes entry node payload →
        node.decode entry.2 = .ok payload) ∧
      (entry.2.Textual → (Takes entry node payload ↔
        (entry.1.payload = .struct → node.kind ≠ .array) ∧ node.decode entry.2 = .ok payload))) ∧
    ∀ (node : Node) (value : Value), node.decode oneOrMany = .ok value ↔
      (∃ s, node = .scalar s ∧ value = .variant "One" (.text s)) ∨
      (∃ payload, node.decode (list text) = .ok payload ∧ value = .variant "Many" payload) ∨
      node.kind = .object ∧
        ∃ payload, node.decode keyTable = .ok payload ∧ value = .variant "Table" payload := by
  refine ⟨fun node value => mapError_eq_ok_iff.trans decodeUntagged_eq_ok_iff,
    fun node error => ?error, fun entry node payload => ?takes,
    fun node value => decode_oneOrMany_eq_ok_iff⟩
  case error =>
    change (decodeUntagged type variants node).mapError _ = _ ↔ _
    simp only [mapError_eq_error_iff, decodeUntagged_eq_error_iff]
    constructor
    · rintro ⟨_, ⟨hnone, rfl⟩, rfl⟩
      exact ⟨hnone, rfl⟩
    · rintro ⟨hnone, rfl⟩
      exact ⟨_, ⟨hnone, rfl⟩, rfl⟩
  case takes =>
    refine ⟨not_takes_of_isParsed, ?_, fun hbuilt htakes => htakes.decode_eq hbuilt,
      takes_iff_decode⟩
    obtain ⟨variant, schema⟩ := entry
    rintro rfl
    exact takes_char_iff

/-- A text that spells a boolean is not taken for one, and a blank character is taken untrimmed. -/
theorem decode_untagged_exact_texts : ∃ variants : List (Variant × Schema),
    variants = [(⟨"Flag", "Flag", .newtype⟩, bool), (⟨"Letter", "Letter", .newtype⟩, .char),
      (⟨"Word", "Word", .newtype⟩, text)] ∧ bool.IsParsed ∧ text.Textual ∧
    (Node.scalar "true").decode (untagged "Token" variants) =
      .ok (.variant "Word" (.text "true")) ∧
    (Node.scalar " ").decode (untagged "Token" variants) = .ok (.variant "Letter" (.char ' ')) ∧
    Node.decode .null (untagged "Token" variants) = .error (.undecodable (.noVariant "Token")) := by
  refine ⟨_, rfl, trivial, .text, ?_⟩
  obtain ⟨hvalue, herror, htakes, -⟩ := decode_untagged_exact "Token"
    [(⟨"Flag", "Flag", .newtype⟩, bool), (⟨"Letter", "Letter", .newtype⟩, .char),
      (⟨"Word", "Word", .newtype⟩, text)]
  have hflag : ∀ node payload, ¬ Takes (⟨"Flag", "Flag", .newtype⟩, bool) node payload :=
    fun node payload => (htakes _ node payload).1 trivial
  have hletter : ∀ node payload, Takes (⟨"Letter", "Letter", .newtype⟩, .char) node payload ↔
      ∃ c, node = .scalar (String.singleton c) ∧ payload = .char c :=
    fun node payload => (htakes _ node payload).2.1 rfl
  have hword : ∀ node payload, Takes (⟨"Word", "Word", .newtype⟩, text) node payload ↔ _ :=
    fun node payload => (htakes _ node payload).2.2.2 .text
  refine ⟨(hvalue _ _).2 ⟨[_, _], _, _, [], .text "true", rfl, ?_, (hword _ _).2 ⟨nofun, rfl⟩, rfl⟩,
    (hvalue _ _).2 ⟨[_], _, _, [_], .char ' ', rfl, ?_, (hletter _ _).2 ⟨' ', rfl, rfl⟩, rfl⟩,
    (herror _ _).2 ⟨?_, rfl⟩⟩
  · intro earlier hearlier other hother
    rcases List.mem_pair.1 hearlier with rfl | rfl
    · exact hflag _ _ hother
    · obtain ⟨c, hc, -⟩ := (hletter _ _).1 hother
      have hlength := congrArg String.length (Node.scalar.inj hc)
      rw [String.length_singleton] at hlength
      exact absurd hlength (by decide)
  · exact List.forall_mem_singleton.2 (hflag _)
  · intro entry hentry payload hpayload
    simp only [List.mem_cons, List.not_mem_nil, or_false] at hentry
    rcases hentry with rfl | rfl | rfl
    · exact hflag _ _ hpayload
    · obtain ⟨c, hc, -⟩ := (hletter _ _).1 hpayload
      cases hc
    · cases ((hword _ _).1 hpayload).2

/-- The numeral `7` decodes to a number in its own right, but to a text among the variants. -/
theorem not_decode_untagged_direct :
    ¬ ∀ (type : String) (variants : List (Variant × Schema)) (node : Node) (value : Value),
      node.decode (untagged type variants) = .ok value ↔
        ∃ before variant schema after payload, variants = before ++ (variant, schema) :: after ∧
          (∀ earlier ∈ before, ∀ other, node.decode earlier.2 ≠ .ok other) ∧
          node.decode schema = .ok payload ∧ value = .variant variant.label payload := by
  intro h
  have hnum : (Node.scalar "7").decode oneOrMany = .ok (.variant "Num" (.integer 7)) :=
    (h "OneOrMany" oneOrManyVariants (.scalar "7") _).2
      ⟨[], _, _, _, .integer 7, rfl, by simp, rfl, rfl⟩
  have hone : (Node.scalar "7").decode oneOrMany = .ok (.variant "One" (.text "7")) := rfl
  simp [hone] at hnum

end LayeredConfig.Schema
