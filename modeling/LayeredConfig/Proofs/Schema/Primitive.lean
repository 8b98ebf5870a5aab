import Mathlib.Algebra.Group.Int.Defs
import LayeredConfig.Json.Value
import LayeredConfig.Proofs.Decimal.Digits
import LayeredConfig.Proofs.Text.Trim
import LayeredConfig.Settings.Basic

set_option autoImplicit false

/-!
# Primitives and their texts

An integer is read from exactly the texts that spell it: a numeral in the range of the type, with
blanks around it at most. The text that a boolean, an integer or a character is written as is read as
this value again, unless it is a blank character, which is lost with the blanks around a text.
-/
namespace LayeredConfig

theorem Decimal.IsInteger.not_isBlank {negative : Bool} {cs : List Char} {i : Int} {c : Char}
    (h : IsInteger negative cs i) (hc : c ∈ cs) : ¬ Text.isBlank c := by
  rcases h.sign_or_digit hc with rfl | rfl | hdigit
  · decide
  · decide
  · have hrange : '0' ≤ c ∧ c ≤ '9' := isDigit_iff.1 hdigit
    have hge : 48 ≤ c.toNat := hrange.1
    have hle : c.toNat ≤ 57 := hrange.2
    simp only [Text.isBlank, Bool.or_eq_true, Bool.and_eq_true, decide_eq_true_eq, beq_iff_eq]
    omega

namespace IntegerType

variable {type : IntegerType} {text : String} {n : Int}

/-- The integers of the type: in its bits, and negative ones only behind a sign bit. -/
def Contains (type : IntegerType) (n : Int) : Prop :=
  if type.signed then -2 ^ (type.bits - 1) ≤ n ∧ n < 2 ^ (type.bits - 1)
  else 0 ≤ n ∧ n < 2 ^ type.bits

instance : Decidable (type.Contains n) :=
  inferInstanceAs (Decidable (if type.signed then _ else _))

theorem contains_iff : type.Contains n ↔ type.least ≤ n ∧ n ≤ type.greatest := by
  have hpow : ∀ k : Nat, ((Nat.pow 2 k : Nat) : Int) = 2 ^ k := fun k => by simp
  cases hsigned : type.signed with
  | true =>
    simp only [Contains, least, greatest, hsigned, if_true, hpow]
    omega
  | false =>
    simp only [Contains, least, greatest, hsigned, Bool.false_eq_true, if_false, hpow]
    omega

/-- The text is a numeral of the integer with blanks around it at most, and the integer is one of the
type. -/
def Spells (type : IntegerType) (text : String) (n : Int) : Prop :=
  ∃ numeral, Text.IsTrimmed text.toList numeral ∧ Decimal.IsInteger type.signed numeral n ∧
    type.Contains n

theorem spells_of_isInteger (h : Decimal.IsInteger type.signed text.toList n)
    (hn : type.Contains n) : type.Spells text n :=
  ⟨text.toList, Text.trim_eq_iff.1 (Text.trim_of_forall fun _ hc => h.not_isBlank hc), h, hn⟩

theorem Contains.signed_or_nonneg (h : type.Contains n) : type.signed ∨ 0 ≤ n := by
  cases hsigned : type.signed with
  | true => exact .inl rfl
  | false =>
    rw [Contains, hsigned] at h
    exact .inr h.1

end IntegerType

namespace Schema

variable {type : IntegerType} {text : String} {n : Int} {schema : Schema} {value : Value}

theorem boolOf?_boolText (b : Bool) : boolOf? (Json.boolText b) = some b := by
  cases b <;> decide

theorem integerOf?_eq_some_iff : integerOf? type text = some n ↔ type.Spells text n := by
  have hread : ∀ {numeral}, Text.IsTrimmed text.toList numeral →
      integerOf? type text = (Decimal.integer? 10 type.signed numeral).bind fun n =>
        if type.least ≤ n ∧ n ≤ type.greatest then some n else none := by
    intro numeral hnumeral
    rw [integerOf?, Text.trim_eq_iff.2 hnumeral]
    cases Decimal.integer? 10 type.signed numeral <;> rfl
  constructor
  · intro h
    have htrimmed : Text.IsTrimmed text.toList (Text.trim text.toList) := Text.trim_eq_iff.1 rfl
    rw [hread htrimmed] at h
    obtain ⟨m, hm, hrange⟩ := Option.bind_eq_some_iff.1 h
    obtain ⟨hcontains, hsame⟩ := Option.ite_none_right_eq_some.1 hrange
    obtain rfl : m = n := Option.some.inj hsame
    exact ⟨_, htrimmed, Decimal.integer?_ten_eq_some_iff.1 hm,
      IntegerType.contains_iff.2 hcontains⟩
  · rintro ⟨numeral, htrimmed, hnumeral, hcontains⟩
    rw [hread htrimmed, Decimal.integer?_ten_eq_some_iff.2 hnumeral, Option.bind_some,
      if_pos (IntegerType.contains_iff.1 hcontains)]

theorem integerOf?_of_toList (htext : text.toList = Decimal.ofInt n) (hn : type.Contains n) :
    integerOf? type text = some n := by
  have hnumeral : Decimal.IsInteger type.signed text.toList n := by
    rw [htext]
    exact Decimal.isInteger_ofInt hn.signed_or_nonneg
  exact integerOf?_eq_some_iff.2 (IntegerType.spells_of_isInteger hnumeral hn)

/-! ## Integers -/

theorem decode_integer_scalar (type : IntegerType) (text : String) :
    Node.decode (.scalar text) (integer type) =
      match integerOf? type text with
      | some n => .ok (.integer n)
      | none => .error (.undecodable (.invalidValue text (.number type.name))) := by
  change ((integer type).decodePrimitive (.scalar text)).mapError _ = _
  rw [decodePrimitive, primitive?]
  cases integerOf? type text <;> rfl

/-- A node decodes to an integer exactly if it is a text that spells it. Any other text is quoted as it
stands, and of any other node the kind is named. -/
theorem decode_integer_exact (type : IntegerType) (node : Node) :
    (∀ value, node.decode (integer type) = .ok value ↔
      ∃ text n, node = .scalar text ∧ type.Spells text n ∧ value = .integer n) ∧
    (∀ text, node = .scalar text → (∀ n, ¬ type.Spells text n) →
      ∃ error, node.decode (integer type) = .error error ∧
        error = .undecodable (.invalidValue text (.number type.name)) ∧
        error.message = "failed to deserialize config: invalid value: string " ++
          Text.quote text ++ ", expected " ++ type.name) ∧
    ∀ kind name, (kind, name) ∈ [(Node.Kind.null, "unit value"), (.object, "map"),
        (.array, "sequence")] → node.kind = kind →
      ∃ error, node.decode (integer type) = .error error ∧
        error = .undecodable (.invalidType node.found (.number type.name)) ∧
        error.message = "failed to deserialize config: invalid type: " ++ name ++ ", expected " ++
          type.name := by
  refine ⟨fun value => ?exact, ?unspelled, ?other⟩
  case exact =>
    cases node with
    | null | object fields | array items =>
      constructor
      · intro h
        cases h
      · rintro ⟨text, n, hnode, -⟩
        cases hnode
    | scalar text =>
      rw [decode_integer_scalar]
      constructor
      · intro h
        cases hread : integerOf? type text with
        | none =>
          rw [hread] at h
          cases h
        | some n =>
          rw [hread] at h
          exact ⟨text, n, rfl, integerOf?_eq_some_iff.1 hread, (Except.ok.inj h).symm⟩
      · rintro ⟨_, n, ⟨rfl⟩, hspells, rfl⟩
        rw [integerOf?_eq_some_iff.2 hspells]
  case unspelled =>
    rintro text rfl hnone
    have hread : integerOf? type text = none :=
      Option.eq_none_iff_forall_not_mem.2 fun n hn => hnone n (integerOf?_eq_some_iff.1 hn)
    refine ⟨_, ?_, rfl, rfl⟩
    rw [decode_integer_scalar, hread]
  case other =>
    intro kind name hname hkind
    cases node with
    | scalar text => simp [← hkind, Node.kind] at hname
    | null | object fields | array items =>
      obtain rfl : name = _ := by simpa [← hkind, Node.kind] using hname
      exact ⟨_, rfl, rfl, rfl⟩

/-! ## Texts that values are written as -/

/-- The text that a value of a primitive type is written as. -/
inductive Prints : Schema → Value → String → Prop where
  | bool (b : Bool) : Prints .bool (.bool b) (if b then "true" else "false")
  | integer {type : IntegerType} {n : Int} : type.Contains n →
      Prints (.integer type) (.integer n) (toString n)
  | char (c : Char) : Prints .char (.char c) (String.singleton c)

theorem charOf?_singleton (c : Char) :
    charOf? (String.singleton c) = if Text.isBlank c then none else some c := by
  rw [charOf?, String.toList_singleton, Text.trim_singleton]
  by_cases h : Text.isBlank c <;> simp [h]

/-- A character that is blank does not stand for itself. -/
theorem Prints.primitive?_eq (h : Prints schema value text) :
    (∃ c, value = .char c ∧ Text.isBlank c ∧ schema.primitive? text = none) ∨
      (∀ c, value = .char c → ¬ Text.isBlank c) ∧ schema.primitive? text = some value := by
  cases h with
  | bool b =>
    refine .inr ⟨by simp, ?_⟩
    rw [primitive?, ← Json.boolText, boolOf?_boolText]
    rfl
  | @integer type n hn =>
    refine .inr ⟨by simp, ?_⟩
    rw [primitive?, integerOf?_of_toList (Decimal.toList_toString n) hn]
    rfl
  | char c =>
    rw [primitive?, charOf?_singleton]
    by_cases hc : Text.isBlank c
    · exact .inl ⟨c, rfl, hc, by simp [hc]⟩
    · exact .inr ⟨by simpa using hc, by simp [hc]⟩

theorem Prints.decode_eq (h : Prints schema value text) :
    Node.decode (.scalar text) schema =
      (schema.decodePrimitive (.scalar text)).mapError .undecodable := by
  cases h <;> rfl

theorem decode_option_scalar (inner : Schema) (text : String) :
    Node.decode (.scalar text) (option inner) = (Node.decode (.scalar text) inner).map .some := by
  change ((inner.decode .parsed (.scalar text)).map Value.some).mapError _ = _
  rw [Node.decode]
  cases inner.decode .parsed (.scalar text) <;> rfl

/-- The text of a value is read as the value, also where the value is optional, unless the value is a
blank character: its text is refused. -/
theorem decode_printed_iff (h : Prints schema value text) :
    (Node.decode (.scalar text) schema = .ok value ↔ ∀ c, value = .char c → ¬ Text.isBlank c) ∧
    (Node.decode (.scalar text) (option schema) = .ok (.some value) ↔
      ∀ c, value = .char c → ¬ Text.isBlank c) ∧
    ∀ c, value = .char c → Text.isBlank c →
      Node.decode (.scalar text) schema =
        .error (.undecodable (.invalidValue text .character)) ∧
      Node.decode (.scalar text) (option schema) =
        .error (.undecodable (.invalidValue text .character)) := by
  rw [decode_option_scalar, h.decode_eq, decodePrimitive]
  rcases h.primitive?_eq with ⟨c, rfl, hc, hnone⟩ | ⟨hchar, hvalue⟩
  · obtain ⟨rfl⟩ : schema = .char := by cases h; rfl
    rw [hnone]
    have hnot : ¬ ∀ c', Value.char c = .char c' → ¬ Text.isBlank c' := fun hall => hall c rfl hc
    exact ⟨iff_of_false nofun hnot, iff_of_false nofun hnot, fun _ _ _ => ⟨rfl, rfl⟩⟩
  · rw [hvalue]
    exact ⟨iff_of_true rfl hchar, iff_of_true rfl hchar, fun c hc hblank =>
      absurd hblank (hchar c hc)⟩

/-- The least integer of 128 bits, and a character that shows nothing but is no blank. -/
theorem decode_printed_iff_least :
    Prints (integer ⟨true, 128⟩) (.integer (-2 ^ 127))
      "-170141183460469231731687303715884105728" ∧
    Prints .char (.char '\u200b') "\u200b" ∧
    Node.decode (.scalar "-170141183460469231731687303715884105728") (integer ⟨true, 128⟩) =
      .ok (.integer (-2 ^ 127)) ∧
    Node.decode (.scalar "\u200b") (option .char) = .ok (.some (.char '\u200b')) := by
  have hleast : Prints (integer ⟨true, 128⟩) (.integer (-2 ^ 127))
      "-170141183460469231731687303715884105728" := .integer (by decide)
  have hchar : Prints .char (.char '\u200b') "\u200b" := .char _
  exact ⟨hleast, hchar, (decode_printed_iff hleast).1.2 (by simp),
    (decode_printed_iff hchar).2.1.2 (by simp [Text.isBlank])⟩

/-- A single space is the text of a character that is not read. -/
theorem not_decode_printed_space :
    ¬ ∀ schema value text, Prints schema value text →
      Node.decode (.scalar text) schema = .ok value ∧
      Node.decode (.scalar text) (option schema) = .ok (.some value) := by
  intro h
  cases (h .char (.char ' ') " " (.char ' ')).1

end Schema

end LayeredConfig
