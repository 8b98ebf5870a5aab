import LayeredConfig.Decimal.Digits

set_option autoImplicit false

/-!
# What numerals denote

A decimal numeral is one or more ASCII digits in positional notation, and an integer may have a sign
in front. The readers of numerals accept exactly these texts, with the value they denote, and the
digits of a number denote the number.
-/
namespace LayeredConfig.Decimal

/-- One or more ASCII digits with the value `n`. -/
def IsNatural (cs : List Char) (n : Nat) : Prop :=
  cs ≠ [] ∧ (∀ c ∈ cs, c.isDigit) ∧ Nat.ofDigitChars 10 cs 0 = n

/-- A numeral behind an optional sign; `negative` says whether it may be a minus. -/
inductive IsInteger (negative : Bool) : List Char → Int → Prop where
  | plain {cs : List Char} {n : Nat} : IsNatural cs n → IsInteger negative cs n
  | plus {cs : List Char} {n : Nat} : IsNatural cs n → IsInteger negative ('+' :: cs) n
  | minus {cs : List Char} {n : Nat} :
      negative → IsNatural cs n → IsInteger negative ('-' :: cs) (-n)

variable {acc n : Nat} {cs : List Char} {c : Char}

theorem isDigit_iff : c.isDigit ↔ '0' ≤ c ∧ c ≤ '9' := by
  simp [Char.isDigit, Char.le_def]

theorem digit?_ten (c : Char) :
    digit? 10 c = if c.isDigit then some (c.toNat - '0'.toNat) else none := by
  unfold digit?
  by_cases h : c.isDigit
  · have hrange : '0' ≤ c ∧ c ≤ '9' := isDigit_iff.1 h
    have hle : c.toNat ≤ 57 := hrange.2
    have hlt : c.toNat - 48 < 10 := by omega
    simp [hrange, h, hlt]
  · have hrange : ¬ ('0' ≤ c ∧ c ≤ '9') := fun hr => h (isDigit_iff.2 hr)
    have hlarge : ∀ m, ¬ m + 10 < 10 := by omega
    simp only [hrange, if_false, h]
    split
    · simp [hlarge]
    · split <;> simp [hlarge]

theorem foldDigits_ten_eq_some_iff : foldDigits 10 acc cs = some n ↔
    (∀ c ∈ cs, c.isDigit) ∧ Nat.ofDigitChars 10 cs acc = n := by
  induction cs generalizing acc with
  | nil => simp [foldDigits, Nat.ofDigitChars]
  | cons c rest ih =>
    rw [foldDigits, digit?_ten]
    by_cases h : c.isDigit
    · have hstep : Nat.ofDigitChars 10 (c :: rest) acc =
          Nat.ofDigitChars 10 rest (acc * 10 + (c.toNat - '0'.toNat)) := by
        rw [Nat.mul_comm acc 10]
        rfl
      simp [h, ih, hstep]
    · simp [h]

theorem natural?_ten_eq_some_iff : natural? 10 cs = some n ↔ IsNatural cs n := by
  unfold natural? IsNatural
  cases cs with
  | nil => simp
  | cons c rest => simp [foldDigits_ten_eq_some_iff]

theorem not_isNatural_cons (h : ¬ c.isDigit) : ¬ IsNatural (c :: cs) n :=
  fun hn => h (hn.2.1 c List.mem_cons_self)

theorem integer?_ten_eq_some_iff {negative : Bool} {i : Int} :
    integer? 10 negative cs = some i ↔ IsInteger negative cs i := by
  constructor
  · intro h
    unfold integer? at h
    split at h
    · obtain ⟨n, hn, rfl⟩ := Option.map_eq_some_iff.1 h
      exact .plus (natural?_ten_eq_some_iff.1 hn)
    · split at h
      · rename_i hneg
        obtain ⟨n, hn, rfl⟩ := Option.map_eq_some_iff.1 h
        exact .minus hneg (natural?_ten_eq_some_iff.1 hn)
      · simp at h
    · obtain ⟨n, hn, rfl⟩ := Option.map_eq_some_iff.1 h
      exact .plain (natural?_ten_eq_some_iff.1 hn)
  · rintro (⟨hn⟩ | ⟨hn⟩ | ⟨hneg, hn⟩)
    · unfold integer?
      -- A numeral without a sign starts with neither of the two.
      split
      · exact absurd hn (not_isNatural_cons (by decide))
      · exact absurd hn (not_isNatural_cons (by decide))
      · rw [natural?_ten_eq_some_iff.2 hn]
        rfl
    · simp [integer?, natural?_ten_eq_some_iff.2 hn]
    · simp [integer?, natural?_ten_eq_some_iff.2 hn, hneg]

theorem IsInteger.ne_nil {negative : Bool} {i : Int} (h : IsInteger negative cs i) : cs ≠ [] := by
  cases h with
  | plain hn => exact hn.1
  | plus hn => exact List.cons_ne_nil _ _
  | minus hneg hn => exact List.cons_ne_nil _ _

theorem IsInteger.sign_or_digit {negative : Bool} {i : Int} (h : IsInteger negative cs i)
    (hc : c ∈ cs) : c = '+' ∨ c = '-' ∨ c.isDigit := by
  cases h with
  | plain hn => exact .inr (.inr (hn.2.1 c hc))
  | plus hn =>
    rcases List.mem_cons.1 hc with rfl | hc
    · exact .inl rfl
    · exact .inr (.inr (hn.2.1 c hc))
  | minus hneg hn =>
    rcases List.mem_cons.1 hc with rfl | hc
    · exact .inr (.inl rfl)
    · exact .inr (.inr (hn.2.1 c hc))

theorem isNatural_ofNat (n : Nat) : IsNatural (ofNat n) n := by
  refine ⟨?_, ?_, ?_⟩
  · exact Nat.toDigits_ne_nil
  · intro c hc
    exact Nat.isDigit_of_mem_toDigits (by decide) (by decide) hc
  · exact Nat.ofDigitChars_toDigits (by decide) (by decide)

theorem isInteger_ofInt {negative : Bool} {i : Int} (h : negative ∨ 0 ≤ i) :
    IsInteger negative (ofInt i) i := by
  unfold ofInt
  split
  · have hneg : negative := h.resolve_right (by omega)
    have hi : i = -(i.natAbs : Int) := by omega
    rw [hi, Int.natAbs_neg, Int.natAbs_natCast]
    exact .minus hneg (isNatural_ofNat _)
  · have hi : i = (i.natAbs : Int) := by omega
    rw [hi, Int.natAbs_natCast]
    exact .plain (isNatural_ofNat _)

theorem toList_toString (i : Int) : (toString i).toList = ofInt i := by
  cases i with
  | ofNat n => exact String.toList_ofList
  | negSucc n =>
    have hdigits : (n + 1).repr.toList = ofNat (n + 1) := String.toList_ofList
    rw [ofInt, if_pos (Int.negSucc_lt_zero n)]
    change ("-" ++ (n + 1).repr).toList = '-' :: ofNat (n + 1)
    rw [String.toList_append, hdigits]
    rfl

end LayeredConfig.Decimal
