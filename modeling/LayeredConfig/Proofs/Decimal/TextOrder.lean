import Mathlib.Data.List.Lex
import Mathlib.Data.Nat.Log
import Mathlib.Data.String.Basic
import LayeredConfig.Proofs.Decimal.Digits

set_option autoImplicit false

/-!
# Numerals in the order of texts

A closing bracket is greater than every digit. So of numerals in brackets zero comes first, then the
powers of ten, the greatest first, each in front of all numerals with no more digits.
-/
namespace LayeredConfig.Decimal

variable {n k : Nat} {cs : List Char} {c : Char}

theorem isDigit_of_mem_ofNat (h : c ∈ ofNat n) : c.isDigit :=
  (isNatural_ofNat n).2.1 c h

theorem ofNat_of_lt (h : n < 10) : ofNat n = [n.digitChar] :=
  Nat.toDigits_of_lt_base h

theorem ofNat_append_digit (hn : 0 < n) (hk : k < 10) :
    ofNat (10 * n + k) = ofNat n ++ [k.digitChar] := by
  unfold ofNat
  rw [← Nat.toDigits_append_toDigits (by decide) hn hk, Nat.toDigits_of_lt_base hk]

theorem ofNat_pow (k : Nat) : ofNat (10 ^ k) = '1' :: List.replicate k '0' := by
  induction k with
  | zero => rfl
  | succ k ih =>
    have hpow : 10 ^ (k + 1) = 10 * 10 ^ k + 0 := by omega
    have hpos : 0 < 10 ^ k := Nat.pow_pos (by decide)
    rw [hpow, ofNat_append_digit hpos (by decide), ih, List.replicate_succ']
    rfl

/-- No numeral but that of zero starts with a zero. -/
theorem exists_ofNat_eq_cons (h : 0 < n) : ∃ c rest, ofNat n = c :: rest ∧ '1' ≤ c := by
  induction n using Nat.strong_induction_on with
  | h n ih =>
    by_cases hn : n < 10
    · have hall : ∀ m < 10, 0 < m → '1' ≤ m.digitChar := by decide
      exact ⟨n.digitChar, [], ofNat_of_lt hn, hall n hn h⟩
    · have hdiv : 0 < n / 10 := by omega
      obtain ⟨c, rest, hrest, hc⟩ := ih (n / 10) (by omega) hdiv
      have hsplit : 10 * (n / 10) + n % 10 = n := by omega
      have happend := ofNat_append_digit hdiv (Nat.mod_lt n (by decide))
      rw [hsplit, hrest] at happend
      exact ⟨c, _, happend, hc⟩

theorem length_ofNat_le (h : n < 10 ^ (k + 1)) : (ofNat n).length ≤ k + 1 :=
  (Nat.length_toDigits_le_iff (by decide) (by omega)).2 h

/-- Below every number but zero and one there is a greatest power of ten. -/
theorem exists_pow_lt_le (h : 1 < n) : ∃ k, 10 ^ k < n ∧ n ≤ 10 ^ (k + 1) := by
  have hle : 10 ^ Nat.log 10 (n - 1) ≤ n - 1 := Nat.pow_log_le_self 10 (by omega)
  have hlt : n - 1 < 10 ^ (Nat.log 10 (n - 1) + 1) := Nat.lt_pow_succ_log_self (by decide) (n - 1)
  exact ⟨Nat.log 10 (n - 1), by omega, by omega⟩

theorem zeros_first (hlength : cs.length ≤ k) (hdigits : ∀ c ∈ cs, c.isDigit) :
    ¬ cs ++ [']'] < List.replicate k '0' ++ [']'] := by
  -- As long as the digits are zeros too they go along; at their end stands the greater bracket.
  induction cs generalizing k with
  | nil =>
    cases k with
    | zero => exact lt_irrefl _
    | succ k =>
      intro h
      rw [List.nil_append, List.replicate_succ, List.cons_append, List.cons_lt_cons_iff] at h
      rcases h with hlt | ⟨heq, -⟩
      · exact absurd hlt (by decide)
      · exact absurd heq (by decide)
  | cons c rest ih =>
    cases k with
    | zero => simp at hlength
    | succ k =>
      obtain ⟨hc, hrest⟩ := List.forall_mem_cons.1 hdigits
      have hzero : '0' ≤ c := (isDigit_iff.1 hc).1
      have hlengths : rest.length ≤ k := by simpa using hlength
      rw [List.replicate_succ, List.cons_append, List.cons_append, List.cons_lt_cons_iff]
      rintro (hlt | ⟨-, hlt⟩)
      · exact absurd hlt hzero.not_gt
      · exact ih hlengths hrest hlt

theorem zero_first (n : Nat) : ¬ ofNat n ++ [']'] < ofNat 0 ++ [']'] := by
  rcases Nat.eq_zero_or_pos n with rfl | hn
  · exact lt_irrefl _
  · obtain ⟨c, rest, hc, hle⟩ := exists_ofNat_eq_cons hn
    have hzero : '0' < c := lt_of_lt_of_le (by decide) hle
    have hnil : ofNat 0 = ['0'] := ofNat_of_lt (by decide)
    rw [hc, hnil, List.cons_append, List.cons_append, List.cons_lt_cons_iff]
    rintro (hlt | ⟨heq, -⟩)
    · exact absurd hlt hzero.asymm
    · exact absurd heq hzero.ne'

theorem pow_first (hn : 0 < n) (h : n < 10 ^ (k + 1)) :
    ¬ ofNat n ++ [']'] < ofNat (10 ^ k) ++ [']'] := by
  obtain ⟨c, rest, hc, hle⟩ := exists_ofNat_eq_cons hn
  have hlength : (ofNat n).length ≤ k + 1 := length_ofNat_le h
  have hdigits : ∀ d ∈ rest, d.isDigit := by
    intro d hd
    have hmem : d ∈ ofNat n := hc ▸ List.mem_cons_of_mem c hd
    exact isDigit_of_mem_ofNat hmem
  rw [hc] at hlength
  have hrest : rest.length ≤ k := by simpa using hlength
  rw [hc, ofNat_pow, List.cons_append, List.cons_append, List.cons_lt_cons_iff]
  rintro (hlt | ⟨-, hlt⟩)
  · exact absurd hlt hle.not_gt
  · exact zeros_first hrest hdigits hlt

/-- Numerals of one digit are in order as their numbers are. -/
theorem ofNat_lt_ofNat {m : Nat} (h : m < n) (hn : n < 10) : ofNat m ++ [']'] < ofNat n ++ [']'] := by
  have hall : ∀ n < 10, ∀ m < n, m.digitChar < n.digitChar := by decide
  rw [ofNat_of_lt (h.trans hn), ofNat_of_lt hn]
  exact List.cons_lt_cons_iff.2 (.inl (hall n hn m h))

end LayeredConfig.Decimal
