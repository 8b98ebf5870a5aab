import LayeredConfig.Json.Numeral

set_option autoImplicit false

/-!
# Tokens of JSON

Brackets, separators, the three words, texts and numbers, with white space between them. A text has
its escapes resolved: a high surrogate must be followed by a low one, and no character below space
may stand unescaped.
-/
namespace LayeredConfig.Json

inductive Token where
  | openArray
  | closeArray
  | openObject
  | closeObject
  | comma
  | colon
  | null
  | bool (b : Bool)
  | text (s : String)
  | number (n : Number)
deriving DecidableEq, Repr

def isSpace (c : Char) : Bool := c == ' ' || c == '\t' || c == '\n' || c == '\r'

def hex4? (a b c d : Char) : Option Nat := Decimal.foldDigits 16 0 [a, b, c, d]

/-- What a letter after a backslash stands for. -/
def escape? (c : Char) : Option Char :=
  if c = '"' ∨ c = '\\' ∨ c = '/' then some c
  else if c = 'b' then some '\x08'
  else if c = 'f' then some '\x0c'
  else if c = 'n' then some '\n'
  else if c = 'r' then some '\r'
  else if c = 't' then some '\t'
  else none

def isHigh (u : Nat) : Bool := 0xD800 ≤ u && u < 0xDC00

def isLow (u : Nat) : Bool := 0xDC00 ≤ u && u < 0xE000

def joinSurrogates (high low : Nat) : Char :=
  Char.ofNat (0x10000 + (high - 0xD800) * 0x400 + (low - 0xDC00))

def keep (c : Char) (found : List Char × List Char) : List Char × List Char :=
  (c :: found.1, found.2)

/-- The characters of a text up to its closing quote, and what follows the quote. -/
def textAt? : List Char → Option (List Char × List Char)
  | [] => none
  | '"' :: rest => some ([], rest)
  | '\\' :: 'u' :: a :: b :: c :: d :: rest =>
    match hex4? a b c d with
    | none => none
    | some u =>
      if isLow u then none
      else if isHigh u then
        match rest with
        | '\\' :: 'u' :: e :: f :: g :: h :: rest =>
          match hex4? e f g h with
          | none => none
          | some low =>
            if isLow low then (textAt? rest).map (keep (joinSurrogates u low)) else none
        | _ => none
      else (textAt? rest).map (keep (Char.ofNat u))
  | '\\' :: c :: rest =>
    match escape? c with
    | none => none
    | some x => (textAt? rest).map (keep x)
  | c :: rest => if c < ' ' then none else (textAt? rest).map (keep c)

theorem length_lt_of_map_keep {c : Char} {cs found rest : List Char}
    {read : Option (List Char × List Char)}
    (shorter : ∀ {found rest}, read = some (found, rest) → rest.length < cs.length)
    (h : read.map (keep c) = some (found, rest)) : rest.length < cs.length := by
  obtain ⟨before, hread, heq⟩ := Option.map_eq_some_iff.1 h
  cases heq
  exact shorter hread

theorem textAt?_length {cs found rest : List Char} (h : textAt? cs = some (found, rest)) :
    rest.length < cs.length := by
  fun_induction textAt? cs generalizing found rest with
  | case2 => simp_all
  | case6 _ _ _ _ _ _ _ _ _ _ _ _ _ _ _ _ ih =>
    have := length_lt_of_map_keep ih h
    simp only [List.length_cons]
    omega
  | case9 _ _ _ _ _ _ _ _ _ ih =>
    have := length_lt_of_map_keep ih h
    simp only [List.length_cons]
    omega
  | case11 _ _ _ _ _ ih =>
    have := length_lt_of_map_keep ih h
    simp only [List.length_cons]
    omega
  | case13 _ _ _ _ _ _ ih =>
    have := length_lt_of_map_keep ih h
    simp only [List.length_cons]
    omega
  | _ => contradiction

def numberAt? (negative : Bool) (cs : List Char) : Option (Token × List Char) :=
  match numeralAt? negative cs with
  | none => none
  | some (numeral, rest) => numeral.number?.map fun n => (.number n, rest)

/-- The token that starts with `c`, and what follows it. -/
def tokenAt? (c : Char) (rest : List Char) : Option (Token × List Char) :=
  match c, rest with
  | '[', rest => some (.openArray, rest)
  | ']', rest => some (.closeArray, rest)
  | '{', rest => some (.openObject, rest)
  | '}', rest => some (.closeObject, rest)
  | ',', rest => some (.comma, rest)
  | ':', rest => some (.colon, rest)
  | '"', rest => (textAt? rest).map fun found => (.text (String.ofList found.1), found.2)
  | 'n', 'u' :: 'l' :: 'l' :: rest => some (.null, rest)
  | 't', 'r' :: 'u' :: 'e' :: rest => some (.bool true, rest)
  | 'f', 'a' :: 'l' :: 's' :: 'e' :: rest => some (.bool false, rest)
  | '-', rest => numberAt? true rest
  | c, rest => numberAt? false (c :: rest)

theorem numberAt?_length {negative : Bool} {cs rest : List Char} {t : Token}
    (h : numberAt? negative cs = some (t, rest)) : rest.length < cs.length := by
  unfold numberAt? at h
  split at h
  · simp at h
  · rename_i hnumeral
    simp only [Option.map_eq_some_iff, Prod.mk.injEq] at h
    obtain ⟨_, _, _, rfl⟩ := h
    exact numeralAt?_length hnumeral

/-- A token takes at least one character from the text. -/
theorem tokenAt?_length {c : Char} {cs rest : List Char} {t : Token}
    (h : tokenAt? c cs = some (t, rest)) : rest.length ≤ cs.length := by
  unfold tokenAt? at h
  split at h
  case h_7 =>
    simp only [Option.map_eq_some_iff, Prod.mk.injEq, Prod.exists] at h
    obtain ⟨_, _, hbody, _, rfl⟩ := h
    exact Nat.le_of_lt (textAt?_length hbody)
  case h_11 => exact Nat.le_of_lt (numberAt?_length h)
  case h_12 =>
    have := numberAt?_length h
    simp only [List.length_cons] at this
    omega
  all_goals
    simp only [Option.some.injEq, Prod.mk.injEq] at h
    grind

end LayeredConfig.Json
