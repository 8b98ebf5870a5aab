import LayeredConfig.Json.Parser
import LayeredConfig.Json.Printer

set_option autoImplicit false

/-!
# The tokens of a written tree

Each part of a written tree reads as tokens of its own, whatever stands behind it: an escaped
character as the character, a text as one token, a tree as the tokens of its parts.
-/
namespace LayeredConfig.Json

theorem hex4?_hex2 : ∀ n < 32,
    hex4? '0' '0' (Nat.digitChar (n / 16)) (Nat.digitChar (n % 16)) = some n := by
  decide

theorem textAt?_plain {c : Char} (hquote : c ≠ '"') (hbackslash : c ≠ '\\') (hspace : ¬ c < ' ')
    (rest : List Char) : textAt? (c :: rest) = (textAt? rest).map (keep c) := by
  rw [textAt?.eq_def]
  split
  · rename_i heq
    simp at heq
  · rename_i heq
    exact absurd (List.cons.inj heq).1 hquote
  · rename_i heq
    exact absurd (List.cons.inj heq).1 hbackslash
  · rename_i heq
    exact absurd (List.cons.inj heq).1 hbackslash
  · rename_i heq
    obtain ⟨rfl, rfl⟩ := List.cons.inj heq
    simp [hspace]

/-- An escaped character reads as the character. -/
theorem textAt?_escapeChar (c : Char) (rest : List Char) :
    textAt? (escapeChar c ++ rest) = (textAt? rest).map (keep c) := by
  by_cases hshort : c ∈ ['"', '\\', '\x08', '\x0c', '\n', '\r', '\t']
  · simp only [List.mem_cons, List.not_mem_nil, or_false] at hshort
    rcases hshort with rfl | rfl | rfl | rfl | rfl | rfl | rfl <;>
      simp [escapeChar, textAt?, escape?]
  · simp only [List.mem_cons, List.not_mem_nil, or_false, not_or] at hshort
    obtain ⟨hquote, hbackslash, hb, hf, hn, hr, ht⟩ := hshort
    by_cases hcontrol : c < ' '
    · have hlt : c.toNat < 32 := hcontrol
      have hhex := hex4?_hex2 c.toNat hlt
      have hlow : isLow c.toNat = false := by simp [isLow]; omega
      have hhigh : isHigh c.toNat = false := by simp [isHigh]; omega
      have hescape : escapeChar c = ['\\', 'u', '0', '0'] ++ hex2 c.toNat := by
        simp [escapeChar, hquote, hbackslash, hb, hf, hn, hr, ht, hcontrol]
      rw [hescape]
      simp [hex2, textAt?, hhex, hlow, hhigh]
    · have hescape : escapeChar c = [c] := by
        simp [escapeChar, hquote, hbackslash, hb, hf, hn, hr, ht, hcontrol]
      rw [hescape]
      exact textAt?_plain hquote hbackslash hcontrol rest

theorem textAt?_flatMap_escapeChar (cs rest : List Char) :
    textAt? (cs.flatMap escapeChar ++ '"' :: rest) = some (cs, rest) := by
  induction cs with
  | nil => rfl
  | cons c cs ih =>
    rw [List.flatMap_cons, List.append_assoc, textAt?_escapeChar, ih]
    rfl

/-- The tokens of a text are those of its first token and of what follows; white space in front of
them does not count. -/
theorem tokens?_eq (cs : List Char) : tokens? cs =
    match cs.dropWhile isSpace with
    | [] => some []
    | c :: rest => (tokenAt? c rest).bind fun found => (tokens? found.2).map (found.1 :: ·) := by
  rw [tokens?]
  split
  next hskip => rw [hskip]
  next c rest hskip =>
    rw [hskip]
    dsimp only
    split
    next hnext =>
      rw [hnext]
      rfl
    next token next hnext =>
      rw [hnext]
      rfl

/-- The text reads as these tokens and leaves what stands behind it. -/
def Reads (cs : List Char) (tokens : List Token) : Prop :=
  ∀ rest, tokens? (cs ++ rest) = (tokens? rest).map (tokens ++ ·)

namespace Reads

theorem nil : Reads [] [] := by
  intro rest
  simp

theorem append {front back : List Char} {tokens more : List Token} (hfront : Reads front tokens)
    (hback : Reads back more) : Reads (front ++ back) (tokens ++ more) := by
  intro rest
  rw [List.append_assoc, hfront, hback, Option.map_map]
  exact congrArg (Option.map · (tokens? rest)) (funext fun found => by simp)

theorem of_tokenAt? {c : Char} {cs : List Char} {token : Token} (hspace : isSpace c = false)
    (h : ∀ rest, tokenAt? c (cs ++ rest) = some (token, rest)) : Reads (c :: cs) [token] := by
  intro rest
  have hskip : ((c :: cs) ++ rest).dropWhile isSpace = c :: (cs ++ rest) := by simp [hspace]
  rw [tokens?_eq, hskip]
  dsimp only
  rw [h rest]
  rfl

theorem of_isSpace {cs : List Char} (h : ∀ c ∈ cs, isSpace c) : Reads cs [] := by
  intro rest
  have hskip : (cs ++ rest).dropWhile isSpace = rest.dropWhile isSpace :=
    List.dropWhile_append_of_pos h
  rw [tokens?_eq, hskip, ← tokens?_eq]
  simp

/-- A text that nothing stands behind. -/
theorem tokens?_eq_some {cs : List Char} {tokens : List Token} (h : Reads cs tokens) :
    tokens? cs = some tokens := by
  have hnil : tokens? [] = some [] := by simp [tokens?]
  have hread := h []
  rw [List.append_nil, hnil] at hread
  simpa using hread

end Reads

theorem reads_renderText (s : String) : Reads (renderText s) [.text s] := by
  have htext : renderText s = '"' :: (s.toList.flatMap escapeChar ++ ['"']) := rfl
  rw [htext]
  refine Reads.of_tokenAt? rfl fun rest => ?_
  rw [List.append_assoc]
  simp only [tokenAt?, List.singleton_append, textAt?_flatMap_escapeChar]
  simp

mutual

/-- The tokens of a tree. -/
def lexemes : Node → List Token
  | .null => [.null]
  | .scalar text => [.text text]
  | .object fields => .openObject :: (fieldLexemes false fields ++ [.closeObject])
  | .array items => .openArray :: (itemLexemes false items ++ [.closeArray])

def itemLexemes (comma : Bool) : List Node → List Token
  | [] => []
  | node :: rest => (if comma then [.comma] else []) ++ lexemes node ++ itemLexemes true rest

def fieldLexemes (comma : Bool) : List (String × Node) → List Token
  | [] => []
  | (key, node) :: rest =>
    (if comma then [.comma] else []) ++ [.text key] ++ [.colon] ++ lexemes node ++
      fieldLexemes true rest

end

theorem reads_comma (comma : Bool) :
    Reads (if comma then [','] else []) (if comma then [.comma] else []) := by
  cases comma with
  | false => exact Reads.nil
  | true => exact Reads.of_tokenAt? rfl fun rest => rfl

mutual

theorem reads_render : (node : Node) → Reads (render node) (lexemes node)
  | .null => Reads.of_tokenAt? rfl fun rest => rfl
  | .scalar text => reads_renderText text
  | .object fields => by
    have hopen : Reads ['{'] [.openObject] := Reads.of_tokenAt? rfl fun rest => rfl
    have hclose : Reads ['}'] [.closeObject] := Reads.of_tokenAt? rfl fun rest => rfl
    exact hopen.append ((reads_renderFields false fields).append hclose)
  | .array items => by
    have hopen : Reads ['['] [.openArray] := Reads.of_tokenAt? rfl fun rest => rfl
    have hclose : Reads [']'] [.closeArray] := Reads.of_tokenAt? rfl fun rest => rfl
    exact hopen.append ((reads_renderItems false items).append hclose)

theorem reads_renderItems (comma : Bool) :
    (items : List Node) → Reads (renderItems comma items) (itemLexemes comma items)
  | [] => Reads.nil
  | node :: rest =>
    ((reads_comma comma).append (reads_render node)).append (reads_renderItems true rest)

theorem reads_renderFields (comma : Bool) :
    (fields : List (String × Node)) → Reads (renderFields comma fields) (fieldLexemes comma fields)
  | [] => Reads.nil
  | (key, node) :: rest => by
    have hcolon : Reads [':'] [.colon] := Reads.of_tokenAt? rfl fun rest => rfl
    have hkey := ((reads_comma comma).append (reads_renderText key)).append hcolon
    exact (hkey.append (reads_render node)).append (reads_renderFields true rest)

end

theorem tokens?_render (node : Node) : tokens? (render node) = some (lexemes node) :=
  (reads_render node).tokens?_eq_some

end LayeredConfig.Json
