import LayeredConfig.Yaml.Token.Lexer

set_option autoImplicit false

/-!
# Blanks and line breaks inside a scalar

Blanks within a line are kept, and a single line break between lines becomes a space; further
breaks stay. Blanks around a break are dropped.
-/
namespace LayeredConfig.Yaml

/-- What stands between two runs of other characters: blanks, or breaks of which the first one is
kept apart. -/
structure Gap where
  blanks : List Char
  first : List Char
  more : List Char
  broken : Bool

namespace Gap

def empty : Gap := ⟨[], [], [], false⟩

/-- The characters that the gap stands for. -/
def text (gap : Gap) : List Char :=
  if gap.broken then
    if gap.first.head? = some '\n' then (if gap.more.isEmpty then [' '] else gap.more)
    else gap.first ++ gap.more
  else gap.blanks

/-- Reads blanks and breaks. Where `indent` is given, no tab may stand left of it behind a break. -/
def read (indent : Option Int) : Nat → Gap → Lex Gap
  | 0, gap => return gap
  | fuel + 1, gap => do
    let c ← Lex.look 0
    if isBlank c then
      let column : Int := (← get).column
      let tooFarLeft :=
        match indent with
        | some n => decide (column < n)
        | none => false
      if gap.broken && tooFarLeft && c == '\t' then Lex.fail
      else
        Lex.skip 1
        read indent fuel (if gap.broken then gap else { gap with blanks := gap.blanks ++ [c] })
    else if isBreak c then
      let b ← Lex.breakLine
      if gap.broken then read indent fuel { gap with more := gap.more ++ [b] }
      else read indent fuel ⟨[], [b], gap.more, true⟩
    else return gap

end Gap

end LayeredConfig.Yaml
