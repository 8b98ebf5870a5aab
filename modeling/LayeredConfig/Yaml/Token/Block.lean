import LayeredConfig.Decimal.Digits
import LayeredConfig.Yaml.Token.Lexer

set_option autoImplicit false

/-!
# Block scalars

The lines below a `|` or `>` that are indented enough. The header may give the indentation and say
what becomes of the breaks at the end: one is kept, none, or all. Folding joins lines that start
with no blank.
-/
namespace LayeredConfig.Yaml.Lex

inductive Chomping where
  | clip
  | strip
  | keep
deriving DecidableEq, Repr

def chomping? (c : Char) : Option Chomping :=
  if c == '+' then some .keep else if c == '-' then some .strip else none

/-- One digit other than zero, or nothing. -/
def increment : Lex Nat := do
  let c ← look 0
  match Decimal.digit? 10 c with
  | none => return 0
  | some 0 => fail
  | some d =>
    skip 1
    return d

def chomping : Lex (Option Chomping) := do
  match chomping? (← look 0) with
  | none => return none
  | some c =>
    skip 1
    return some c

/-- The indicators behind `|` or `>`, in either order. -/
def blockHeader : Lex (Chomping × Nat) := do
  match ← chomping with
  | some c => return (c, ← increment)
  | none =>
    let n ← increment
    if n = 0 then return (.clip, 0) else return ((← chomping).getD .clip, n)

/-- Passes indentation and empty lines. Without a given indentation it is the deepest one seen. The
answer has the indentation and the breaks. -/
def blockBreaks (indent : Nat) : Nat → Nat → List Char → Lex (Nat × List Char)
  | 0, deepest, breaks => return (deepest, breaks)
  | fuel + 1, deepest, breaks => do
    let s ← get
    let spaces := (s.rest.takeWhile (· == ' ')).length
    skip (if indent = 0 then spaces else min spaces (indent - s.column))
    let column := (← get).column
    let deepest := max deepest column
    let c ← look 0
    if (indent = 0 ∨ column < indent) ∧ c = '\t' then fail
    else if isBreak c then
      let b ← breakLine
      blockBreaks indent fuel deepest (breaks ++ [b])
    else return (deepest, breaks)

/-- What is known between two lines of a block scalar. -/
structure BlockState where
  text : List Char
  lastBreak : List Char
  breaks : List Char
  blankBefore : Bool

/-- The break before a line, as it shows in the text. -/
def joint (folded : Bool) (state : BlockState) (blank : Bool) : List Char :=
  if folded ∧ state.lastBreak.head? = some '\n' ∧ !state.blankBefore ∧ !blank then
    (if state.breaks.isEmpty then [' '] else []) ++ state.breaks
  else state.lastBreak ++ state.breaks

/-- The lines at the indentation. -/
def blockLines (folded : Bool) (indent : Nat) : Nat → BlockState → Lex BlockState
  | 0, state => return state
  | fuel + 1, state => do
    let c ← look 0
    if (← get).column = indent ∧ !isEnd c then
      let blank := isBlank c
      let text := state.text ++ joint folded state blank
      let content ← takeWhile (!isBreakOrEnd ·)
      let lastBreak ← if isBreak (← look 0) then (do return [← breakLine]) else pure []
      let (_, breaks) ← blockBreaks indent (← Lex.fuel) 0 []
      blockLines folded indent fuel ⟨text ++ content, lastBreak, breaks, blank⟩
    else return state

def blockScalar (folded : Bool) : Lex Token := do
  skip 1
  let (chomp, n) ← blockHeader
  skipBlanks
  skipComment
  if !isBreakOrEnd (← look 0) then fail
  else
    if isBreak (← look 0) then
      let _ ← breakLine
    let parent := (← get).indent
    let given : Nat := if n = 0 then 0 else (max parent 0).toNat + n
    let (deepest, breaks) ← blockBreaks given (← Lex.fuel) 0 []
    let indent := if given = 0 then max (max deepest (parent + 1).toNat) 1 else given
    let last ← blockLines folded indent (← Lex.fuel) ⟨[], [], breaks, false⟩
    let tail :=
      match chomp with
      | .strip => []
      | .clip => last.lastBreak
      | .keep => last.lastBreak ++ last.breaks
    return .scalar (String.ofList (last.text ++ tail)) false

end LayeredConfig.Yaml.Lex
