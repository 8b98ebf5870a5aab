import LayeredConfig.Yaml.Token.Folding

set_option autoImplicit false

/-!
# Plain scalars

A scalar without quotes ends at a comment, at a colon with a space behind it, at a flow indicator
inside a flow collection, or where a line is indented too little.
-/
namespace LayeredConfig.Yaml.Lex

/-- Whether a colon is followed by a flow indicator, which no plain scalar may hold. -/
def badColon (c next : Char) : Bool :=
  c == ':' && (isFlowIndicator next || next == '?')

/-- Characters up to a blank, a break or the end of the scalar. -/
def plainRun : Nat → List Char → Lex (List Char)
  | 0, acc => return acc
  | fuel + 1, acc => do
    let c ← look 0
    let next ← look 1
    let flow := (← get).inFlow
    if isSpace c then return acc
    else if flow && badColon c next then fail
    else if (c == ':' && isSpace next) || (flow && isFlowIndicator c) then return acc
    else
      skip 1
      plainRun fuel (c :: acc)

/-- The rest of a plain scalar: its characters so far, last first, the gap before what follows, and
whether that gap breaks the line. -/
def plainBody (indent : Int) : Nat → List Char → Gap → Lex (List Char × Bool)
  | 0, acc, gap => return (acc, gap.broken)
  | fuel + 1, acc, gap => do
    if ← atBoundary then return (acc, gap.broken)
    else if (← look 0) == '#' then return (acc, gap.broken)
    else
      let run ← plainRun (← Lex.fuel) []
      let (acc, gap) :=
        if run.isEmpty then (acc, gap) else (run ++ gap.text.reverse ++ acc, Gap.empty)
      let c ← look 0
      if isBlank c || isBreak c then
        let gap ← Gap.read (some indent) (← Lex.fuel) gap
        let s ← get
        if !s.inFlow && decide ((s.column : Int) < indent) then return (acc, gap.broken)
        else plainBody indent fuel acc gap
      else return (acc, gap.broken)

/-- A plain scalar. A key may start behind one that ends with a line. -/
def plainScalar : Lex Token := do
  let indent := (← get).indent + 1
  let (acc, broken) ← plainBody indent (← Lex.fuel) [] Gap.empty
  if broken then modify fun s => { s with keyAllowed := true }
  return .scalar (String.ofList acc.reverse) true

end LayeredConfig.Yaml.Lex
