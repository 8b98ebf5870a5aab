set_option autoImplicit false

/-!
# Characters of YAML

The classes that decide where scalars, keys and lines end. NUL is no character of a document; it
stands for the end of the text.
-/
namespace LayeredConfig.Yaml

/-- The characters that may appear in a document at all. -/
def isAllowed (c : Char) : Bool :=
  let n := c.toNat
  n == 0x9 || n == 0xA || n == 0xD || (0x20 ≤ n && n ≤ 0x7E) || n == 0x85 ||
    (0xA0 ≤ n && n ≤ 0xFFFD) || 0x10000 ≤ n

def isBreak (c : Char) : Bool :=
  c == '\n' || c == '\r' || c == '\x85' || c == '\u2028' || c == '\u2029'

def isBlank (c : Char) : Bool := c == ' ' || c == '\t'

def isEnd (c : Char) : Bool := c == '\x00'

def isBreakOrEnd (c : Char) : Bool := isBreak c || isEnd c

/-- A blank, a line break or the end. -/
def isSpace (c : Char) : Bool := isBlank c || isBreakOrEnd c

/-- The characters of anchors, handles and directives. -/
def isWord (c : Char) : Bool := c.isAlpha || c.isDigit || c == '_' || c == '-'

/-- The brackets and the comma that have a meaning inside flow collections. -/
def isFlowIndicator (c : Char) : Bool :=
  c == ',' || c == '[' || c == ']' || c == '{' || c == '}'

/-- The line break that a break in the source becomes: line and paragraph separators stay. -/
def normalBreak (c : Char) : Char := if c == '\u2028' || c == '\u2029' then c else '\n'

end LayeredConfig.Yaml
