import LayeredConfig.Json.Token

set_option autoImplicit false

/-!
# Reading JSON

The tokens of a document drive a machine with a stack. The stack holds one frame for each open
container around the value that is being read, so its height is the nesting, which is limited.
-/
namespace LayeredConfig.Json

/-- At most this many containers lie inside one another. -/
def maxDepth : Nat := 127

/-- An open container with what it holds so far, last first; an object also has the key of the
value that is being read. -/
inductive Frame where
  | array (items : List Value)
  | object (members : List (String × Value)) (key : String)

/-- What the next token has to be, or the value that was just completed. -/
inductive Mode where
  | value
  | firstItem
  | firstKey
  | key (members : List (String × Value))
  | colon (members : List (String × Value)) (key : String)
  | complete (value : Value)

structure State where
  mode : Mode
  stack : List Frame

namespace State

def start : State := ⟨.value, []⟩

/-- The token that begins a value, where `stack` has the frames around the value. -/
def begin? (stack : List Frame) : Token → Option State
  | .null => some ⟨.complete .null, stack⟩
  | .bool b => some ⟨.complete (.bool b), stack⟩
  | .number n => some ⟨.complete (.number n), stack⟩
  | .text s => some ⟨.complete (.text s), stack⟩
  | .openArray =>
    if stack.length < maxDepth then some ⟨.firstItem, .array [] :: stack⟩ else none
  | .openObject => if stack.length < maxDepth then some ⟨.firstKey, stack⟩ else none
  | _ => none

/-- The token after a value. -/
def resume? (value : Value) : List Frame → Token → Option State
  | .array items :: stack, .comma => some ⟨.value, .array (value :: items) :: stack⟩
  | .array items :: stack, .closeArray =>
    some ⟨.complete (.array (value :: items).reverse), stack⟩
  | .object members key :: stack, .comma => some ⟨.key ((key, value) :: members), stack⟩
  | .object members key :: stack, .closeObject =>
    some ⟨.complete (.object ((key, value) :: members).reverse), stack⟩
  | _, _ => none

def step? (state : State) (token : Token) : Option State :=
  match state.mode, token with
  | .value, token => begin? state.stack token
  | .firstItem, .closeArray => some ⟨.complete (.array []), state.stack.tail⟩
  | .firstItem, token => begin? state.stack token
  | .firstKey, .closeObject => some ⟨.complete (.object []), state.stack⟩
  | .firstKey, .text key => some ⟨.colon [] key, state.stack⟩
  | .key members, .text key => some ⟨.colon members key, state.stack⟩
  | .colon members key, .colon => some ⟨.value, .object members key :: state.stack⟩
  | .complete value, token => resume? value state.stack token
  | _, _ => none

def value? : State → Option Value
  | ⟨.complete value, []⟩ => some value
  | _ => none

end State

/-- All tokens of a text. -/
def tokens? (cs : List Char) : Option (List Token) :=
  match _hskip : cs.dropWhile isSpace with
  | [] => some []
  | c :: rest =>
    match _hnext : tokenAt? c rest with
    | none => none
    | some (token, next) => (tokens? next).map (token :: ·)
termination_by cs.length
decreasing_by
  have h₁ := (List.dropWhile_sublist isSpace (l := cs)).length_le
  have h₂ := tokenAt?_length _hnext
  rw [_hskip] at h₁
  simp only [List.length_cons] at h₁
  omega

/-- The value of a document: one value with nothing but white space around it. -/
def parse? (cs : List Char) : Option Value :=
  match tokens? cs with
  | none => none
  | some tokens => (tokens.foldlM State.step? State.start).bind State.value?

end LayeredConfig.Json
