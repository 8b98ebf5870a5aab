import LayeredConfig.Keyed

set_option autoImplicit false

/-!
# Configuration trees

A document of any format becomes a `Node`: nothing, a text, children by key, or a list. Texts keep
the form they were written in; what `"8080"` means is decided where a value is decoded.
-/
namespace LayeredConfig

inductive Node where
  | null
  | scalar (text : String)
  | object (fields : List (String × Node))
  | array (items : List Node)
deriving Inhabited

namespace Node

inductive Kind where
  | null
  | scalar
  | object
  | array
deriving DecidableEq, Repr

def Kind.name : Kind → String
  | .null => "NULL"
  | .scalar => "SCALAR"
  | .object => "OBJECT"
  | .array => "ARRAY"

def kind : Node → Kind
  | .null => .null
  | .scalar _ => .scalar
  | .object _ => .object
  | .array _ => .array

def emptyObject : Node := .object []

/-- A missing text stands for an explicit null. -/
def ofText? : Option String → Node
  | none => .null
  | some text => .scalar text

def isNull : Node → Bool
  | .null => true
  | _ => false

def text? : Node → Option String
  | .scalar text => some text
  | _ => none

def fields? : Node → Option (Keyed Node)
  | .object fields => some fields
  | _ => none

def items? : Node → Option (List Node)
  | .array items => some items
  | _ => none

def child? (node : Node) (key : String) : Option Node :=
  node.fields?.bind (Keyed.find? key)

def item? (node : Node) (index : Nat) : Option Node :=
  node.items?.bind (·[index]?)

mutual

/-- Every object below and including the node has its keys in ascending order. -/
def Ordered : Node → Prop
  | .null => True
  | .scalar _ => True
  | .object fields => Keyed.Ascending fields ∧ OrderedFields fields
  | .array items => OrderedItems items

def OrderedFields : List (String × Node) → Prop
  | [] => True
  | (_, node) :: rest => node.Ordered ∧ OrderedFields rest

def OrderedItems : List Node → Prop
  | [] => True
  | node :: rest => node.Ordered ∧ OrderedItems rest

end

mutual

def decEq : (a b : Node) → Decidable (a = b)
  | .null, .null => isTrue rfl
  | .scalar a, .scalar b =>
    if h : a = b then isTrue (by rw [h]) else isFalse (by simp [h])
  | .array a, .array b =>
    match decEqItems a b with
    | isTrue h => isTrue (by rw [h])
    | isFalse h => isFalse (by simp [h])
  | .object a, .object b =>
    match decEqFields a b with
    | isTrue h => isTrue (by rw [h])
    | isFalse h => isFalse (by simp [h])
  | .null, .scalar _ | .null, .object _ | .null, .array _ => isFalse (by simp)
  | .scalar _, .null | .scalar _, .object _ | .scalar _, .array _ => isFalse (by simp)
  | .object _, .null | .object _, .scalar _ | .object _, .array _ => isFalse (by simp)
  | .array _, .null | .array _, .scalar _ | .array _, .object _ => isFalse (by simp)

def decEqItems : (a b : List Node) → Decidable (a = b)
  | [], [] => isTrue rfl
  | [], _ :: _ | _ :: _, [] => isFalse (by simp)
  | x :: xs, y :: ys =>
    match decEq x y, decEqItems xs ys with
    | isTrue h, isTrue hs => isTrue (by rw [h, hs])
    | isFalse h, _ => isFalse (by simp [h])
    | _, isFalse h => isFalse (by simp [h])

def decEqFields : (a b : List (String × Node)) → Decidable (a = b)
  | [], [] => isTrue rfl
  | [], _ :: _ | _ :: _, [] => isFalse (by simp)
  | (k, x) :: xs, (l, y) :: ys =>
    if hk : k = l then
      match decEq x y, decEqFields xs ys with
      | isTrue h, isTrue hs => isTrue (by rw [hk, h, hs])
      | isFalse h, _ => isFalse (by simp [h])
      | _, isFalse h => isFalse (by simp [h])
    else isFalse (by simp [hk])

end

instance : DecidableEq Node := decEq

end Node

end LayeredConfig
