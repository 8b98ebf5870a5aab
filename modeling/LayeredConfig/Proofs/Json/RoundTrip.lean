import LayeredConfig.Parser
import LayeredConfig.Proofs.Json.Token
import LayeredConfig.Proofs.Node

set_option autoImplicit false

/-!
# Written trees read back

The machine of the reader runs over the tokens of a tree and completes the value that stands for the
tree, as long as the containers around it and in it are not too many. A tree with its keys in order
comes back from this value as it was.
-/
namespace LayeredConfig

namespace Node

mutual

/-- How many containers lie inside one another. -/
def depth : Node → Nat
  | .null => 0
  | .scalar _ => 0
  | .object fields => fieldsDepth fields + 1
  | .array items => itemsDepth items + 1

def itemsDepth : List Node → Nat
  | [] => 0
  | node :: rest => max node.depth (itemsDepth rest)

def fieldsDepth : List (String × Node) → Nat
  | [] => 0
  | (_, node) :: rest => max node.depth (fieldsDepth rest)

end

end Node

namespace Json

mutual

/-- The value that is written for a tree. -/
def Value.ofNode : Node → Value
  | .null => .null
  | .scalar text => .text text
  | .object fields => .object (ofFields fields)
  | .array items => .array (ofItems items)

def ofItems : List Node → List Value
  | [] => []
  | node :: rest => Value.ofNode node :: ofItems rest

def ofFields : List (String × Node) → List (String × Value)
  | [] => []
  | (key, node) :: rest => (key, Value.ofNode node) :: ofFields rest

end

mutual

theorem toNode_ofNode : (node : Node) → node.Ordered → (Value.ofNode node).toNode = node
  | .null, _ => rfl
  | .scalar _, _ => rfl
  | .object fields, h => by
    obtain ⟨hascending, hfields⟩ : Keyed.Ascending fields ∧ Node.OrderedFields fields := h
    rw [Value.ofNode, Value.toNode, toFields_ofFields fields hfields,
      Keyed.ofList_of_ascending hascending]
  | .array items, h => by
    rw [Value.ofNode, Value.toNode, toNodes_ofItems items h]

theorem toNodes_ofItems : (items : List Node) → Node.OrderedItems items →
    toNodes (ofItems items) = items
  | [], _ => rfl
  | node :: rest, ⟨hnode, hrest⟩ => by
    rw [ofItems, toNodes, toNode_ofNode node hnode, toNodes_ofItems rest hrest]

theorem toFields_ofFields : (fields : List (String × Node)) → Node.OrderedFields fields →
    toFields (ofFields fields) = fields
  | [], _ => rfl
  | (key, node) :: rest, ⟨hnode, hrest⟩ => by
    rw [ofFields, toFields, toNode_ofNode node hnode, toFields_ofFields rest hrest]

end

/-- The tokens lead the machine from one state to the other. -/
def Runs (start : State) (tokens : List Token) (stop : State) : Prop :=
  tokens.foldlM State.step? start = some stop

variable {start middle stop : State} {tokens more : List Token} {token : Token} {mode : Mode}
variable {stack : List Frame}

theorem runs_singleton (h : start.step? token = some stop) : Runs start [token] stop := by
  simp [Runs, h]

theorem Runs.append (hfront : Runs start tokens middle) (hback : Runs middle more stop) :
    Runs start (tokens ++ more) stop := by
  unfold Runs at *
  rw [List.foldlM_append, hfront]
  exact hback

theorem Runs.cons (h : start.step? token = some middle) (hrest : Runs middle tokens stop) :
    Runs start (token :: tokens) stop :=
  (runs_singleton h).append hrest

/-- The key and the colon in front of a member. -/
theorem Runs.member {before : List (String × Value)} {key : String}
    (hkey : start.step? (.text key) = some ⟨.colon before key, stack⟩)
    (hvalue : Runs ⟨.value, .object before key :: stack⟩ tokens stop) :
    Runs start (.text key :: .colon :: tokens) stop := by
  have hcolon : State.step? ⟨.colon before key, stack⟩ .colon =
      some ⟨.value, .object before key :: stack⟩ := rfl
  exact Runs.cons hkey (Runs.cons hcolon hvalue)

theorem exists_lexemes_cons (node : Node) :
    ∃ token tokens, lexemes node = token :: tokens ∧ token ≠ .closeArray := by
  cases node with
  | null => exact ⟨_, _, rfl, by decide⟩
  | scalar text => exact ⟨_, _, rfl, by simp⟩
  | object fields => exact ⟨_, _, rfl, by decide⟩
  | array items => exact ⟨_, _, rfl, by decide⟩

/-- The first item of an array begins as any value does. -/
theorem Runs.firstItem {node : Node} (h : Runs ⟨.value, stack⟩ (lexemes node) stop) :
    Runs ⟨.firstItem, stack⟩ (lexemes node) stop := by
  obtain ⟨token, tokens, hlexemes, hclose⟩ := exists_lexemes_cons node
  have hstep : State.step? ⟨.firstItem, stack⟩ token = State.step? ⟨.value, stack⟩ token := by
    cases token <;> first | rfl | exact absurd rfl hclose
  unfold Runs at h ⊢
  rw [hlexemes, List.foldlM_cons] at h ⊢
  rw [hstep]
  exact h

mutual

theorem runs_lexemes : (node : Node) → (stack : List Frame) → stack.length + node.depth ≤ maxDepth →
    Runs ⟨.value, stack⟩ (lexemes node) ⟨.complete (Value.ofNode node), stack⟩
  | .null, stack, _ => runs_singleton rfl
  | .scalar text, stack, _ => runs_singleton rfl
  | .object fields, stack, h => by
    rw [Node.depth] at h
    have hroom : stack.length < maxDepth := by omega
    have hopen : State.step? ⟨.value, stack⟩ .openObject = some ⟨.firstKey, stack⟩ := if_pos hroom
    refine Runs.cons hopen ?_
    cases fields with
    | nil => exact runs_singleton rfl
    | cons field rest =>
      obtain ⟨key, node⟩ := field
      rw [Node.fieldsDepth] at h
      have hkey : State.step? ⟨.firstKey, stack⟩ (.text key) = some ⟨.colon [] key, stack⟩ := rfl
      have hnode := runs_lexemes node (.object [] key :: stack)
        (by simp only [List.length_cons]; omega)
      have hrest := runs_fieldLexemes rest stack [] key (Value.ofNode node) (by omega)
      have hfields := Runs.member hkey (hnode.append hrest)
      simpa [fieldLexemes, ofFields, Value.ofNode] using hfields
  | .array items, stack, h => by
    rw [Node.depth] at h
    have hroom : stack.length < maxDepth := by omega
    have hopen : State.step? ⟨.value, stack⟩ .openArray = some ⟨.firstItem, .array [] :: stack⟩ :=
      if_pos hroom
    refine Runs.cons hopen ?_
    cases items with
    | nil => exact runs_singleton rfl
    | cons node rest =>
      rw [Node.itemsDepth] at h
      have hnode := runs_lexemes node (.array [] :: stack) (by simp only [List.length_cons]; omega)
      have hrest := runs_itemLexemes rest stack [] (Value.ofNode node) (by omega)
      have hitems := hnode.firstItem.append hrest
      simpa [itemLexemes, ofItems, Value.ofNode] using hitems

/-- From one item to the end of the array; the items before it stand in the frame, last first. -/
theorem runs_itemLexemes : (items : List Node) → (stack : List Frame) → (before : List Value) →
    (value : Value) → stack.length + 1 + Node.itemsDepth items ≤ maxDepth →
    Runs ⟨.complete value, .array before :: stack⟩ (itemLexemes true items ++ [.closeArray])
      ⟨.complete (.array ((value :: before).reverse ++ ofItems items)), stack⟩
  | [], stack, before, value, _ => by
    have hclose : State.step? ⟨.complete value, .array before :: stack⟩ .closeArray =
        some ⟨.complete (.array (value :: before).reverse), stack⟩ := rfl
    simpa [itemLexemes, ofItems] using runs_singleton hclose
  | node :: rest, stack, before, value, h => by
    rw [Node.itemsDepth] at h
    have hcomma : State.step? ⟨.complete value, .array before :: stack⟩ .comma =
        some ⟨.value, .array (value :: before) :: stack⟩ := rfl
    have hnode := runs_lexemes node (.array (value :: before) :: stack)
      (by simp only [List.length_cons]; omega)
    have hrest := runs_itemLexemes rest stack (value :: before) (Value.ofNode node) (by omega)
    have hitems := Runs.cons hcomma (hnode.append hrest)
    simpa [itemLexemes, ofItems] using hitems

/-- From one member to the end of the object; the members before it stand in the frame. -/
theorem runs_fieldLexemes : (fields : List (String × Node)) → (stack : List Frame) →
    (before : List (String × Value)) → (key : String) → (value : Value) →
    stack.length + 1 + Node.fieldsDepth fields ≤ maxDepth →
    Runs ⟨.complete value, .object before key :: stack⟩ (fieldLexemes true fields ++ [.closeObject])
      ⟨.complete (.object (((key, value) :: before).reverse ++ ofFields fields)), stack⟩
  | [], stack, before, key, value, _ => by
    have hclose : State.step? ⟨.complete value, .object before key :: stack⟩ .closeObject =
        some ⟨.complete (.object ((key, value) :: before).reverse), stack⟩ := rfl
    simpa [fieldLexemes, ofFields] using runs_singleton hclose
  | (next, node) :: rest, stack, before, key, value, h => by
    rw [Node.fieldsDepth] at h
    have hcomma : State.step? ⟨.complete value, .object before key :: stack⟩ .comma =
        some ⟨.key ((key, value) :: before), stack⟩ := rfl
    have hkey : State.step? ⟨.key ((key, value) :: before), stack⟩ (.text next) =
        some ⟨.colon ((key, value) :: before) next, stack⟩ := rfl
    have hnode := runs_lexemes node (.object ((key, value) :: before) next :: stack)
      (by simp only [List.length_cons]; omega)
    have hrest := runs_fieldLexemes rest stack ((key, value) :: before) next (Value.ofNode node)
      (by omega)
    have hfields := Runs.cons hcomma (Runs.member hkey (hnode.append hrest))
    simpa [fieldLexemes, ofFields] using hfields

end

theorem parse?_render {node : Node} (h : node.depth ≤ maxDepth) :
    parse? (render node) = some (Value.ofNode node) := by
  have hrun : Runs State.start (lexemes node) ⟨.complete (Value.ofNode node), []⟩ :=
    runs_lexemes node [] (by simpa using h)
  unfold Runs at hrun
  unfold parse?
  rw [tokens?_render]
  dsimp only
  rw [hrun]
  rfl

theorem fromUTF8?_toUTF8 (s : String) : String.fromUTF8? s.toUTF8 = some s := by
  have hvalid : s.toUTF8.IsValidUTF8 := s.isValidUTF8
  exact dif_pos hvalid

/-- A tree with its keys in order and at most 127 containers inside one another reads back, under
any name of the source, from the bytes it is written as. -/
theorem parse_print {node : Node} (ho : node.Ordered) (hdepth : node.depth ≤ 127)
    (origin : String) : Format.json.parse origin (print node).toUTF8 = .ok node := by
  have hparse : parse? (render node) = some (Value.ofNode node) := parse?_render hdepth
  have hformat : Format.parse? .json (print node).toUTF8 = some node := by
    simp only [Format.parse?, fromUTF8?_toUTF8, Option.bind_some, print, String.toList_ofList,
      hparse, Option.map_some, toNode_ofNode node ho]
  simp only [Format.parse, hformat]

theorem parse_print_escapes :
    ∃ node, node = Node.object [("", .scalar "\"\\\n\x01\x7f"),
        ("\t", .array [.null, .object [], .array []]), ("é", .object [("/", .scalar "😀")])] ∧
      node.Ordered ∧ node.depth ≤ 127 ∧
      print node =
        "\x7b\"\":\"\\\"\\\\\\n\\u0001\x7f\",\"\\t\":[null,\x7b\x7d,[]]," ++
          "\"é\":\x7b\"/\":\"😀\"\x7d\x7d" ∧
      Format.json.parse "site.json" (print node).toUTF8 = .ok node := by
  refine ⟨_, rfl, ?ordered, ?shallow, ?written, parse_print ?ordered ?shallow "site.json"⟩
  case ordered => decide +kernel
  case shallow => decide +kernel
  case written => decide +kernel

end Json

end LayeredConfig
