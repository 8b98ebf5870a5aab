import LayeredConfig.Json.Value
import LayeredConfig.Proofs.Keyed
import LayeredConfig.Toml.Value
import LayeredConfig.Yaml.Conversion

set_option autoImplicit false

/-!
# Documents that every format can write

A document of booleans, integers, texts, arrays and tables can be written in each format, with the
entries of its tables in any order. The format is a way to write the parts, and a conversion that
turns these into the parts of a tree gives the tree that the document stands for. So all formats give
the same tree.
-/
namespace LayeredConfig

inductive Document where
  | flag (b : Bool)
  | integer (n : Int64)
  | text (s : String)
  | array (items : List Document)
  | table (entries : List (String × Document))

namespace Document

mutual

/-- No table has a key twice. -/
def Distinct : Document → Prop
  | .flag _ | .integer _ | .text _ => True
  | .array items => DistinctItems items
  | .table entries => (entries.map Prod.fst).Nodup ∧ DistinctEntries entries

def DistinctItems : List Document → Prop
  | [] => True
  | item :: rest => item.Distinct ∧ DistinctItems rest

def DistinctEntries : List (String × Document) → Prop
  | [] => True
  | (_, value) :: rest => value.Distinct ∧ DistinctEntries rest

end

mutual

/-- The tree that the document stands for. -/
def node : Document → Node
  | .flag b => .scalar (if b then "true" else "false")
  | .integer n => .scalar (String.ofList (Decimal.ofInt n.toInt))
  | .text s => .scalar s
  | .array items => .array (nodes items)
  | .table entries => .object (Keyed.ofList (fields entries))

def nodes : List Document → List Node
  | [] => []
  | item :: rest => item.node :: nodes rest

def fields : List (String × Document) → List (String × Node)
  | [] => []
  | (key, value) :: rest => (key, value.node) :: fields rest

end

theorem map_fst_fields (entries : List (String × Document)) :
    (fields entries).map Prod.fst = entries.map Prod.fst := by
  induction entries with
  | nil => rfl
  | cons entry rest ih => rw [fields, List.map_cons, List.map_cons, ih]

end Document

/-- How a format writes the parts of a document. -/
structure Writer (V : Type) where
  flag : Bool → V
  integer : Int64 → V
  text : String → V
  array : List V → V
  table : List (String × V) → V

namespace Writer

variable {V : Type} {w : Writer V} {toNode : V → Node}

mutual

/-- The value is the document in the format, with the entries of each table in some order. -/
def Writes (w : Writer V) : Document → V → Prop
  | .flag b, value => value = w.flag b
  | .integer n, value => value = w.integer n
  | .text s, value => value = w.text s
  | .array items, value => ∃ values, value = w.array values ∧ w.WritesItems items values
  | .table entries, value => ∃ written ordered, value = w.table written ∧ written.Perm ordered ∧
      w.WritesEntries entries ordered

def WritesItems (w : Writer V) : List Document → List V → Prop
  | [], [] => True
  | item :: items, value :: values => w.Writes item value ∧ w.WritesItems items values
  | _, _ => False

def WritesEntries (w : Writer V) : List (String × Document) → List (String × V) → Prop
  | [], [] => True
  | (key, item) :: entries, (name, value) :: written =>
    (name = key ∧ w.Writes item value) ∧ w.WritesEntries entries written
  | _, _ => False

end

mutual

theorem exists_writes (w : Writer V) : (d : Document) → ∃ value, w.Writes d value
  | .flag b => ⟨w.flag b, rfl⟩
  | .integer n => ⟨w.integer n, rfl⟩
  | .text s => ⟨w.text s, rfl⟩
  | .array items => by
    obtain ⟨values, hvalues⟩ := exists_writesItems w items
    exact ⟨w.array values, values, rfl, hvalues⟩
  | .table entries => by
    obtain ⟨written, hwritten⟩ := exists_writesEntries w entries
    exact ⟨w.table written, written, written, rfl, .refl _, hwritten⟩

theorem exists_writesItems (w : Writer V) : (items : List Document) →
    ∃ values, w.WritesItems items values
  | [] => ⟨[], trivial⟩
  | item :: rest => by
    obtain ⟨value, hvalue⟩ := exists_writes w item
    obtain ⟨values, hvalues⟩ := exists_writesItems w rest
    exact ⟨value :: values, hvalue, hvalues⟩

theorem exists_writesEntries (w : Writer V) : (entries : List (String × Document)) →
    ∃ written, w.WritesEntries entries written
  | [] => ⟨[], trivial⟩
  | (key, item) :: rest => by
    obtain ⟨value, hvalue⟩ := exists_writes w item
    obtain ⟨written, hwritten⟩ := exists_writesEntries w rest
    exact ⟨(key, value) :: written, ⟨rfl, hvalue⟩, hwritten⟩

end

/-- The conversion turns each part into the same part of a tree, with texts for booleans and
integers. -/
structure Converts (w : Writer V) (toNode : V → Node) : Prop where
  flag : ∀ b, toNode (w.flag b) = .scalar (if b then "true" else "false")
  integer : ∀ n, toNode (w.integer n) = .scalar (String.ofList (Decimal.ofInt n.toInt))
  text : ∀ s, toNode (w.text s) = .scalar s
  array : ∀ values, toNode (w.array values) = .array (values.map toNode)
  table : ∀ written, toNode (w.table written) =
    .object (Keyed.ofList (written.map fun entry => (entry.1, toNode entry.2)))

mutual

theorem Converts.toNode_eq (h : w.Converts toNode) : (d : Document) → d.Distinct → (value : V) →
    w.Writes d value → toNode value = d.node
  | .flag b, _, _, hwrites => by
    obtain rfl := hwrites
    exact h.flag b
  | .integer n, _, _, hwrites => by
    obtain rfl := hwrites
    exact h.integer n
  | .text s, _, _, hwrites => by
    obtain rfl := hwrites
    exact h.text s
  | .array items, hdistinct, _, ⟨values, hvalue, hvalues⟩ => by
    rw [hvalue, h.array, h.map_eq items hdistinct values hvalues, Document.node]
  | .table entries, ⟨hnodup, hdistinct⟩, _, ⟨written, ordered, hvalue, hperm, hordered⟩ => by
    have hfields := h.fields_eq entries hdistinct ordered hordered
    have hmoved := hperm.map fun entry => (entry.1, toNode entry.2)
    rw [hfields] at hmoved
    have hkeys : ((Document.fields entries).map Prod.fst).Nodup := by
      rwa [Document.map_fst_fields]
    rw [hvalue, h.table, Document.node, Keyed.ofList_eq_of_perm hmoved.symm hkeys]

theorem Converts.map_eq (h : w.Converts toNode) : (items : List Document) →
    Document.DistinctItems items → (values : List V) → w.WritesItems items values →
      values.map toNode = Document.nodes items
  | [], _, [], _ => rfl
  | item :: rest, ⟨hitem, hrest⟩, value :: values, ⟨hvalue, hvalues⟩ => by
    rw [List.map_cons, h.toNode_eq item hitem value hvalue, h.map_eq rest hrest values hvalues,
      Document.nodes]

theorem Converts.fields_eq (h : w.Converts toNode) : (entries : List (String × Document)) →
    Document.DistinctEntries entries → (written : List (String × V)) →
      w.WritesEntries entries written →
        (written.map fun entry => (entry.1, toNode entry.2)) = Document.fields entries
  | [], _, [], _ => rfl
  | (key, item) :: rest, ⟨hitem, hrest⟩, (name, value) :: written,
      ⟨⟨hname, hvalue⟩, hwritten⟩ => by
    rw [List.map_cons, h.toNode_eq item hitem value hvalue, h.fields_eq rest hrest written hwritten,
      Document.fields, hname]

end

end Writer

/-! ## The formats -/

def Json.writer : Writer Json.Value where
  flag := .bool
  integer n := .number (.integer n.toInt)
  text := .text
  array := .array
  table := .object

/-- Keys of mappings are values, too. -/
def Yaml.writer : Writer Yaml.Value where
  flag := .bool
  integer n := .number (.integer n.toInt)
  text := .text
  array := .sequence
  table written := .mapping (written.map fun entry => (.text entry.1, entry.2))

def Toml.writer : Writer Toml.Value where
  flag := .bool
  integer n := .integer n.toInt
  text := .text
  array := .array
  table := .table

theorem Json.converts : Json.writer.Converts Json.Value.toNode where
  flag _ := rfl
  integer _ := rfl
  text _ := rfl
  array values := congrArg Node.array (Json.toNodes_eq_map values)
  table written := congrArg (Node.object <| Keyed.ofList ·) (Json.toFields_eq_map written)

theorem Yaml.converts : Yaml.writer.Converts Yaml.Value.toNode where
  flag _ := rfl
  integer _ := rfl
  text _ := rfl
  array values := congrArg Node.array (Yaml.toNodes_eq_map values)
  table written := by
    have hfields := Yaml.toFields_eq_map (written.map fun entry => (.text entry.1, entry.2))
    rw [List.map_map] at hfields
    exact congrArg (Node.object <| Keyed.ofList ·) hfields

theorem Toml.converts : Toml.writer.Converts Toml.Value.toNode where
  flag _ := rfl
  integer _ := rfl
  text _ := rfl
  array values := congrArg Node.array (Toml.toNodes_eq_map values)
  table written := congrArg (Node.object <| Keyed.ofList ·) (Toml.toFields_eq_map written)

/-- A document without repeated keys can be written in each of the formats, and the values that write
it become one tree, in whatever order they have the entries of its tables. -/
theorem Document.formats_agree {d : Document} (h : d.Distinct) :
    (∃ json, Json.writer.Writes d json) ∧ (∃ yaml, Yaml.writer.Writes d yaml) ∧
    (∃ toml, Toml.writer.Writes d toml) ∧
    ∀ json yaml toml, Json.writer.Writes d json → Yaml.writer.Writes d yaml →
      Toml.writer.Writes d toml →
        json.toNode = d.node ∧ yaml.toNode = d.node ∧ toml.toNode = d.node := by
  refine ⟨Writer.exists_writes _ d, Writer.exists_writes _ d, Writer.exists_writes _ d, ?_⟩
  intro json yaml toml hjson hyaml htoml
  exact ⟨Json.converts.toNode_eq d h json hjson, Yaml.converts.toNode_eq d h yaml hyaml,
    Toml.converts.toNode_eq d h toml htoml⟩

/-- The mapping keeps the order of the document, where the object and the table are in key order. -/
theorem Document.formats_agree_rearranged :
    ∃ (d : Document) (json : Json.Value) (yaml : Yaml.Value) (toml : Toml.Value),
      d = .table [("b", .array [.flag true, .integer Int64.minValue]), ("a", .text "1")] ∧
      json = .object [("a", .text "1"),
        ("b", .array [.bool true, .number (.integer (-9223372036854775808))])] ∧
      yaml = .mapping [
        (.text "b", .sequence [.bool true, .number (.integer (-9223372036854775808))]),
        (.text "a", .text "1")] ∧
      toml = .table [("a", .text "1"),
        ("b", .array [.bool true, .integer (-9223372036854775808)])] ∧
      d.Distinct ∧ Json.writer.Writes d json ∧ Yaml.writer.Writes d yaml ∧
      Toml.writer.Writes d toml ∧
      d.node = .object [("a", .scalar "1"),
        ("b", .array [.scalar "true", .scalar "-9223372036854775808"])] ∧
      json.toNode = d.node ∧ yaml.toNode = d.node ∧ toml.toNode = d.node := by
  refine ⟨_, _, _, _, rfl, rfl, rfl, rfl, ?distinct, ?json, ?yaml, ?toml, ?node,
    (Document.formats_agree ?distinct).2.2.2 _ _ _ ?json ?yaml ?toml⟩
  case distinct => simp [Document.Distinct, Document.DistinctItems, Document.DistinctEntries]
  case json =>
    exact ⟨_, _, rfl, .swap _ _ [], ⟨rfl, _, rfl, rfl, rfl, trivial⟩, ⟨rfl, rfl⟩, trivial⟩
  case yaml =>
    exact ⟨[("b", .sequence [.bool true, .number (.integer (-9223372036854775808))]),
      ("a", .text "1")], _, rfl, .refl _, ⟨rfl, _, rfl, rfl, rfl, trivial⟩, ⟨rfl, rfl⟩, trivial⟩
  case toml =>
    exact ⟨_, _, rfl, .swap _ _ [], ⟨rfl, _, rfl, rfl, rfl, trivial⟩, ⟨rfl, rfl⟩, trivial⟩
  case node => decide +kernel

end LayeredConfig
