import LayeredConfig.Proofs.Keyed
import LayeredConfig.Proofs.Node
import LayeredConfig.Proofs.Text.Trim
import LayeredConfig.Yaml.Conversion

set_option autoImplicit false

/-!
# Mappings with any keys

Each key of a mapping is rendered as a text, and different keys may have one rendering. The mapping
becomes an object whose keys are the renderings, and of the entries with one rendering the last
counts.
This is so wherever the mapping stands in its document.
-/
namespace LayeredConfig.Yaml

def Value.isCollection : Value → Bool
  | .sequence _ | .mapping _ => true
  | _ => false

/-- The text that stands for a key. Tags are dropped. A collection is written as YAML, without the
blanks at the end; one that cannot be written is described. -/
inductive Renders : Value → String → Prop where
  | null : Renders .null "null"
  | bool (b : Bool) : Renders (.bool b) (if b then "true" else "false")
  | number (n : Number) : Renders (.number n) n.text
  | text (s : String) : Renders (.text s) s
  | tagged (name : String) {value : Value} {s : String} :
      Renders value s → Renders (.tagged name value) s
  | written {value : Value} {lines : List Char} {s : String} : value.isCollection →
      value.print? = some lines → Text.IsTrimmedEnd lines s.toList → Renders value s
  | unwritten {value : Value} : value.isCollection → value.print? = none →
      Renders value value.describe

variable {key value inner root : Value} {text : String} {steps : List Step}
variable {entries : List (Value × Value)}

theorem renders_collectionText (h : value.isCollection) : Renders value value.collectionText := by
  unfold Value.collectionText
  split
  next lines hprint =>
    exact .written h hprint (Text.trimEnd_eq_iff.1 String.toList_ofList.symm)
  next hprint => exact .unwritten h hprint

theorem renders_keyText : (key : Value) → Renders key key.keyText
  | .null => .null
  | .bool b => .bool b
  | .number n => .number n
  | .text s => .text s
  | .tagged name value => .tagged name (renders_keyText value)
  | .sequence _ => renders_collectionText rfl
  | .mapping _ => renders_collectionText rfl

theorem keyText_of_isCollection (h : value.isCollection) :
    value.keyText = value.collectionText := by
  cases value with
  | sequence items | mapping entries => rfl
  | null | bool b | number n | text s | tagged name value => cases h

theorem renders_iff : Renders key text ↔ key.keyText = text := by
  constructor
  · intro h
    induction h with
    | null | bool b | number n | text s => rfl
    | tagged name _ ih => exact ih
    | written hcollection hprint htrimmed =>
      rw [keyText_of_isCollection hcollection, Value.collectionText, hprint]
      change String.ofList (Text.trimEnd _) = _
      rw [Text.trimEnd_eq_iff.2 htrimmed, String.ofList_toList]
    | unwritten hcollection hprint =>
      rw [keyText_of_isCollection hcollection, Value.collectionText, hprint]
  · rintro rfl
    exact renders_keyText key

/-- Steps lead to a value inside another one. A tag takes no step, and of the entries with one
rendering only the last can be reached. -/
inductive Leads : Value → List Step → Value → Prop where
  | here (value : Value) : Leads value [] value
  | tagged (name : String) {value inner : Value} {steps : List Step} :
      Leads value steps inner → Leads (.tagged name value) steps inner
  | item {items : List Value} {index : Nat} {value inner : Value} {steps : List Step} :
      items[index]? = some value → Leads value steps inner →
      Leads (.sequence items) (.index (.at index) :: steps) inner
  | entry {before after : List (Value × Value)} {key value inner : Value} {text : String}
      {steps : List Step} : Renders key text → (∀ other ∈ after, ¬ Renders other.1 text) →
      Leads value steps inner →
      Leads (.mapping (before ++ (key, value) :: after)) (.property text :: steps) inner

/-- The children of a mapping, in its own order. -/
def children (entries : List (Value × Value)) : List (String × Node) :=
  entries.map fun entry => (entry.1.keyText, entry.2.toNode)

theorem toNode_mapping (entries : List (Value × Value)) :
    (Value.mapping entries).toNode = .object (Keyed.ofList (children entries)) := by
  rw [Value.toNode, toFields_eq_map, children]

theorem mem_keys_children : text ∈ (children entries).map Prod.fst ↔
    ∃ entry ∈ entries, Renders entry.1 text := by
  simp [children, renders_iff]

theorem find?_children {before after : List (Value × Value)} (hkey : Renders key text)
    (hafter : ∀ other ∈ after, ¬ Renders other.1 text) :
    Keyed.find? text (Keyed.ofList (children (before ++ (key, value) :: after))) =
      some value.toNode := by
  have hnotMem : text ∉ (children after).map Prod.fst := fun hmem => by
    obtain ⟨other, hother, hrenders⟩ := mem_keys_children.1 hmem
    exact hafter other hother hrenders
  rw [← renders_iff.1 hkey] at hnotMem ⊢
  rw [children, List.map_append, List.map_cons]
  exact Keyed.find?_ofList_append_cons hnotMem _ _

/-- The tree of a document has the tree of each value at the place of the value. -/
theorem Leads.follow?_toNode (h : Leads root steps inner) :
    root.toNode.follow? steps = some inner.toNode := by
  induction h with
  | here value => rfl
  | tagged name _ ih => exact ih
  | @item items index value inner steps hitem _ ih =>
    have hstep : (Value.sequence items).toNode.step? (.index (.at index)) = some value.toNode := by
      change (toNodes items)[index]? = _
      rw [toNodes_eq_map, List.getElem?_map, hitem]
      rfl
    rw [Node.follow?_cons, hstep]
    exact ih
  | @entry before after key value inner text steps hkey hafter _ ih =>
    have hstep : (Value.mapping (before ++ (key, value) :: after)).toNode.step? (.property text) =
        some value.toNode := by
      rw [toNode_mapping]
      exact find?_children hkey hafter
    rw [Node.follow?_cons, hstep]
    exact ih

theorem nodup_keys_children : ((children entries).map Prod.fst).Nodup ↔
    entries.Pairwise fun first second =>
      ∀ text, Renders first.1 text → ¬ Renders second.1 text := by
  simp [children, List.Nodup, List.pairwise_map, renders_iff, eq_comm]

/-- Wherever a mapping stands in a document, the tree has an object there. Its keys are the
renderings of the mapping's keys, the last entry with a rendering has its value there, and no entry is lost
exactly if no two keys have one rendering. -/
theorem mapping_toNode_exact (h : Leads root steps (.mapping entries)) :
    ∃ fields, root.toNode.follow? steps = some (.object fields) ∧ Keyed.Ascending fields ∧
      (∀ text, (Keyed.find? text fields).isSome ↔ ∃ entry ∈ entries, Renders entry.1 text) ∧
      (∀ before key value after text, entries = before ++ (key, value) :: after →
        Renders key text → (∀ other ∈ after, ¬ Renders other.1 text) →
          Keyed.find? text fields = some value.toNode) ∧
      (fields.length = entries.length ↔ entries.Pairwise fun first second =>
        ∀ text, Renders first.1 text → ¬ Renders second.1 text) := by
  refine ⟨Keyed.ofList (children entries), ?_, Keyed.ascending_ofList _, fun text => ?_, ?_, ?_⟩
  · rw [h.follow?_toNode, toNode_mapping]
  · rw [Keyed.find?_ofList_isSome_iff, mem_keys_children]
  · rintro before key value after text rfl hkey hafter
    exact find?_children hkey hafter
  · have hlength : (children entries).length = entries.length := List.length_map _
    rw [← hlength, Keyed.length_ofList_eq_iff, nodup_keys_children]

/-- A number and a tagged text have one rendering, so that an entry is lost. The keys that are
sequences stay apart, also those that cannot be written for their two tags. -/
theorem mapping_toNode_exact_collision : ∃ root entries,
    root = .sequence [.null, .tagged "t" (.mapping entries)] ∧
    entries = [(.number (.integer 1), .text "a"), (.sequence [.text "x"], .null),
      (.sequence [.tagged "A" (.tagged "X" .null)], .mapping []),
      (.sequence [.tagged "B" (.tagged "X" .null)], .text "b"),
      (.tagged "u" (.text "1"), .bool true)] ∧
    Leads root [.index (.at 1)] (.mapping entries) ∧
    ∃ fields, root.toNode.follow? [.index (.at 1)] = some (.object fields) ∧
      fields = [("- x", .null), ("1", .scalar "true"),
        ("Sequence [TaggedValue \x7b tag: !A, value: " ++
          "TaggedValue \x7b tag: !X, value: Null \x7d \x7d]",
          .object []),
        ("Sequence [TaggedValue \x7b tag: !B, value: " ++
          "TaggedValue \x7b tag: !X, value: Null \x7d \x7d]",
          .scalar "b")] ∧
      Keyed.find? "1" fields = some (.scalar "true") ∧
      ¬ entries.Pairwise fun first second =>
        ∀ text, Renders first.1 text → ¬ Renders second.1 text := by
  have hleads : Leads (.sequence [.null, .tagged "t" (.mapping [(.number (.integer 1), .text "a"),
      (.sequence [.text "x"], .null), (.sequence [.tagged "A" (.tagged "X" .null)], .mapping []),
      (.sequence [.tagged "B" (.tagged "X" .null)], .text "b"),
      (.tagged "u" (.text "1"), .bool true)])]) [.index (.at 1)] _ :=
    .item rfl (.tagged _ (.here _))
  obtain ⟨fields, hfollow, -, -, hfind, -⟩ := mapping_toNode_exact hleads
  have hlast := hfind [(.number (.integer 1), .text "a"), (.sequence [.text "x"], .null),
    (.sequence [.tagged "A" (.tagged "X" .null)], .mapping []),
    (.sequence [.tagged "B" (.tagged "X" .null)], .text "b")]
    (.tagged "u" (.text "1")) (.bool true) [] "1" rfl (.tagged "u" (.text "1")) (by simp)
  refine ⟨_, _, rfl, rfl, hleads, fields, hfollow, ?fields, hlast, fun hdifferent => ?lost⟩
  case fields =>
    exact Node.object.inj (Option.some.inj (hfollow.symm.trans (by decide +kernel)))
  case lost =>
    have hone : (Number.integer 1).text = "1" := by decide +kernel
    have hrenders : Renders (.number (.integer 1)) "1" := hone ▸ .number (.integer 1)
    obtain ⟨hapart, -⟩ := List.pairwise_cons.1 hdifferent
    exact hapart (.tagged "u" (.text "1"), .bool true) (by simp) "1" hrenders
      (.tagged "u" (.text "1"))

end LayeredConfig.Yaml
