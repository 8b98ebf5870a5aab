import LayeredConfig.Proofs.Path.Concatenation
import LayeredConfig.Proofs.Settings.Build

set_option autoImplicit false

/-!
# Sections as settings of their own

A section is decoded as the node that its path leads to, with an empty object in place of a missing
node or a null. Settings that are built from the section as their only document have that node at
their root.
-/
namespace LayeredConfig

namespace Node

/-- An empty object stands in for a null. -/
def orEmpty : Node → Node
  | .null => emptyObject
  | node => node

theorem orEmpty_of_ne_null {node : Node} (h : node ≠ .null) : node.orEmpty = node := by
  cases node with
  | null => exact absurd rfl h
  | _ => rfl

theorem orEmpty_ne_null (node : Node) : node.orEmpty ≠ .null := by
  cases node <;> simp [orEmpty, emptyObject]

end Node

namespace Settings

variable {text : String} {path : Path}

theorem decode_of_parse (h : Path.parse text = .ok path) (settings : Settings) (schema : Schema) :
    settings.decode text schema =
      ((path.read settings.root).getD .emptyObject).orEmpty.decode schema := by
  rw [decode, get_of_parse h]
  rcases path.read settings.root with _ | (_ | _ | _ | _) <;> rfl

theorem decode_root (root : Node) (schema : Schema) :
    decode ⟨root⟩ "" schema = root.orEmpty.decode schema := by
  have hroot : Path.parse "" = .ok ⟨"", "", []⟩ := by decide +kernel
  exact decode_of_parse hroot ⟨root⟩ schema

end Settings

namespace Layers

variable {files : Files}

/-- A null that is the only document is left out, and no documents make an empty object. -/
theorem build_document (name : String) (root : Node) :
    build files ⟨[.document name root], none, []⟩ = .ok ⟨root.orEmpty⟩ := by
  cases root <;> rfl

theorem buildValue_document (name : String) (root : Node) (schema : Schema) :
    buildValue files ⟨[.document name root], none, []⟩ schema = root.orEmpty.decode schema := by
  -- The root of the build is no null any more, so decoding it leaves it as it is.
  have hroot := Settings.decode_root root.orEmpty schema
  rw [Node.orEmpty_of_ne_null root.orEmpty_ne_null] at hroot
  rw [buildValue, build_document]
  exact hroot

/-- A section decodes to the same value or the same error, at every schema, as settings of their own
whose only document is the section. Both ways decode one node: the one that the path leads to, or an
empty object if there is none or a null. -/
theorem decode_eq_buildValue_section {text : String} {path : Path}
    (hpath : Path.parse text = .ok path) (settings : Settings) (files : Files) (name : String) :
    ∃ root, settings.sectionAt text = .ok root ∧ root = (path.read settings.root).getD .emptyObject ∧
      build files ⟨[.document name root], none, []⟩ = .ok ⟨root.orEmpty⟩ ∧
      ∀ schema, settings.decode text schema =
          buildValue files ⟨[.document name root], none, []⟩ schema ∧
        settings.decode text schema = root.orEmpty.decode schema := by
  refine ⟨_, Settings.sectionAt_of_parse hpath settings, rfl, build_document name _, ?_⟩
  intro schema
  have hsection := Settings.decode_of_parse hpath settings schema
  exact ⟨hsection.trans (buildValue_document name _ schema).symm, hsection⟩

/-- A null is no unit, since an empty object is decoded in its place. Nothing lies below a text: a
record there has the defaults of its fields. -/
theorem decode_eq_buildValue_section_null : ∃ settings schema,
    settings = (⟨.object [("a", .null), ("b", .scalar "x")]⟩ : Settings) ∧
    schema = Schema.record (.struct "Part") [(⟨"i", "i", [], some (.integer 0)⟩,
      .integer ⟨true, 32⟩)] false ∧
    settings.sectionAt "a" = .ok .null ∧
    settings.decode "a" (.unit .unit) =
      buildValue .empty ⟨[.document "part" .null], none, []⟩ (.unit .unit) ∧
    settings.decode "a" (.unit .unit) = .error (.undecodable (.invalidType .mapping .unit)) ∧
    settings.sectionAt "b.c" = .ok .emptyObject ∧
    settings.decode "b.c" schema =
      buildValue .empty ⟨[.document "part" .emptyObject], none, []⟩ schema ∧
    settings.decode "b.c" schema = .ok (.record [("i", .integer 0)]) := by
  have hnull : Path.parse "a" = .ok ⟨"a", "a", [⟨.property "a", "a", ""⟩]⟩ := by decide +kernel
  have hbelow : Path.parse "b.c" =
      .ok ⟨"b.c", "b.c", [⟨.property "b", "b", "c"⟩, ⟨.property "c", "b.c", ""⟩]⟩ := by
    decide +kernel
  refine ⟨_, _, rfl, rfl, ?_⟩
  obtain ⟨first, hfirst, hroot, -, hdecode⟩ := decode_eq_buildValue_section hnull
    ⟨.object [("a", .null), ("b", .scalar "x")]⟩ .empty "part"
  obtain ⟨second, hsecond, hmissing, -, hdefault⟩ := decode_eq_buildValue_section hbelow
    ⟨.object [("a", .null), ("b", .scalar "x")]⟩ .empty "part"
  obtain rfl : first = .null := hroot
  obtain rfl : second = .emptyObject := hmissing
  exact ⟨hfirst, (hdecode _).1, (hdecode _).2, hsecond, (hdefault _).1, (hdefault _).2⟩

end Layers

end LayeredConfig
