import LayeredConfig.Proofs.Environment.Assembly
import LayeredConfig.Proofs.Environment.Prefix
import LayeredConfig.Proofs.Override.Items
import LayeredConfig.Proofs.Settings.Build

set_option autoImplicit false

/-!
# Arrays from properties

Properties become overrides in the order of their names. Up to ten items make an array this way; the
properties of more items fail.
-/
namespace LayeredConfig

namespace Environment

variable {env : Environment} {name : String} {values : List String}

/-- No variable is declared, and the properties under the property prefix are those of the items.
The key order of the properties is that of every environment that was assembled. -/
structure Itemizes (env : Environment) (name : String) (values : List String) : Prop where
  undeclared : env.declared = []
  ascending : Keyed.Ascending env.properties
  mem_iff : ∀ entry, entry ∈ env.subproperties env.propertyPrefix ↔
    entry ∈ Path.itemEntries name 0 values

theorem overrides_of_undeclared (h : env.declared = []) :
    env.overrides = Override.ofProperties (env.subproperties env.propertyPrefix) := by
  unfold overrides
  rw [h]
  simp [declaredOverrides, Override.ofProperties]

theorem Itemizes.ascending_subproperties (h : env.Itemizes name values) :
    Keyed.Ascending (env.subproperties env.propertyPrefix) :=
  ascending_under '.' _ h.ascending

theorem Itemizes.subproperties_eq (h : env.Itemizes name values) (hlength : values.length ≤ 10) :
    env.subproperties env.propertyPrefix = Path.itemEntries name 0 values := by
  have hitems : Keyed.Ascending (Path.itemEntries name 0 values) :=
    Path.ascending_itemEntries (by omega)
  exact Keyed.eq_of_mem_iff h.ascending_subproperties hitems h.mem_iff

end Environment

theorem Settings.get_of_isName {name : String} (h : Path.IsName name.toList)
    (fields : Keyed Node) :
    Settings.get ⟨.object fields⟩ name = .ok (Keyed.find? name fields) := by
  have helement : Path.ElementText name.toList ⟨name, none⟩ := by
    simpa using Path.ElementText.name h
  obtain ⟨path, hparse, hsteps⟩ :=
    Path.exists_parse_iff.2 ⟨_, ⟨name.toList, .of_elementText helement, .inl rfl⟩, rfl⟩
  have hread : path.read (.object fields) = Keyed.find? name fields := by
    rw [Path.read, hsteps]
    show (Node.object fields).follow? [.property name] = _
    rw [Node.follow?_cons]
    exact Option.bind_fun_some _
  unfold Settings.get
  rw [hparse]
  exact congrArg Except.ok hread

namespace Layers

variable {files : Files} {layers : Layers} {env : Environment} {docs : List Node} {tree : Node}
  {fields : Keyed Node} {name : String} {values : List String}

theorem allOverrides_of_environment (henv : layers.environment = some env)
    (hexplicit : layers.overrides = []) : layers.allOverrides = env.overrides := by
  unfold allOverrides
  rw [henv, hexplicit, Option.map_some, Option.getD_some, List.append_nil]

/-- Over documents without the name, properties for one to ten items make the array of their values.
More items fail at the greatest power of ten among the indices, which is applied second. -/
theorem build_indexed_properties (hname : Path.IsName name.toList) (hne : values ≠ [])
    (hitems : env.Itemizes name values) (henv : layers.environment = some env)
    (hexplicit : layers.overrides = []) (hdocs : documents files layers.sources = .ok docs)
    (hroot : Node.merge docs = .object fields) (hfresh : Keyed.find? name fields = none) :
    (values.length ≤ 10 → ∃ settings, layers.build files = .ok settings ∧
      settings.get name = .ok (some (.array (values.map .scalar)))) ∧
    (10 < values.length → ∃ k, 10 ^ k < values.length ∧ values.length ≤ 10 ^ (k + 1) ∧
      layers.build files = .error (.invalidOverride (Path.itemPath name (10 ^ k))
        (if 10 ^ k < 2 ^ 63 then .invalidWrite (.outOfBounds name (10 ^ k) 1)
          else .invalidPath (Path.itemPath name (10 ^ k)) .noInteger))) := by
  have hall : layers.allOverrides =
      Override.ofProperties (env.subproperties env.propertyPrefix) := by
    rw [allOverrides_of_environment henv hexplicit]
    exact Environment.overrides_of_undeclared hitems.undeclared
  constructor
  · intro hfew
    have hempty : Node.itemsAt? name fields = some [] := Node.itemsAt?_of_find? hfresh
    have hbound : ([] : List Node).length + values.length ≤ 2 ^ 63 := by
      rw [List.length_nil]
      omega
    have happlied := Override.applyAll_itemEntries hname hempty hbound hne
    rw [List.length_nil, ← hitems.subproperties_eq hfew, ← hall, ← hroot] at happlied
    refine ⟨_, build_of_applyAll hdocs happlied, ?_⟩
    rw [Settings.get_of_isName hname, Keyed.find?_insert_self]
    rfl
  · intro hmany
    obtain ⟨k, first, second, rest, hlt, hle, hentries⟩ :=
      Path.exists_second_entry hitems.ascending_subproperties hitems.mem_iff hmany
    have hone : 1 < 10 ^ k := by
      cases k with
      | zero => omega
      | succ k => exact Nat.one_lt_pow (Nat.succ_ne_zero k) (by decide)
    have hfailed := Override.error_applyAll_second hname hfresh hone first second rest
    rw [← hentries, ← hall, ← hroot] at hfailed
    exact ⟨k, hlt, hle, build_error_of_applyAll hdocs hfailed⟩

/-- Ten properties, given in the opposite order, over a document with another name. -/
theorem build_indexed_properties_ten :
    ∃ settings, build .empty ⟨[.document "base" (.object [("b", .scalar "x")])],
        some ((EnvironmentPlan.ofSettings [.properties (Path.itemEntries "bq.a" 0
          ["0", "1", "2", "3", "4", "5", "6", "7", "8", "9"]).reverse]).build []),
        []⟩ = .ok settings ∧
      settings.get "a" = .ok (some (.array
        (["0", "1", "2", "3", "4", "5", "6", "7", "8", "9"].map .scalar))) := by
  have hitems : ((EnvironmentPlan.ofSettings [.properties (Path.itemEntries "bq.a" 0
      ["0", "1", "2", "3", "4", "5", "6", "7", "8", "9"]).reverse]).build []).Itemizes "a"
      ["0", "1", "2", "3", "4", "5", "6", "7", "8", "9"] :=
    ⟨rfl, EnvironmentPlan.ascending_build_properties _ [],
      fun entry => List.Perm.mem_iff (by decide +kernel)⟩
  have hname : Path.IsName "a".toList := ⟨by decide, by decide, by decide⟩
  exact (build_indexed_properties hname (by simp) hitems rfl rfl rfl rfl rfl).1 (by decide)

/-- Of eleven properties the one with index ten is applied second. -/
theorem not_filled_by_eleven : ∃ env : Environment,
    env.Itemizes "a" ["0", "1", "2", "3", "4", "5", "6", "7", "8", "9", "10"] ∧
    build .empty ⟨[], some env, []⟩ =
      .error (.invalidOverride "a[10]" (.invalidWrite (.outOfBounds "a" 10 1))) := by
  refine ⟨(EnvironmentPlan.ofSettings [.properties (Path.itemEntries "bq.a" 0
    ["0", "1", "2", "3", "4", "5", "6", "7", "8", "9", "10"])]).build [], ?items, ?build⟩
  case items =>
    exact ⟨rfl, EnvironmentPlan.ascending_build_properties _ [],
      fun entry => List.Perm.mem_iff (by decide +kernel)⟩
  case build =>
    apply build_error_of_applyAll rfl
    decide +kernel

end Layers

end LayeredConfig
