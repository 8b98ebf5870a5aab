import LayeredConfig.Proofs.Environment.Assembly
import LayeredConfig.Proofs.Environment.Prefix

set_option autoImplicit false

/-!
# How a variable is resolved

A variable of the process hides the one of its name that is bound in the program. A single look-up,
the variables under a prefix and the overrides of a declared path agree on it.
-/
namespace LayeredConfig.Environment

variable {env : Environment} {declared : List Declaration} {path name value : String}

theorem lookup?_eq (env : Environment) (name : String) :
    env.lookup? name = (Keyed.find? name env.process).or (Keyed.find? name env.bound) := by
  unfold lookup?
  cases Keyed.find? name env.process <;> rfl

theorem find?_subvariables (h : Keyed.Ascending env.process) {rest : String} (hrest : rest ≠ "")
    (pre : String) : Keyed.find? rest (env.subvariables pre) =
      env.lookup? (withSeparator '_' pre ++ rest) := by
  rw [subvariables, find?_under _ _ hrest, Keyed.find?_insertAll h, lookup?_eq]

theorem Ordered.ascending_subvariables (h : env.Ordered) (pre : String) :
    Keyed.Ascending (env.subvariables pre) :=
  ascending_under '_' pre (Keyed.ascending_insertAll env.process h.bound)

theorem Ordered.ascending_subproperties (h : env.Ordered) (pre : String) :
    Keyed.Ascending (env.subproperties pre) :=
  ascending_under '.' pre h.properties

/-- Declarations of a path that all name one variable give the value of this variable again and
again, or nothing where it is not in the scope. -/
theorem filter_declaredOverrides
    (h : ∀ declaration ∈ declared, declaration.path = path → declaration.name = name)
    (scope : Keyed String) :
    (declaredOverrides declared scope).filter (·.path = path) =
      match Keyed.find? name scope with
      | none => []
      | some value => List.replicate (declared.countP (·.path = path)) ⟨path, some value⟩ := by
  induction declared with
  | nil => cases Keyed.find? name scope <;> rfl
  | cons declaration rest ih =>
    obtain ⟨hname, hrest⟩ := List.forall_mem_cons.1 h
    have hfilter := ih hrest
    unfold declaredOverrides at hfilter ⊢
    by_cases hpath : declaration.path = path
    · cases hfound : Keyed.find? name scope with
      | none => simpa [hname hpath, hfound] using hfilter
      | some value =>
        rw [hfound] at hfilter
        simp [hname hpath, hfound, hpath, hfilter, List.replicate_succ]
    · cases hfound : Keyed.find? declaration.name scope <;> simp [hfound, hpath, hfilter]

theorem Ordered.filter_overrides (h : env.Ordered) (path : String) :
    env.overrides.filter (·.path = path) =
      ((Keyed.find? path (env.subproperties env.propertyPrefix)).map
        fun value => ⟨path, some value⟩).toList ++
      (declaredOverrides env.declared env.bound).filter (·.path = path) ++
      (declaredOverrides env.declared env.process).filter (·.path = path) := by
  have hproperties := Keyed.filter_key_eq (h.ascending_subproperties env.propertyPrefix) path
  rw [overrides, List.filter_append, List.filter_append, List.filter_map]
  change ((env.subproperties env.propertyPrefix).filter (·.1 = path)).map _ ++ _ ++ _ = _
  rw [hproperties]
  cases Keyed.find? path (env.subproperties env.propertyPrefix) <;> rfl

/-- The last override of a declared path has the value of its variable. -/
theorem getLast?_filter_declaredOverrides
    (hdeclared : ∃ declaration ∈ declared, declaration.path = path)
    (hname : ∀ declaration ∈ declared, declaration.path = path → declaration.name = name)
    (scope : Keyed String) :
    ((declaredOverrides declared scope).filter (·.path = path)).getLast? =
      (Keyed.find? name scope).map fun value => ⟨path, some value⟩ := by
  have hcount : declared.countP (·.path = path) ≠ 0 := by
    simpa [List.countP_eq_zero] using hdeclared
  rw [filter_declaredOverrides hname]
  cases Keyed.find? name scope with
  | none => rfl
  | some value => simp [List.getLast?_replicate, hcount]

/-- The variables under a prefix are those that a look-up of the whole name finds, with the value it
finds. The overrides of a path whose declarations all name one variable end with what the look-up of
this variable finds; where it finds nothing, they are the property of that path, if there is one. -/
theorem resolution_agrees (env : Environment) (henv : env.Ordered) :
    (∀ pre rest value, rest ≠ "" → ((rest, value) ∈ env.subvariables pre ↔
      env.lookup? (withSeparator '_' pre ++ rest) = some value)) ∧
    ∀ path name, (∃ declaration ∈ env.declared, declaration.path = path) →
      (∀ declaration ∈ env.declared, declaration.path = path → declaration.name = name) →
      (∀ value, env.lookup? name = some value →
        (env.overrides.filter (·.path = path)).getLast? = some ⟨path, some value⟩) ∧
      (env.lookup? name = none → env.overrides.filter (·.path = path) =
        ((Keyed.find? path (env.subproperties env.propertyPrefix)).map
          fun value => ⟨path, some value⟩).toList) := by
  refine ⟨?view, fun path name hdeclared hname => ⟨?found, ?absent⟩⟩
  case view =>
    intro pre rest value hrest
    rw [Keyed.mem_iff_find? (henv.ascending_subvariables pre),
      find?_subvariables henv.process hrest]
  case found =>
    intro value hvalue
    have hbound := getLast?_filter_declaredOverrides hdeclared hname env.bound
    have hprocess := getLast?_filter_declaredOverrides hdeclared hname env.process
    rw [henv.filter_overrides, List.getLast?_append, List.getLast?_append, hbound, hprocess]
    rw [lookup?_eq] at hvalue
    -- The overrides of the process come last, those of bound variables right before them.
    cases hfound : Keyed.find? name env.process with
    | some own =>
      obtain rfl : own = value := by simpa [hfound] using hvalue
      rfl
    | none =>
      rw [hfound, Option.none_or] at hvalue
      rw [hvalue]
      rfl
  case absent =>
    intro hnone
    obtain ⟨hprocess, hbound⟩ := Option.or_eq_none_iff.1 ((lookup?_eq env name).symm.trans hnone)
    rw [henv.filter_overrides, filter_declaredOverrides hname, filter_declaredOverrides hname,
      hprocess, hbound, List.append_nil, List.append_nil]

/-- The process has a variable that is bound in the program too. It is declared twice for one path,
for which there is also a property; the variable of another path is nowhere. -/
theorem resolution_agrees_twice : ∃ env : Environment,
    env = (EnvironmentPlan.ofSettings [.property "bq.a" "0", .property "bq.b" "5", .var "V" "1",
      .var "V_A" "6", .declare "a" "V", .declare "b" "W", .declare "a" "V", .system]).build
        [("V", "2"), ("V_B", "7")] ∧
    env.Ordered ∧ env.subvariables "V" = [("A", "6"), ("B", "7")] ∧
    env.lookup? "V_A" = some "6" ∧
    (env.overrides.filter (·.path = "a")).getLast? = some ⟨"a", some "2"⟩ ∧
    env.overrides.filter (·.path = "b") = [⟨"b", some "5"⟩] := by
  have hprocess : Keyed.Ascending [("V", "2"), ("V_B", "7")] := by
    unfold Keyed.Ascending
    decide +kernel
  have hordered := EnvironmentPlan.ordered_build [.property "bq.a" "0", .property "bq.b" "5",
    .var "V" "1", .var "V_A" "6", .declare "a" "V", .declare "b" "W", .declare "a" "V", .system]
    _ hprocess
  obtain ⟨hview, hpaths⟩ := resolution_agrees _ hordered
  obtain ⟨hfound, -⟩ := hpaths "a" "V" (by decide +kernel) (by decide +kernel)
  obtain ⟨-, habsent⟩ := hpaths "b" "W" (by decide +kernel) (by decide +kernel)
  refine ⟨_, rfl, hordered, by decide +kernel, ?_, ?_, ?_⟩
  · exact (hview "V" "A" "6" (by decide)).1 (by decide +kernel)
  · exact hfound "2" (by decide +kernel)
  · exact habsent (by decide +kernel)

end LayeredConfig.Environment
