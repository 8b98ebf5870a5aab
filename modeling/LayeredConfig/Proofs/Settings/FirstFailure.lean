import LayeredConfig.Proofs.Override.Failure
import LayeredConfig.Proofs.Settings.Build

set_option autoImplicit false

/-!
# The first failure of a build

A build ends at the first source that does not load, and else at the first override that fails in
the tree which those before it leave. Nothing behind the failure has a say in the error.
-/
namespace LayeredConfig.Layers

variable {files : Files} {layers : Layers} {sources front back : List Source} {source : Source}
variable {cause own : ConfigError} {loaded : List (Option Node)} {middle after : Node}

theorem loadAll_error (hfront : ∀ earlier ∈ front, ∃ found, earlier.load files = .ok found)
    (h : source.load files = .error cause) (back : List Source) :
    loadAll files (front ++ source :: back) = .error cause := by
  induction front with
  | nil =>
    rw [List.nil_append, loadAll_cons, h]
    rfl
  | cons earlier rest ih =>
    obtain ⟨⟨found, hfound⟩, hrest⟩ := List.forall_mem_cons.1 hfront
    rw [List.cons_append, loadAll_cons, hfound, ih hrest]
    rfl

theorem exists_loaded (h : ∀ source ∈ sources, ∃ found, source.load files = .ok found) :
    ∃ loaded, loadAll files sources = .ok loaded := by
  induction sources with
  | nil => exact ⟨[], rfl⟩
  | cons source rest ih =>
    obtain ⟨⟨found, hfound⟩, hrest⟩ := List.forall_mem_cons.1 h
    obtain ⟨loaded, hloaded⟩ := ih hrest
    refine ⟨found :: loaded, ?_⟩
    rw [loadAll_cons, hfound, hloaded]
    rfl

theorem build_error_of_load (h : loadAll files layers.sources = .error cause) :
    layers.build files = .error cause := by
  unfold build
  rw [documents_eq, h]
  rfl

/-- The error of a build is that of the earliest source that does not load. If all load, it is that
of the first override that fails in the tree left by those before it, with the path as given; if
there is none, the build succeeds. In the same way a run of overrides is the run of its first part
and, if that succeeds, of the rest: a run that fails leaves what the overrides in front of a failing
one have made, and of this one what its own write leaves. -/
theorem build_first_failure (files : Files) (layers : Layers) :
    (∀ front source back cause, layers.sources = front ++ source :: back →
      (∀ earlier ∈ front, ∃ found, earlier.load files = .ok found) →
      source.load files = .error cause → layers.build files = .error cause) ∧
    ((∀ source ∈ layers.sources, ∃ found, source.load files = .ok found) →
      ∃ loaded, loadAll files layers.sources = .ok loaded ∧
        (∀ front entry back middle after own, layers.allOverrides = front ++ entry :: back →
          Override.applyAll (Node.merge (present loaded)) front = ⟨middle, none⟩ →
          entry.write middle = ⟨after, some own⟩ →
          layers.build files = .error (.invalidOverride entry.path own)) ∧
        ((∀ front entry back middle, layers.allOverrides = front ++ entry :: back →
          Override.applyAll (Node.merge (present loaded)) front = ⟨middle, none⟩ →
          (entry.write middle).error = none) →
          ∃ settings, layers.build files = .ok settings ∧
            Override.applyAll (Node.merge (present loaded)) layers.allOverrides =
              ⟨settings.root, none⟩)) ∧
    (∀ tree front back, Override.applyAll tree (front ++ back) =
      match (Override.applyAll tree front).error with
      | none => Override.applyAll (Override.applyAll tree front).tree back
      | some _ => Override.applyAll tree front) ∧
    ∀ tree entries after cause, Override.applyAll tree entries = ⟨after, some cause⟩ →
      ∃ front entry back middle own, entries = front ++ entry :: back ∧
        Override.applyAll tree front = ⟨middle, none⟩ ∧ entry.write middle = ⟨after, some own⟩ ∧
        cause = .invalidOverride entry.path own ∧
        (∀ fault, Path.parse entry.path = .error fault →
          own = .invalidPath entry.path fault ∧ after = middle) ∧
        (∀ path, Path.parse entry.path = .ok path →
          (path.steps = [] → own = .invalidWrite .emptyPath ∧ after = middle) ∧
          ∃ error, path.write middle (Node.ofText? entry.value) = ⟨after, some error⟩ ∧
            own = .invalidWrite error) ∧
        (tree.Ordered → ∀ steps text, middle.follow? steps = some (.scalar text) →
          after.follow? steps = some (.scalar text)) := by
  refine ⟨?source, ?override, Override.applyAll_append, ?run⟩
  case source =>
    intro front source back cause hsplit hfront hsource
    apply build_error_of_load
    rw [hsplit]
    exact loadAll_error hfront hsource back
  case override =>
    intro hsources
    obtain ⟨loaded, hloaded⟩ := exists_loaded hsources
    have hdocs := documents_of_loadAll hloaded
    refine ⟨loaded, hloaded, ?_, ?_⟩
    · intro front entry back middle after own hsplit hfront hentry
      apply build_error_of_applyAll hdocs
      rw [hsplit, Override.applyAll_of_write_error hfront hentry]
    · intro hwrites
      rcases happlied : Override.applyAll (Node.merge (present loaded)) layers.allOverrides with
        ⟨tree, error⟩
      cases error with
      | none => exact ⟨⟨tree⟩, build_of_applyAll hdocs happlied, rfl⟩
      | some cause =>
        obtain ⟨front, entry, back, middle, own, hsplit, hfront, hentry, -⟩ :=
          Override.exists_entry_of_applyAll_error happlied
        have hnone := hwrites front entry back middle hsplit hfront
        simp [hentry] at hnone
  case run =>
    intro tree entries after cause h
    obtain ⟨front, entry, back, middle, own, hsplit, hfront, hentry, hcause⟩ :=
      Override.exists_entry_of_applyAll_error h
    refine ⟨front, entry, back, middle, own, hsplit, hfront, hentry, hcause, ?_⟩
    rcases Override.write_error_iff.1 hentry with
      ⟨fault, hparse, rfl, rfl⟩ | ⟨path, error, hparse, hwrite, rfl⟩
    · simp [hparse]
    · refine ⟨by simp [hparse], ?_, ?_⟩
      · intro other hother
        obtain rfl : path = other := Except.ok.inj (hparse.symm.trans hother)
        refine ⟨fun hnil => ?_, error, hwrite, rfl⟩
        rw [Path.write_of_steps_nil hnil] at hwrite
        obtain ⟨rfl, rfl⟩ : middle = after ∧ .emptyPath = error := by simpa using hwrite
        exact ⟨rfl, rfl⟩
      · intro ho steps text
        exact Path.scalar_of_write_error (Override.ordered_of_applyAll ho hfront) hwrite

/-- Of two sources with one name, which fail behind a file that loads, the error of the first comes
out. In the other build the second of three overrides fails, in an array that its own write
makes. -/
theorem build_first_failure_second :
    build ⟨fun _ => .bytes "x".toUTF8⟩ ⟨[
      .file "/etc/base" true (some ⟨fun _ _ => .ok (.scalar "x")⟩),
      ⟨"site", fun _ => .error (.unparsable "site" (.said "first"))⟩,
      ⟨"site", fun _ => .error (.unparsable "site" (.said "second"))⟩], none, [⟨"", none⟩]⟩ =
        .error (.unparsable "site" (.said "first")) ∧
    build .empty ⟨[.document "base" (.object [("x", .object [])])], none,
      [⟨"a", some "kept"⟩, ⟨"x.y[3].", some "q"⟩, ⟨"[", none⟩]⟩ =
        .error (.invalidOverride "x.y[3]." (.invalidWrite (.outOfBounds "x.y" 3 0))) ∧
    (∃ settings,
      build .empty ⟨[.document "base" .null], none, [⟨"a", some "kept"⟩]⟩ = .ok settings) ∧
    ∃ front entry back middle own,
      [(⟨"a", some "kept"⟩ : Override), ⟨"x.y[3].", some "q"⟩, ⟨"[", none⟩] =
        front ++ entry :: back ∧
      Override.applyAll (.object [("x", .object [])]) front = ⟨middle, none⟩ ∧
      entry.write middle =
        ⟨.object [("a", .scalar "kept"), ("x", .object [("y", .array [])])], some own⟩ := by
  refine ⟨?source, ?override, ?success, ?run⟩
  case source =>
    refine (build_first_failure ⟨fun _ => .bytes "x".toUTF8⟩ _).1
      [.file "/etc/base" true (some ⟨fun _ _ => .ok (.scalar "x")⟩)]
      ⟨"site", fun _ => .error (.unparsable "site" (.said "first"))⟩
      [⟨"site", fun _ => .error (.unparsable "site" (.said "second"))⟩] _ rfl ?_ rfl
    exact List.forall_mem_singleton.2 ⟨_, rfl⟩
  case override =>
    obtain ⟨loaded, hloaded, hfails, -⟩ := (build_first_failure .empty
      ⟨[.document "base" (.object [("x", .object [])])], none,
        [⟨"a", some "kept"⟩, ⟨"x.y[3].", some "q"⟩, ⟨"[", none⟩]⟩).2.1 (by simpa using ⟨_, rfl⟩)
    obtain rfl : [some (.object [("x", .object [])])] = loaded := Except.ok.inj hloaded
    refine hfails [⟨"a", some "kept"⟩] ⟨"x.y[3].", some "q"⟩ [⟨"[", none⟩]
      (.object [("a", .scalar "kept"), ("x", .object [])])
      (.object [("a", .scalar "kept"), ("x", .object [("y", .array [])])]) _ rfl ?_ ?_
    · decide +kernel
    · decide +kernel
  case success =>
    obtain ⟨loaded, hloaded, -, hsucceeds⟩ := (build_first_failure .empty
      ⟨[.document "base" .null], none, [⟨"a", some "kept"⟩]⟩).2.1 (by simpa using ⟨_, rfl⟩)
    obtain rfl : [some .null] = loaded := Except.ok.inj hloaded
    refine (hsucceeds ?_).imp fun settings h => h.1
    intro front entry back middle hsplit hfront
    cases front with
    | nil =>
      obtain ⟨rfl, -⟩ := List.cons.inj hsplit
      obtain rfl : Node.merge (present [some .null]) = middle := congrArg Overridden.tree hfront
      decide +kernel
    | cons first rest =>
      obtain ⟨-, hrest⟩ := List.cons.inj hsplit
      simp at hrest
  case run =>
    have hrun : Override.applyAll (.object [("x", .object [])])
        [⟨"a", some "kept"⟩, ⟨"x.y[3].", some "q"⟩, ⟨"[", none⟩] =
          ⟨.object [("a", .scalar "kept"), ("x", .object [("y", .array [])])],
            some (.invalidOverride "x.y[3]." (.invalidWrite (.outOfBounds "x.y" 3 0)))⟩ := by
      decide +kernel
    obtain ⟨front, entry, back, middle, own, hsplit, hfront, hentry, -⟩ :=
      (build_first_failure .empty ⟨[], none, []⟩).2.2.2 _ _ _ _ hrun
    exact ⟨front, entry, back, middle, own, hsplit, hfront, hentry⟩

end LayeredConfig.Layers
