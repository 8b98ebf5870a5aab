import LayeredConfig.Proofs.Override.Run
import LayeredConfig.Settings.Layers

set_option autoImplicit false

/-!
# Builds by their parts

A build loads every source, merges the documents that were found and are not null, and applies all
overrides to the merged tree.
-/
namespace LayeredConfig.Layers

variable {files : Files} {layers : Layers} {settings : Settings} {docs : List Node} {tree : Node}

/-- The documents that were found and are not null. -/
def present (loaded : List (Option Node)) : List Node := (loaded.filterMap id).filter (· ≠ .null)

/-- What the sources load, each in its place, or the error of the first that does not load. -/
def loadAll (files : Files) (sources : List Source) : Except ConfigError (List (Option Node)) :=
  sources.mapM fun source => source.load files

theorem loadAll_cons (source : Source) (rest : List Source) :
    loadAll files (source :: rest) =
      (source.load files).bind fun found => (loadAll files rest).map (found :: ·) := by
  rw [loadAll, List.mapM_cons]
  cases source.load files with
  | error cause => rfl
  | ok found =>
    change ((loadAll files rest).bind fun loaded => .ok (found :: loaded)) = _
    cases loadAll files rest <;> rfl

theorem documents_eq (sources : List Source) :
    documents files sources = (loadAll files sources).map present := by
  induction sources with
  | nil => rfl
  | cons source rest ih =>
    rw [documents, ih, loadAll_cons]
    cases source.load files with
    | error cause => rfl
    | ok found =>
      cases loadAll files rest with
      | error cause => rfl
      | ok loaded =>
        rcases found with _ | (_ | _ | _ | _) <;> rfl

theorem documents_of_loadAll {sources : List Source} {loaded : List (Option Node)}
    (h : loadAll files sources = .ok loaded) :
    documents files sources = .ok (present loaded) := by
  rw [documents_eq, h]
  rfl

theorem build_of_applyAll (hdocs : documents files layers.sources = .ok docs)
    (happlied : Override.applyAll (Node.merge docs) layers.allOverrides = ⟨tree, none⟩) :
    layers.build files = .ok ⟨tree⟩ := by
  unfold build
  rw [hdocs]
  simp [Except.bind, happlied]

theorem build_error_of_applyAll {cause : ConfigError}
    (hdocs : documents files layers.sources = .ok docs)
    (hfailed : (Override.applyAll (Node.merge docs) layers.allOverrides).error = some cause) :
    layers.build files = .error cause := by
  unfold build
  rw [hdocs]
  simp [Except.bind, hfailed]

theorem build_eq_ok_iff : layers.build files = .ok settings ↔
    ∃ loaded, loadAll files layers.sources = .ok loaded ∧
      Override.applyAll (Node.merge (present loaded)) layers.allOverrides =
        ⟨settings.root, none⟩ := by
  unfold build
  rw [documents_eq]
  cases loadAll files layers.sources with
  | error cause => simp [Except.map, Except.bind]
  | ok loaded =>
    obtain ⟨root⟩ := settings
    rcases happlied : Override.applyAll (Node.merge (present loaded)) layers.allOverrides with
      ⟨tree, error⟩
    cases error <;> simp [Except.map, Except.bind, happlied]

end LayeredConfig.Layers
