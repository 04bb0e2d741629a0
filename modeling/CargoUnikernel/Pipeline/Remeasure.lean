import CargoUnikernel.Pipeline.Measurement

/-
  Measuring right after a build.

  The build hashes the kernel and the initramfs where its
  formats leave them, which is `dist/` only for the format
  `cpio`. Measuring again looks for both in `dist/` whatever
  the formats are. So without the format it finds nothing, or
  the images of an earlier build.

  Main declarations:
    * `Remeasures`, `HashedAlike`, `ImagesInDist`
    * `recordMeasurement_of_hex`
    * `measure_after_build`
    * `remeasures_iff`
-/

------------------------------------------------------------
-- Agreement with the Build
------------------------------------------------------------

namespace CargoUnikernel

namespace Pipeline

open Schema Interference Fallible

section

variable {ι : Type} [DecidableEq ι] [Linked ι]
variable (tools : Tools) (i : ι) (config : Config)

/-
  The measurement is read again as it was recorded, and it
  is recorded again as it was.
-/
def Remeasures (t : Files ι) : Prop :=
  ∃ u record,
    measure tools i config t = .ok u ∧
      measurementHex (t (distLoc i config .measurementTxt)) =
        .ok record.measurementSha384 ∧
      t (distLoc i config .measurementJson) =
        some (.sidecar record) ∧
      u (distLoc i config .measurementJson) =
        some (.sidecar record)

/- Two files that cannot be told apart by their digest. -/
def HashedAlike (stale built : Option Content) : Prop :=
  stale.isSome ∧ stale.map tools.sha256 =
    built.map tools.sha256

/-
  The images are in `dist/`: the build takes them out to it,
  or the ones that are there are hashed like the staged ones.
-/
def ImagesInDist (t : Files ι) : Prop :=
  .cpio ∈ config.output.formats ∨
    ∀ kind : ImageKind,
      kind = .bzImage ∨ kind = .cpio →
        HashedAlike tools
          (t
            (distLoc i config
              (.image config.project.name kind)))
          (t (.stagedImage config.project.name kind))

end

------------------------------------------------------------
-- The Record of a Build
------------------------------------------------------------

section

variable {ι : Type} [DecidableEq ι] [Linked ι]
variable {tools : Tools} {i : ι} {config : Config}

/- A measurement that can be read is recorded. -/
theorem recordMeasurement_of_hex
    {sev : SevSnp} {artifacts : BuildArtifacts ι}
    {path : Loc ι} {hex : Text} {s : Files ι}
    (hKind : config.profile.kind = .sevSnp)
    (hSev : config.sevSnp = some sev)
    (hPath : artifacts.sevMeasurement = some path)
    (hHex : measurementHex (s path) = .ok hex) :
    recordMeasurement i config artifacts s =
      .ok
        (apply
          [(distLoc i config .measurementJson,
            some
              (.sidecar
                (sidecarFor sev hex
                  artifacts.componentHashes)))]
          s) := by
  unfold recordMeasurement compute writeSidecar
  rw [if_pos hKind, hPath, hSev]
  dsimp only
  rw [hHex]
  rfl

omit [DecidableEq ι] in
/- What a build has hashed, and that it was there. -/
theorem hashes_of_collectArtifacts
    {artifacts : BuildArtifacts ι} {s : Files ι}
    (hCollect :
      collectArtifacts tools i config s = .ok artifacts) :
    (∀ kind : ImageKind,
        kind = .bzImage ∨ kind = .cpio →
          (s (artifactLoc i config kind)).isSome) ∧
      artifacts.componentHashes =
        readHashes tools
          (s (artifactLoc i config .bzImage))
          (s (artifactLoc i config .cpio)) s := by
  unfold collectArtifacts at hCollect
  simp only [unit_bind_eq_ok_iff, reject_eq_ok_iff, not_not]
    at hCollect
  rcases hCollect with ⟨hBzImage, hCpio, hEq⟩
  constructor
  · rintro kind (rfl | rfl)
    · exact hBzImage
    · exact hCpio
  · rw [← Except.ok.inj hEq]

omit [DecidableEq ι] [Linked ι] in
/- Only the digests of the two images can tell them apart. -/
theorem readHashes_eq_iff
    {kernel cpio kernel' cpio' : Option Content}
    {s : Files ι} :
    readHashes tools kernel cpio s =
        readHashes tools kernel' cpio' s ↔
      kernel.map tools.sha256 = kernel'.map tools.sha256 ∧
        cpio.map tools.sha256 = cpio'.map tools.sha256 := by
  unfold readHashes
  simp only [ComponentHashes.mk.injEq, and_true]

omit [DecidableEq ι] in
/- The record is not among what is hashed. -/
theorem readHashes_of_ne
    {s t : Files ι} (kernel cpio : Option Content)
    (hSame :
      ∀ loc : Loc ι,
        loc ≠ distLoc i config .measurementJson →
          t loc = s loc) :
    readHashes tools kernel cpio t =
      readHashes tools kernel cpio s := by
  unfold readHashes
  rw [hSame _ (ne_distLoc rfl), hSame _ (ne_distLoc rfl),
    hSame _ (ne_distLoc rfl)]

omit [DecidableEq ι] in

/- An artifact is not the record of its measurement. -/
theorem artifactLoc_ne_json (kind : ImageKind) :
    artifactLoc i config kind ≠
      distLoc i config .measurementJson := by
  unfold artifactLoc
  split
  · simp
  · exact ne_distLoc rfl

/- The build's record, and all that it is computed from. -/
theorem record_of_build
    {sev : SevSnp} {s t : Files ι}
    (hKind : config.profile.kind = .sevSnp)
    (hSev : config.sevSnp = some sev)
    (hBuild : build tools i config s = .ok t) :
    ∃ hex,
      measurementHex (t (distLoc i config .measurementTxt)) =
          .ok hex ∧
        t (distLoc i config .measurementJson) =
          some
            (.sidecar
              (sidecarFor sev hex
                (readHashes tools
                  (t (artifactLoc i config .bzImage))
                  (t (artifactLoc i config .cpio)) t))) ∧
        ∀ kind : ImageKind,
          kind = .bzImage ∨ kind = .cpio →
            (t (artifactLoc i config kind)).isSome := by
  rcases build_eq_ok_iff.1 hBuild with ⟨built⟩
  rcases recordMeasurement_of_finishBuild built.finish_eq with
    ⟨artifacts, hCollect, hRecord⟩
  have hSame :
      ∀ loc : Loc ι,
        loc ≠ distLoc i config .measurementJson →
          t loc = built.mid loc :=
    fun loc hOther => recordMeasurement_of_ne hRecord hOther
  rcases record_of_recordMeasurement hKind hSev
      (fun path hPath =>
        sevMeasurement_of_collectArtifacts hCollect hPath)
      hRecord with
    ⟨hex, hHex, hJson⟩
  rcases hashes_of_collectArtifacts hCollect with
    ⟨hThere, hHashes⟩
  refine ⟨hex, hHex, ?_, ?_⟩
  · rw [hJson, hHashes, readHashes_of_ne _ _ hSame,
      hSame _ (artifactLoc_ne_json _),
      hSame _ (artifactLoc_ne_json _)]
  · intro kind hImage
    rw [hSame _ (artifactLoc_ne_json _)]
    exact hThere kind hImage

------------------------------------------------------------
-- The Record of a Measurement
------------------------------------------------------------

/-
  Measuring succeeds if there is anything to measure, and
  records the digests of what it has found.
-/
theorem measure_after_build
    {sev : SevSnp} {hex : Text} {t u : Files ι}
    (hKind : config.profile.kind = .sevSnp)
    (hSev : config.sevSnp = some sev)
    (hHex :
      measurementHex (t (distLoc i config .measurementTxt)) =
        .ok hex) :
    measure tools i config t = .ok u ↔
      (∀ kind : ImageKind,
          kind = .bzImage ∨ kind = .cpio →
            (t
              (distLoc i config
                (.image config.project.name kind))).isSome) ∧
        u =
          apply
            [(distLoc i config .measurementJson,
              some
                (.sidecar
                  (sidecarFor sev hex
                    (measuredArtifacts tools i config
                      t).componentHashes)))]
            t := by
  rw [measure_eq_ok_iff,
    recordMeasurement_of_hex hKind hSev rfl hHex]
  constructor
  · rintro ⟨_, hBzImage, hCpio, hEq⟩
    refine ⟨?_, (Except.ok.inj hEq).symm⟩
    rintro kind (rfl | rfl)
    · exact hBzImage
    · exact hCpio
  · rintro ⟨hThere, rfl⟩
    exact
      ⟨hKind, hThere _ (Or.inl rfl), hThere _ (Or.inr rfl),
        rfl⟩

omit [DecidableEq ι] in
/- The two look at the same places for the format `cpio`. -/
theorem imagesInDist_iff
    {t : Files ι}
    (hThere :
      ∀ kind : ImageKind,
        kind = .bzImage ∨ kind = .cpio →
          (t (artifactLoc i config kind)).isSome) :
    ImagesInDist tools i config t ↔
      ∀ kind : ImageKind,
        kind = .bzImage ∨ kind = .cpio →
          HashedAlike tools
            (t
              (distLoc i config
                (.image config.project.name kind)))
            (t (artifactLoc i config kind)) := by
  unfold ImagesInDist
  by_cases hCpio : .cpio ∈ config.output.formats
  · refine iff_of_true (Or.inl hCpio) ?_
    intro kind hImage
    have hFound := hThere kind hImage
    unfold artifactLoc at hFound ⊢
    rw [if_pos hCpio] at hFound ⊢
    exact ⟨hFound, rfl⟩
  · unfold artifactLoc
    simp only [hCpio, false_or, if_false]

end

------------------------------------------------------------
-- After Every Build
------------------------------------------------------------

section

variable {ι : Type} [DecidableEq ι] [Linked ι]
variable {tools : Tools} {i : ι}

/- Measuring agrees with the build that was just made. -/
theorem remeasures_iff
    {config : ValidConfig} {s t : Files ι}
    (hKind : config.config.profile.kind = .sevSnp)
    (hBuild : build tools i config.config s = .ok t) :
    Remeasures tools i config.config t ↔
      ImagesInDist tools i config.config t := by
  rcases exists_sevSnp config hKind with ⟨sev, hSev⟩
  rcases record_of_build hKind hSev hBuild with
    ⟨hex, hHex, hJson, hThere⟩
  rw [imagesInDist_iff hThere]
  constructor
  · rintro ⟨u, record, hMeasure, _, hBuilt, hAgain⟩
    rw [measure_after_build hKind hSev hHex] at hMeasure
    rcases hMeasure with ⟨hFound, rfl⟩
    rw [apply_cons_self, ← hBuilt, hJson] at hAgain
    have hHashes :
        readHashes tools _ _ t = readHashes tools _ _ t :=
      congrArg Sidecar.componentSha256
        (Content.sidecar.inj (Option.some.inj hAgain))
    rw [readHashes_eq_iff] at hHashes
    rintro kind (rfl | rfl)
    · exact ⟨hFound _ (Or.inl rfl), hHashes.1⟩
    · exact ⟨hFound _ (Or.inr rfl), hHashes.2⟩
  · intro hAlike
    have hHashes :
        (measuredArtifacts tools i config.config
              t).componentHashes =
          readHashes tools
            (t (artifactLoc i config.config .bzImage))
            (t (artifactLoc i config.config .cpio)) t := by
      apply readHashes_eq_iff.2
      exact
        ⟨(hAlike _ (Or.inl rfl)).2, (hAlike _ (Or.inr rfl)).2⟩
    have hMeasure :
        ∃ u,
          measure tools i config.config t = .ok u ∧
            u (distLoc i config.config .measurementJson) =
              t (distLoc i config.config .measurementJson) := by
      refine
        ⟨_, (measure_after_build hKind hSev hHex).2 ⟨?_, rfl⟩,
          ?_⟩
      · intro kind hImage
        exact (hAlike kind hImage).1
      · rw [apply_cons_self, hHashes, hJson]
    rcases hMeasure with ⟨u, hMeasure, hAgain⟩
    exact ⟨u, _, hMeasure, hHex, hJson, hAgain.trans hJson⟩

end

------------------------------------------------------------
-- Only a Unified Image
------------------------------------------------------------

/- Firmware from a file, and no image but the unified one. -/
def unifiedConfig : ValidConfig where
  config :=
    { sevSnpConfigWithFormats [.uki] with
      sevSnp := some pathSev }
  valid := rfl

/- With the format `cpio` nothing has to be there before. -/
theorem remeasures_cpio :
    ∃ t,
      build sampleTools () pathConfig.config sampleFiles =
          .ok t ∧
        Remeasures sampleTools () pathConfig.config t := by
  have hBuild :
      ∃ t,
        build sampleTools () pathConfig.config sampleFiles =
          .ok t :=
    ⟨_, rfl⟩
  rcases hBuild with ⟨t, hBuild⟩
  refine ⟨t, hBuild, ?_⟩
  apply (remeasures_iff rfl hBuild).2
  apply Or.inl
  decide

/- Without it there is nothing to measure after the build. -/
theorem build_not_remeasured :
    ∃ t,
      build sampleTools () unifiedConfig.config sampleFiles =
          .ok t ∧
        ¬ Remeasures sampleTools () unifiedConfig.config t := by
  have hBuild :
      ∃ t,
        build sampleTools () unifiedConfig.config
              sampleFiles =
            .ok t ∧
          measure sampleTools () unifiedConfig.config t =
            .error .measureNeedsBuild :=
    ⟨_, rfl, rfl⟩
  rcases hBuild with ⟨t, hBuild, hMeasure⟩
  refine ⟨t, hBuild, ?_⟩
  rintro ⟨u, record, hOk, _⟩
  rw [hMeasure] at hOk
  cases hOk

end Pipeline

end CargoUnikernel
