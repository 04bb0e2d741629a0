import CargoUnikernel.Library.Transition
import CargoUnikernel.Pipeline.Artifacts

/-
  Commands of one project, one after another.

  Between two commands anything may change: the config, the
  sources, the firmware, the caches, what the program has
  embedded, and also what is in an output directory.

  Main declarations:
    * `Action`, `perform`, `history`
    * `thereAfter`, `isSome_of_run`
    * `sampleTools`, `sampleFiles`
-/

------------------------------------------------------------
-- Histories
------------------------------------------------------------

namespace CargoUnikernel

namespace Pipeline

open Schema Interference Transition Fallible

/- A command on a project, or a change to its files. -/
inductive Action (ι : Type)
| build (config : ValidConfig)
| measure (config : ValidConfig)
| change (loc : Loc ι) (content : Option Content)

/- The files of the project, and what was done last. -/
structure Project (ι : Type) where
  files : Files ι
  last : Option (Action ι)

section

variable {ι : Type} [DecidableEq ι] [Linked ι]
variable (tools : Tools) (i : ι)

/- A command that fails is none. -/
def perform (s : Files ι) : Action ι → Option (Files ι)
| .build config => (build tools i config.config s).toOption
| .measure config => (measure tools i config.config s).toOption
| .change loc content => some (apply [(loc, content)] s)

/- Any files to begin with, and nothing done to them yet. -/
def history : System (Project ι) (Action ι) where
  init p := p.last = none
  step p action :=
    (perform tools i p.files action).map fun files =>
      { files := files, last := some action }

/-
  Whether a file is there after an action, by the configs
  alone and by whether it was there before.
-/
def thereAfter
    (path : HostPath) (there : Bool) : Action ι → Bool
| .build config =>
    decide (Leaves (links i) config.config path) || there
| .measure config =>
    decide
        (path =
          outputPath (links i) config.config
            .measurementJson) ||
      there
| .change loc content =>
    if loc = fileLoc i path then content.isSome else there

/- The same after a list of them. -/
def thereAfterAll
    (path : HostPath) (there : Bool)
    (actions : List (Action ι)) : Bool :=
  actions.foldl (thereAfter i path) there

end

section

variable {ι : Type} [DecidableEq ι] [Linked ι]
variable {tools : Tools} {i : ι}

/- What an action does, and that it is remembered. -/
theorem history_step_eq_some_iff
    {p q : Project ι} {action : Action ι} :
    (history tools i).step p action = some q ↔
      perform tools i p.files action = some q.files ∧
        q.last = some action := by
  unfold history
  dsimp only
  rw [Option.map_eq_some_iff]
  constructor
  · rintro ⟨files, hPerform, rfl⟩
    exact ⟨hPerform, rfl⟩
  · rintro ⟨hPerform, hLast⟩
    refine ⟨q.files, hPerform, ?_⟩
    rw [← hLast]

/- A change is of one place only. -/
theorem perform_change_of_ne
    {s t : Files ι} {loc other : Loc ι}
    {content : Option Content}
    (hPerform :
      perform tools i s (.change loc content) = some t)
    (hOther : other ≠ loc) :
    t other = s other := by
  unfold perform at hPerform
  cases hPerform
  rw [apply_cons_of_ne hOther, apply_nil]

/- Measuring records once more what was measured. -/
theorem measure_of_ne
    {config : ValidConfig} {s t : Files ι}
    (hMeasure : measure tools i config.config s = .ok t)
    {loc : Loc ι}
    (hOther :
      loc ≠ distLoc i config.config .measurementJson) :
    t loc = s loc :=
  recordMeasurement_of_ne
    (measure_eq_ok_iff.1 hMeasure).2.2.2 hOther

/- Measuring makes the record, and nothing else. -/
theorem measure_isSome_iff
    {config : ValidConfig} {s t : Files ι}
    (hMeasure : measure tools i config.config s = .ok t)
    (path : HostPath) :
    (t (fileLoc i path)).isSome ↔
      path =
          outputPath (links i) config.config
            .measurementJson ∨
        (s (fileLoc i path)).isSome := by
  by_cases hPath :
      path =
        outputPath (links i) config.config .measurementJson
  · rw [measure_eq_ok_iff] at hMeasure
    rcases hMeasure with ⟨hKind, _, _, hRecord⟩
    rcases recordMeasurement_sevSnp hKind hRecord with
      ⟨_, _, _, _, _, _, hEq⟩
    rw [hEq, fileLoc_eq_distLoc_iff.2 hPath, apply_cons_self]
    exact iff_of_true rfl (Or.inl hPath)
  · have hOther :
        fileLoc i path ≠
          distLoc i config.config .measurementJson := by
      rw [Ne, fileLoc_eq_distLoc_iff]
      exact hPath
    rw [measure_of_ne hMeasure hOther]
    exact (or_iff_right hPath).symm

/- What one action makes of a file that was there, or not. -/
theorem isSome_of_perform
    {s t : Files ι} {action : Action ι}
    (hPerform : perform tools i s action = some t)
    (path : HostPath) :
    (t (fileLoc i path)).isSome =
      thereAfter i path (s (fileLoc i path)).isSome action := by
  rw [Bool.eq_iff_iff]
  cases action with
  | build config =>
      have hBuild : build tools i config.config s = .ok t :=
        toOption_eq_some_iff.1 hPerform
      rw [build_isSome_iff hBuild path]
      simp [thereAfter]
  | measure config =>
      have hMeasure :
          measure tools i config.config s = .ok t :=
        toOption_eq_some_iff.1 hPerform
      rw [measure_isSome_iff hMeasure path]
      simp [thereAfter]
  | change loc content =>
      unfold thereAfter
      by_cases hLoc : loc = fileLoc i path
      · unfold perform at hPerform
        cases hPerform
        rw [hLoc, apply_cons_self]
        simp
      · rw [perform_change_of_ne hPerform (Ne.symm hLoc)]
        simp [hLoc]

/-
  The files after a history are the ones it started from,
  the ones its commands have left and those put there, but
  for what was taken away since.
-/
theorem isSome_of_run
    {p q : Project ι} {actions : List (Action ι)}
    (hRun : (history tools i).run p actions = some q)
    (path : HostPath) :
    (q.files (fileLoc i path)).isSome =
      thereAfterAll i path
        (p.files (fileLoc i path)).isSome actions := by
  unfold thereAfterAll
  induction actions generalizing p with
  | nil =>
      cases hRun
      rfl
  | cons action actions ih =>
      rw [System.run_cons_eq_some_iff] at hRun
      rcases hRun with ⟨next, hStep, hRest⟩
      rw [history_step_eq_some_iff] at hStep
      rw [List.foldl_cons, ← isSome_of_perform hStep.1 path]
      exact ih hRest

end

------------------------------------------------------------
-- A Project to Build
------------------------------------------------------------

/- Tools that tell the number of processors apart. -/
def sampleTools : Tools where
  kernel := fun _ _ _ => some (.text "kernel".toList)
  cargoBuild := fun _ _ _ package => some package
  buildCommand := fun _ _ _ package => some package
  isStatic := fun _ => true
  guestInit := fun _ _ _ => some (.text "init".toList)
  mke2fs := fun _ => some (.text "mke2fs".toList)
  archive := fun _ => .text "cpio".toList
  ukify := fun _ _ _ cmdline _ => some (.text cmdline)
  sevSnpMeasure := fun vcpus _ _ _ =>
    some
      (List.replicate 96 (if vcpus = 2 then '2' else '4'))
  sha256 := fun _ => "hash".toList
  latestAptSnapshot := "latest".toList

/- A project without links. -/
instance : Linked Unit where
  links := fun _ => .plain

/- A package with a manifest. -/
def packageFiles {ι : Type} (i : ι) (content : Content) :
    List (Loc ι × Content) :=
  [(.project i (.package (.inside [])), content),
    (fileLoc i (.inside ["Cargo.toml".toList]), .data [])]

/- A package, a firmware file and an embedded firmware. -/
def sampleFiles : Files Unit := fun loc =>
  (packageFiles () (.data []) ++
    [(fileLoc () (.inside ["fw.fd".toList]),
        Content.data [0xaa]),
      (.embeddedOvmf (), .data [0xbb])]).lookup loc

/- A project that nothing was built in. -/
def sampleProject : Project Unit where
  files := sampleFiles
  last := none

/- A history can begin there. -/
theorem init_sampleProject :
    (history sampleTools ()).init sampleProject := rfl

end Pipeline

end CargoUnikernel
