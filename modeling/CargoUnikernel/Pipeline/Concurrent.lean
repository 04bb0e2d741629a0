import CargoUnikernel.Library.Interference
import CargoUnikernel.Pipeline.Measurement
import CargoUnikernel.Pipeline.Needs
import CargoUnikernel.Pipeline.Release

/-
  Builds of several projects of one user, at the same time.

  Every run is a process of its own. The files of a project
  are its own, but the staged images, the root file system,
  the hashes, the script and the tag of the builder image are
  everyone's. A run ends as it would alone if no other run
  changes a file that it is yet to read. So it does where the
  builds take turns.

  Main declarations:
    * `Stage`, `next`, `reads`
    * `buildProcess`
    * `alone_eq_build`
    * `mayNeed`, `live_subset_mayNeed`
    * `undisturbing_of_idle`
    * `concurrent_build`
-/

------------------------------------------------------------
-- Stages
------------------------------------------------------------

namespace CargoUnikernel

namespace Pipeline

namespace Concurrent

open Schema Interference Fallible

/- How far a build is, and what it carries from one step on. -/
inductive Stage (ι : Type)
| start
| staged
| acquired (app : AcquiredApp)
| imageBuilt (app : AcquiredApp)
| kconfigWritten (app : AcquiredApp)
| scriptWritten
| container (toolchain : Toolchain) (position : Nat)
| exited
| collected (artifacts : BuildArtifacts ι)
| done (artifacts : BuildArtifacts ι)
| failed

section Steps

variable {ι : Type} [Linked ι]
variable (tools : Tools) (i : ι) (config : Config)

/- What the files say that are left by the container. -/
def collect (s : Files ι) :
    Except BuildError (BuildArtifacts ι) := do
  let artifacts ← collectArtifacts tools i config s
  forM config.output.formats (imageWrite artifacts s)
  .ok artifacts

/- The writes of the record, for the profile that has one. -/
def record
    (artifacts : BuildArtifacts ι) (s : Files ι) :
    Except BuildError (Writes (Loc ι) Content) :=
  if config.profile.kind = .sevSnp then
    compute i config artifacts s
  else
    .ok []

/- The shell reads its script as it goes on. -/
def runNext
    (toolchain : Toolchain) (position : Nat) (s : Files ι) :
    Stage ι × Writes (Loc ι) Content :=
  match s .buildScript with
  | some (.script commands) =>
      match commands[position]? with
      | none => (.exited, [])
      | some command =>
          let effect :=
            command.effect tools toolchain (viewOf i s)
          (if effect.ok then
              .container toolchain (position + 1)
            else
              .failed,
            hostWrites i effect.writes)
  | _ => (.failed, [])

/- Go on with a result, or end. -/
def proceed
    {α : Type} (result : Except BuildError α)
    (go : α → Stage ι × Writes (Loc ι) Content) :
    Stage ι × Writes (Loc ι) Content :=
  match result with
  | .error _ => (.failed, [])
  | .ok a => go a

/- What a build does at each stage. -/
def next :
    Stage ι → Files ι → Option (Stage ι × Writes (Loc ι) Content)
| .start, s =>
    some (proceed (stage i config s) fun ws => (.staged, ws))
| .staged, s =>
    some (proceed (acquire i config s) fun app =>
      (.acquired app, []))
| .acquired app, _ =>
    some (proceed (hostDistDir i config) fun _ =>
      (.imageBuilt app, buildToolchainImage tools config))
| .imageBuilt app, _ =>
    some (.kconfigWritten app, writeExtraKconfig config)
| .kconfigWritten app, _ =>
    some
      (proceed (generateBuildScript (links i) config app)
        fun script => (.scriptWritten, writeScript script))
| .scriptWritten, s =>
    match s .builderImage with
    | some (.toolchain toolchain) =>
        some (.container toolchain 0, [])
    | _ => some (.failed, [])
| .container toolchain position, s =>
    some (runNext tools i toolchain position s)
| .exited, s =>
    some (proceed (collect tools i config s) fun artifacts =>
      (.collected artifacts, []))
| .collected artifacts, s =>
    some (proceed (record i config artifacts s) fun ws =>
      (.done artifacts, ws))
| .done _, _ => none
| .failed, _ => none

/- The files of the project itself. -/
def ownFiles : Set (Loc ι) :=
  { loc | ∃ file, loc = .project i file }

/- What the artifacts are looked for in. -/
def artifactFiles : Set (Loc ι) :=
  { loc | (∃ file, loc = .project i file) ∨
    (∃ kind, (kind = .bzImage ∨ kind = .cpio) ∧
        loc = artifactLoc i config kind) ∨
      ∃ file, loc = .hash file }

/- The script by position, and what its command reads. -/
def containerReads
    (position : Nat) (s : Files ι) : Set (Loc ι) :=
  match s .buildScript with
  | some (.script commands) =>
      match commands[position]? with
      | none => { .buildScript }
      | some command =>
          { loc | loc = .buildScript ∨
            ∃ path ∈ command.reads (viewOf i s),
              loc = path.loc i }
  | _ => { .buildScript }

/- What the next step depends on. -/
def reads : Stage ι → Files ι → Set (Loc ι)
| .start, _ => ownFiles i
| .staged, _ => ownFiles i
| .scriptWritten, _ => { .builderImage }
| .container _ position, s => containerReads i position s
| .exited, _ => artifactFiles i config
| .collected artifacts, _ =>
    { loc | artifacts.sevMeasurement = some loc }
| _, _ => ∅

/- What a build is for, once it is done. -/
def outputs : Stage ι → Set (Loc ι)
| .done _ => ownFiles i
| _ => ∅

end Steps

------------------------------------------------------------
-- Locality
------------------------------------------------------------

section Locality

variable {ι : Type} [Linked ι]
variable {tools : Tools} {i : ι} {config : Config}
variable {s t : Files ι}

/- What each step depends on, and no more. -/
theorem stage_congr
    (hAgree : AgreeOn (ownFiles i) s t) :
    stage i config t = stage i config s := by
  have hOwn :
      ∀ file, t (.project i file) = s (.project i file) :=
    fun file => (hAgree _ ⟨file, rfl⟩).symm
  unfold stage stageOvmf fileLoc
  simp only [hOwn]

theorem acquire_congr
    (hAgree : AgreeOn (ownFiles i) s t) :
    acquire i config t = acquire i config s := by
  have hOwn :
      ∀ file, t (.project i file) = s (.project i file) :=
    fun file => (hAgree _ ⟨file, rfl⟩).symm
  unfold acquire acquireBinary acquireSource acquirePackage
    fileLoc
  simp only [hOwn]

/- The two images are looked for where the config says. -/
theorem artifactLoc_of_collectArtifacts
    {artifacts : BuildArtifacts ι}
    (hCollect :
      collectArtifacts tools i config s = .ok artifacts) :
    artifacts.bzimage = artifactLoc i config .bzImage ∧
      artifacts.cpio = artifactLoc i config .cpio := by
  unfold collectArtifacts at hCollect
  simp only [unit_bind_eq_ok_iff] at hCollect
  rw [← Except.ok.inj hCollect.2.2]
  exact ⟨rfl, rfl⟩

/- The artifacts are looked for in their own places. -/
theorem collectArtifacts_congr
    (hAgree : AgreeOn (artifactFiles i config) s t) :
    collectArtifacts tools i config t =
      collectArtifacts tools i config s := by
  have hOwn :
      ∀ file, t (.project i file) = s (.project i file) :=
    fun file => (hAgree _ (Or.inl ⟨file, rfl⟩)).symm
  have hBzImage :=
    hAgree _ (Or.inr (Or.inl ⟨.bzImage, Or.inl rfl, rfl⟩))
  have hCpio :=
    hAgree _ (Or.inr (Or.inl ⟨.cpio, Or.inr rfl, rfl⟩))
  have hHash : ∀ file, t (.hash file) = s (.hash file) :=
    fun file => (hAgree _ (Or.inr (Or.inr ⟨file, rfl⟩))).symm
  unfold collectArtifacts readHashes existing distLoc fileLoc
  simp only [hOwn, hBzImage, hCpio, hHash]

/- So they are collected alike. -/
theorem collect_congr
    (hAgree : AgreeOn (artifactFiles i config) s t) :
    collect tools i config t = collect tools i config s := by
  unfold collect
  rw [collectArtifacts_congr hAgree]
  cases hCollect : collectArtifacts tools i config s with
  | error error => rfl
  | ok artifacts =>
      rcases artifactLoc_of_collectArtifacts hCollect with
        ⟨hKernel, hInitrd⟩
      have hBzImage :=
        hAgree _ (Or.inr (Or.inl ⟨.bzImage, Or.inl rfl, rfl⟩))
      have hCpio :=
        hAgree _ (Or.inr (Or.inl ⟨.cpio, Or.inr rfl, rfl⟩))
      have hWrite :
          imageWrite artifacts t = imageWrite artifacts s := by
        funext format
        unfold imageWrite
        simp only [hKernel, hInitrd, hBzImage, hCpio]
      rw [ok_bind, ok_bind, hWrite]

/- And recorded alike. -/
theorem record_congr
    {artifacts : BuildArtifacts ι}
    (hAgree :
      AgreeOn { loc | artifacts.sevMeasurement = some loc }
        s t) :
    record i config artifacts t =
      record i config artifacts s := by
  unfold record compute
  cases hPath : artifacts.sevMeasurement with
  | none => rfl
  | some path =>
      have hSame : s path = t path := hAgree path hPath
      simp only [hSame]

omit [Linked ι] in

/- What the container reads includes the script. -/
theorem buildScript_of_agreeOn
    {position : Nat}
    (hAgree :
      AgreeOn (containerReads i position s) s t) :
    t .buildScript = s .buildScript := by
  symm
  apply hAgree
  unfold containerReads
  split
  · split
    · rfl
    · exact Or.inl rfl
  · rfl

omit [Linked ι] in
/- A command of the script that is there, and its reads. -/
theorem view_of_agreeOn
    {position : Nat} {commands : List Command}
    {command : Command}
    (hScript : s .buildScript = some (.script commands))
    (hCommand : commands[position]? = some command)
    (hAgree :
      AgreeOn (containerReads i position s) s t) :
    ∀ path ∈ command.reads (viewOf i s),
      viewOf i s path = viewOf i t path := by
  intro path hPath
  apply hAgree
  unfold containerReads
  rw [hScript]
  dsimp only
  rw [hCommand]
  exact Or.inr ⟨path, hPath, rfl⟩

omit [Linked ι] in

/- So the next command does the same. -/
theorem runNext_congr
    {toolchain : Toolchain} {position : Nat}
    (hAgree :
      AgreeOn (containerReads i position s) s t) :
    runNext tools i toolchain position t =
      runNext tools i toolchain position s := by
  unfold runNext
  rw [buildScript_of_agreeOn hAgree]
  split
  · rename_i commands hScript
    split
    · rfl
    · rename_i command hCommand
      have hView :=
        view_of_agreeOn hScript hCommand hAgree
      rw [Command.effect_congr tools toolchain hView]
  · rfl

omit [Linked ι] in

/- And reads the same. -/
theorem containerReads_congr
    {position : Nat}
    (hAgree :
      AgreeOn (containerReads i position s) s t) :
    containerReads i position t =
      containerReads i position s := by
  unfold containerReads
  rw [buildScript_of_agreeOn hAgree]
  split
  · rename_i commands hScript
    split
    · rfl
    · rename_i command hCommand
      have hView :=
        view_of_agreeOn hScript hCommand hAgree
      rw [Command.reads_congr hView]
  · rfl

end Locality

/- A build as a process. -/
def buildProcess
    {ι : Type} [Linked ι]
    (tools : Tools) (i : ι) (config : Config) :
    Process (Stage ι) (Loc ι) Content where
  step := next tools i config
  reads := reads i config
  outputs := outputs i
  step_congr p s t hAgree := by
    cases p with
    | start => simp only [next, stage_congr hAgree]
    | staged => simp only [next, acquire_congr hAgree]
    | scriptWritten =>
        have hImage : s .builderImage = t .builderImage :=
          hAgree _ rfl
        simp only [next, hImage]
    | container toolchain position =>
        simp only [next, runNext_congr hAgree]
    | exited => simp only [next, collect_congr hAgree]
    | collected artifacts =>
        simp only [next, record_congr hAgree]
    | _ => rfl
  reads_congr p s t hAgree := by
    cases p with
    | container toolchain position =>
        exact containerReads_congr hAgree
    | _ => rfl

------------------------------------------------------------
-- A Build Alone
------------------------------------------------------------

section Alone

variable {ι : Type} [DecidableEq ι] [Linked ι]
variable (tools : Tools) (i : ι) (config : Config)
variable (s₀ : Files ι)

/- The app was found in the files as they were staged. -/
def Acquired (app : AcquiredApp) (s : Files ι) : Prop :=
  ∃ staged,
    stage i config s₀ = .ok staged ∧
      s = apply staged s₀ ∧
      acquire i config s = .ok app

/- The script is ready to run in its image. -/
def Prepared (script : List Command) (s : Files ι) : Prop :=
  ∃ app u,
    Acquired i config s₀ app u ∧
      (∃ dir, hostDistDir i config = .ok dir) ∧
      generateBuildScript (links i) config app = .ok script ∧
      s = prepared tools config script u

/- The script has run as far as the position. -/
def Ran
    (script : List Command) (position : Nat) (s : Files ι) :
    Prop :=
  ∃ u,
    Prepared tools i config s₀ script u ∧
      runCommands tools
          (buildArgsFor tools config.toolchain
            config.storage.mode)
          i (script.take position) u = .ok s

/- What is true of the files at each stage of a build. -/
def Reached : Stage ι → Files ι → Prop
| .start, s => s = s₀
| .staged, s =>
    ∃ staged,
      stage i config s₀ = .ok staged ∧ s = apply staged s₀
| .acquired app, s => Acquired i config s₀ app s
| .imageBuilt app, s =>
    ∃ u,
      Acquired i config s₀ app u ∧
        (∃ dir, hostDistDir i config = .ok dir) ∧
        s = apply (buildToolchainImage tools config) u
| .kconfigWritten app, s =>
    ∃ u,
      Acquired i config s₀ app u ∧
        (∃ dir, hostDistDir i config = .ok dir) ∧
        s =
          apply (writeExtraKconfig config)
            (apply (buildToolchainImage tools config) u)
| .scriptWritten, s =>
    ∃ script, Prepared tools i config s₀ script s
| .container toolchain position, s =>
    toolchain =
        buildArgsFor tools config.toolchain
          config.storage.mode ∧
      ∃ script, Ran tools i config s₀ script position s
| .exited, s =>
    ∃ script,
      Ran tools i config s₀ script script.length s
| .collected artifacts, s =>
    (∃ script,
      Ran tools i config s₀ script script.length s) ∧
      collect tools i config s = .ok artifacts
| .done artifacts, s =>
    ∃ u ws,
      (∃ script,
        Ran tools i config s₀ script script.length u) ∧
        collect tools i config u = .ok artifacts ∧
        record i config artifacts u = .ok ws ∧
        s = apply ws u
| .failed, _ => True

variable {tools i config s₀}

omit [DecidableEq ι] [Linked ι] in
/- A result to go on with, or the end. -/
theorem proceed_eq
    {α : Type} {result : Except BuildError α}
    {go : α → Stage ι × Writes (Loc ι) Content}
    {q : Stage ι} {ws : Writes (Loc ι) Content}
    (hProceed : proceed result go = (q, ws)) :
    q = .failed ∧ ws = [] ∨
      ∃ a, result = .ok a ∧ go a = (q, ws) := by
  cases result with
  | error error =>
      cases hProceed
      exact Or.inl ⟨rfl, rfl⟩
  | ok a => exact Or.inr ⟨a, rfl, hProceed⟩

/- No command changes the script that it is part of. -/
theorem buildScript_of_ran
    {script : List Command} {position : Nat} {s : Files ι}
    (hRan : Ran tools i config s₀ script position s) :
    s .buildScript = some (.script script) := by
  rcases hRan with ⟨u, ⟨app, v, _, _, _, rfl⟩, hRun⟩
  rw [runCommands_of_not_target tools _ i hRun,
    prepared_buildScript]
  intro command _ path _ hLoc
  cases path <;> cases hLoc

/- What is reached goes on to be reached. -/
theorem reached_runNext
    {toolchain : Toolchain} {position : Nat}
    {s : Files ι} {q : Stage ι}
    {ws : Writes (Loc ι) Content}
    (hReached :
      Reached tools i config s₀
        (.container toolchain position) s)
    (hNext :
      runNext tools i toolchain position s = (q, ws)) :
    Reached tools i config s₀ q (apply ws s) := by
  rcases hReached with ⟨rfl, script, hRan⟩
  have hScript := buildScript_of_ran hRan
  unfold runNext at hNext
  rw [hScript] at hNext
  dsimp only at hNext
  cases hCommand : script[position]? with
  | none =>
      rw [hCommand] at hNext
      cases hNext
      have hLength : script.length ≤ position :=
        List.getElem?_eq_none_iff.1 hCommand
      rcases hRan with ⟨u, hPrepared, hRun⟩
      refine ⟨script, u, hPrepared, ?_⟩
      rw [List.take_of_length_le hLength] at hRun
      rw [List.take_length, apply_nil]
      exact hRun
  | some command =>
      rw [hCommand] at hNext
      dsimp only at hNext
      split at hNext
      · rename_i hOk
        cases hNext
        refine ⟨rfl, script, ?_⟩
        rcases hRan with ⟨u, hPrepared, hRun⟩
        refine ⟨u, hPrepared, ?_⟩
        rw [List.take_add_one, hCommand]
        rw [runCommands_append_eq_ok_iff]
        refine ⟨s, hRun, ?_⟩
        rw [Option.toList_some, runCommands_cons_eq_ok_iff]
        exact ⟨hOk, rfl⟩
      · cases hNext
        trivial

/- One step of a build. -/
theorem reached_next
    {p q : Stage ι} {s : Files ι}
    {ws : Writes (Loc ι) Content}
    (hReached : Reached tools i config s₀ p s)
    (hNext : next tools i config p s = some (q, ws)) :
    Reached tools i config s₀ q (apply ws s) := by
  cases p with
  | start =>
      cases hReached
      rcases proceed_eq (Option.some.inj hNext) with
        ⟨rfl, rfl⟩ | ⟨staged, hStage, hGo⟩
      · trivial
      · cases hGo
        exact ⟨ws, hStage, rfl⟩
  | staged =>
      rcases hReached with ⟨staged, hStage, rfl⟩
      rcases proceed_eq (Option.some.inj hNext) with
        ⟨rfl, rfl⟩ | ⟨app, hAcquire, hGo⟩
      · trivial
      · cases hGo
        exact ⟨staged, hStage, rfl, hAcquire⟩
  | acquired app =>
      rcases proceed_eq (Option.some.inj hNext) with
        ⟨rfl, rfl⟩ | ⟨dir, hDir, hGo⟩
      · trivial
      · cases hGo
        exact ⟨s, hReached, ⟨dir, hDir⟩, rfl⟩
  | imageBuilt app =>
      rcases hReached with ⟨u, hAcquired, hDir, rfl⟩
      cases hNext
      exact ⟨u, hAcquired, hDir, rfl⟩
  | kconfigWritten app =>
      rcases hReached with ⟨u, hAcquired, hDir, rfl⟩
      rcases proceed_eq (Option.some.inj hNext) with
        ⟨rfl, rfl⟩ | ⟨script, hScript, hGo⟩
      · trivial
      · cases hGo
        exact
          ⟨script, app, u, hAcquired, hDir, hScript, rfl⟩
  | scriptWritten =>
      rcases hReached with ⟨script, hPrepared⟩
      have hImage :
          s .builderImage =
            some
              (.toolchain
                (buildArgsFor tools config.toolchain
                  config.storage.mode)) := by
        rcases hPrepared with ⟨app, u, _, _, _, rfl⟩
        exact prepared_builderImage script u
      simp only [next, hImage] at hNext
      cases hNext
      refine ⟨rfl, script, s, hPrepared, ?_⟩
      rfl
  | container toolchain position =>
      exact reached_runNext hReached (Option.some.inj hNext)
  | exited =>
      rcases proceed_eq (Option.some.inj hNext) with
        ⟨rfl, rfl⟩ | ⟨artifacts, hCollect, hGo⟩
      · trivial
      · cases hGo
        exact ⟨hReached, hCollect⟩
  | collected artifacts =>
      rcases hReached with ⟨hRan, hCollect⟩
      rcases proceed_eq (Option.some.inj hNext) with
        ⟨rfl, rfl⟩ | ⟨_, hRecord, hGo⟩
      · trivial
      · cases hGo
        exact ⟨s, ws, hRan, hCollect, hRecord, rfl⟩
  | done artifacts => cases hNext
  | failed => cases hNext

/- A process that is done alone has done a whole build. -/
theorem alone_eq_build
    {artifacts : BuildArtifacts ι} {t : Files ι}
    (hReach :
      ((buildProcess tools i config).alone .start
        s₀).Reachable (.done artifacts, t)) :
    ∃ built : Built tools i config s₀ t,
      collectArtifacts tools i config built.mid =
        .ok artifacts := by
  have hReached : Reached tools i config s₀ (.done artifacts) t := by
    apply hReach.invariant (P := fun state =>
      Reached tools i config s₀ state.1 state.2)
    · rintro state rfl
      exact rfl
    · rintro ⟨p, s⟩ _ ⟨q, u⟩ hReached _ hStep
      have hMap :
          ((next tools i config p s).map fun after =>
              (after.1, apply after.2 s)) = some (q, u) :=
        hStep
      rw [Option.map_eq_some_iff] at hMap
      rcases hMap with ⟨⟨r, ws⟩, hNext, hEq⟩
      cases hEq
      exact reached_next hReached hNext
  rcases hReached with
    ⟨mid, ws, ⟨script, u, hPrepared, hRun⟩, hCollect, hRecord,
      rfl⟩
  rcases hPrepared with
    ⟨app, v, ⟨staged, hStage, rfl, hAcquire⟩, hDir, hScript,
      rfl⟩
  rw [List.take_length] at hRun
  unfold collect at hCollect
  rcases (bind_eq_ok_iff _ _ _).1 hCollect with
    ⟨found, hFound, hRest⟩
  rw [unit_bind_eq_ok_iff] at hRest
  rcases hRest with ⟨hFormats, hSame⟩
  cases hSame
  refine
    ⟨{ staged := staged
       app := app
       script := script
       mid := mid
       stage_eq := hStage
       acquire_eq := hAcquire
       hostDistDir_eq := hDir
       script_eq := hScript
       run_eq := hRun
       finish_eq := ?_ }, hFound⟩
  unfold finishBuild
  rw [hFound, ok_bind, unit_bind_eq_ok_iff]
  refine ⟨hFormats, ?_⟩
  unfold record at hRecord
  unfold recordMeasurement
  split
  · rename_i hKind
    rw [if_pos hKind] at hRecord
    rw [hRecord]
    rfl
  · rename_i hKind
    rw [if_neg hKind] at hRecord
    cases hRecord
    rfl

end Alone

------------------------------------------------------------
-- What Is Still Needed
------------------------------------------------------------

section Needed

variable {ι : Type} [Linked ι]
variable (tools : Tools) (i : ι) (config : Config)

/- What is needed while a script is run. -/
def containerNeeds
    (position : Nat) (s : Files ι) : Set (Loc ι) :=
  match s .buildScript with
  | some (.script commands) =>
      { loc | loc = .buildScript ∨
        ∃ path ∈
            needs (atTheEnd config) (commands.drop position),
          loc = path.loc i }
  | _ => { .buildScript }

/- What is needed for the script, as it will be written. -/
def scriptNeeds : Set (Loc ι) :=
  { loc | ∃ path ∈ kept config, loc = path.loc i }

/- All that a build may need of what is there. -/
def mayNeed : Stage ι → Files ι → Set (Loc ι)
| .start, _ | .staged, _ | .acquired _, _ =>
    { loc | loc ∈ scriptNeeds i config ∧ loc ≠ .extraKconfig }
| .imageBuilt _, _ =>
    { loc | loc = .builderImage ∨
      loc ∈ scriptNeeds i config ∧ loc ≠ .extraKconfig }
| .kconfigWritten _, _ =>
    { loc | loc = .builderImage ∨ loc ∈ scriptNeeds i config }
| .scriptWritten, s =>
    { loc | loc = .builderImage ∨
      loc ∈ containerNeeds i config 0 s }
| .container _ position, s =>
    containerNeeds i config position s
| .exited, _ =>
    { loc | ∃ path ∈ atTheEnd config, loc = path.loc i }
| .collected artifacts, _ =>
    { loc | artifacts.sevMeasurement = some loc ∨
      loc ∈ ownFiles i }
| .done _, _ => ownFiles i
| .failed, _ => ∅

variable {tools i config}

omit [Linked ι] in
/- The files of the project are needed all the time. -/
theorem ownFiles_subset_scriptNeeds :
    ownFiles i ⊆
      { loc | loc ∈ scriptNeeds i config ∧
        loc ≠ .extraKconfig } := by
  rintro loc ⟨file, rfl⟩
  refine ⟨⟨.workspace file, Or.inl rfl, rfl⟩, ?_⟩
  simp

/- What is read when the container has ended. -/
theorem artifactFiles_subset_atTheEnd :
    artifactFiles i config ⊆
      { loc | ∃ path ∈ atTheEnd config, loc = path.loc i } := by
  rintro loc (⟨file, rfl⟩ | ⟨kind, hKind, rfl⟩ | ⟨file, rfl⟩)
  · exact ⟨.workspace file, Or.inl rfl, rfl⟩
  · unfold artifactLoc
    split
    · refine ⟨distImage (links i) config kind, ?_, rfl⟩
      exact Or.inl rfl
    · refine ⟨stagedImage config kind, ?_, rfl⟩
      rcases hKind with rfl | rfl
      · exact Or.inr (Or.inl (Or.inl rfl))
      · exact Or.inr (Or.inl (Or.inr rfl))
  · exact ⟨.hash file, Or.inr (Or.inr rfl), rfl⟩

omit [Linked ι] in

/- What is read next is needed. -/
theorem containerReads_subset_containerNeeds
    (position : Nat) (s : Files ι) :
    containerReads i position s ⊆
      containerNeeds i config position s := by
  unfold containerReads containerNeeds
  split
  · rename_i commands hScript
    split
    · rintro loc rfl
      exact Or.inl rfl
    · rename_i command hCommand
      rintro loc (rfl | ⟨path, hRead, rfl⟩)
      · exact Or.inl rfl
      · refine Or.inr ⟨path, ?_, rfl⟩
        rw [List.drop_eq_getElem?_toList_append, hCommand]
        left
        exact
          Command.reads_subset_mayRead _ command hRead
  · exact subset_rfl

variable [DecidableEq ι]

omit [Linked ι] in
/- The script is not among what commands write. -/
theorem apply_hostWrites_buildScript
    (ws : Writes Path Content) (s : Files ι) :
    apply (hostWrites i ws) s .buildScript =
      s .buildScript := by
  apply apply_of_not_mem
  unfold written hostWrites
  rw [List.map_map, List.mem_map]
  rintro ⟨entry, _, hLoc⟩
  rcases entry with ⟨path, content⟩
  cases path <;> cases hLoc

omit [Linked ι] in
/- One command, and what the rest of the script needs. -/
theorem mayNeed_runNext
    {toolchain : Toolchain} {position : Nat} {s : Files ι}
    {q : Stage ι} {ws : Writes (Loc ι) Content} {loc : Loc ι}
    (hNext : runNext tools i toolchain position s = (q, ws))
    (hNot : loc ∉ written ws)
    (hNeed : loc ∈ mayNeed i config q (apply ws s)) :
    loc ∈ containerNeeds i config position s := by
  unfold runNext at hNext
  unfold containerNeeds
  split at hNext
  · rename_i commands hScript
    cases hCommand : commands[position]? with
    | none =>
        rw [hCommand] at hNext
        cases hNext
        rcases hNeed with ⟨path, hPath, rfl⟩
        refine Or.inr ⟨path, ?_, rfl⟩
        rw [List.drop_eq_nil_of_le
          (List.getElem?_eq_none_iff.1 hCommand)]
        exact hPath
    | some command =>
        rw [hCommand] at hNext
        dsimp only at hNext
        split at hNext
        · rename_i hOk
          cases hNext
          change loc ∈ containerNeeds i config _ _ at hNeed
          unfold containerNeeds at hNeed
          rw [apply_hostWrites_buildScript, hScript] at hNeed
          rcases hNeed with rfl | ⟨path, hPath, rfl⟩
          · exact Or.inl rfl
          · refine Or.inr ⟨path, ?_, rfl⟩
            rw [List.drop_eq_getElem?_toList_append, hCommand]
            refine Or.inr ⟨?_, hPath⟩
            intro hOver
            apply hNot
            have hWritten :=
              Command.mem_written_of_overwrites hOk hOver
            unfold written hostWrites at *
            rw [List.map_map]
            rw [List.mem_map] at hWritten ⊢
            rcases hWritten with ⟨entry, hEntry, rfl⟩
            exact ⟨entry, hEntry, rfl⟩
        · cases hNext
          exact hNeed.elim
  · cases hNext
    exact hNeed.elim

omit [DecidableEq ι] in
/- A step reads no more than that. -/
theorem reads_subset_mayNeed (p : Stage ι) (s : Files ι) :
    reads i config p s ⊆ mayNeed i config p s := by
  cases p with
  | start | staged => exact ownFiles_subset_scriptNeeds
  | scriptWritten => exact fun loc hMem => Or.inl hMem
  | container toolchain position =>
      exact containerReads_subset_containerNeeds position s
  | exited => exact artifactFiles_subset_atTheEnd
  | collected artifacts => exact fun loc hMem => Or.inl hMem
  | _ => exact Set.empty_subset _

/- What is needed after a step that has not written it. -/
theorem mayNeed_next
    {config : ValidConfig}
    (p : Stage ι) (s : Files ι) (q : Stage ι)
    (ws : Writes (Loc ι) Content)
    (hNext : next tools i config.config p s = some (q, ws))
    (loc : Loc ι) (hNot : loc ∉ written ws)
    (hNeed : loc ∈ mayNeed i config.config q (apply ws s)) :
    loc ∈ mayNeed i config.config p s := by
  cases p with
  | start | staged =>
      rcases proceed_eq (Option.some.inj hNext) with
        ⟨rfl, rfl⟩ | ⟨_, _, hGo⟩
      · exact hNeed.elim
      · cases hGo
        exact hNeed
  | acquired app =>
      rcases proceed_eq (Option.some.inj hNext) with
        ⟨rfl, rfl⟩ | ⟨_, _, hGo⟩
      · exact hNeed.elim
      · cases hGo
        rcases hNeed with rfl | hKept
        · exact absurd List.mem_cons_self hNot
        · exact hKept
  | imageBuilt app =>
      cases hNext
      rcases hNeed with rfl | ⟨path, hPath, rfl⟩
      · exact Or.inl rfl
      · refine Or.inr ⟨⟨path, hPath, rfl⟩, ?_⟩
        intro hLoc
        have hExtra : path = .extraKconfig :=
          Path.loc_injective i hLoc
        subst hExtra
        -- the fragment is written wherever one is read
        rcases hPath with hArea | ⟨_, hHas⟩ | ⟨hHash, _⟩
        · cases hArea
        · apply hNot
          unfold writeExtraKconfig written
          rw [if_pos hHas]
          exact List.mem_cons_self
        · cases hHash
  | kconfigWritten app =>
      rcases proceed_eq (Option.some.inj hNext) with
        ⟨rfl, rfl⟩ | ⟨script, hScript, hGo⟩
      · exact hNeed.elim
      · cases hGo
        rcases hNeed with rfl | hNeed
        · exact Or.inl rfl
        · unfold containerNeeds writeScript at hNeed
          rw [apply_cons_self] at hNeed
          rcases hNeed with rfl | ⟨path, hPath, rfl⟩
          · exact absurd List.mem_cons_self hNot
          · refine Or.inr ⟨path, ?_, rfl⟩
            exact needs_generateBuildScript hScript hPath
  | scriptWritten =>
      unfold next at hNext
      dsimp only at hNext
      split at hNext
      · cases hNext
        exact Or.inr hNeed
      · cases hNext
        exact hNeed.elim
  | container toolchain position =>
      exact
        mayNeed_runNext (Option.some.inj hNext) hNot hNeed
  | exited =>
      rcases proceed_eq (Option.some.inj hNext) with
        ⟨rfl, rfl⟩ | ⟨artifacts, hCollect, hGo⟩
      · exact hNeed.elim
      · cases hGo
        unfold collect at hCollect
        rw [bind_eq_ok_iff] at hCollect
        rcases hCollect with ⟨found, hFound, hRest⟩
        rw [unit_bind_eq_ok_iff] at hRest
        cases hRest.2
        rcases hNeed with hTxt | ⟨file, rfl⟩
        · rw [sevMeasurement_of_collectArtifacts hFound hTxt]
          exact ⟨distFile (links i) _ _, Or.inl rfl, rfl⟩
        · exact ⟨.workspace file, Or.inl rfl, rfl⟩
  | collected artifacts =>
      rcases proceed_eq (Option.some.inj hNext) with
        ⟨rfl, rfl⟩ | ⟨_, _, hGo⟩
      · exact hNeed.elim
      · cases hGo
        exact Or.inr hNeed
  | done artifacts => cases hNext
  | failed => cases hNext

/- What counts for the end of a build. -/
theorem live_subset_mayNeed
    {config : ValidConfig} (p : Stage ι) (s : Files ι) :
    (buildProcess tools i config.config).live p s ⊆
      mayNeed i config.config p s := by
  apply Process.live_subset
  · exact reads_subset_mayNeed
  · exact mayNeed_next
  · intro p s _ loc hOutput
    cases p with
    | done artifacts => exact hOutput
    | _ => exact hOutput.elim

end Needed

------------------------------------------------------------
-- Builds at the Same Time
------------------------------------------------------------

section Together

variable {ι : Type} [DecidableEq ι] [Linked ι]
variable (tools : Tools) (configs : ι → ValidConfig)

/- One build for each project. -/
def processes (i : ι) :
    Process (Stage ι) (Loc ι) Content :=
  buildProcess tools i (configs i).config

/- Every project is built once, from the same files. -/
def builds (s₀ : Files ι) :
    Transition.System
      (World ι (Stage ι) (Loc ι) Content) ι :=
  interleaved (processes tools configs) (fun _ => .start) s₀

variable {tools configs}

/-
  A build that is done has the artifacts, the hashes and the
  project's files that it has alone, in any run whose steps
  leave the files alone that others are yet to read.
-/
theorem concurrent_build
    {s₀ : Files ι} {w : World ι (Stage ι) (Loc ι) Content}
    (hReach :
      (builds tools configs s₀).ReachableUnder
        (Undisturbing (processes tools configs)) w)
    {i : ι} {artifacts : BuildArtifacts ι}
    (hDone : w.locals i = .done artifacts) :
    ∃ t,
      build tools i (configs i).config s₀ = .ok t ∧
        (∃ built : Built tools i (configs i).config s₀ t,
          collectArtifacts tools i (configs i).config
              built.mid = .ok artifacts) ∧
        ∀ file,
          w.store (.project i file) =
            t (.project i file) := by
  have hEnd :
      ∀ s, (processes tools configs i).step (w.locals i) s =
        none := by
    intro s
    rw [hDone]
    rfl
  rcases outputs_of_undisturbed hReach hEnd with
    ⟨t, hAlone, hAgree⟩
  rw [hDone] at hAlone hAgree
  rcases alone_eq_build hAlone with ⟨built, hArtifacts⟩
  refine
    ⟨t, build_eq_ok_iff.2 ⟨built⟩, ⟨built, hArtifacts⟩, ?_⟩
  intro file
  exact (hAgree _ ⟨file, rfl⟩).symm

end Together

------------------------------------------------------------
-- Taking Turns
------------------------------------------------------------

section Turns

variable {ι : Type} [DecidableEq ι] [Linked ι]
variable {tools : Tools}

/- The project that a place belongs to, if it is not shared. -/
def ownerOf : Loc ι → Option ι
| .project i _ | .embeddedOvmf i | .appTarget i => some i
| _ => none

omit [DecidableEq ι] [Linked ι] in

/-
  A place in a container is shared, or the project's own.
-/
theorem ownerOf_loc {i : ι} (path : Path) :
    ownerOf (path.loc i) = none ∨
      ownerOf (path.loc i) = some i := by
  cases path <;> simp [Path.loc, ownerOf]

omit [DecidableEq ι] in
/- The record is written in the project. -/
theorem written_record
    {i : ι} {config : Config} {artifacts : BuildArtifacts ι}
    {s : Files ι} {ws : Writes (Loc ι) Content}
    (hRecord : record i config artifacts s = .ok ws)
    {loc : Loc ι} (hMem : loc ∈ written ws) :
    ownerOf loc = some i := by
  unfold record at hRecord
  split at hRecord
  · unfold compute at hRecord
    split at hRecord
    · cases hRecord
    · rw [bind_eq_ok_iff] at hRecord
      rcases hRecord with ⟨hex, _, hWrite⟩
      unfold writeSidecar at hWrite
      split at hWrite
      · cases hWrite
      · cases hWrite
        rw [List.mem_singleton.1 hMem]
        rfl
  · cases hRecord
    cases hMem

omit [DecidableEq ι] in
/- A build writes to no other project. -/
theorem ownerOf_of_written
    {i : ι} {config : Config} {p q : Stage ι} {s : Files ι}
    {ws : Writes (Loc ι) Content}
    (hNext : next tools i config p s = some (q, ws))
    {loc : Loc ι} (hMem : loc ∈ written ws) :
    ownerOf loc = none ∨ ownerOf loc = some i := by
  cases p with
  | start =>
      rcases proceed_eq (Option.some.inj hNext) with
        ⟨rfl, rfl⟩ | ⟨staged, hStage, hGo⟩
      · cases hMem
      · cases hGo
        rcases written_stage hStage with rfl | ⟨bytes, rfl⟩
        · cases hMem
        · rw [List.mem_singleton.1 hMem]
          exact Or.inr rfl
  | staged | exited =>
      rcases proceed_eq (Option.some.inj hNext) with
        ⟨rfl, rfl⟩ | ⟨_, _, hGo⟩
      · cases hMem
      · cases hGo
        cases hMem
  | acquired app =>
      rcases proceed_eq (Option.some.inj hNext) with
        ⟨rfl, rfl⟩ | ⟨_, _, hGo⟩
      · cases hMem
      · cases hGo
        rw [List.mem_singleton.1 hMem]
        exact Or.inl rfl
  | imageBuilt app =>
      cases hNext
      unfold writeExtraKconfig at hMem
      split at hMem
      · rw [List.mem_singleton.1 hMem]
        exact Or.inl rfl
      · cases hMem
  | kconfigWritten app =>
      rcases proceed_eq (Option.some.inj hNext) with
        ⟨rfl, rfl⟩ | ⟨script, _, hGo⟩
      · cases hMem
      · cases hGo
        rw [List.mem_singleton.1 hMem]
        exact Or.inl rfl
  | scriptWritten =>
      unfold next at hNext
      dsimp only at hNext
      split at hNext
      · cases hNext
        cases hMem
      · cases hNext
        cases hMem
  | container toolchain position =>
      have hRun := Option.some.inj hNext
      unfold runNext at hRun
      split at hRun
      · split at hRun
        · cases hRun
          cases hMem
        · cases hRun
          unfold written hostWrites at hMem
          rw [List.map_map, List.mem_map] at hMem
          rcases hMem with ⟨entry, _, rfl⟩
          exact ownerOf_loc entry.1
      · cases hRun
        cases hMem
  | collected artifacts =>
      rcases proceed_eq (Option.some.inj hNext) with
        ⟨rfl, rfl⟩ | ⟨_, hRecord, hGo⟩
      · cases hMem
      · cases hGo
        exact Or.inr (written_record hRecord hMem)
  | done artifacts => cases hNext
  | failed => cases hNext

/- A build that has not begun, or that has ended. -/
def Idle : Stage ι → Prop
| .start | .done _ | .failed => True
| _ => False

omit [DecidableEq ι] [Linked ι] in
/- It needs nothing but the files of its own project. -/
theorem ownerOf_of_mayNeed
    {i : ι} {config : Config} {p : Stage ι} {s : Files ι}
    {loc : Loc ι}
    (hIdle : Idle p) (hKind : config.profile.kind = .sevSnp)
    (hNeed : loc ∈ mayNeed i config p s) :
    ownerOf loc = some i := by
  cases p with
  | start =>
      rcases hNeed with ⟨⟨path, hPath, rfl⟩, hLoc⟩
      rcases hPath with hArea | ⟨rfl, _⟩ | ⟨_, hCasual⟩
      · cases path <;> cases hArea <;> rfl
      · exact absurd rfl hLoc
      · exact absurd hKind hCasual
  | done artifacts =>
      rcases hNeed with ⟨file, rfl⟩
      rfl
  | failed => exact hNeed.elim
  | _ => exact hIdle.elim

variable {configs : ι → ValidConfig}

/-
  A build of one project does not disturb the others while
  they have not begun or have ended. Only a casual build looks
  at a digest that it has not written.
-/
theorem undisturbing_of_idle
    {w : World ι (Stage ι) (Loc ι) Content} {i : ι}
    (hIdle : ∀ j, j ≠ i → Idle (w.locals j))
    (hKind :
      ∀ j, (configs j).config.profile.kind = .sevSnp) :
    Undisturbing (processes tools configs) w i := by
  intro w' hStep j hOther loc hLive
  rcases stepOf_eq_some hStep with ⟨q, ws, hNext, hStore, _⟩
  have hNeed := live_subset_mayNeed _ _ hLive
  have hOwner :=
    ownerOf_of_mayNeed (hIdle j hOther) (hKind j) hNeed
  rw [hStore, apply_of_not_mem]
  intro hMem
  rcases ownerOf_of_written hNext hMem with hNone | hSome
  · rw [hOwner] at hNone
    cases hNone
  · rw [hOwner] at hSome
    exact hOther (Option.some.inj hSome)

/- So one of them can go on for as long as they wait. -/
theorem reachable_of_turn
    {s₀ : Files ι} {w w' : World ι (Stage ι) (Loc ι) Content}
    {i : ι} {steps : Nat}
    (hKind :
      ∀ j, (configs j).config.profile.kind = .sevSnp)
    (hIdle : ∀ j, j ≠ i → Idle (w.locals j))
    (hReach :
      (builds tools configs s₀).ReachableUnder
        (Undisturbing (processes tools configs)) w)
    (hRun :
      (builds tools configs s₀).run w
        (List.replicate steps i) = some w') :
    (builds tools configs s₀).ReachableUnder
        (Undisturbing (processes tools configs)) w' ∧
      ∀ j, j ≠ i → Idle (w'.locals j) := by
  refine
    hReach.run_of_invariant
      (P := fun u => ∀ j, j ≠ i → Idle (u.locals j))
      ?_ hIdle hRun
  intro j hMem u u' hWait hStep
  rw [List.eq_of_mem_replicate hMem] at hStep ⊢
  refine ⟨undisturbing_of_idle hWait hKind, ?_⟩
  rcases stepOf_eq_some hStep with ⟨q, _, _, _, hLocals⟩
  intro k hOther
  rw [hLocals, Function.update_of_ne hOther]
  exact hWait k hOther

end Turns

------------------------------------------------------------
-- Two Projects
------------------------------------------------------------

/- Tools that pack nothing but the app. -/
def packingTools : Tools :=
  { sampleTools with
    archive := fun members =>
      ((members.filter fun member =>
        member.entry = .file .app).head?.bind
          Member.content).getD (.data []) }

/- Two projects without links. -/
instance : Linked Bool where
  links := fun _ => .plain

/- Two packages with different contents. -/
def twoProjects : Files Bool := fun loc =>
  (packageFiles false (.data [0xaa]) ++
    packageFiles true (.data [0xbb]) ++
      [(fileLoc true (.inside ["fw.fd".toList]),
          Content.data [0xcc]),
        (.embeddedOvmf false, .data [0xdd])]).lookup loc

/- One with the embedded firmware, and one with a file. -/
def firmwareConfigs : Bool → ValidConfig
| false => presetConfig
| true => pathConfig

/- Nothing has been started. -/
def notStarted {ι : Type} (s₀ : Files ι) :
    World ι (Stage ι) (Loc ι) Content where
  store := s₀
  locals := fun _ => .start

/- Two projects that are built one after the other. -/
theorem concurrent_build_in_turn :
    ∃ w first second,
      (builds packingTools firmwareConfigs
            twoProjects).ReachableUnder
          (Undisturbing
            (processes packingTools firmwareConfigs)) w ∧
        w.locals false = .done first ∧
        w.locals true = .done second ∧
        ∀ i, ∃ t,
          build packingTools i (firmwareConfigs i).config
              twoProjects = .ok t ∧
            ∀ file,
              w.store (.project i file) =
                t (.project i file) := by
  have hRun :
      ∃ v w first second,
        (builds packingTools firmwareConfigs
              twoProjects).run (notStarted twoProjects)
              (List.replicate 28 false) = some v ∧
          v.locals false = .done first ∧
          (builds packingTools firmwareConfigs
              twoProjects).run v
              (List.replicate 28 true) = some w ∧
          w.locals false = .done first ∧
          w.locals true = .done second :=
    ⟨_, _, _, _, rfl, rfl, rfl, rfl, rfl⟩
  rcases hRun with
    ⟨v, w, first, second, hFirst, hWaiting, hSecond, hDone,
      hLast⟩
  have hKind :
      ∀ j,
        (firmwareConfigs j).config.profile.kind =
          .sevSnp := by
    intro j
    cases j with
    | false => rfl
    | true => rfl
  have hWaits :
      ∀ j, j ≠ false →
        Idle
          ((notStarted twoProjects).locals j) :=
    fun _ _ => trivial
  have hMiddle :=
    reachable_of_turn hKind hWaits (.start rfl) hFirst
  have hIdle : ∀ j, j ≠ true → Idle (v.locals j) := by
    intro j hOther
    rw [Bool.eq_false_iff.2 hOther, hWaiting]
    trivial
  have hReach :=
    (reachable_of_turn hKind hIdle hMiddle.1 hSecond).1
  refine ⟨w, first, second, hReach, hDone, hLast, ?_⟩
  intro i
  cases i with
  | false =>
      rcases concurrent_build hReach hDone with
        ⟨t, hBuild, _, hSame⟩
      exact ⟨t, hBuild, hSame⟩
  | true =>
      rcases concurrent_build hReach hLast with
        ⟨t, hBuild, _, hSame⟩
      exact ⟨t, hBuild, hSame⟩

/- One project packs the app that another has just put in. -/
theorem other_app_packed :
    ∃ w artifacts t,
      (builds packingTools (fun _ => cpioConfig)
            twoProjects).Reachable w ∧
        w.locals false = .done artifacts ∧
        build packingTools false cpioConfig.config
            twoProjects = .ok t ∧
        w.store
            (distLoc false cpioConfig.config
              (.image cpioConfig.config.project.name .cpio)) ≠
          t (distLoc false cpioConfig.config
            (.image cpioConfig.config.project.name
              .cpio)) := by
  have hRun :
      ∃ w artifacts t,
        (builds packingTools (fun _ => cpioConfig)
              twoProjects).run (notStarted twoProjects)
              (List.replicate 13 false ++
                List.replicate 13 true ++
                  List.replicate 12 false) = some w ∧
          w.locals false = .done artifacts ∧
          build packingTools false cpioConfig.config
              twoProjects = .ok t ∧
          w.store
                (distLoc false cpioConfig.config
                  (.image cpioConfig.config.project.name
                    .cpio)) =
              some (.data [0xbb]) ∧
          t (distLoc false cpioConfig.config
                (.image cpioConfig.config.project.name
                  .cpio)) =
              some (.data [0xaa]) :=
    ⟨_, _, _, rfl, rfl, rfl, rfl, rfl⟩
  rcases hRun with
    ⟨w, artifacts, t, hRun, hDone, hBuild, hTogether, hAlone⟩
  refine
    ⟨w, artifacts, t, .run (.start rfl) hRun, hDone, hBuild,
      ?_⟩
  rw [hTogether, hAlone]
  simp

end Concurrent

end Pipeline

end CargoUnikernel
