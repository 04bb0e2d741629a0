import CargoUnikernel.BuildKernel.Soundness
import Mathlib.Algebra.Group.Nat.Defs

/-
  What a build makes of a cache entry that is not whole.

  An entry whose image is there is either used or removed, and
  one that is not there is made. An entry without its image is
  neither: it stays, what is compiled is moved into it, and
  the next build compiles again.

  Main declarations:
    * `Succeeds`, `Headless`, `Repaired`
    * `AtRepair`, `complete_mends`, `mended_of_succeeds`
    * `FromCache`, `repaired_of_hit`
    * `repaired_iff`
-/

------------------------------------------------------------
-- Runs That Succeed
------------------------------------------------------------

namespace CargoUnikernel

namespace BuildKernel

section Repair

variable (sum : Checksum)
variable (unpack : Text → Option (List Text))

/- A command of a run ends, and ends well. -/
def Goes : Event → Prop
| .completes | .answers _ | .compiles _ _ => True
| .begin _ | .fails _ _ _ | .killed _ _ | .corrupts _ _
| .replacesTarball _ _ => False

/- One run, from its start to its end with success. -/
def Succeeds (inputs : Inputs) (w u : World) : Prop :=
  ∃ events,
    (∀ event ∈ events, Goes event) ∧
      (system sum unpack).run w (.begin inputs :: events) =
        some u ∧
      u.phase = .exited inputs 0

/- The directory of an entry is there, but not its image. -/
def Headless (entry : Option Entry) : Prop :=
  ∃ there, entry = some there ∧ there.bzImage = none

/-
  The entry is whole, and with the same inputs the next run
  takes it from the cache. Until that run is interrupted or a
  command of it fails, it compiles nothing, and when it ends
  it has succeeded.
-/
structure Repaired
    (inputs : Inputs) (plan : Plan) (w : World) : Prop where
  whole :
    ∃ entry, w.entries plan.fingerprint = some entry ∧
      isHit sum plan entry = true
  again : ∃ u, Succeeds sum unpack inputs w u
  cached :
    ∀ events u,
      (∀ event ∈ events, Goes event) →
        (system sum unpack).run w (.begin inputs :: events) =
          some u →
        u.compilations = w.compilations ∧
          ∀ other status,
            u.phase = .exited other status → status = 0

------------------------------------------------------------
-- The First Run
------------------------------------------------------------

/- The way is clear, unless an entry without image is left. -/
def Cleared
    (old : Option Entry) (plan : Plan) (w : World) : Prop :=
  w.entries plan.fingerprint = none ∧ ¬ Headless old ∨
    w.entries plan.fingerprint = old ∧ Headless old

/- The entry can be used, unless it has been left as it was. -/
def Mended
    (old : Option Entry) (plan : Plan) (w : World) : Prop :=
  (∃ entry, w.entries plan.fingerprint = some entry ∧
      isHit sum plan entry = true) ∧ ¬ Headless old ∨
    w.entries plan.fingerprint = old ∧ Headless old

/- The tree has a configuration that passes the check. -/
def Checked
    (plan : Plan) (w : World) (config symbols : Text) : Prop :=
  w.tree.config = some config ∧
    w.tree.symbols = some symbols ∧
    verifyConfig plan.directives config symbols = []

/- What holds when a build comes to a command. -/
def AtRepair
    (old : Option Entry) (plan : Plan) (w : World) :
    Command → Prop
| .lookup => w.entries plan.fingerprint = old
| .removeEntry => ¬ Headless old
| .restoreImage | .restoreConfig | .report =>
    Mended sum old plan w
| .fetch | .checkTarball | .extract | .indexSymbols
| .configure _ | .verify | .compile | .reverify =>
    Cleared old plan w
| .stageImage =>
    Cleared old plan w ∧
      ∃ config symbols, Checked plan w config symbols
| .stageConfig =>
    Cleared old plan w ∧
      ∃ image config symbols,
        Checked plan w config symbols ∧
          w.stage = { bzImage := some image }
| .stageSymbols =>
    Cleared old plan w ∧
      ∃ image config symbols,
        Checked plan w config symbols ∧
          w.stage =
            { bzImage := some image
              config := some config }
| .stageSums =>
    Cleared old plan w ∧
      ∃ image config symbols,
        Checked plan w config symbols ∧
          w.stage =
            { bzImage := some image
              config := some config
              symbols := some symbols }
| .publish =>
    Cleared old plan w ∧ isHit sum plan w.stage = true

/- What holds of the entry at each point of the run. -/
def InRepair
    (old : Option Entry) (inputs : Inputs) (plan : Plan)
    (w : World) : Prop :=
  match w.phase with
  | .idle => False
  | .started given =>
      given = inputs ∧ w.entries plan.fingerprint = old
  | .running given same command =>
      given = inputs ∧ same = plan ∧
        AtRepair sum old plan w command
  | .exited given status =>
      given = inputs ∧ (status = 0 → Mended sum old plan w)

variable {sum unpack}

/- The files of the check, and their checksums, are used. -/
theorem isHit_of_checksums
    {plan : Plan} {image config symbols : Text}
    (hNone :
      verifyConfig plan.directives config symbols = []) :
    isHit sum plan
        { bzImage := some image
          config := some config
          symbols := some symbols
          sums := some (checksums sum image config symbols) } =
      true := by
  have hFits :
      fitting sum
          { bzImage := some image
            config := some config
            symbols := some symbols
            sums :=
              some (checksums sum image config symbols) } =
        some (captured (checksums sum image config symbols)) :=
    fitting_eq_some_iff.2
      ⟨image, config, symbols, _, rfl, rfl, rfl, rfl, rfl, rfl⟩
  unfold isHit
  dsimp only
  rw [hFits, hNone]
  rfl

/- With an image, an entry can be found and judged. -/
theorem not_headless_of_image
    {entry : Entry} (hImage : entry.bzImage ≠ none) :
    ¬ Headless (some entry) := by
  rintro ⟨there, hThere, hNone⟩
  cases hThere
  exact hImage hNone

/- What is taken from the cache has an image. -/
theorem image_of_isHit
    {plan : Plan} {entry : Entry}
    (hHit : isHit sum plan entry = true) :
    entry.bzImage ≠ none := by
  unfold isHit at hHit
  split at hHit
  · rw [Bool.and_eq_true, Option.isSome_iff_exists] at hHit
    rcases hHit.1 with ⟨text, hFits⟩
    rcases fitting_eq_some_iff.1 hFits with
      ⟨image, _, _, _, hImage, _⟩
    rw [hImage]
    exact Option.some_ne_none image
  · cases hHit

section Commands

variable {w u : World} {inputs : Inputs} {plan : Plan}
variable {old : Option Entry}

/- The next command does not change what is repaired. -/
theorem AtRepair.goTo
    {command next : Command}
    (hAt : AtRepair sum old plan w command) :
    AtRepair sum old plan (w.goTo inputs plan next)
      command := by
  cases command with
  | _ => exact hAt

/- To another command, with the same entry. -/
theorem InRepair.goTo
    (next : Command)
    (hAt : AtRepair sum old plan u next)
    (hPhase : u.phase = .running inputs plan next) :
    InRepair sum old inputs plan u := by
  unfold InRepair
  rw [hPhase]
  exact ⟨rfl, rfl, hAt⟩

/- A run that fails promises nothing. -/
theorem InRepair.failed
    {status : Nat} (hStatus : status ≠ 0) :
    InRepair sum old inputs plan (w.exit inputs status) :=
  ⟨rfl, fun hZero => absurd hZero hStatus⟩

/- An image decides whether an entry is used or removed. -/
theorem complete_lookup_mends
    (hBuild : plan.configOnly = false)
    (hEntry : w.entries plan.fingerprint = old)
    (hStep :
      complete sum unpack w inputs plan .lookup = some u) :
    InRepair sum old inputs plan u := by
  unfold complete at hStep
  dsimp only at hStep
  rw [hEntry] at hStep
  cases old with
  | none =>
      cases hStep
      apply InRepair.goTo .fetch _ rfl
      refine Or.inl ⟨hEntry, ?_⟩
      rintro ⟨there, hThere, _⟩
      cases hThere
  | some entry =>
      dsimp only at hStep
      by_cases hImage : entry.bzImage = none
      · rw [if_neg (fun hBoth => hBoth.2 hImage)] at hStep
        cases hStep
        apply InRepair.goTo .fetch _ rfl
        exact Or.inr ⟨hEntry, entry, rfl, hImage⟩
      · rw [if_pos ⟨hBuild, hImage⟩] at hStep
        by_cases hHit : isHit sum plan entry = true
        · rw [if_pos hHit] at hStep
          cases hStep
          apply InRepair.goTo .restoreImage _ rfl
          exact
            Or.inl
              ⟨⟨entry, hEntry, hHit⟩,
                not_headless_of_image hImage⟩
        · rw [if_neg hHit] at hStep
          cases hStep
          apply InRepair.goTo .removeEntry _ rfl
          exact not_headless_of_image hImage

/- The stage becomes the entry where nothing is in its way. -/
theorem complete_publish_mends
    (hCleared : Cleared old plan w)
    (hHit : isHit sum plan w.stage = true)
    (hStep :
      complete sum unpack w inputs plan .publish = some u) :
    InRepair sum old inputs plan u := by
  unfold complete at hStep
  simp only [bind, Option.bind_eq_some_iff,
    Option.some.injEq] at hStep
  rcases hStep with ⟨sums, _, hStep⟩
  have hEntry :
      u.entries plan.fingerprint =
        some
          ((w.entries plan.fingerprint).getD w.stage) := by
    rw [← hStep]
    exact Function.update_self _ _ _
  have hPhase : u.phase = .running inputs plan .report := by
    rw [← hStep]
    rfl
  apply InRepair.goTo .report _ hPhase
  rcases hCleared with ⟨hNone, hWhole⟩ | ⟨hSame, hHeadless⟩
  · rw [hNone, Option.getD_none] at hEntry
    exact Or.inl ⟨⟨w.stage, hEntry, hHit⟩, hWhole⟩
  · refine Or.inr ⟨?_, hHeadless⟩
    rcases hHeadless with ⟨entry, hOld, _⟩
    rw [hSame, hOld, Option.getD_some] at hEntry
    rw [hOld]
    exact hEntry

/- The check of the tree, with what comes after it. -/
theorem verifyTree_mends
    (next : Command)
    (hAt :
      ∀ config symbols,
        Checked plan w config symbols →
          AtRepair sum old plan w next)
    (hStep :
      verifyTree w inputs plan
          (fun w => w.goTo inputs plan next) =
        some u) :
    InRepair sum old inputs plan u := by
  rcases verifyTree_cases hStep with hFailed | hPassed
  · rw [hFailed]
    exact InRepair.failed Nat.one_ne_zero
  · rcases hPassed with
      ⟨config, symbols, hConfig, hSymbols, hNone, hAfter⟩
    rw [hAfter]
    apply InRepair.goTo next _ rfl
    exact (hAt config symbols ⟨hConfig, hSymbols, hNone⟩).goTo

/- Every command of a build that ends well. -/
theorem complete_mends
    (hBuild : plan.configOnly = false)
    {command : Command}
    (hAt : AtRepair sum old plan w command)
    (hStep :
      complete sum unpack w inputs plan command = some u) :
    InRepair sum old inputs plan u := by
  cases command with
  | lookup => exact complete_lookup_mends hBuild hAt hStep
  | restoreImage =>
      unfold complete at hStep
      simp only [bind, Option.bind_eq_some_iff,
        Option.some.injEq] at hStep
      rcases hStep with ⟨_, _, _, _, hStep⟩
      rw [← hStep]
      exact InRepair.goTo .restoreConfig hAt rfl
  | restoreConfig =>
      unfold complete at hStep
      simp only [bind, Option.bind_eq_some_iff,
        Option.some.injEq] at hStep
      rcases hStep with ⟨_, _, _, _, hStep⟩
      rw [← hStep]
      exact InRepair.goTo .report hAt rfl
  | removeEntry =>
      unfold complete at hStep
      simp only [Option.some.injEq] at hStep
      rw [← hStep]
      apply InRepair.goTo .fetch _ rfl
      exact Or.inl ⟨Function.update_self _ _ _, hAt⟩
  | fetch =>
      unfold complete at hStep
      dsimp only at hStep
      split at hStep
      · cases hStep
        exact InRepair.goTo .checkTarball hAt rfl
      · cases hStep
  | checkTarball =>
      unfold complete at hStep
      simp only [bind, Option.bind_eq_some_iff] at hStep
      rcases hStep with ⟨tarball, _, hStep⟩
      split at hStep
      · cases hStep
        exact InRepair.goTo .extract hAt rfl
      · cases hStep
        exact InRepair.failed Nat.one_ne_zero
  | extract =>
      unfold complete at hStep
      simp only [bind, Option.bind_eq_some_iff,
        Option.some.injEq] at hStep
      rcases hStep with ⟨_, _, _, _, hStep⟩
      rw [← hStep]
      exact InRepair.goTo .indexSymbols hAt rfl
  | indexSymbols =>
      unfold complete at hStep
      simp only [Option.some.injEq] at hStep
      rw [← hStep]
      exact InRepair.goTo (.configure _) hAt rfl
  | configure rest =>
      cases rest with
      | nil =>
          unfold complete at hStep
          simp only [Option.some.injEq] at hStep
          rw [← hStep]
          exact InRepair.goTo .verify hAt rfl
      | cons first rest => cases hStep
  | verify =>
      unfold complete at hStep
      simp only [hBuild, Bool.false_eq_true, if_false] at hStep
      exact
        verifyTree_mends .compile
          (fun _ _ _ => hAt) hStep
  | compile => cases hStep
  | reverify =>
      exact
        verifyTree_mends .stageImage
          (fun config symbols hChecked =>
            ⟨hAt, config, symbols, hChecked⟩) hStep
  | stageImage =>
      rcases hAt with ⟨hCleared, config, symbols, hChecked⟩
      unfold complete at hStep
      simp only [bind, Option.bind_eq_some_iff,
        Option.some.injEq] at hStep
      rcases hStep with ⟨image, _, hStep⟩
      rw [← hStep]
      apply InRepair.goTo .stageConfig _ rfl
      exact ⟨hCleared, image, config, symbols, hChecked, rfl⟩
  | stageConfig =>
      rcases hAt with
        ⟨hCleared, image, config, symbols, hChecked, hStage⟩
      unfold complete at hStep
      simp only [hChecked.1, hStage, bind, Option.bind_some,
        Option.some.injEq] at hStep
      rw [← hStep]
      apply InRepair.goTo .stageSymbols _ rfl
      exact ⟨hCleared, image, config, symbols, hChecked, rfl⟩
  | stageSymbols =>
      rcases hAt with
        ⟨hCleared, image, config, symbols, hChecked, hStage⟩
      unfold complete at hStep
      simp only [hChecked.2.1, hStage, bind, Option.bind_some,
        Option.some.injEq] at hStep
      rw [← hStep]
      apply InRepair.goTo .stageSums _ rfl
      exact ⟨hCleared, image, config, symbols, hChecked, rfl⟩
  | stageSums =>
      rcases hAt with
        ⟨hCleared, image, config, symbols, hChecked, hStage⟩
      unfold complete at hStep
      simp only [hStage, bind, Option.bind_some,
        Option.some.injEq] at hStep
      rw [← hStep]
      apply InRepair.goTo .publish _ rfl
      exact ⟨hCleared, isHit_of_checksums hChecked.2.2⟩
  | publish =>
      exact complete_publish_mends hAt.1 hAt.2 hStep
  | report =>
      unfold complete at hStep
      simp only [Option.some.injEq] at hStep
      rw [← hStep]
      exact ⟨rfl, fun _ => hAt⟩

/- So for every command that reads. -/
theorem answer_mends
    {command : Command} {text : Text}
    (hAt : AtRepair sum old plan w command)
    (hStep : answer w inputs plan text command = some u) :
    InRepair sum old inputs plan u := by
  unfold answer at hStep
  split at hStep
  · split at hStep
    · cases hStep
    · cases hStep
      exact InRepair.goTo .checkTarball hAt rfl
  · cases hStep
    exact InRepair.goTo (.configure _) hAt rfl
  · cases hStep

/- So for the compiler. -/
theorem compileWith_mends
    {command : Command} {config image : Text}
    (hAt : AtRepair sum old plan w command)
    (hStep :
      compileWith w inputs plan config image command =
        some u) :
    InRepair sum old inputs plan u := by
  unfold compileWith at hStep
  split at hStep
  · cases hStep
    exact InRepair.goTo .reverify hAt rfl
  · cases hStep

/- In a build that is not disturbed, a command goes on. -/
theorem step_of_goes
    {event : Event} (hGoes : Goes event)
    (hStep : step sum unpack w event = some u) :
    (∃ given,
        w.phase = .started given ∧
          ∀ plan, prepare sum given = .ok plan →
            u = w.goTo given plan .lookup) ∨
      ∃ given plan command,
        w.phase = .running given plan command ∧
          (complete sum unpack w given plan command = some u ∨
            (∃ text,
              answer w given plan text command = some u) ∨
            ∃ config image,
              compileWith w given plan config image command =
                some u) := by
  cases hState : w.phase with
  | idle =>
      cases event with
      | completes => simp [step, hState] at hStep
      | answers text => simp [step, hState] at hStep
      | compiles config image => simp [step, hState] at hStep
      | _ => cases hGoes
  | exited given status =>
      cases event with
      | completes => simp [step, hState] at hStep
      | answers text => simp [step, hState] at hStep
      | compiles config image => simp [step, hState] at hStep
      | _ => cases hGoes
  | started given =>
      cases event with
      | completes =>
          apply Or.inl
          refine ⟨given, rfl, ?_⟩
          intro plan hPrepare
          unfold step at hStep
          simp only [hState, hPrepare, Option.some.injEq] at hStep
          exact hStep.symm
      | answers text => simp [step, hState] at hStep
      | compiles config image => simp [step, hState] at hStep
      | _ => cases hGoes
  | running given plan command =>
      apply Or.inr
      refine ⟨given, plan, command, rfl, ?_⟩
      cases event with
      | completes =>
          unfold step at hStep
          simp only [hState] at hStep
          exact Or.inl hStep
      | answers text =>
          unfold step at hStep
          simp only [hState] at hStep
          exact Or.inr (Or.inl ⟨text, hStep⟩)
      | compiles config image =>
          unfold step at hStep
          simp only [hState] at hStep
          exact Or.inr (Or.inr ⟨config, image, hStep⟩)
      | _ => cases hGoes

/- One step of a build. -/
theorem step_mends
    (hPrepare : prepare sum inputs = .ok plan)
    (hBuild : plan.configOnly = false)
    {event : Event} (hGoes : Goes event)
    (hIn : InRepair sum old inputs plan w)
    (hStep : step sum unpack w event = some u) :
    InRepair sum old inputs plan u := by
  unfold InRepair at hIn
  rcases step_of_goes hGoes hStep with
    ⟨given, hPhase, hNext⟩ |
      ⟨given, same, command, hPhase, hCommand⟩
  · rw [hPhase] at hIn
    rcases hIn with ⟨rfl, hEntry⟩
    rw [hNext plan hPrepare]
    exact InRepair.goTo .lookup hEntry rfl
  · rw [hPhase] at hIn
    rcases hIn with ⟨rfl, rfl, hAt⟩
    rcases hCommand with
      hDone | ⟨text, hDone⟩ | ⟨config, image, hDone⟩
    · exact complete_mends hBuild hAt hDone
    · exact answer_mends hAt hDone
    · exact compileWith_mends hAt hDone

/- By induction on the events. -/
theorem run_mends
    (hPrepare : prepare sum inputs = .ok plan)
    (hBuild : plan.configOnly = false)
    {events : List Event}
    (hGoes : ∀ event ∈ events, Goes event)
    (hIn : InRepair sum old inputs plan w)
    (hRun : (system sum unpack).run w events = some u) :
    InRepair sum old inputs plan u := by
  induction events generalizing w with
  | nil =>
      cases hRun
      exact hIn
  | cons event events ih =>
      rcases (system sum unpack).run_cons_eq_some_iff.1 hRun
        with ⟨next, hStep, hRest⟩
      have hNext :=
        step_mends hPrepare hBuild
          (hGoes event List.mem_cons_self) hIn hStep
      apply ih _ hNext hRest
      intro later hMem
      exact hGoes later (List.mem_cons_of_mem event hMem)

/- A run is at its start after it has begun. -/
theorem inRepair_begin
    (hBegin :
      (system sum unpack).step w (.begin inputs) = some u) :
    InRepair sum (w.entries plan.fingerprint) inputs plan
      u := by
  change step sum unpack w (.begin inputs) = some u at hBegin
  unfold step at hBegin
  dsimp only at hBegin
  split at hBegin
  · cases hBegin
  · cases hBegin
    exact ⟨rfl, rfl⟩

/- What a build that succeeds has made of the old entry. -/
theorem mended_of_succeeds
    (hPrepare : prepare sum inputs = .ok plan)
    (hBuild : plan.configOnly = false)
    (hRun : Succeeds sum unpack inputs w u) :
    Mended sum (w.entries plan.fingerprint) plan u := by
  rcases hRun with ⟨events, hGoes, hRun, hExited⟩
  rcases (system sum unpack).run_cons_eq_some_iff.1 hRun with
    ⟨started, hBegin, hRest⟩
  have hEnd :=
    run_mends hPrepare hBuild hGoes (inRepair_begin hBegin)
      hRest
  unfold InRepair at hEnd
  rw [hExited] at hEnd
  exact hEnd.2 rfl

------------------------------------------------------------
-- The Second Run
------------------------------------------------------------

/- A run that has found the entry and compiled nothing. -/
def FromCache
    (inputs : Inputs) (plan : Plan) (w u : World) : Prop :=
  u.compilations = w.compilations ∧ u.entries = w.entries ∧
    match u.phase with
    | .idle => False
    | .started given => given = inputs
    | .running given same command =>
        given = inputs ∧ same = plan ∧
          (command = .lookup ∨ command = .restoreImage ∨
            command = .restoreConfig ∨ command = .report)
    | .exited _ status => status = 0

section Second

variable {entry : Entry}
variable (hPrepare : prepare sum inputs = .ok plan)
variable (hBuild : plan.configOnly = false)
variable (hEntry : w.entries plan.fingerprint = some entry)
variable (hHit : isHit sum plan entry = true)

include hPrepare hBuild hEntry hHit

/- Each of the commands of a run that finds the entry. -/
omit hPrepare in

/- A hit is copied out, and nothing is compiled. -/
theorem complete_fromCache
    {u v : World} {command : Command}
    (hCompilations : u.compilations = w.compilations)
    (hEntries : u.entries = w.entries)
    (hCommand :
      command = .lookup ∨ command = .restoreImage ∨
        command = .restoreConfig ∨ command = .report)
    (hDone :
      complete sum unpack u inputs plan command = some v) :
    FromCache inputs plan w v := by
  have hImage := image_of_isHit hHit
  rcases hCommand with rfl | rfl | rfl | rfl
  · unfold complete at hDone
    simp only [hEntries, hEntry] at hDone
    rw [if_pos ⟨hBuild, hImage⟩, if_pos hHit] at hDone
    cases hDone
    exact
      ⟨hCompilations, hEntries, rfl, rfl, Or.inr (Or.inl rfl)⟩
  · unfold complete at hDone
    simp only [bind, Option.bind_eq_some_iff,
      Option.some.injEq] at hDone
    rcases hDone with ⟨_, _, _, _, hDone⟩
    rw [← hDone]
    exact
      ⟨hCompilations, hEntries, rfl, rfl,
        Or.inr (Or.inr (Or.inl rfl))⟩
  · unfold complete at hDone
    simp only [bind, Option.bind_eq_some_iff,
      Option.some.injEq] at hDone
    rcases hDone with ⟨_, _, _, _, hDone⟩
    rw [← hDone]
    exact
      ⟨hCompilations, hEntries, rfl, rfl,
        Or.inr (Or.inr (Or.inr rfl))⟩
  · unfold complete at hDone
    simp only [Option.some.injEq] at hDone
    rw [← hDone]
    exact ⟨hCompilations, hEntries, rfl⟩

/- So for every step of such a run. -/
theorem step_fromCache
    {u v : World} {event : Event} (hGoes : Goes event)
    (hFrom : FromCache inputs plan w u)
    (hStep : step sum unpack u event = some v) :
    FromCache inputs plan w v := by
  rcases hFrom with ⟨hCompilations, hEntries, hAt⟩
  rcases step_of_goes hGoes hStep with
    ⟨given, hPhase, hNext⟩ |
      ⟨given, same, command, hPhase, hGoesOn⟩
  · rw [hPhase] at hAt
    rw [hNext plan (by rw [hAt, hPrepare]), hAt]
    exact ⟨hCompilations, hEntries, rfl, rfl, Or.inl rfl⟩
  · rw [hPhase] at hAt
    rcases hAt with ⟨rfl, rfl, hCommand⟩
    rcases hGoesOn with
      hDone | ⟨text, hDone⟩ | ⟨config, image, hDone⟩
    · exact
        complete_fromCache hBuild hEntry hHit hCompilations
          hEntries hCommand hDone
    · rcases hCommand with rfl | rfl | rfl | rfl <;>
        cases hDone
    · rcases hCommand with rfl | rfl | rfl | rfl <;>
        cases hDone

/- By induction on the events. -/
theorem run_fromCache
    {u v : World} {events : List Event}
    (hGoes : ∀ event ∈ events, Goes event)
    (hFrom : FromCache inputs plan w u)
    (hRun : (system sum unpack).run u events = some v) :
    FromCache inputs plan w v := by
  induction events generalizing u with
  | nil =>
      cases hRun
      exact hFrom
  | cons event events ih =>
      rcases (system sum unpack).run_cons_eq_some_iff.1 hRun
        with ⟨next, hStep, hRest⟩
      have hNext :=
        step_fromCache hPrepare hBuild hEntry hHit
          (hGoes event List.mem_cons_self) hFrom hStep
      apply ih _ hNext hRest
      intro later hMem
      exact hGoes later (List.mem_cons_of_mem event hMem)

/- Looking it up, copying two files and saying so. -/
theorem succeeds_of_hit
    (hInactive : isActive w.phase = false) :
    ∃ u, Succeeds sum unpack inputs w u := by
  have hWhole :
      ∃ image config,
        entry.bzImage = some image ∧
          entry.config = some config := by
    have hImage := image_of_isHit hHit
    unfold isHit at hHit
    split at hHit
    · rename_i config symbols hConfig hSymbols
      rcases Option.ne_none_iff_exists'.1 hImage with
        ⟨image, hSome⟩
      exact ⟨image, config, hSome, hConfig⟩
    · cases hHit
  rcases hWhole with ⟨image, config, hImage, hConfig⟩
  have hBegin :
      step sum unpack w (.begin inputs) =
        some { w with phase := .started inputs } := by
    simp [step, hInactive]
  have hStart :
      step sum unpack { w with phase := .started inputs }
          .completes =
        some (w.goTo inputs plan .lookup) := by
    unfold step
    simp only [hPrepare]
    rfl
  have hLookup :
      step sum unpack (w.goTo inputs plan .lookup)
          .completes =
        some (w.goTo inputs plan .restoreImage) := by
    have hSome : entry.bzImage ≠ none := by
      rw [hImage]
      exact Option.some_ne_none image
    simp only [step, World.goTo, complete, hEntry]
    rw [if_pos ⟨hBuild, hSome⟩, if_pos hHit]
  have hCopyImage :
      step sum unpack (w.goTo inputs plan .restoreImage)
          .completes =
        some
          ({ w with
              tree :=
                { w.tree with
                  bzImage := some image } }.goTo
            inputs plan .restoreConfig) := by
    simp only [step, World.goTo, complete, hEntry, bind,
      Option.bind_some, hImage]
  have hCopyConfig :
      step sum unpack
          ({ w with
              tree :=
                { w.tree with
                  bzImage := some image } }.goTo
            inputs plan .restoreConfig)
          .completes =
        some
          ({ w with
              tree :=
                { w.tree with
                  bzImage := some image
                  config := some config } }.goTo
            inputs plan .report) := by
    simp only [step, World.goTo, complete, hEntry, bind,
      Option.bind_some, hConfig]
  have hReport :
      step sum unpack
          ({ w with
              tree :=
                { w.tree with
                  bzImage := some image
                  config := some config } }.goTo
            inputs plan .report)
          .completes =
        some
          ({ w with
              tree :=
                { w.tree with
                  bzImage := some image
                  config := some config } }.exit
            inputs 0) :=
    rfl
  apply Exists.intro
    ({ w with
        tree :=
          { w.tree with
            bzImage := some image
            config := some config } }.exit inputs 0)
  apply Exists.intro (List.replicate 5 Event.completes)
  refine ⟨?_, ?_, rfl⟩
  · intro event hMem
    rw [List.eq_of_mem_replicate hMem]
    trivial
  · have hRun :=
      @Transition.System.run_cons_eq_some_iff _ _
        (system sum unpack)
    refine hRun.2 ⟨_, hBegin, hRun.2 ⟨_, hStart, ?_⟩⟩
    refine hRun.2 ⟨_, hLookup, hRun.2 ⟨_, hCopyImage, ?_⟩⟩
    refine hRun.2 ⟨_, hCopyConfig, hRun.2 ⟨_, hReport, ?_⟩⟩
    rfl

/- An entry that is used is all that the next run needs. -/
theorem repaired_of_hit
    (hInactive : isActive w.phase = false) :
    Repaired sum unpack inputs plan w where
  whole := ⟨entry, hEntry, hHit⟩
  again :=
    succeeds_of_hit hPrepare hBuild hEntry hHit hInactive
  cached := by
    intro events u hGoes hRun
    rcases (system sum unpack).run_cons_eq_some_iff.1 hRun
      with ⟨started, hBegin, hRest⟩
    have hStarted : FromCache inputs plan w started := by
      change step sum unpack w (.begin inputs) = some started
        at hBegin
      unfold step at hBegin
      dsimp only at hBegin
      split at hBegin
      · cases hBegin
      · cases hBegin
        exact ⟨rfl, rfl, rfl⟩
    have hEnd :=
      run_fromCache hPrepare hBuild hEntry hHit hGoes hStarted
        hRest
    refine ⟨hEnd.1, ?_⟩
    intro other status hExited
    have hAt := hEnd.2.2
    rw [hExited] at hAt
    exact hAt

end Second

/- Without its image, an entry is left as it was. -/
theorem not_repaired_of_headless
    (hPrepare : prepare sum inputs = .ok plan)
    (hBuild : plan.configOnly = false)
    (hRun : Succeeds sum unpack inputs w u)
    (hHeadless : Headless (w.entries plan.fingerprint)) :
    ¬ Repaired sum unpack inputs plan u := by
  intro hRepaired
  rcases mended_of_succeeds hPrepare hBuild hRun with
    ⟨_, hNot⟩ | ⟨hSame, _⟩
  · exact hNot hHeadless
  · rcases hRepaired.whole with ⟨entry, hEntry, hHit⟩
    rw [hSame] at hEntry
    rcases hHeadless with ⟨there, hThere, hNone⟩
    rw [hEntry] at hThere
    cases hThere
    exact image_of_isHit hHit hNone

/-
  After a build that succeeds, the cache is in order exactly
  if the entry had its image before, or was not there.
-/
theorem repaired_iff
    (hPrepare : prepare sum inputs = .ok plan)
    (hBuild : plan.configOnly = false)
    (hRun : Succeeds sum unpack inputs w u) :
    Repaired sum unpack inputs plan u ↔
      ¬ Headless (w.entries plan.fingerprint) := by
  constructor
  · intro hRepaired hHeadless
    exact
      not_repaired_of_headless hPrepare hBuild hRun hHeadless
        hRepaired
  · intro hNot
    rcases mended_of_succeeds hPrepare hBuild hRun with
      ⟨⟨entry, hEntry, hHit⟩, _⟩ | hBoth
    · rcases hRun with ⟨_, _, _, hExited⟩
      have hInactive : isActive u.phase = false := by
        rw [hExited]
        rfl
      exact
        repaired_of_hit hPrepare hBuild hEntry hHit hInactive
    · exact absurd hBoth.2 hNot

end Commands

end Repair

------------------------------------------------------------
-- Two Builds
------------------------------------------------------------

/- A number in so many hexadecimal digits. -/
def hexDigits : Nat → Nat → Text
| 0, _ => []
| width + 1, n =>
    hexDigits width (n / 16) ++ [Nat.digitChar (n % 16)]

/- As many digits as the width. -/
theorem length_hexDigits (width n : Nat) :
    (hexDigits width n).length = width := by
  induction width generalizing n with
  | zero => rfl
  | succ width ih =>
      unfold hexDigits
      rw [List.length_append, ih]
      rfl

/- The sixteen digits are sixteen characters. -/
theorem digitChar_cases {d : Nat} (hDigit : d < 16) :
    isHexDigit (Nat.digitChar d) = true ∧
      ∀ e < 16, Nat.digitChar d = Nat.digitChar e → d = e := by
  have hAll :
      ∀ d : Fin 16,
        isHexDigit (Nat.digitChar d.val) = true ∧
          ∀ e : Fin 16,
            Nat.digitChar d.val = Nat.digitChar e.val →
              d = e := by
    decide
  refine ⟨(hAll ⟨d, hDigit⟩).1, ?_⟩
  intro e hOther hSame
  exact
    Fin.val_eq_of_eq
      ((hAll ⟨d, hDigit⟩).2 ⟨e, hOther⟩ hSame)

/- Numbers that fit are told apart. -/
theorem hexDigits_inj
    {width m n : Nat} (hM : m < 16 ^ width)
    (hN : n < 16 ^ width)
    (hSame : hexDigits width m = hexDigits width n) :
    m = n := by
  induction width generalizing m n with
  | zero => omega
  | succ width ih =>
      rw [Nat.pow_succ] at hM hN
      unfold hexDigits at hSame
      rcases List.append_inj' hSame rfl with ⟨hFront, hLast⟩
      have hHigh :=
        ih (Nat.div_lt_of_lt_mul (by omega))
          (Nat.div_lt_of_lt_mul (by omega)) hFront
      have hLow :=
        (digitChar_cases (Nat.mod_lt m (by decide))).2
          (n % 16) (Nat.mod_lt n (by decide))
          (List.cons.inj hLast).1
      omega

/- Every one of them is a digit. -/
theorem isHexDigit_of_mem_hexDigits
    {width n : Nat} {c : Char} (hMem : c ∈ hexDigits width n) :
    isHexDigit c = true := by
  induction width generalizing n with
  | zero => cases hMem
  | succ width ih =>
      unfold hexDigits at hMem
      rcases List.mem_append.1 hMem with hFront | hLast
      · exact ih hFront
      · rw [List.mem_singleton.1 hLast]
        exact (digitChar_cases (Nat.mod_lt n (by decide))).1

/- Six digits for every character. -/
def hexSpell (c : Char) : Text :=
  hexDigits 6 c.toNat

/- Texts are told apart by their spelling. -/
theorem hexSpell_inj
    {s t : Text}
    (hSame : s.flatMap hexSpell = t.flatMap hexSpell) :
    s = t := by
  have hLength :
      ∀ c, (hexSpell c).length = 6 := fun c =>
    length_hexDigits 6 c.toNat
  induction s generalizing t with
  | nil =>
      cases t with
      | nil => rfl
      | cons c t =>
          have hZero := congrArg List.length hSame
          rw [List.flatMap_cons, List.length_append,
            hLength, List.flatMap_nil, List.length_nil]
            at hZero
          omega
  | cons c s ih =>
      cases t with
      | nil =>
          have hZero := congrArg List.length hSame
          rw [List.flatMap_cons, List.length_append,
            hLength, List.flatMap_nil, List.length_nil]
            at hZero
          omega
      | cons d t =>
          rw [List.flatMap_cons, List.flatMap_cons] at hSame
          have hBoth :=
            List.append_inj hSame
              ((hLength c).trans (hLength d).symm)
          have hBound : ∀ c : Char, c.toNat < 16 ^ 6 := by
            intro c
            have hValid := c.valid
            rcases hValid with hLow | hHigh
            · exact Nat.lt_trans hLow (by decide)
            · exact Nat.lt_trans hHigh.2 (by decide)
          have hNat :=
            hexDigits_inj (hBound c) (hBound d) hBoth.1
          rw [Char.toNat_inj.1 hNat, ih hBoth.2]

/- The digests of longer texts are only spelled. -/
def shortDigest (s : Text) : Text :=
  if s = "linux".toList then
    tarballDigest
  else
    '0' :: s.flatMap hexSpell

/- A checksum that is quick to compute. -/
def shortChecksum : Checksum where
  digest := shortDigest
  hex := by
    intro s c hMem
    apply isHexDigit_of_mem_spelled _ hMem
    intro d e hDigit
    exact isHexDigit_of_mem_hexDigits hDigit
  injective := by
    intro s t hSame
    exact eq_of_spelled hexSpell_inj hSame

/- The script, run with that checksum. -/
def shortSystem : Transition.System World Event :=
  system shortChecksum plainUnpack

/- The plan that is made from the inputs, if any. -/
def planOf (sum : Checksum) (inputs : Inputs) : Option Plan :=
  match prepare sum inputs with
  | .ok plan => some plan
  | .error _ => none

/- The fingerprint of the plain inputs. -/
def shortFingerprint : Text :=
  ((planOf shortChecksum plainInputs).map
    Plan.fingerprint).getD []

/- What is left when the image and checksums are deleted. -/
def headlessEntry : Entry where
  config := some plainConfig
  symbols := some "CONFIG_KVM_GUEST\n".toList

/- An image that is not the one that was built, unchecked. -/
def damagedEntry : Entry :=
  { headlessEntry with bzImage := some "other".toList }

/- Something happens to the entry after a build. -/
def damage (entry : Entry) : List Event :=
  .begin plainInputs :: buildEvents ++
    [.corrupts shortFingerprint (some entry)]

/- With an entry to look into, there is one command more. -/
def rebuildEvents : List Event :=
  .completes :: buildEvents

/- The plain inputs ask for an image. -/
theorem shortPlan_isBuild :
    (planOf shortChecksum plainInputs).any
      (fun plan => !plan.configOnly) = true := by
  decide

/- The script ends well on a headless entry. -/
theorem rebuild_succeeds :
    (shortSystem.run newWorld
      (damage headlessEntry ++
        .begin plainInputs :: buildEvents)).any
        hasSucceeded = true := by
  decide +kernel

/- And on one with another image. -/
theorem repair_succeeds :
    (shortSystem.run newWorld
      (damage damagedEntry ++
        .begin plainInputs :: rebuildEvents)).any
        hasSucceeded = true := by
  decide +kernel

/- Every event of the run goes on. -/
theorem goes_buildEvents :
    ∀ event ∈ buildEvents, Goes event := by
  intro event hMem
  simp only [buildEvents, List.mem_append,
    List.mem_replicate, List.mem_cons, List.not_mem_nil,
    or_false] at hMem
  rcases hMem with ((⟨_, rfl⟩ | ⟨_, rfl⟩) | hEnd) | ⟨_, rfl⟩
  · trivial
  · trivial
  · rcases hEnd with rfl | rfl | rfl
    · trivial
    · trivial
    · trivial
  · trivial

theorem goes_rebuildEvents :
    ∀ event ∈ rebuildEvents, Goes event := by
  intro event hMem
  rcases List.mem_cons.1 hMem with rfl | hBuild
  · trivial
  · exact goes_buildEvents event hBuild

section

variable {sum : Checksum} {inputs : Inputs}

/- A test on what was computed, as a plan. -/
theorem exists_plan
    (hBuild :
      (planOf sum inputs).any (fun plan => !plan.configOnly) =
        true) :
    ∃ plan,
      planOf sum inputs = some plan ∧
        prepare sum inputs = .ok plan ∧
        plan.configOnly = false := by
  rcases (Option.any_eq_true _ _).1 hBuild with
    ⟨plan, hPlan, hOnly⟩
  refine ⟨plan, hPlan, ?_, by simpa using hOnly⟩
  unfold planOf at hPlan
  split at hPlan
  · rename_i other hPrepare
    rw [hPrepare, Option.some.inj hPlan]
  · cases hPlan

/- A build of the example that has exited with success. -/
theorem succeeds_of_run
    {unpack : Text → Option (List Text)}
    {w u : World} {plan : Plan} {events : List Event}
    (hPrepare : prepare sum inputs = .ok plan)
    (hBuild : plan.configOnly = false)
    (hGoes : ∀ event ∈ events, Goes event)
    (hRun :
      (system sum unpack).run w (.begin inputs :: events) =
        some u)
    (hSucceeded : hasSucceeded u = true) :
    Succeeds sum unpack inputs w u := by
  refine ⟨events, hGoes, hRun, ?_⟩
  rcases (system sum unpack).run_cons_eq_some_iff.1 hRun with
    ⟨started, hBegin, hRest⟩
  have hEnd :=
    run_mends hPrepare hBuild hGoes
      (inRepair_begin hBegin) hRest
  unfold InRepair at hEnd
  unfold hasSucceeded at hSucceeded
  split at hSucceeded
  · rename_i given status hExited
    rw [hExited] at hEnd ⊢
    rw [hEnd.1, of_decide_eq_true hSucceeded]
  · cases hSucceeded

/- The entry is what it was made, whatever it was before. -/
theorem entries_of_corrupts
    {unpack : Text → Option (List Text)} {w u : World}
    {fingerprint : Text} {entry : Option Entry}
    (hStep :
      step sum unpack w (.corrupts fingerprint entry) =
        some u) :
    u.entries fingerprint = entry := by
  have hSet :
      (w.setEntry fingerprint entry).entries fingerprint =
        entry :=
    Function.update_self fingerprint _ _
  unfold step at hStep
  dsimp only at hStep
  split at hStep
  · cases hStep
  · split at hStep
    · cases hStep
      exact hSet
    · split at hStep
      · cases hStep
        exact hSet
      · cases hStep

end

/- The damage, and the build after it. -/
theorem exists_of_damage
    {entry : Entry} {events : List Event} {plan : Plan}
    (hPlan : planOf shortChecksum plainInputs = some plan)
    (hRun :
      (shortSystem.run newWorld
        (damage entry ++ .begin plainInputs :: events)).any
          hasSucceeded = true) :
    ∃ w u,
      shortSystem.run newWorld (damage entry) = some w ∧
        w.entries plan.fingerprint = some entry ∧
        shortSystem.run w (.begin plainInputs :: events) =
          some u ∧
        hasSucceeded u = true := by
  rcases (Option.any_eq_true _ _).1 hRun with
    ⟨u, hRun, hSucceeded⟩
  rw [Transition.System.run_append,
    Option.bind_eq_some_iff] at hRun
  rcases hRun with ⟨w, hDamage, hBuilt⟩
  refine ⟨w, u, hDamage, ?_, hBuilt, hSucceeded⟩
  unfold damage at hDamage
  rw [Transition.System.run_append,
    Option.bind_eq_some_iff] at hDamage
  rcases hDamage with ⟨built, _, hLast⟩
  rcases shortSystem.run_cons_eq_some_iff.1 hLast with
    ⟨after, hStep, hEnd⟩
  cases hEnd
  change step shortChecksum plainUnpack built
    (.corrupts shortFingerprint (some entry)) = some w
    at hStep
  have hFingerprint : plan.fingerprint = shortFingerprint := by
    unfold shortFingerprint
    rw [hPlan]
    rfl
  rw [hFingerprint]
  exact entries_of_corrupts hStep

/- An entry with another image is made anew. -/
theorem repaired_damaged :
    ∃ plan w u,
      shortSystem.run newWorld (damage damagedEntry) =
          some w ∧
        Succeeds shortChecksum plainUnpack plainInputs w u ∧
        Repaired shortChecksum plainUnpack plainInputs plan
          u := by
  rcases exists_plan shortPlan_isBuild with
    ⟨plan, hPlan, hPrepare, hBuild⟩
  rcases exists_of_damage hPlan repair_succeeds with
    ⟨w, u, hDamage, hEntry, hBuilt, hSucceeded⟩
  have hSucceeds :=
    succeeds_of_run hPrepare hBuild goes_rebuildEvents hBuilt
      hSucceeded
  refine ⟨plan, w, u, hDamage, hSucceeds, ?_⟩
  apply (repaired_iff hPrepare hBuild hSucceeds).2
  rintro ⟨there, hThere, hNone⟩
  rw [hEntry] at hThere
  cases hThere
  cases hNone

/-
  The image of an entry is deleted, and the next build
  succeeds, but the cache is not in order after it.
-/
theorem headless_entry_stays :
    ∃ plan w u,
      prepare shortChecksum plainInputs = .ok plan ∧
        plan.configOnly = false ∧
        shortSystem.run newWorld (damage headlessEntry) =
          some w ∧
        Succeeds shortChecksum plainUnpack plainInputs w u ∧
        ¬ Repaired shortChecksum plainUnpack plainInputs plan
          u := by
  rcases exists_plan shortPlan_isBuild with
    ⟨plan, hPlan, hPrepare, hBuild⟩
  rcases exists_of_damage hPlan rebuild_succeeds with
    ⟨w, u, hDamage, hEntry, hBuilt, hSucceeded⟩
  have hSucceeds :=
    succeeds_of_run hPrepare hBuild goes_buildEvents hBuilt
      hSucceeded
  refine
    ⟨plan, w, u, hPrepare, hBuild, hDamage, hSucceeds, ?_⟩
  apply
    not_repaired_of_headless hPrepare hBuild hSucceeds
  exact ⟨headlessEntry, hEntry, rfl⟩

end BuildKernel

end CargoUnikernel
