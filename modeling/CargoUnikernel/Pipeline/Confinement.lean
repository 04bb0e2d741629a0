import CargoUnikernel.Library.FileTree
import CargoUnikernel.Pipeline.Script
import CargoUnikernel.Schema.Validate

/-
  The host's files before the container runs.

  Firmware and storage are staged in the output directory.
  Only one of the stages looks at where that directory leads,
  and none at where a link in it leads. So what they write
  stays in the project unless a link of the output directory,
  or one of the two files that are staged, leads out of it.
  What is in the files is left out.

  Main declarations:
    * `ovmfStage`, `hostDistDir`, `storageStage`
    * `beforeContainer`
    * `OvmfInside`, `StorageInside`
    * `confined_iff`
-/

------------------------------------------------------------
-- Paths
------------------------------------------------------------

namespace CargoUnikernel

namespace Pipeline

namespace Confinement

open Schema FileTree Fallible

/- Why a stage gives up by itself. -/
inductive Refusal
| ovmfNeedsExactlyOneSource
| outputDirEmpty
| outputDirNotRelative
| outputDirOutsideProject

/- No name has a NUL in it. -/
def hostLimits (links : Nat) : Limits Text where
  links := links
  isName name := !name.contains '\x00'

@[simp] theorem hostLimits_links (links : Nat) :
    (hostLimits links).links = links := rfl

/- A component of a path, as a step. -/
def stepOf : Config.Component → Step Text
| .rootDir => .root
| .curDir => .here
| .parentDir => .up
| .normal name => .down name

/- What is between two slashes of a path. -/
def partStep (part : Text) : Step Text :=
  if part = [] ∨ part = ".".toList then
    .here
  else if part = "..".toList then
    .up
  else
    .down part

/- An absolute path replaces the one it is joined to. -/
def joinPath
    (project : List (Step Text)) (path : Text) :
    List (Step Text) :=
  (if path.head? = some '/' then [.root] else project) ++
    (Text.split '/' path).map partStep

/- The path of a place. -/
def placePath (place : Place Text) : List (Step Text) :=
  .root :: place.map .down

/- A `.` is dropped where paths are joined. -/
def outputSteps (config : Config) : List (Step Text) :=
  ((Config.components config.output.dir).filter fun part =>
    part ≠ .curDir).map stepOf

------------------------------------------------------------
-- Stages
------------------------------------------------------------

/- What is done to the host's files. -/
abbrev HostFiles (α : Type) := Host Text Refusal α

section Stages

variable (links : Nat) (config : Config)
variable (project : List (Step Text))

/- Where the firmware is staged. -/
def ovmfCacheName : Text := ".ovmf-cache".toList

def ovmfFileName : Text := "OVMF.fd".toList

/- Its directory, in the output directory. -/
def ovmfDir : List (Step Text) :=
  project ++ outputSteps config ++ [.down ovmfCacheName]

/- And its file, in that. -/
def ovmfFile : List (Step Text) :=
  ovmfDir config project ++ [.down ovmfFileName]

/- The directory is made before the firmware is read. -/
def ovmfStage (ovmf : OvmfSource) : HostFiles Unit :=
  if ovmf.preset.isSome then
    .done ()
  else
    match ovmf.path with
    | none => .fail (.refused .ovmfNeedsExactlyOneSource)
    | some path =>
        (createDirAll (hostLimits links)
            (ovmfDir config project).reverse).andThen fun _ =>
          (read (hostLimits links)
              (joinPath project path)).andThen fun _ =>
            openCreate (hostLimits links)
              (ovmfFile config project)

/- Only a measured image needs firmware. -/
def firmwareStage : HostFiles Unit :=
  match config.sevSnp with
  | none => .done ()
  | some sev => ovmfStage links config project sev.ovmf

/- Each directory is made, and then asked where it leads. -/
def distSteps (root : Place Text) :
    Place Text → List Config.Component →
      HostFiles (Place Text)
| dir, [] => .done dir
| dir, .curDir :: rest => distSteps root dir rest
| dir, .normal name :: rest =>
    (Host.attempt
      (createDirIn (hostLimits links) (placePath dir)
        name)).andThen fun created =>
      match created with
      | .ok () | .error .alreadyExists =>
          (canonicalize (hostLimits links)
            (placePath dir ++ [.down name])).andThen
            fun next =>
              if root.isPrefixOf next then
                distSteps root next rest
              else
                .fail (.refused .outputDirOutsideProject)
      | .error error => .fail error
| _, .rootDir :: _ | _, .parentDir :: _ =>
    .fail (.refused .outputDirNotRelative)

/- From the project, one component after another. -/
def hostDistDir : HostFiles (Place Text) :=
  (canonicalize (hostLimits links) project).andThen
    fun root =>
      if Text.trim config.output.dir = [] then
        .fail (.refused .outputDirEmpty)
      else
        distSteps links root root
          (Config.components config.output.dir)

/- The disk image of the guest, in the output directory. -/
def storageImage (dist : Place Text) : List (Step Text) :=
  placePath dist ++
    [.down (config.project.name ++ ".data.img".toList)]

/- An image that is there is left alone. -/
def storageStage : HostFiles Unit :=
  if config.storage.mode ≠ .persistent then
    .done ()
  else
    (hostDistDir links config project).andThen fun dist =>
      (askExists (hostLimits links)
          (storageImage config dist)).andThen fun there =>
        if there then
          .done ()
        else
          openCreate (hostLimits links)
            (storageImage config dist)

/- Up to the container. Looking for the app only reads. -/
def beforeContainer
    (acquire :
      Disk Text → Except (FileError Refusal) Unit) :
    HostFiles (Place Text) :=
  (firmwareStage links config project).andThen fun _ =>
    (storageStage links config project).andThen fun _ =>
      (Host.look acquire).andThen fun _ =>
        hostDistDir links config project

------------------------------------------------------------
-- Where the Stages Write
------------------------------------------------------------

/- Everything that was touched is below the root. -/
def Confined {α : Type}
    (root : Place Text) (outcome : Outcome Text Refusal α) :
    Prop :=
  ∀ place ∈ outcome.touched, root <+: place

/- The last directory that is there, and what is missing. -/
def missingBelow
    (tree : Disk Text) (names : List Text) :
    Option (Place Text × List Text) :=
  match walk tree links [] project with
  | .found root left =>
      (descend tree left root names).map fun found =>
        (found.1, found.2.2)
  | _ => none

/-
  The firmware's directory is made below a directory of the
  project, or it is there and the firmware's file is written
  in the project.
-/
def OvmfInside
    (root : Place Text) (tree : Disk Text)
    (ovmf : OvmfSource) : Prop :=
  ∀ path dir missing,
    ovmf.preset.isSome = false →
      ovmf.path = some path →
      (distDir config ++ [ovmfCacheName]).all
          (hostLimits links).isName = true →
      missingBelow links project tree
          (distDir config ++ [ovmfCacheName]) =
        some (dir, missing) →
      if missing = [] then
        tree.isReadable (hostLimits links)
            (joinPath project path) = true →
          ∀ place,
            tree.landing (R := Refusal) (hostLimits links)
                (ovmfFile config project) = .ok place →
              root <+: place
      else
        root <+: dir

/- The output directory, if all of it is there and inside. -/
def existingDist (root : Place Text) (tree : Disk Text) :
    Place Text → List Config.Component →
      Option (Place Text)
| dir, [] => some dir
| dir, .curDir :: rest => existingDist root tree dir rest
| dir, .normal name :: rest =>
    if (tree.node (dir ++ [name])).isSome then
      match tree.stat (R := Refusal) (hostLimits links)
          (placePath dir ++ [.down name]) with
      | .ok next =>
          if root.isPrefixOf next then
            existingDist root tree next rest
          else
            none
      | .error _ => none
    else
      none
| _, _ :: _ => none

/- An image that is not there is made in the project. -/
def StorageInside
    (root : Place Text) (tree : Disk Text) : Prop :=
  config.storage.mode = .persistent →
    ∀ dist place,
      existingDist links root tree root
          (Config.components config.output.dir) =
        some dist →
      tree.pathExists (hostLimits links)
          (storageImage config dist) = false →
      tree.landing (R := Refusal) (hostLimits links)
          (storageImage config dist) = .ok place →
      root <+: place

end Stages

------------------------------------------------------------
-- The Output Directory
------------------------------------------------------------

section OutputDirectory

variable {links : Nat} {tree : Disk Text}
variable {root dir : Place Text}

/- A valid directory is a list of names, up to `.`. -/
theorem outputSteps_eq (config : ValidConfig) :
    outputSteps config.config =
      (distDir config.config).map .down := by
  have hOutput :=
    ((Config.validate_eq_ok_iff _).1
      config.valid).2.2.2.2.2.2.2.2.2.2
  unfold Config.validateOutputAndRelease at hOutput
  simp only [unit_bind_eq_ok_iff, reject_eq_ok_iff,
    not_or] at hOutput
  rcases hOutput with ⟨_, ⟨_, hUp, hRoot⟩, _⟩
  unfold outputSteps distDir
  generalize
    Config.components config.config.output.dir = parts
    at hUp hRoot
  induction parts with
  | nil => rfl
  | cons part parts ih =>
      rw [List.mem_cons, not_or] at hUp hRoot
      have hRest := ih hUp.2 hRoot.2
      cases part with
      | rootDir => exact absurd rfl hRoot.1
      | parentDir => exact absurd rfl hUp.1
      | curDir =>
          rw [List.filterMap_cons_none rfl]
          simpa using hRest
      | normal name => simpa [normal?, stepOf] using hRest

/- The path of a place, as long as its names are valid. -/
theorem stat_placePath
    (hReal : tree.IsReal dir)
    (hValid :
      (placePath dir).all (Step.isValid (hostLimits links)) =
        true) :
    tree.stat (R := Refusal) (hostLimits links)
        (placePath dir) = .ok dir := by
  have hWalk :
      walk tree links [] (.root :: dir.map .down ++ []) =
        walk tree links dir [] :=
    walk_root_down hReal []
  rw [List.append_nil, walk_nil] at hWalk
  unfold Disk.stat
  rw [if_pos hValid]
  unfold placePath hostLimits
  dsimp only
  rw [hWalk]
  rfl

/- From the place, the rest of the path leads there. -/
theorem leads_of_stat
    {steps : List (Step Text)} {next : Place Text}
    (hReal : tree.IsReal dir)
    (hNext :
      tree.stat (R := Refusal) (hostLimits links)
          (placePath dir ++ steps) =
        .ok next) :
    Leads tree dir steps next := by
  rw [Disk.stat_eq_ok_iff] at hNext
  rcases hNext with ⟨_, left, hWalk⟩
  refine ⟨links, left, ?_⟩
  rw [← walk_root_down hReal steps]
  exact hWalk

/- A path to a name in a place. -/
theorem placePath_concat (dir : Place Text) (name : Text) :
    placePath dir ++ [.down name] =
      placePath (dir ++ [name]) := by
  simp [placePath]

/- The test is the relation. -/
theorem isPrefixOf_iff {place : Place Text} :
    root.isPrefixOf place = true ↔ root <+: place :=
  List.isPrefixOf_iff_prefix

/- A new directory has no directories yet. -/
theorem existingDist_of_empty
    {parts : List Config.Component} {dist : Place Text}
    (hEmpty : ∀ child, tree.node (dir ++ [child]) = none)
    (hDist :
      existingDist links root tree dir parts = some dist) :
    dist = dir := by
  induction parts with
  | nil =>
      cases hDist
      rfl
  | cons part parts ih =>
      cases part with
      | curDir => exact ih hDist
      | rootDir => cases hDist
      | parentDir => cases hDist
      | normal name =>
          unfold existingDist at hDist
          rw [hEmpty name] at hDist
          cases hDist

/- A path is valid as a path to a place and a name in it. -/
theorem valid_of_part
    {name : Text}
    (hValid :
      (placePath dir ++ [Step.down name]).all
          (Step.isValid (hostLimits links)) = true) :
    (placePath dir).all (Step.isValid (hostLimits links)) =
        true ∧
      (hostLimits links).isName name = true := by
  rw [List.all_append, Bool.and_eq_true] at hValid
  refine ⟨hValid.1, ?_⟩
  simpa [Step.isValid] using hValid.2

/- A name that is too long is refused. -/
theorem distSteps_invalid
    {name : Text} {rest : List Config.Component}
    (hValid :
      ¬ (placePath dir ++ [Step.down name]).all
          (Step.isValid (hostLimits links)) = true) :
    distSteps links root dir (.normal name :: rest) tree =
        Host.fail .invalidInput tree ∧
      existingDist links root tree dir
          (.normal name :: rest) = none := by
  have hFail :
      createDirIn (R := Refusal) (hostLimits links)
          (placePath dir) name tree =
        Host.fail .invalidInput tree :=
    createDirIn_of_invalid hValid
  constructor
  · unfold distSteps
    rw [Host.attempt_andThen_of_fail hFail]
  · unfold existingDist Disk.stat
    rw [if_neg hValid]
    simp

section Part

variable {name : Text} {rest : List Config.Component}
variable (hReal : tree.IsReal dir)
variable
  (hValid :
    (placePath dir ++ [Step.down name]).all
        (Step.isValid (hostLimits links)) = true)

include hReal hValid

/- Nothing is made in what is not a directory. -/
theorem distSteps_of_file
    (hDir : ¬ tree.isDirectory dir = true) :
    distSteps links root dir (.normal name :: rest) tree =
        Host.fail .notDirectory tree ∧
      existingDist links root tree dir
          (.normal name :: rest) = none := by
  rcases valid_of_part hValid with ⟨hParent, hName⟩
  have hFail :=
    createDirIn_of_file hName (stat_placePath hReal hParent)
      hDir
  constructor
  · unfold distSteps
    rw [Host.attempt_andThen_of_fail hFail]
  · unfold existingDist
    rw [if_neg]
    intro hSome
    exact
      hDir
        ((Disk.isDirectory_iff _).2
          (tree.parent_eq _ _ hSome))

/- What is made is the next directory. -/
theorem distSteps_of_none
    (hInside : root <+: dir)
    (hDir : tree.isDirectory dir = true)
    (hNone : tree.node (dir ++ [name]) = none) :
    let made :=
      distSteps links root (dir ++ [name]) rest
        (tree.add dir name .directory)
    distSteps links root dir (.normal name :: rest) tree =
      { result := made.result
        tree := made.tree
        touched := [dir ++ [name]] ++ made.touched } := by
  rcases valid_of_part hValid with ⟨hParent, hName⟩
  have hMade :=
    createDirIn_of_none hName (stat_placePath hReal hParent)
      hDir hNone
  have hRealNext :
      (tree.add dir name .directory).IsReal (dir ++ [name]) :=
    Or.inl (Disk.add_node_self hDir hNone)
  have hNext :
      (placePath (dir ++ [name])).all
          (Step.isValid (hostLimits links)) = true →
        (tree.add dir name .directory).stat
            (R := Refusal) (hostLimits links)
            (placePath (dir ++ [name])) =
          .ok (dir ++ [name]) :=
    stat_placePath hRealNext
  rw [← placePath_concat] at hNext
  intro made
  conv_lhs => unfold distSteps
  rw [Host.attempt_andThen_of_made hMade]
  dsimp only
  unfold canonicalize
  rw [Host.look_andThen_of_ok (hNext hValid),
    if_pos
      (isPrefixOf_iff.2
        (hInside.trans (List.prefix_append dir [name])))]

/- What is there is resolved, and must not lead outside. -/
theorem distSteps_of_some
    (hDir : tree.isDirectory dir = true)
    (hSome : (tree.node (dir ++ [name])).isSome) :
    (∃ error,
        distSteps links root dir (.normal name :: rest) tree =
            Host.fail error tree ∧
          existingDist links root tree dir
              (.normal name :: rest) = none) ∨
      ∃ next,
        tree.IsReal next ∧ root <+: next ∧
          Leads tree dir [.down name] next ∧
          distSteps links root dir (.normal name :: rest)
              tree =
            distSteps links root next rest tree ∧
          existingDist links root tree dir
              (.normal name :: rest) =
            existingDist links root tree next rest := by
  rcases valid_of_part hValid with ⟨hParent, hName⟩
  have hFail :=
    createDirIn_of_exists (R := Refusal) hName
      (stat_placePath hReal hParent) hDir hSome
  have hSteps :
      distSteps links root dir (.normal name :: rest) tree =
        (canonicalize (hostLimits links)
          (placePath dir ++ [.down name])).andThen
          (fun next =>
            if root.isPrefixOf next then
              distSteps links root next rest
            else
              .fail (.refused .outputDirOutsideProject))
          tree := by
    conv_lhs => unfold distSteps
    rw [Host.attempt_andThen_of_fail hFail]
  have hExisting :
      existingDist links root tree dir
          (.normal name :: rest) =
        match
          tree.stat (R := Refusal) (hostLimits links)
            (placePath dir ++ [.down name]) with
        | .ok next =>
            if root.isPrefixOf next then
              existingDist links root tree next rest
            else
              none
        | .error _ => none := by
    conv_lhs => unfold existingDist
    rw [if_pos hSome]
  rw [hSteps, hExisting]
  unfold canonicalize
  cases hNext :
      tree.stat (R := Refusal) (hostLimits links)
        (placePath dir ++ [.down name]) with
  | error error =>
      left
      refine ⟨error, ?_, rfl⟩
      rw [Host.look_andThen_of_error hNext]
  | ok next =>
      dsimp only
      rw [Host.look_andThen_of_ok hNext]
      by_cases hPrefix : root.isPrefixOf next = true
      · right
        rw [if_pos hPrefix, if_pos hPrefix]
        exact
          ⟨next, Disk.isReal_of_stat hNext,
            isPrefixOf_iff.1 hPrefix,
            leads_of_stat hReal hNext, rfl, rfl⟩
      · left
        rw [if_neg hPrefix, if_neg hPrefix]
        exact ⟨_, rfl, rfl⟩

end Part

/- One directory: refused, made, or there already. -/
theorem distSteps_normal
    {name : Text} {rest : List Config.Component}
    (hReal : tree.IsReal dir) (hInside : root <+: dir) :
    (∃ error,
        distSteps links root dir (.normal name :: rest) tree =
            Host.fail error tree ∧
          existingDist links root tree dir
              (.normal name :: rest) = none) ∨
      (tree.isDirectory dir = true ∧
        tree.node (dir ++ [name]) = none ∧
        let made :=
          distSteps links root (dir ++ [name]) rest
            (tree.add dir name .directory)
        distSteps links root dir (.normal name :: rest) tree =
          { result := made.result
            tree := made.tree
            touched := [dir ++ [name]] ++ made.touched }) ∨
      ∃ next,
        tree.IsReal next ∧ root <+: next ∧
          Leads tree dir [.down name] next ∧
          distSteps links root dir (.normal name :: rest)
              tree =
            distSteps links root next rest tree ∧
          existingDist links root tree dir
              (.normal name :: rest) =
            existingDist links root tree next rest := by
  by_cases hValid :
      (placePath dir ++ [Step.down name]).all
          (Step.isValid (hostLimits links)) = true
  · by_cases hDir : tree.isDirectory dir = true
    · by_cases hNone : tree.node (dir ++ [name]) = none
      · right
        left
        exact
          ⟨hDir, hNone,
            distSteps_of_none hReal hValid hInside hDir hNone⟩
      · have hSome : (tree.node (dir ++ [name])).isSome := by
          rwa [Option.isSome_iff_ne_none]
        rcases distSteps_of_some hReal hValid hDir hSome with
          hFailed | hThere
        · exact Or.inl hFailed
        · exact Or.inr (Or.inr hThere)
    · left
      exact ⟨_, distSteps_of_file hReal hValid hDir⟩
  · left
    exact ⟨_, distSteps_invalid hValid⟩

/- What is there is gone through, and nothing is made. -/
theorem distSteps_of_existing
    {parts : List Config.Component} {dist : Place Text}
    (hReal : tree.IsReal dir) (hInside : root <+: dir)
    (hDist :
      existingDist links root tree dir parts = some dist) :
    distSteps links root dir parts tree =
      Host.done dist tree := by
  induction parts generalizing dir with
  | nil =>
      cases hDist
      rfl
  | cons part parts ih =>
      cases part with
      | curDir => exact ih hReal hInside hDist
      | rootDir => cases hDist
      | parentDir => cases hDist
      | normal name =>
          rcases distSteps_normal hReal hInside with
            ⟨error, _, hNone⟩ | ⟨_, hNone, _⟩ |
              ⟨next, hNext, hPrefix, _, hSteps, hExisting⟩
          · rw [hNone] at hDist
            cases hDist
          · unfold existingDist at hDist
            rw [hNone] at hDist
            cases hDist
          · rw [hSteps]
            rw [hExisting] at hDist
            exact ih hNext hPrefix hDist

/-
  Every directory that is made is inside. The one that is
  answered was there, or it is new and empty.
-/
theorem distSteps_spec
    {parts : List Config.Component}
    (hReal : tree.IsReal dir) (hInside : root <+: dir) :
    Confined root (distSteps links root dir parts tree) ∧
      ∀ dist,
        (distSteps links root dir parts tree).result =
            .ok dist →
          root <+: dist ∧
            ((distSteps links root dir parts tree).tree =
                  tree ∧
                existingDist links root tree dir parts =
                  some dist ∨
              (distSteps links root dir parts
                    tree).tree.isDirectory dist = true ∧
                ∀ child,
                  (distSteps links root dir parts
                      tree).tree.node (dist ++ [child]) =
                    none) := by
  induction parts generalizing tree dir with
  | nil =>
      constructor
      · intro place hPlace
        cases hPlace
      · intro dist hDist
        cases hDist
        exact ⟨hInside, Or.inl ⟨rfl, rfl⟩⟩
  | cons part parts ih =>
      cases part with
      | curDir => exact ih hReal hInside
      | rootDir | parentDir =>
          constructor
          · intro place hPlace
            cases hPlace
          · intro dist hDist
            cases hDist
      | normal name =>
          have hCases :=
            @distSteps_normal links tree root dir name parts
              hReal hInside
          rcases hCases with
            ⟨error, hFail, _⟩ | ⟨hDir, hNone, hMade⟩ |
              ⟨next, hNext, hPrefix, _, hSteps, hExisting⟩
          · rw [hFail]
            constructor
            · intro place hPlace
              cases hPlace
            · intro dist hDist
              cases hDist
          · have hBelow : root <+: dir ++ [name] :=
              hInside.trans (List.prefix_append dir [name])
            have hNew :
                (tree.add dir name .directory).isDirectory
                  (dir ++ [name]) = true := by
              rw [Disk.isDirectory_iff]
              exact Disk.add_node_self hDir hNone
            have hEmpty :
                ∀ child,
                  (tree.add dir name .directory).node
                      (dir ++ [name] ++ [child]) = none :=
              fun child => node_add_child hNone
            have hNewReal :
                (tree.add dir name .directory).IsReal
                  (dir ++ [name]) :=
              Or.inl ((Disk.isDirectory_iff _).1 hNew)
            rcases ih hNewReal hBelow with
              ⟨hTouched, hResult⟩
            rw [hMade]
            constructor
            · intro place hPlace
              dsimp only at hPlace
              rw [List.mem_append, List.mem_singleton]
                at hPlace
              rcases hPlace with rfl | hPlace
              · exact hBelow
              · exact hTouched place hPlace
            · intro dist hDist
              rcases hResult dist hDist with
                ⟨hDistInside, ⟨hSame, hOld⟩ | hFresh⟩
              · have hLast := existingDist_of_empty hEmpty hOld
                refine ⟨hDistInside, Or.inr ?_⟩
                dsimp only
                rw [hSame, hLast]
                exact ⟨hNew, hEmpty⟩
              · exact ⟨hDistInside, Or.inr hFresh⟩
          · rw [hSteps, hExisting]
            exact ih hNext hPrefix

/- Directories are made, and nothing is removed. -/
theorem grows_distSteps
    (root dir : Place Text) (parts : List Config.Component) :
    (distSteps links root dir parts).Grows := by
  induction parts generalizing dir with
  | nil => exact Host.grows_done dir
  | cons part parts ih =>
      cases part with
      | curDir => exact ih dir
      | rootDir | parentDir => exact Host.grows_fail _
      | normal name =>
          unfold distSteps
          apply Host.grows_andThen
          · exact
              Host.grows_attempt (grows_createDirIn _ _ _)
          · intro created
            have hGo :
                ((canonicalize (hostLimits links)
                    (placePath dir ++
                      [.down name])).andThen fun next =>
                  if root.isPrefixOf next then
                    distSteps links root next parts
                  else
                    .fail
                      (.refused
                        .outputDirOutsideProject)).Grows := by
              apply Host.grows_andThen (Host.grows_look _)
              intro next
              split
              · exact ih next
              · exact Host.grows_fail _
            cases created with
            | ok made => exact hGo
            | error error =>
                cases error with
                | alreadyExists => exact hGo
                | _ => exact Host.grows_fail _

end OutputDirectory

------------------------------------------------------------
-- Storage
------------------------------------------------------------

section Storage

variable {links : Nat} {tree : Disk Text}
variable {project : List (Step Text)} {root : Place Text}
variable
  (hProject :
    tree.stat (R := Refusal) (hostLimits links) project =
      .ok root)

include hProject

/- What is left when the project and the name are there. -/
theorem hostDistDir_eq
    {config : Config}
    (hDir : Text.trim config.output.dir ≠ []) :
    hostDistDir links config project tree =
      distSteps links root root
        (Config.components config.output.dir) tree := by
  unfold hostDistDir canonicalize
  rw [Host.look_andThen_of_ok hProject, if_neg hDir]

/- The output directory is never made outside. -/
theorem hostDistDir_confined (config : Config) :
    Confined root
      (hostDistDir links config project tree) := by
  by_cases hDir : Text.trim config.output.dir = []
  · unfold hostDistDir canonicalize
    rw [Host.look_andThen_of_ok hProject, if_pos hDir]
    intro place hPlace
    cases hPlace
  · rw [hostDistDir_eq hProject hDir]
    exact
      (distSteps_spec (Disk.isReal_of_stat hProject)
        (List.prefix_refl root)).1

end Storage

/- A valid config names a directory. -/
theorem trim_dir_ne (config : ValidConfig) :
    Text.trim config.config.output.dir ≠ [] := by
  have hOutput :=
    ((Config.validate_eq_ok_iff _).1
      config.valid).2.2.2.2.2.2.2.2.2.2
  unfold Config.validateOutputAndRelease at hOutput
  simp only [unit_bind_eq_ok_iff, reject_eq_ok_iff,
    not_or] at hOutput
  exact hOutput.2.1.1

section Storage

variable {links : Nat} {tree : Disk Text}
variable {project : List (Step Text)} {root : Place Text}

/- A file that is missing in a directory is made there. -/
theorem landing_of_empty
    {dist place : Place Text} {name : Text}
    (hDir : tree.isDirectory dist = true)
    (hNone : tree.node (dist ++ [name]) = none)
    (hLanding :
      tree.landing (R := Refusal) (hostLimits links)
          (placePath dist ++ [.down name]) = .ok place) :
    place = dist ++ [name] := by
  have hReal : tree.IsReal dist :=
    Or.inl ((Disk.isDirectory_iff _).1 hDir)
  have hWalk :
      walk tree links [] (.root :: dist.map .down ++ []) =
        walk tree links dist [] :=
    walk_root_down hReal []
  rw [List.append_nil, walk_nil] at hWalk
  exact landing_of_missing hWalk hDir hNone hLanding

/- Storage is confined exactly if its image is made inside. -/
theorem storageStage_confined_iff
    {config : ValidConfig}
    (hProject :
      tree.stat (R := Refusal) (hostLimits links) project =
        .ok root) :
    Confined root
          (storageStage links config.config project tree) ↔
      StorageInside links config.config root tree := by
  have hTrim := trim_dir_ne config
  have hRoot := Disk.isReal_of_stat hProject
  have hInside := List.prefix_refl root
  unfold StorageInside storageStage
  by_cases hMode :
      config.config.storage.mode = .persistent
  · rw [if_neg (not_not.2 hMode)]
    constructor
    · intro hConfined _ dist place hDist hAbsent hLanding
      apply hConfined
      rw [Host.mem_touched_andThen]
      right
      rw [hostDistDir_eq hProject hTrim,
        distSteps_of_existing hRoot hInside hDist]
      refine ⟨dist, rfl, ?_⟩
      have hDone :
          (Host.done (R := Refusal) dist tree).tree = tree :=
        rfl
      rw [hDone, askExists_andThen, hAbsent,
        if_neg Bool.false_ne_true, mem_touched_openCreate]
      exact hLanding
    · intro hStorage place hPlace
      rw [Host.mem_touched_andThen] at hPlace
      rcases hPlace with hPlace | ⟨dist, hDist, hPlace⟩
      · exact hostDistDir_confined hProject _ place hPlace
      · rw [hostDistDir_eq hProject hTrim] at hDist hPlace
        rw [askExists_andThen] at hPlace
        split at hPlace
        · cases hPlace
        · rename_i hAbsent
          rw [mem_touched_openCreate] at hPlace
          rcases (distSteps_spec hRoot hInside).2 dist hDist
            with ⟨hBelow, ⟨hSame, hOld⟩ | ⟨hDir, hEmpty⟩⟩
          · rw [hSame] at hAbsent hPlace
            rw [Bool.not_eq_true] at hAbsent
            exact
              hStorage hMode dist place hOld hAbsent hPlace
          · rw [landing_of_empty hDir (hEmpty _) hPlace]
            exact hBelow.trans (List.prefix_append dist _)
  · rw [if_pos hMode]
    constructor
    · intro _ hPersistent
      exact absurd hPersistent hMode
    · intro _ place hPlace
      cases hPlace

end Storage

------------------------------------------------------------
-- Firmware
------------------------------------------------------------

section Firmware

variable {links : Nat} {tree : Disk Text}
variable {project : List (Step Text)} {root : Place Text}
variable {config : ValidConfig}

/- The firmware's directory by its names. -/
theorem ovmfDir_eq :
    ovmfDir config.config project =
      project ++
        (distDir config.config ++ [ovmfCacheName]).map
          Step.down := by
  unfold ovmfDir
  rw [outputSteps_eq, List.map_append, List.append_assoc]
  rfl

/- As the call that makes it goes through them. -/
theorem ovmfDir_reverse :
    (ovmfDir config.config project).reverse =
      pathBelow project
        (distDir config.config ++ [ovmfCacheName]) := by
  rw [ovmfDir_eq]
  rfl

/- A name that is new is not the root's own place. -/
theorem prefix_of_concat
    {dir : Place Text} {name : Text}
    (hRoot : tree.IsReal root)
    (hNone : tree.node (dir ++ [name]) = none)
    (hPrefix : root <+: dir ++ [name]) :
    root <+: dir := by
  rw [List.prefix_concat_iff] at hPrefix
  rcases hPrefix with hSame | hPrefix
  · have hSome := tree.isSome_of_isReal hRoot
    rw [hSame, hNone] at hSome
    cases hSome
  · exact hPrefix

variable
  (hProject :
    tree.stat (R := Refusal) (hostLimits links) project =
      .ok root)
  (hNames :
    (distDir config.config ++ [ovmfCacheName]).all
      (hostLimits links).isName = true)

include hProject hNames

/- The directories, from what there is on the way to them. -/
theorem makeOvmfDir_spec :
    ∃ left,
      walk tree links [] project = .found root left ∧
        MadeBelow tree left root
          (distDir config.config ++ [ovmfCacheName])
          (createDirAll (R := Refusal) (hostLimits links)
            (ovmfDir config.config project).reverse tree) := by
  rcases Disk.stat_eq_ok_iff.1 hProject with
    ⟨hValid, left, hWalk⟩
  refine ⟨left, hWalk, ?_⟩
  rw [ovmfDir_reverse]
  exact createDirAll_spec hWalk hValid hNames

/- New directories are inside where one that was there is. -/
theorem makeOvmfDir_confined_iff :
    Confined root
        (createDirAll (R := Refusal) (hostLimits links)
          (ovmfDir config.config project).reverse tree) ↔
      ∀ dir name rest,
        missingBelow links project tree
              (distDir config.config ++ [ovmfCacheName]) =
            some (dir, name :: rest) →
          root <+: dir := by
  have hRoot := Disk.isReal_of_stat hProject
  rcases makeOvmfDir_spec hProject hNames with
    ⟨left, hWalk, hMade⟩
  unfold missingBelow
  rw [hWalk]
  dsimp only
  unfold MadeBelow at hMade
  cases hDescend :
      descend tree left root
        (distDir config.config ++ [ovmfCacheName]) with
  | none =>
      rw [hDescend] at hMade
      unfold Confined
      rw [hMade.2]
      simp
  | some found =>
      rcases found with ⟨dir, more, missing⟩
      rw [hDescend] at hMade
      cases missing with
      | nil =>
          unfold Confined
          rw [hMade.2.1]
          simp
      | cons name rest =>
          rcases hMade with ⟨_, hMem, hBelow, _, _⟩
          have hNone :=
            ((descend_eq_some hDescend).2 name rest rfl).2
          constructor
          · intro hConfined other first others hOther
            cases hOther
            exact
              prefix_of_concat hRoot hNone
                (hConfined _ hMem)
          · intro hInside place hPlace
            exact
              (hInside dir name rest rfl).trans
                (hBelow place hPlace)

/- Where no directory is missing, the file is written next. -/
theorem makeOvmfDir_of_nothing_missing
    {dir place : Place Text}
    (hBelow :
      missingBelow links project tree
          (distDir config.config ++ [ovmfCacheName]) =
        some (dir, []))
    (hLanding :
      tree.landing (R := Refusal) (hostLimits links)
          (ovmfFile config.config project) = .ok place) :
    (createDirAll (R := Refusal) (hostLimits links)
          (ovmfDir config.config project).reverse
          tree).result = .ok () ∧
      (createDirAll (R := Refusal) (hostLimits links)
          (ovmfDir config.config project).reverse
          tree).tree = tree := by
  rcases makeOvmfDir_spec hProject hNames with
    ⟨left, hWalk, hMade⟩
  unfold missingBelow at hBelow
  rw [hWalk] at hBelow
  dsimp only at hBelow
  rw [Option.map_eq_some_iff] at hBelow
  rcases hBelow with ⟨⟨found, more, none⟩, hDescend, hEq⟩
  cases hEq
  unfold MadeBelow at hMade
  rw [hDescend] at hMade
  rcases hMade with ⟨hTree, _, hOk⟩
  refine ⟨hOk ?_, hTree⟩
  unfold ovmfFile at hLanding
  rcases found_of_landing hLanding with
    ⟨there, last, hFound, hDir⟩
  have hEnd :=
    walk_of_descend (.refl tree) hDescend (Or.inl rfl)
  rw [ovmfDir_eq, walk_append, hostLimits_links, hWalk]
    at hFound
  unfold Walk.andThen at hFound
  dsimp only at hFound
  rw [hEnd, List.append_nil] at hFound
  cases hFound
  exact hDir

/- So is the file, if it is read and then written. -/
theorem writeOvmf_confined
    {ovmf : OvmfSource} {path : Text}
    (hPreset : ovmf.preset.isSome = false)
    (hPath : ovmf.path = some path)
    (hInside :
      OvmfInside links config.config project root tree ovmf)
    {place : Place Text}
    (hReadable :
      (createDirAll (R := Refusal) (hostLimits links)
            (ovmfDir config.config project).reverse
            tree).tree.isReadable (hostLimits links)
          (joinPath project path) = true)
    (hLanding :
      (createDirAll (R := Refusal) (hostLimits links)
            (ovmfDir config.config project).reverse
            tree).tree.landing (R := Refusal)
          (hostLimits links)
          (ovmfFile config.config project) = .ok place) :
    root <+: place := by
  have hGrows :=
    grows_createDirAll (R := Refusal) (hostLimits links)
      (ovmfDir config.config project).reverse tree
  rcases makeOvmfDir_spec hProject hNames with
    ⟨left, hWalk, hMade⟩
  have hBelow :
      missingBelow links project tree
          (distDir config.config ++ [ovmfCacheName]) =
        (descend tree left root
            (distDir config.config ++
              [ovmfCacheName])).map fun found =>
          (found.1, found.2.2) := by
    unfold missingBelow
    rw [hWalk]
  unfold MadeBelow at hMade
  cases hDescend :
      descend tree left root
        (distDir config.config ++ [ovmfCacheName]) with
  | none =>
      exfalso
      rw [hDescend] at hMade
      rw [hMade.1] at hLanding
      unfold ovmfFile at hLanding
      rcases found_of_landing hLanding with
        ⟨dir, more, hFound, _⟩
      rw [ovmfDir_eq] at hFound
      unfold hostLimits at hFound
      rw [walk_append, hWalk] at hFound
      exact not_found_of_descend_none hDescend hFound
  | some found =>
      rcases found with ⟨dir, more, missing⟩
      rw [hDescend] at hMade hBelow
      have hHere :=
        hInside path dir missing hPreset hPath hNames hBelow
      cases missing with
      | nil =>
          rw [if_pos rfl] at hHere
          rw [hMade.1] at hReadable hLanding
          exact hHere hReadable place hLanding
      | cons name rest =>
          rw [if_neg (List.cons_ne_nil name rest)] at hHere
          rcases hMade with ⟨_, _, _, hDir, hEmpty⟩
          have hFound :=
            walk_of_descend hGrows hDescend
              (Or.inr (Or.inl
                ((Disk.isDirectory_iff _).1 hDir)))
          have hAll :
              ∀ later, Extends tree later →
                walk later left root
                    ((distDir config.config ++
                      [ovmfCacheName]).map .down) =
                  .found (dir ++ name :: rest) more →
                walk later (hostLimits links).links []
                    (ovmfDir config.config project) =
                  .found (dir ++ name :: rest) more := by
            intro later hExtends hEnd
            rw [ovmfDir_eq, walk_append, hostLimits_links,
              walk_found_of_extends hExtends hWalk]
            exact hEnd
          have hPlace :=
            landing_of_missing (hAll _ hGrows hFound) hDir
              (hEmpty ovmfFileName) hLanding
          rw [hPlace, List.append_assoc]
          exact hHere.trans (List.prefix_append dir _)

omit hNames in
/- Firmware is confined exactly if it is made inside. -/
theorem ovmfStage_confined_iff (ovmf : OvmfSource) :
    Confined root
          (ovmfStage links config.config project ovmf tree) ↔
      OvmfInside links config.config project root tree
        ovmf := by
  unfold ovmfStage
  by_cases hPreset : ovmf.preset.isSome = true
  · rw [if_pos hPreset]
    constructor
    · intro _ path dir missing hNone
      rw [hPreset] at hNone
      cases hNone
    · intro _ place hPlace
      cases hPlace
  · rw [if_neg hPreset]
    rw [Bool.not_eq_true] at hPreset
    cases hPath : ovmf.path with
    | none =>
        constructor
        · intro _ path dir missing _ hSome
          rw [hPath] at hSome
          cases hSome
        · intro _ place hPlace
          cases hPlace
    | some path =>
        dsimp only
        by_cases hNames :
            (distDir config.config ++ [ovmfCacheName]).all
                (hostLimits links).isName = true
        · constructor
          · intro hConfined other dir missing _ hOther _
              hBelow
            rw [hPath] at hOther
            cases hOther
            cases missing with
            | nil =>
                rw [if_pos rfl]
                intro hReadable place hLanding
                rcases makeOvmfDir_of_nothing_missing hProject
                    hNames hBelow hLanding with
                  ⟨hOk, hTree⟩
                apply hConfined
                rw [Host.mem_touched_andThen]
                right
                refine ⟨(), hOk, ?_⟩
                rw [hTree, mem_touched_read_andThen,
                  mem_touched_openCreate]
                exact ⟨hReadable, hLanding⟩
            | cons name rest =>
                rw [if_neg (List.cons_ne_nil name rest)]
                apply (makeOvmfDir_confined_iff hProject
                  hNames).1 _ dir name rest hBelow
                intro place hPlace
                apply hConfined
                rw [Host.mem_touched_andThen]
                exact Or.inl hPlace
          · intro hInside place hPlace
            rw [Host.mem_touched_andThen] at hPlace
            rcases hPlace with hPlace | ⟨_, _, hPlace⟩
            · apply (makeOvmfDir_confined_iff hProject
                hNames).2 _ place hPlace
              intro dir name rest hBelow
              have hHere :=
                hInside path dir _ hPreset hPath hNames hBelow
              rwa [if_neg (List.cons_ne_nil name rest)]
                at hHere
            · rw [mem_touched_read_andThen,
                mem_touched_openCreate] at hPlace
              exact
                writeOvmf_confined hProject hNames hPreset
                  hPath hInside hPlace.1 hPlace.2
        · constructor
          · intro _ other dir missing _ _ hValid
            exact absurd hValid hNames
          · intro _ place hPlace
            rw [Host.mem_touched_andThen] at hPlace
            have hInvalid :
                ¬ (ovmfDir config.config project).all
                    (Step.isValid (hostLimits links)) =
                  true := by
              rw [ovmfDir_eq, List.all_append, List.all_map,
                Bool.and_eq_true, not_and]
              intro _
              exact hNames
            rcases hPlace with hPlace | ⟨_, _, hPlace⟩
            · rw [ovmfDir_reverse, pathBelow_concat,
                createDirAll_of_invalid] at hPlace
              · cases hPlace
              · rw [pathBelow_reverse]
                rw [ovmfDir_eq, List.map_append,
                  ← List.append_assoc] at hInvalid
                exact hInvalid
            · rw [mem_touched_read_andThen,
                mem_touched_openCreate] at hPlace
              have hValid := valid_of_landing hPlace.2
              unfold ovmfFile at hValid
              rw [List.all_append, Bool.and_eq_true] at hValid
              exact absurd hValid.1 hInvalid

end Firmware

------------------------------------------------------------
-- Before the Container
------------------------------------------------------------

section Whole

variable {links : Nat} {tree : Disk Text}
variable {project : List (Step Text)} {root : Place Text}

/- None of the stages removes anything. -/
theorem grows_firmwareStage (config : Config) :
    (firmwareStage links config project).Grows := by
  unfold firmwareStage
  split
  · exact Host.grows_done ()
  · unfold ovmfStage
    split
    · exact Host.grows_done ()
    · split
      · exact Host.grows_fail _
      · apply Host.grows_andThen (grows_createDirAll _ _)
        intro _
        apply Host.grows_andThen (Host.grows_look _)
        intro _
        exact grows_openCreate _ _

theorem grows_hostDistDir (config : Config) :
    (hostDistDir links config project).Grows := by
  unfold hostDistDir
  apply Host.grows_andThen (Host.grows_look _)
  intro root
  split
  · exact Host.grows_fail _
  · exact grows_distSteps root root _

theorem grows_storageStage (config : Config) :
    (storageStage links config project).Grows := by
  unfold storageStage
  split
  · exact Host.grows_done ()
  · apply Host.grows_andThen (grows_hostDistDir config)
    intro dist
    apply Host.grows_andThen (Host.grows_look _)
    intro there
    split
    · exact Host.grows_done ()
    · exact grows_openCreate _ _

/- Both parts have to be confined. -/
theorem confined_andThen_iff
    {α β : Type} {first : HostFiles α}
    {rest : α → HostFiles β} :
    Confined root (first.andThen rest tree) ↔
      Confined root (first tree) ∧
        ∀ a, (first tree).result = .ok a →
          Confined root (rest a (first tree).tree) := by
  unfold Confined
  simp only [Host.mem_touched_andThen]
  constructor
  · intro hBoth
    constructor
    · intro place hPlace
      exact hBoth place (Or.inl hPlace)
    · intro a hOk place hPlace
      exact hBoth place (Or.inr ⟨a, hOk, hPlace⟩)
  · rintro ⟨hFirst, hRest⟩ place (hPlace | ⟨a, hOk, hPlace⟩)
    · exact hFirst place hPlace
    · exact hRest a hOk place hPlace

/- The condition on the firmware is exact. -/
theorem firmwareStage_confined_iff
    {config : ValidConfig}
    (hProject :
      tree.stat (R := Refusal) (hostLimits links) project =
        .ok root) :
    Confined root
          (firmwareStage links config.config project tree) ↔
      ∀ sev, config.config.sevSnp = some sev →
        OvmfInside links config.config project root tree
          sev.ovmf := by
  unfold firmwareStage
  cases hSev : config.config.sevSnp with
  | none =>
      constructor
      · intro _ sev hSome
        cases hSome
      · intro _ place hPlace
        cases hPlace
  | some sev =>
      dsimp only
      rw [ovmfStage_confined_iff hProject]
      simp

/-
  Nothing is written outside of the project exactly if the
  firmware is staged inside, and then the storage.
-/
theorem confined_iff
    {config : ValidConfig}
    (acquire : Disk Text → Except (FileError Refusal) Unit)
    (hProject :
      tree.stat (R := Refusal) (hostLimits links) project =
        .ok root) :
    Confined root
          (beforeContainer links config.config project acquire
            tree) ↔
      (∀ sev, config.config.sevSnp = some sev →
          OvmfInside links config.config project root tree
            sev.ovmf) ∧
        ((firmwareStage links config.config project
              tree).result = .ok () →
          StorageInside links config.config root
            (firmwareStage links config.config project
              tree).tree) := by
  have hLater :
      (firmwareStage links config.config project
            tree).tree.stat (R := Refusal)
          (hostLimits links) project = .ok root :=
    Disk.stat_of_extends
      (grows_firmwareStage config.config tree) hProject
  have hStored :
      (storageStage links config.config project
            (firmwareStage links config.config project
              tree).tree).tree.stat (R := Refusal)
          (hostLimits links) project = .ok root :=
    Disk.stat_of_extends
      (grows_storageStage config.config _) hLater
  unfold beforeContainer
  rw [confined_andThen_iff,
    firmwareStage_confined_iff hProject]
  simp only [confined_andThen_iff,
    storageStage_confined_iff hLater]
  constructor
  · rintro ⟨hFirmware, hRest⟩
    refine ⟨hFirmware, ?_⟩
    intro hOk
    exact (hRest () hOk).1
  · rintro ⟨hFirmware, hStorage⟩
    refine ⟨hFirmware, ?_⟩
    intro _ hOk
    refine ⟨hStorage hOk, ?_⟩
    intro _ _
    constructor
    · intro place hPlace
      cases hPlace
    · intro _ _
      exact hostDistDir_confined hStored config.config

end Whole

------------------------------------------------------------
-- An Output Directory Elsewhere
------------------------------------------------------------

/- A project, and a place that is not in it. -/
def projectName : Text := "project".toList

/- A directory beside the project. -/
def elsewhereName : Text := "elsewhere".toList

def projectPath : List (Step Text) :=
  [.root, .down projectName]

/- A project, and a directory beside it. -/
def plainTree : Disk Text :=
  (Disk.bare.add [] projectName .directory).add []
    elsewhereName .directory

/- The project's output directory is the other directory. -/
def linkedTree : Disk Text :=
  plainTree.add [projectName] "dist".toList
    (.link [.root, .down elsewhereName])

/- Firmware from a file of the project. -/
def firmwareConfig : ValidConfig where
  config :=
    { sevSnpConfigWithFormats [.cpio] with
      sevSnp :=
        some
          { vcpus := 2
            vcpuType := "EPYC-v3".toList
            kernelCmdline := "console=ttyS0".toList
            ovmf := { path := some "fw.fd".toList } } }
  valid := rfl

/- Without links, the directories are made in the project. -/
theorem confined_plain :
    Confined [projectName]
      (beforeContainer 40 firmwareConfig.config projectPath
        (fun _ => .ok ()) plainTree) := by
  have hProject :
      plainTree.stat (R := Refusal) (hostLimits 40)
          projectPath = .ok [projectName] := by
    rfl
  refine (confined_iff (fun _ => .ok ()) hProject).2 ⟨?_, ?_⟩
  · intro sev _ path dir missing _ _ _ hBelow
    have hMissing :
        missingBelow 40 projectPath plainTree
            (distDir firmwareConfig.config ++
              [ovmfCacheName]) =
          some
            ([projectName], ["dist".toList, ovmfCacheName]) :=
      rfl
    rw [hMissing] at hBelow
    cases hBelow
    split
    · rename_i hNil
      cases hNil
    · exact List.prefix_refl _
  · intro _ hMode
    cases hMode

/- Through the link, a directory is made outside. -/
theorem created_outside :
    ∃ root,
      linkedTree.stat (R := Refusal) (hostLimits 40)
            projectPath = .ok root ∧
        ¬ Confined root
          (beforeContainer 40 firmwareConfig.config
            projectPath (fun _ => .ok ()) linkedTree) := by
  refine ⟨[projectName], rfl, ?_⟩
  intro hConfined
  have hTouched :
      (beforeContainer 40 firmwareConfig.config projectPath
          (fun _ => .ok ()) linkedTree).touched =
        [[elsewhereName, ovmfCacheName]] := rfl
  have hPrefix :=
    hConfined [elsewhereName, ovmfCacheName]
      (by rw [hTouched]; exact List.mem_cons_self)
  exact absurd hPrefix (by decide)

end Confinement

end Pipeline

end CargoUnikernel
