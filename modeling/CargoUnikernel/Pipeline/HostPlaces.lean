import CargoUnikernel.Pipeline.AppPath
import CargoUnikernel.Pipeline.Build
import CargoUnikernel.Pipeline.OutputDirectory

/-
  The paths of a build, on the host.

  A build counts its paths from the project and knows the
  links as a function. On the host they are looked up in a
  tree of files. Step by step the two are at the same place:
  the output directory is the same, and the app that is
  acquired on the host is acquired in the build.

  Main declarations:
    * `IsAt`, `LinksOf`, `exists_linksOf`
    * `hostDistDir_agrees`
    * `isAt_walk_pieces`, `acquire_agrees`
-/

------------------------------------------------------------
-- Paths and Places
------------------------------------------------------------

namespace CargoUnikernel

namespace Pipeline

open Schema FileTree

section Places

variable {N : Type} (spell : Text → N)

/- A path of the build, and the place of the host it is. -/
inductive IsAt (root : Place N) : HostPath → Place N → Prop
| inside (path : Dir) :
    IsAt root (.inside path) (root ++ path.map spell)
| outside (path : Dir)
    (hAway : ¬ root <+: path.map spell) :
    IsAt root (.outside path) (path.map spell)

/-
  The links that a build meets are those of the tree, and the
  names that they lead to are text.
-/
structure LinksOf
    (tree : Disk N) (root : Place N) (met : Links) :
    Prop where
  root_ne : root ≠ []
  parent_eq : met.parent.map spell = root.dropLast
  follow_isAt :
    ∀ path place name next, IsAt spell root path place →
      Leads tree place [.down (spell name)] next →
        IsAt spell root (met.follow path name) next

variable {spell} {tree : Disk N} {root : Place N}

/- The project is where the names below it begin. -/
theorem IsAt.start : IsAt spell root (.inside []) root := by
  have hHere := @IsAt.inside N spell root []
  rwa [List.map_nil, List.append_nil] at hHere

/- A path is at one place. -/
theorem IsAt.unique
    {path : HostPath} {place other : Place N}
    (hPlace : IsAt spell root path place)
    (hOther : IsAt spell root path other) :
    place = other := by
  cases hPlace with
  | inside path =>
      cases hOther
      rfl
  | outside path _ =>
      cases hOther
      rfl

/- A place below the project is counted from there. -/
theorem IsAt.inside_of_prefix
    {path : HostPath} {names : Place N}
    (hAt : IsAt spell root path (root ++ names)) :
    ∃ inside : Dir,
      path = .inside inside ∧ inside.map spell = names := by
  generalize hPlace : root ++ names = place at hAt
  cases hAt with
  | inside inside =>
      exact
        ⟨inside, rfl,
          (List.append_cancel_left hPlace).symm⟩
  | outside outside hAway =>
      exact absurd ⟨names, hPlace⟩ hAway

/- Names that are text are the names of a path. -/
theorem exists_path_of_text
    {names : Place N}
    (hText : ∀ name ∈ names, ∃ text, spell text = name) :
    ∃ path : Dir, path.map spell = names := by
  induction names with
  | nil => exact ⟨[], rfl⟩
  | cons name names ih =>
      rcases hText name List.mem_cons_self with ⟨text, hName⟩
      rcases ih fun other hMem =>
        hText other (List.mem_cons_of_mem name hMem) with
        ⟨path, hPath⟩
      refine ⟨text :: path, ?_⟩
      rw [List.map_cons, hName, hPath]

/- So every place with such names is at some path. -/
theorem exists_isAt_of_text
    {place : Place N}
    (hText : ∀ name ∈ place, ∃ text, spell text = name) :
    ∃ path, IsAt spell root path place := by
  by_cases hInside : root <+: place
  · rcases hInside with ⟨names, rfl⟩
    rcases exists_path_of_text fun name hMem =>
      hText name (List.mem_append_right root hMem) with
      ⟨path, rfl⟩
    exact ⟨_, .inside path⟩
  · rcases exists_path_of_text hText with ⟨path, rfl⟩
    exact ⟨_, .outside path hInside⟩

/- Where all names are text, there are links to meet. -/
theorem exists_linksOf
    (hText :
      ∀ place, (tree.node place).isSome →
        ∀ name ∈ place, ∃ text, spell text = name)
    (hRoot : (tree.node root).isSome) (hNe : root ≠ []) :
    ∃ met, LinksOf spell tree root met := by
  have hStep (path : HostPath) (name : Text) :
      ∃ target, ∀ place next, IsAt spell root path place →
        Leads tree place [.down (spell name)] next →
          IsAt spell root target next := by
    by_cases hSome :
        ∃ place next, IsAt spell root path place ∧
          Leads tree place [.down (spell name)] next
    · rcases hSome with ⟨place, next, hAt, hLeads⟩
      have hReal : tree.IsReal next := by
        rcases hLeads with ⟨links, left, hWalk⟩
        exact walk_found_isReal
          (Or.inl ((tree.isDirectory_iff).1
            (Leads.isDirectory ⟨links, left, hWalk⟩))) hWalk
      rcases @exists_isAt_of_text N spell root next
        (hText next (tree.isSome_of_isReal hReal)) with
        ⟨target, hTarget⟩
      refine ⟨target, ?_⟩
      intro other there hOther hThere
      rw [hOther.unique hAt] at hThere
      rwa [hThere.unique hLeads]
    · refine ⟨path, ?_⟩
      intro place next hAt hLeads
      exact absurd ⟨place, next, hAt, hLeads⟩ hSome
  choose follow hFollow using hStep
  rcases exists_path_of_text fun name hMem =>
    hText root hRoot name (List.dropLast_subset root hMem)
    with ⟨parent, hParent⟩
  exact
    ⟨⟨follow, parent⟩, hNe, hParent,
      fun path place name next => hFollow path name place next⟩

end Places

------------------------------------------------------------
-- The Output Directory
------------------------------------------------------------

namespace Confinement

section

variable {limit : Nat} {tree : Disk Text}
variable {root dir : Place Text} {met : Links}

/- A name that stays inside is passed in a build as well. -/
theorem pushComponents_normal
    {name : Text} {parts : List Config.Component}
    {path : HostPath} {next : Place Text}
    (hMet : LinksOf id tree root met)
    (hAt : IsAt id root path dir)
    (hLeads : Leads tree dir [.down name] next)
    (hInside : root <+: next) :
    ∃ on, IsAt id root on next ∧
      pushComponents met path (.normal name :: parts) =
        pushComponents met on parts := by
  have hNext := hMet.follow_isAt path dir name next hAt hLeads
  rcases hInside with ⟨names, rfl⟩
  rcases hNext.inside_of_prefix with ⟨inside, hFollow, _⟩
  refine ⟨.inside inside, ?_, ?_⟩
  · rwa [hFollow] at hNext
  · rw [pushComponents, hFollow]

/-
  By induction on the components. The links are those of the
  tree as it is left, so that what was made is met.
-/
theorem pushComponents_of_distSteps
    {parts : List Config.Component} {dist : Place Text}
    {path : HostPath}
    (hAt : IsAt id root path dir)
    (hReal : tree.IsReal dir) (hInside : root <+: dir)
    (hMet :
      LinksOf id (distSteps limit root dir parts tree).tree
        root met)
    (hDist :
      (distSteps limit root dir parts tree).result =
        .ok dist) :
    ∃ target, IsAt id root target dist ∧
      pushComponents met path parts = .ok target := by
  induction parts generalizing tree dir path with
  | nil =>
      cases hDist
      exact ⟨path, hAt, rfl⟩
  | cons part parts ih =>
      cases part with
      | curDir => exact ih hAt hReal hInside hMet hDist
      | rootDir => cases hDist
      | parentDir => cases hDist
      | normal name =>
          have hCases :=
            @distSteps_normal limit tree root dir name parts
              hReal hInside
          rcases hCases with
            ⟨error, hFail, _⟩ | ⟨hDir, hNone, hMade⟩ |
              ⟨next, hNext, hPrefix, hLeads, hGo, _⟩
          · rw [hFail] at hDist
            cases hDist
          · have hNew :
                (tree.add dir name .directory).IsReal
                  (dir ++ [name]) :=
              Or.inl (Disk.add_node_self hDir hNone)
            have hBelow : root <+: dir ++ [name] :=
              hInside.trans (List.prefix_append dir [name])
            have hFirst :
                Leads (tree.add dir name .directory) dir
                  [.down name] (dir ++ [name]) :=
              ⟨0, 0, @walk_down _ _ 0 dir [name] hNew⟩
            have hLater :=
              hFirst.of_extends
                (@grows_distSteps limit root (dir ++ [name])
                  parts _)
            rw [hMade] at hDist hMet
            rcases pushComponents_normal hMet hAt hLater
              hBelow with ⟨on, hOn, hPush⟩
            rw [hPush]
            exact ih hOn hNew hBelow hMet hDist
          · have hLater :=
              hLeads.of_extends
                (@grows_distSteps limit root next parts _)
            rw [hGo] at hDist hMet
            rcases pushComponents_normal hMet hAt hLater
              hPrefix with ⟨on, hOn, hPush⟩
            rw [hPush]
            exact ih hOn hNext hPrefix hMet hDist

/- The builds use the directory that is answered. -/
theorem hostDistDir_agrees
    {ι : Type} [Linked ι] {i : ι}
    {project : List (Step Text)}
    (hProject :
      tree.stat (R := Refusal) (hostLimits limit) project =
        .ok root)
    {config : Config} {dist : Place Text}
    (hMet :
      LinksOf id
        (hostDistDir limit config project tree).tree root
        (links i))
    (hDist :
      (hostDistDir limit config project tree).result =
        .ok dist) :
    ∃ path, IsAt id root path dist ∧
      Pipeline.hostDistDir i config = .ok path := by
  by_cases hDir : Text.trim config.output.dir = []
  · unfold hostDistDir canonicalize at hDist
    rw [Host.look_andThen_of_ok hProject, if_pos hDir]
      at hDist
    cases hDist
  · rw [hostDistDir_eq hProject hDir] at hDist hMet
    rcases pushComponents_of_distSteps IsAt.start
      (Disk.isReal_of_stat hProject) (List.prefix_refl root)
      hMet hDist with ⟨path, hPath, hPush⟩
    refine ⟨path, hPath, ?_⟩
    unfold Pipeline.hostDistDir
    rw [Fallible.unit_bind_eq_ok_iff,
      Fallible.reject_eq_ok_iff]
    exact ⟨hDir, hPush⟩

end

end Confinement

------------------------------------------------------------
-- Walking
------------------------------------------------------------

namespace AppPath

open Utf8 BytePaths

section Walking

variable {tree : Disk Bytes} {root : Place Bytes}
variable {met : Links} (hMet : LinksOf encode tree root met)

include hMet

/- The project itself is not in the directory above it. -/
theorem isAt_up
    {path : HostPath} {place : Place Bytes}
    (hAt : IsAt encode root path place) :
    IsAt encode root (met.up path) place.dropLast := by
  cases hAt with
  | inside path =>
      unfold Links.up
      dsimp only
      by_cases hNil : path = []
      · rw [if_pos hNil, hNil, List.map_nil, List.append_nil,
          ← hMet.parent_eq]
        apply IsAt.outside
        rw [hMet.parent_eq]
        intro hPrefix
        have hLength := hPrefix.length_le
        rw [List.length_dropLast] at hLength
        have hPositive :=
          List.length_pos_iff.2 hMet.root_ne
        omega
      · rw [if_neg hNil, List.dropLast_append_of_ne_nil
          (mt List.map_eq_nil_iff.1 hNil), ← List.map_dropLast]
        exact .inside _
  | outside path hAway =>
      rw [← List.map_dropLast]
      apply IsAt.outside
      intro hPrefix
      apply hAway
      rw [List.map_dropLast] at hPrefix
      exact hPrefix.trans (List.dropLast_prefix _)

/- By induction on the pieces between the slashes. -/
theorem isAt_walk_pieces
    {parts : List Text} {path : HostPath}
    {place there : Place Bytes}
    (hAt : IsAt encode root path place)
    (hLeads :
      Leads tree place ((parts.map encode).map pieceStep)
        there) :
    IsAt encode root
      (met.walk path (parts.filterMap Config.component?))
      there := by
  induction parts generalizing path place with
  | nil =>
      rw [hLeads.unique (Leads.nil place)]
      exact hAt
  | cons part parts ih =>
      rw [List.map_cons, List.map_cons] at hLeads
      rcases hLeads.of_cons with ⟨mid, hFirst, hRest⟩
      unfold pieceStep at hFirst
      by_cases hHere : part = [] ∨ part = ".".toList
      · have hBytes :
            encode part = [] ∨ encode part = [dot] :=
          hHere.imp (congrArg encode) (congrArg encode)
        have hNone : Config.component? part = none :=
          if_pos hHere
        rw [if_pos hBytes] at hFirst
        rw [List.filterMap_cons_none hNone]
        rw [hFirst.of_word (by simp)] at hRest
        exact ih hAt hRest
      · have hBytes :
            ¬ (encode part = [] ∨ encode part = [dot]) := by
          rintro (hNil | hDot)
          · exact hHere (.inl (@encode_inj part [] hNil))
          · exact hHere (.inr (@encode_inj part ['.'] hDot))
        rw [if_neg hBytes] at hFirst
        by_cases hUp : part = "..".toList
        · have hSome :
              Config.component? part = some .parentDir := by
            unfold Config.component?
            rw [if_neg hHere, if_pos hUp]
          have hDots : encode part = [dot, dot] :=
            congrArg encode hUp
          rw [if_pos hDots] at hFirst
          rw [List.filterMap_cons_some hSome]
          rw [hFirst.of_word (by simp)] at hRest
          exact ih (isAt_up hMet hAt) hRest
        · have hSome :
              Config.component? part =
                some (.normal part) := by
            unfold Config.component?
            rw [if_neg hHere, if_neg hUp]
          have hDots : encode part ≠ [dot, dot] := fun hDots =>
            hUp (@encode_inj part ['.', '.'] hDots)
          rw [if_neg hDots] at hFirst
          rw [List.filterMap_cons_some hSome]
          exact
            ih (hMet.follow_isAt path place part mid hAt hFirst)
              hRest

/- An absolute path leads there from anywhere. -/
theorem isAt_walk_absolute
    {path : Text} (hAbsolute : path.head? = some '/')
    {cwd there : Place Bytes}
    (hLeads : Leads tree cwd (pathSteps (encode path)) there)
    (here : HostPath) :
    IsAt encode root (met.walk here (Config.components path))
      there := by
  have hBytes := isAbsolute_encode_of_head hAbsolute
  have hRoot : IsAt encode root (.outside []) [] :=
    .outside [] fun hPrefix =>
      hMet.root_ne (List.prefix_nil.1 hPrefix)
  have hPieces := leads_of_absolute hBytes hLeads
  rw [splitOn_encode] at hPieces
  have hWalk := isAt_walk_pieces hMet hRoot hPieces
  unfold Config.components
  rw [if_pos hAbsolute]
  dsimp only
  split
  · exact hWalk
  · exact hWalk

/- A relative path goes on from where it is. -/
theorem isAt_walk_relative
    {path : Text} (hRelative : path.head? ≠ some '/')
    {here : HostPath} {place there : Place Bytes}
    (hAt : IsAt encode root here place)
    (hLeads :
      Leads tree place (pathSteps (encode path)) there) :
    IsAt encode root (met.walk here (Config.components path))
      there := by
  have hBytes := isRelative_encode_of_head hRelative
  rw [pathSteps_relative hBytes, splitOn_encode] at hLeads
  have hWalk := isAt_walk_pieces hMet hAt hLeads
  unfold Config.components
  rw [if_neg hRelative]
  dsimp only
  split
  · exact hWalk
  · exact hWalk

/- A path joined to one that is followed in the build. -/
theorem isAt_walk_joined
    {cwd : Place Bytes} {base : Bytes} {here : HostPath}
    (hNonempty : base ≠ [])
    (hBase :
      ∀ mid, Leads tree cwd (pathSteps base) mid →
        IsAt encode root here mid)
    {path : Text} {there : Place Bytes}
    (hLeads :
      Leads tree cwd (pathSteps (joinPath base (encode path)))
        there) :
    IsAt encode root (met.walk here (Config.components path))
      there := by
  by_cases hAbsolute : path.head? = some '/'
  · have hBytes := isAbsolute_encode_of_head hAbsolute
    unfold joinPath at hLeads
    rw [if_pos hBytes] at hLeads
    exact isAt_walk_absolute hMet hAbsolute hLeads here
  · have hBytes := isRelative_encode_of_head hAbsolute
    rcases leads_of_joinPath hNonempty hBytes hLeads with
      ⟨mid, hMid, hRest⟩
    exact
      isAt_walk_relative hMet hAbsolute (hBase mid hMid) hRest

end Walking

------------------------------------------------------------
-- The Same App
------------------------------------------------------------

/- What the build finds in place is what is in the tree. -/
structure FilesOf
    {ι : Type} (machine : Machine) (root : Place Bytes)
    (i : ι) (s : Files ι) : Prop where
  file_isSome :
    ∀ path place, IsAt encode root path place →
      machine.tree.IsReal place → (s (fileLoc i path)).isSome
  package_isSome :
    ∀ path place, IsAt encode root path place →
      machine.tree.IsReal place →
        (s (.project i (.package path))).isSome
  manifest_isSome :
    ∀ path place, IsAt encode root path place →
      isFile machine
          (joinPath (canonicalPath place) manifestName) =
        true →
        (s (fileLoc i
          (path.child "Cargo.toml".toList))).isSome

/- The app of a build, by the config's mode. -/
def acquiredIn (mode : AppMode) (path : Dir) :
    Pipeline.AcquiredApp :=
  match mode with
  | .binary => .binary path
  | .source => .localSource path

section Acquiring

variable {ι : Type} [Linked ι] {i : ι} {s : Files ι}
variable {machine : Machine} {project : Bytes}
variable {root : Place Bytes} {config : Config}

/- What is resolved is led to. -/
theorem leads_of_resolve
    {path : Bytes} {place : Place Bytes}
    (hResolve : machine.resolve path = .ok place) :
    path ≠ [] ∧
      Leads machine.tree machine.cwd (pathSteps path) place := by
  rcases resolve_eq_ok_iff.1 hResolve with
    ⟨_, hNonempty, left, hWalk⟩
  exact ⟨hNonempty, machine.links, left, hWalk⟩

variable (hRoot : machine.resolve project = .ok root)
variable (hMet : LinksOf encode machine.tree root (links i))

include hRoot hMet

/- The binary's path, in the build and on the host. -/
theorem isAt_hostPath
    {path : Text} {place : Place Bytes}
    (hLeads :
      Leads machine.tree machine.cwd
        (pathSteps (binaryCandidate project path)) place) :
    IsAt encode root (hostPath (links i) path) place := by
  rcases leads_of_resolve hRoot with ⟨hNonempty, hProject⟩
  apply isAt_walk_joined hMet hNonempty _ hLeads
  intro mid hMid
  rw [hMid.unique hProject]
  exact .start

/- The package's path, from the source's on. -/
theorem isAt_packageDir
    {source : AppSource} {path : Text} {place : Place Bytes}
    (hLeads :
      Leads machine.tree machine.cwd
        (pathSteps (sourceCandidate project source path))
        place) :
    IsAt encode root (packageDir (links i) source path) place := by
  have hNonempty : joinPath project (encode path) ≠ [] := by
    have hProject := (leads_of_resolve hRoot).1
    unfold joinPath
    split
    · rename_i hAbsolute
      intro hNil
      rw [hNil] at hAbsolute
      cases hAbsolute
    · split
      · exact List.append_ne_nil_of_left_ne_nil hProject _
      · exact List.append_ne_nil_of_left_ne_nil hProject _
  apply isAt_walk_joined hMet hNonempty _ hLeads
  intro mid hMid
  exact isAt_hostPath hRoot hMet hMid

variable (hFiles : FilesOf machine root i s)

include hFiles

/- A binary that is accepted is acquired in the build. -/
theorem acquireBinary_of_accepted
    {names : Place Bytes} (hMode : config.app.mode = .binary)
    (hAccepted :
      Accepted machine project config root names) :
    ∃ path : Dir, path.map encode = names ∧
      Pipeline.acquireBinary i config s =
        .ok (.binary path) := by
  rcases hAccepted.place_eq with ⟨text, hText, hPlace⟩
  unfold candidate at hText
  rw [hMode] at hText
  rcases Option.bind_eq_some_iff.1 hText with
    ⟨binary, hBinary, hPath⟩
  rcases Option.map_eq_some_iff.1 hPath with
    ⟨path, hSome, rfl⟩
  have hAt :=
    isAt_hostPath hRoot hMet (leads_of_resolve hPlace).2
  have hThere :=
    hFiles.file_isSome _ _ hAt
      (machine.isReal_of_resolve hPlace)
  rcases hAt.inside_of_prefix with ⟨inside, hInside, hNames⟩
  refine ⟨inside, hNames, ?_⟩
  unfold Pipeline.acquireBinary
  rw [hBinary]
  dsimp only
  rw [hSome]
  dsimp only
  rw [hInside] at hThere ⊢
  rw [Fallible.unit_bind_eq_ok_iff,
    Fallible.reject_eq_ok_iff]
  exact ⟨not_not_intro hThere, rfl⟩

/- So is a package. -/
theorem acquireSource_of_accepted
    {names : Place Bytes} (hMode : config.app.mode = .source)
    (hAccepted :
      Accepted machine project config root names) :
    ∃ path : Dir, path.map encode = names ∧
      Pipeline.acquireSource i config s =
        .ok (.localSource path) := by
  rcases hAccepted.place_eq with ⟨text, hText, hPlace⟩
  have hRequired := hAccepted.required
  unfold candidate at hText
  unfold hasRequired at hRequired
  rw [hMode] at hText hRequired
  rcases Option.bind_eq_some_iff.1 hText with
    ⟨source, hSource, hPath⟩
  rcases Option.map_eq_some_iff.1 hPath with
    ⟨path, hSome, rfl⟩
  dsimp only at hRequired
  rw [hSource] at hRequired
  have hAt :=
    isAt_packageDir hRoot hMet (leads_of_resolve hPlace).2
  have hThere :=
    hFiles.package_isSome _ _ hAt
      (machine.isReal_of_resolve hPlace)
  have hManifest := hFiles.manifest_isSome _ _ hAt
  rcases hAt.inside_of_prefix with ⟨inside, hInside, hNames⟩
  refine ⟨inside, hNames, ?_⟩
  unfold Pipeline.acquireSource
  rw [hSource]
  dsimp only
  rw [hSome]
  unfold acquirePackage
  dsimp only
  rw [hInside] at hThere hManifest ⊢
  rw [Fallible.unit_bind_eq_ok_iff,
    Fallible.reject_eq_ok_iff]
  refine ⟨not_not_intro hThere, ?_⟩
  unfold insideProject
  rw [Fallible.ok_bind, Fallible.unit_bind_eq_ok_iff,
    Fallible.reject_eq_ok_iff]
  refine ⟨?_, rfl⟩
  rintro ⟨hRust, hAbsent⟩
  apply hAbsent
  apply hManifest
  unfold hasManifest at hRequired
  simpa [hRust] using hRequired

/-
  The app that is acquired on the host is acquired in the
  build, under the same names below the project.
-/
theorem acquire_agrees
    {app : AcquiredApp}
    (hApp : acquire machine project config = .ok app) :
    ∃ path : Dir,
      app = acquiredAs config.app.mode (path.map encode) ∧
        Pipeline.acquire i config s =
          .ok (acquiredIn config.app.mode path) := by
  rcases acquire_eq_ok_iff.1 hApp with
    ⟨other, names, hAccepted, rfl⟩
  have hSame : other = root :=
    Except.ok.inj (hAccepted.root_eq.symm.trans hRoot)
  rw [hSame] at hAccepted
  unfold Pipeline.acquire acquiredIn
  cases hMode : config.app.mode with
  | binary =>
      rcases acquireBinary_of_accepted hRoot hMet hFiles hMode
        hAccepted with ⟨path, hNames, hBuild⟩
      exact ⟨path, by rw [hNames], hBuild⟩
  | source =>
      rcases acquireSource_of_accepted hRoot hMet hFiles hMode
        hAccepted with ⟨path, hNames, hBuild⟩
      exact ⟨path, by rw [hNames], hBuild⟩

end Acquiring

end AppPath

end Pipeline

end CargoUnikernel
