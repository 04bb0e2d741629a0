import CargoUnikernel.Pipeline.Confinement

/-
  Where the output directory is, once it has been resolved.

  Everything that is made on the way is in the project, and
  the answer is where the configured components lead. It need
  not be a directory: a file of that name is answered as well.

  Main declarations:
    * `distSteps_leads`
    * `Resolved`, `host_dist_dir_resolved_iff`
-/

------------------------------------------------------------
-- What the Components Denote
------------------------------------------------------------

namespace CargoUnikernel

namespace Pipeline

namespace Confinement

open Schema FileTree

/- The steps of the components. -/
def componentSteps (parts : List Config.Component) :
    List (Step Text) :=
  (parts.filter fun part => part ≠ .curDir).map stepOf

section

variable {links : Nat} {tree : Disk Text}
variable {root dir : Place Text}

/-
  One component after another. What a component leads to in
  the tree as it was is what it leads to in the end.
-/
theorem distSteps_leads
    {parts : List Config.Component} {dist : Place Text}
    (hReal : tree.IsReal dir) (hInside : root <+: dir)
    (hDist :
      (distSteps links root dir parts tree).result =
        .ok dist) :
    Leads (distSteps links root dir parts tree).tree dir
      (componentSteps parts) dist := by
  induction parts generalizing tree dir with
  | nil =>
      cases hDist
      exact .nil _
  | cons part parts ih =>
      cases part with
      | curDir => exact ih hReal hInside hDist
      | rootDir => cases hDist
      | parentDir => cases hDist
      | normal name =>
          have hSteps :
              componentSteps (.normal name :: parts) =
                [.down name] ++ componentSteps parts :=
            rfl
          have hCases :=
            @distSteps_normal links tree root dir name parts
              hReal hInside
          rw [hSteps]
          rcases hCases with
            ⟨error, hFail, _⟩ | ⟨hDir, hNone, hMade⟩ |
              ⟨next, hNext, hPrefix, hLeads, hGo, _⟩
          · rw [hFail] at hDist
            cases hDist
          · have hNew :
                (tree.add dir name .directory).IsReal
                  (dir ++ [name]) :=
              Or.inl (Disk.add_node_self hDir hNone)
            have hBelow : root <+: dir ++ [name] :=
              hInside.trans (List.prefix_append dir [name])
            have hFirst :
                Leads (tree.add dir name .directory) dir
                  [.down name] (dir ++ [name]) :=
              ⟨0, 0, @walk_down _ _ 0 dir [name] hNew⟩
            rw [hMade] at hDist ⊢
            have hRest := ih hNew hBelow hDist
            apply Leads.append _ hRest
            apply hFirst.of_extends
            exact grows_distSteps root (dir ++ [name]) parts _
          · rw [hGo] at hDist ⊢
            have hRest := ih hNext hPrefix hDist
            apply Leads.append _ hRest
            apply hLeads.of_extends
            exact grows_distSteps root next parts _

------------------------------------------------------------
-- What Is Answered
------------------------------------------------------------

/-
  A directory inside, where the components lead from the
  project directory.
-/
def Resolved
    (root : Place Text) (config : Config)
    (project : List (Step Text))
    (outcome : Outcome Text Refusal (Place Text)) : Prop :=
  ∀ dist, outcome.result = .ok dist →
    outcome.tree.isDirectory dist = true ∧
      root <+: dist ∧
      Leads outcome.tree [] (project ++ outputSteps config)
        dist

variable {project : List (Step Text)}
variable
  (hProject :
    tree.stat (R := Refusal) (hostLimits links) project =
      .ok root)

include hProject

/- The answer is inside, and where the components lead. -/
theorem hostDistDir_leads
    {config : Config} {dist : Place Text}
    (hDist :
      (hostDistDir links config project tree).result =
        .ok dist) :
    root <+: dist ∧
      Leads (hostDistDir links config project tree).tree []
        (project ++ outputSteps config) dist := by
  have hReal := Disk.isReal_of_stat hProject
  by_cases hDir : Text.trim config.output.dir = []
  · unfold hostDistDir canonicalize at hDist
    rw [Host.look_andThen_of_ok hProject, if_pos hDir]
      at hDist
    cases hDist
  · rw [hostDistDir_eq hProject hDir] at hDist ⊢
    rcases Disk.stat_eq_ok_iff.1 hProject with
      ⟨_, left, hWalk⟩
    have hStart : Leads tree [] project root :=
      ⟨links, left, hWalk⟩
    constructor
    · exact
        ((distSteps_spec hReal (List.prefix_refl root)).2
          dist hDist).1
    · apply Leads.append _
        (distSteps_leads hReal (List.prefix_refl root) hDist)
      apply hStart.of_extends
      exact grows_distSteps root root _ _

/-
  All is as it should be exactly where the components, as far
  as they are all there, lead to a directory. Nothing is ever
  made outside.
-/
theorem host_dist_dir_resolved_iff (config : Config) :
    (Resolved root config project
        (hostDistDir links config project tree) ∧
      Confined root (hostDistDir links config project tree)) ↔
      (Text.trim config.output.dir ≠ [] →
        ∀ place,
          existingDist links root tree root
              (Config.components config.output.dir) =
            some place →
          tree.isDirectory place = true) := by
  have hReal := Disk.isReal_of_stat hProject
  have hRoot := List.prefix_refl root
  constructor
  · intro hBoth hDir place hPlace
    have hDone := distSteps_of_existing hReal hRoot hPlace
    have hResolved := hBoth.1
    rw [hostDistDir_eq hProject hDir, hDone] at hResolved
    exact (hResolved place rfl).1
  · intro hDirectory
    refine ⟨?_, hostDistDir_confined hProject config⟩
    intro dist hDist
    refine ⟨?_, hostDistDir_leads hProject hDist⟩
    by_cases hDir : Text.trim config.output.dir = []
    · unfold hostDistDir canonicalize at hDist
      rw [Host.look_andThen_of_ok hProject, if_pos hDir]
        at hDist
      cases hDist
    · rw [hostDistDir_eq hProject hDir] at hDist ⊢
      rcases (distSteps_spec hReal hRoot).2 dist hDist with
        ⟨_, ⟨hSame, hPlace⟩ | ⟨hNew, _⟩⟩
      · rw [hSame]
        exact hDirectory hDir dist hPlace
      · exact hNew

end

------------------------------------------------------------
-- A Directory That Is Not There, and a File
------------------------------------------------------------

/- The directory is made, where there is nothing yet. -/
theorem host_dist_dir_resolved_new :
    Resolved [projectName] firmwareConfig.config projectPath
      (hostDistDir 40 firmwareConfig.config projectPath
        plainTree) := by
  have hProject :
      plainTree.stat (R := Refusal) (hostLimits 40)
          projectPath =
        .ok [projectName] := by
    rfl
  refine
    ((host_dist_dir_resolved_iff hProject
      firmwareConfig.config).2 ?_).1
  intro _ place hPlace
  have hNone :
      existingDist 40 [projectName] plainTree [projectName]
          (Config.components
            firmwareConfig.config.output.dir) =
        none := by
    rfl
  rw [hNone] at hPlace
  cases hPlace

/- A file is in the way of the output directory. -/
def fileTree : Disk Text :=
  plainTree.add [projectName] "dist".toList .file

/- A file in the place of the directory is answered. -/
theorem file_is_answered :
    fileTree.stat (R := Refusal) (hostLimits 40)
          projectPath =
        .ok [projectName] ∧
      ∃ dist,
        (hostDistDir 40 firmwareConfig.config projectPath
            fileTree).result =
          .ok dist ∧
        (hostDistDir 40 firmwareConfig.config projectPath
              fileTree).tree.isDirectory dist =
          false := by
  refine
    ⟨rfl, [projectName, "dist".toList], rfl, rfl⟩

end Confinement

end Pipeline

end CargoUnikernel
