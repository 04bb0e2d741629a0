import CargoUnikernel.Guest.Boot.Sealing

/-
  How the runs of the init end.

  Main declarations:
    * `Dying`, `Wipes`, `OutOfTime`, `Unwiped`
    * `sound_withinDeadline`, `sound_killWipeAndPowerOff`
    * `Start`, `Outcome`, `sound_main`
-/

------------------------------------------------------------
-- The Wipe
------------------------------------------------------------

namespace CargoUnikernel

namespace Guest

namespace Boot

open Calls
open Landlock (locate)
open Procedures

section

variable {image : Image} {failure : Failure}
variable {dirs : List Path}

/- A reason stays one, as long as nothing is seeded. -/
theorem explained_of_subset
    {s t : Session}
    (hRefused : s.refused ⊆ t.refused)
    (hSeeded : t.machine.seeded = s.machine.seeded)
    (hExplained : failure.Explained image s) :
    failure.Explained image t := by
  have hBlamed :
      (∃ refusal ∈ s.refused, failure.Blames refusal) →
        failure.Explained image t := by
    rintro ⟨refusal, hMem, hBlames⟩
    exact explained_of_blames (hRefused hMem) hBlames
  cases failure with
  | baked error => exact hExplained
  | firewallRuleset message => exact hExplained
  | crngNotInitialized => exact hSeeded.trans hExplained
  | landlock error =>
      cases error with
      | nulInPath path => exact hExplained
      | _ => exact hBlamed hExplained
  | _ => exact hBlamed hExplained

/- The boot has failed, and some directories are zeroed. -/
structure Dying
    (image : Image) (failure : Failure) (dirs : List Path)
    (s : Session) : Prop where
  explained : failure.Explained image s
  scrubbed : ∀ dir ∈ dirs, dir ∈ s.machine.scrubbed

/- The calls of the wipe that are always ready. -/
def Request.isFinal : Request → Bool
| .act .killAll | .act .sync | .act (.reboot _)
| .act (.unmount _) | .ask .now | .ask .sleep | .ask .reap
| .ask .testKill | .ask .armWipeDeadline
| .ask .wipeDeadlineReached | .swapWipeStarted
| .scrubDir _ => true
| _ => false

/- Of the calls of the wipe none needs a mount. -/
theorem isFinal_ready
    {request : Request} {s : Machine}
    (hFinal : request.isFinal = true) :
    request.Ready image s := by
  cases request with
  | act action =>
      cases action with
      | killAll => exact trivial
      | sync => exact trivial
      | reboot halt => exact trivial
      | unmount path => exact trivial
      | _ => cases hFinal
  | ask query =>
      cases query with
      | now => exact trivial
      | sleep => exact trivial
      | reap => exact trivial
      | testKill => exact trivial
      | armWipeDeadline => exact trivial
      | wipeDeadlineReached => exact trivial
      | _ => cases hFinal
  | swapWipeStarted => exact trivial
  | scrubDir path => exact trivial
  | poll => cases hFinal
  | spawn launch => cases hFinal

/- None of them takes back what was zeroed or seeded. -/
theorem final_keeps
    {request : Request} {answer : Answer request}
    {s t : Machine}
    (hFinal : request.isFinal = true)
    (hProceeds : Proceeds s request answer t) :
    t.seeded = s.seeded ∧ s.scrubbed ⊆ t.scrubbed := by
  have hSame (hEq : t = s) :
      t.seeded = s.seeded ∧ s.scrubbed ⊆ t.scrubbed := by
    rw [hEq]
    exact ⟨rfl, List.Subset.refl _⟩
  cases request with
  | act action =>
      cases answer with
      | error errno => exact hSame hProceeds
      | ok done =>
          have hEffect := hProceeds.2
          cases action with
          | killAll =>
              rw [show t = _ from hEffect]
              exact ⟨rfl, List.Subset.refl _⟩
          | sync => exact hSame hEffect
          | reboot halt =>
              rw [show t = _ from hEffect]
              exact ⟨rfl, List.Subset.refl _⟩
          | unmount path =>
              rcases hEffect with ⟨landed, _, _, hAfter⟩
              rw [hAfter]
              exact ⟨rfl, List.Subset.refl _⟩
          | _ => cases hFinal
  | ask query => exact hSame hProceeds.2
  | swapWipeStarted =>
      rw [show t = _ from hProceeds.2]
      exact ⟨rfl, List.Subset.refl _⟩
  | scrubDir path =>
      rw [show t = _ from hProceeds]
      exact ⟨rfl, List.subset_cons_self _ _⟩
  | poll => cases hFinal
  | spawn launch => cases hFinal

/- What was refused is not forgotten. -/
theorem refused_subset
    {request : Request} {answer : Answer request}
    {s t : Session} (hPossible : Possible s request answer t) :
    s.refused ⊆ t.refused := by
  rw [hPossible.2]
  split
  · exact List.subset_cons_self _ _
  · exact List.Subset.refl _

/- They leave the wipe where it is. -/
theorem Dying.step
    {request : Request} {answer : Answer request}
    {s t : Session}
    (hDying : Dying image failure dirs s)
    (hFinal : request.isFinal = true)
    (hPossible : Possible s request answer t) :
    Dying image failure dirs t := by
  rcases final_keeps hFinal hPossible.1 with
    ⟨hSeeded, hScrubbed⟩
  constructor
  · exact explained_of_subset (refused_subset hPossible)
      hSeeded hDying.explained
  · intro dir hMem
    exact hScrubbed (hDying.scrubbed dir hMem)

/- Less is wiped, if less is claimed. -/
theorem Dying.subset
    {fewer : List Path} {s : Session}
    (hDying : Dying image failure dirs s)
    (hFewer : fewer ⊆ dirs) :
    Dying image failure fewer s where
  explained := hDying.explained
  scrubbed := by
    intro dir hMem
    exact hDying.scrubbed dir (hFewer hMem)

/-
  A part of the wipe. It can be cut off before each of its
  calls, and the boot has failed for the same reason then.
-/
def Wipes
    (image : Image) (failure : Failure) {α : Type}
    (Pre : Session → Prop) (proc : Init α)
    (Post : α → Session → Prop) : Prop :=
  Spec Possible
    (fun s request =>
      May image s request ∧ Dying image failure [] s)
    Pre proc (Excused image) Post

/- What wipes is sound by the same rules. -/
theorem Wipes.sound
    {α : Type} {Pre : Session → Prop} {proc : Init α}
    {Post : α → Session → Prop}
    (hWipes : Wipes image failure Pre proc Post) :
    Sound image Pre proc Post :=
  spec_laxer (fun _ _ hBoth => hBoth.1) hWipes

/- One call of the wipe. -/
theorem wipes_final
    {request : Request}
    (hFinal : request.isFinal = true)
    (hCareful :
      ∀ s, Dying image failure dirs s →
        request.Careful image s.machine) :
    Wipes image failure (Dying image failure dirs)
      (.perform request)
      fun answer s =>
        Dying image failure dirs s ∧ Told request answer s := by
  apply spec_perform
  · intro s hDying
    exact ⟨⟨isFinal_ready hFinal, hCareful s hDying⟩,
      hDying.subset (List.nil_subset _)⟩
  · intro s answer t hDying hPossible
    refine ⟨hDying.step hFinal hPossible, ?_⟩
    intro hRefuses
    rw [hPossible.2, if_pos hRefuses]
    exact List.mem_cons_self

/- An action whose failure is passed over. -/
theorem wipes_final_attempt
    {action : Action}
    (hFinal : (Request.act action).isFinal = true)
    (hCareful :
      ∀ s, Dying image failure dirs s →
        (Request.act action).Careful image s.machine) :
    Wipes image failure (Dying image failure dirs) (attempt action)
      fun _ => Dying image failure dirs := by
  refine spec_bind (wipes_final hFinal hCareful) fun _ => ?_
  exact spec_done fun _ hBoth => hBoth.1

/- A question, whose answer does not matter. -/
theorem wipes_final_ask
    {query : Query}
    (hFinal : (Request.ask query).isFinal = true) :
    Wipes image failure (Dying image failure dirs) (ask query)
      fun _ => Dying image failure dirs :=
  spec_consequence (fun _ hDying => hDying)
    (wipes_final hFinal fun _ _ => trivial)
    fun _ _ hBoth => hBoth.1

/- One directory more is wiped. -/
theorem wipes_scrubDir (path : Text) :
    Wipes image failure (Dying image failure dirs) (scrubDir path)
      fun _ => Dying image failure (locate path :: dirs) := by
  have hCall :
      Wipes image failure (Dying image failure dirs)
        (.perform (Request.scrubDir path))
        fun _ => Dying image failure (locate path :: dirs) := by
    apply spec_perform
    · intro s hDying
      exact ⟨⟨trivial, trivial⟩,
        hDying.subset (List.nil_subset _)⟩
    · intro s answer t hDying hPossible
      have hStep := hDying.step rfl hPossible
      refine ⟨hStep.explained, ?_⟩
      intro dir hMem
      rcases List.mem_cons.1 hMem with rfl | hMem
      · rw [show t.machine = _ from hPossible.1]
        exact List.mem_cons_self
      · exact hStep.scrubbed dir hMem
  refine spec_bind hCall fun _ => ?_
  exact spec_done fun _ hDying => hDying

/- What the last calls keep is kept by powering off. -/
theorem sound_forcePowerOff
    {Kept : Session → Prop}
    (hKept :
      ∀ s request answer t, Kept s →
        request.isFinal = true →
          Possible s request answer t → Kept t) :
    Sound image Kept forcePowerOff fun _ => Kept := by
  have hReboot (halt : Bool) :
      Sound image Kept (act (.reboot halt)) fun _ => Kept := by
    apply spec_perform
    · intro s _
      exact ⟨trivial, trivial⟩
    · intro s answer t hStart
      exact hKept s _ answer t hStart rfl
  unfold forcePowerOff
  refine spec_bind (hReboot false) fun off => ?_
  cases off with
  | ok done => exact sound_pure fun _ hEnd => hEnd
  | error errno =>
      refine spec_bind (hReboot true) fun _ => ?_
      exact sound_pure fun _ hEnd => hEnd

/- By induction on the turns that are left. -/
theorem wipes_reapAll (turns : Nat) :
    Wipes image failure (Dying image failure dirs) (reapAll turns)
      fun _ => Dying image failure dirs := by
  induction turns with
  | zero => exact spec_stop fun _ _ => trivial
  | succ turns ih =>
      unfold reapAll
      refine spec_bind (wipes_final_ask rfl) fun reaped => ?_
      cases reaped with
      | true => exact ih
      | false => exact spec_done fun _ hDying => hDying

/- The app may outlive the deadline. -/
theorem wipes_exitTurns (deadline turns : Nat) :
    Wipes image failure (Dying image failure dirs)
      (exitTurns deadline turns)
      fun _ => Dying image failure dirs := by
  induction turns with
  | zero => exact spec_stop fun _ _ => trivial
  | succ turns ih =>
      unfold exitTurns
      refine spec_bind (wipes_final_ask rfl) fun now => ?_
      split
      · refine spec_bind (wipes_reapAll turns) fun _ => ?_
        refine spec_bind (wipes_final_ask rfl) fun alive => ?_
        cases alive with
        | true =>
            refine spec_bind (wipes_final_ask rfl)
              fun _ => ?_
            exact ih
        | false => exact spec_done fun _ hDying => hDying
      · exact spec_done fun _ hDying => hDying

theorem wipes_waitForProcessesToExit (turns : Nat) :
    Wipes image failure (Dying image failure dirs)
      (waitForProcessesToExit turns)
      fun _ => Dying image failure dirs := by
  unfold waitForProcessesToExit
  refine spec_bind (wipes_final_ask rfl) fun start => ?_
  exact wipes_exitTurns _ turns

/- By induction on the list of directories. -/
theorem wipes_scrubDirs (items : List String) :
    Wipes image failure (Dying image failure dirs)
      (forM items fun dir => scrubDir dir.toList)
      fun _ =>
        Dying image failure
          (items.map (fun dir => locate dir.toList) ++
            dirs) := by
  induction items generalizing dirs with
  | nil => exact spec_done fun _ hDying => hDying
  | cons item items ih =>
      rw [List.forM_cons]
      refine spec_bind (wipes_scrubDir _) fun _ => ?_
      refine spec_consequence (fun _ hDying => hDying) ih ?_
      intro _ s hDying
      apply hDying.subset
      intro dir hMem
      simp only [List.map_cons, List.mem_append,
        List.mem_cons] at hMem ⊢
      tauto

/- The volume is unmounted only when all memory is zeroed. -/
theorem wipes_wipeVar :
    Wipes image failure
      (Dying image failure
        (scrubbedDirs.map fun dir => locate dir.toList))
      (wipeVar image)
      fun _ => Dying image failure (wiped image) := by
  unfold wipeVar wiped
  by_cases hPersistent : image.has .storagePersistent = true
  · rw [if_pos hPersistent, if_pos hPersistent,
      List.append_nil]
    have hWiped (s : Session)
        (hDying :
          Dying image failure
            (scrubbedDirs.map fun dir => locate dir.toList)
            s) :
        ∀ dir ∈ wiped image, dir ∈ s.machine.scrubbed := by
      unfold wiped
      rw [if_pos hPersistent, List.append_nil]
      exact hDying.scrubbed
    refine spec_bind (wipes_final_attempt rfl hWiped)
      fun _ => ?_
    exact wipes_final_attempt rfl hWiped
  · rw [if_neg hPersistent, if_neg hPersistent]
    refine spec_consequence (fun _ hDying => hDying)
      (wipes_scrubDir _) ?_
    intro _ s hDying
    apply hDying.subset
    rw [locate_var]
    intro dir hMem
    simp only [List.mem_append, List.mem_cons,
      List.not_mem_nil, or_false] at hMem ⊢
    tauto

/- All that is in memory, and the volume. -/
theorem wipes_wipeWritableState :
    Wipes image failure (Dying image failure [])
      (wipeWritableState image)
      fun _ => Dying image failure (wiped image) := by
  unfold wipeWritableState
  refine spec_bind (wipes_scrubDirs scrubbedDirs)
    fun _ => ?_
  rw [List.append_nil]
  refine spec_bind wipes_wipeVar fun _ => ?_
  exact wipes_final_attempt rfl fun _ _ => trivial

/- The time for the wipe was over before it was done. -/
def OutOfTime (s : Session) : Prop :=
  ⟨.ask .wipeDeadlineReached, true⟩ ∈ s.refused

/- It is done, or the thread that bounds it came first. -/
theorem sound_withinDeadline
    {dirs : List Path} {wipe : Init Unit}
    (hWipe :
      Wipes image failure (Dying image failure []) wipe
        fun _ => Dying image failure dirs) :
    Sound image (Dying image failure []) (withinDeadline wipe)
      fun _ s =>
        Dying image failure [] s ∧
          (OutOfTime s ∨ ∀ dir ∈ dirs,
            dir ∈ s.machine.scrubbed) := by
  have hDue (s : Session) (hDying : Dying image failure [] s) :
      Sound image (fun now => now = s)
        (ask .wipeDeadlineReached)
        fun isDue now =>
          (isDue = true →
              Dying image failure [] now ∧ OutOfTime now) ∧
            (isDue = false → now = s) := by
    apply spec_perform
    · intro now _
      exact ⟨trivial, trivial⟩
    · rintro now isDue after rfl hPossible
      constructor
      · rintro rfl
        refine ⟨hDying.step rfl hPossible, ?_⟩
        unfold OutOfTime
        rw [hPossible.2]
        exact List.mem_cons_self
      · rintro rfl
        cases after
        cases hPossible.2
        cases hPossible.1.2
        rfl
  refine spec_consequence (fun _ hDying => hDying)
    (spec_unlessDue hDue hWipe) ?_
  rintro _ s (hDone | ⟨_, hDying, hOut⟩)
  · exact ⟨hDone.subset (List.nil_subset _),
      .inr hDone.scrubbed⟩
  · exact ⟨hDying, .inl hOut⟩

/- Why not all that was in memory has been zeroed. -/
def Unwiped (s : Session) : Prop :=
  ⟨.ask .armWipeDeadline, false⟩ ∈ s.refused ∨ OutOfTime s

/-
  Something is left as it is only if nothing could have ended
  the wipe in time, or something did.
-/
theorem sound_killWipeAndPowerOff (turns : Nat) :
    Sound image (Excused image (.fatal failure))
      (killWipeAndPowerOff image turns)
      fun _ s =>
        failure.Explained image s ∧
          (Unwiped s ∨
            ∀ dir ∈ wiped image, dir ∈ s.machine.scrubbed) := by
  have hSwap :
      Sound image (Excused image (.fatal failure))
        (.perform Request.swapWipeStarted)
        fun started s =>
          started = false ∧ Dying image failure [] s := by
    apply spec_perform
    · intro s _
      exact ⟨trivial, trivial⟩
    · rintro s started t ⟨hExplained, hUnwiped⟩ hPossible
      have hDying : Dying image failure [] s :=
        ⟨hExplained, nofun⟩
      exact ⟨hPossible.1.1.trans hUnwiped,
        hDying.step rfl hPossible⟩
  unfold killWipeAndPowerOff
  refine spec_bind hSwap fun started => ?_
  refine spec_given ?_
  rintro rfl
  have hArm :
      Wipes image failure (Dying image failure [])
        (ask .armWipeDeadline)
        fun armed s =>
          Dying image failure [] s ∧
            Told (.ask .armWipeDeadline) armed s :=
    wipes_final rfl fun _ _ => trivial
  refine spec_bind hArm.sound fun armed => ?_
  cases armed with
  | false =>
      have hOff :
          Sound image
            (fun s =>
              Dying image failure [] s ∧
                ⟨.ask .armWipeDeadline, false⟩ ∈ s.refused)
            forcePowerOff
            fun _ s =>
              Dying image failure [] s ∧
                ⟨.ask .armWipeDeadline, false⟩ ∈ s.refused := by
        apply sound_forcePowerOff
        rintro s request answer t ⟨hDying, hTold⟩ hFinal
          hPossible
        exact ⟨hDying.step hFinal hPossible,
          refused_subset hPossible hTold⟩
      refine spec_consequence ?_ hOff ?_
      · rintro s ⟨hDying, hTold⟩
        exact ⟨hDying, hTold rfl⟩
      · rintro _ s ⟨hDying, hTold⟩
        exact ⟨hDying.explained, .inl (.inl hTold)⟩
  | true =>
      refine spec_strengthen (fun _ hBoth => hBoth.1) ?_
      have hWipe :
          Wipes image failure (Dying image failure [])
            (do
              attempt .killAll
              waitForProcessesToExit turns
              wipeWritableState image)
            fun _ => Dying image failure (wiped image) := by
        refine spec_bind
          (wipes_final_attempt rfl fun _ _ => trivial)
          fun _ => ?_
        refine spec_bind (wipes_waitForProcessesToExit turns)
          fun _ => ?_
        exact wipes_wipeWritableState
      refine spec_bind (sound_withinDeadline hWipe)
        fun _ => ?_
      refine spec_consequence (fun _ hBoth => hBoth)
        (sound_forcePowerOff ?_) ?_
      · rintro s request answer t ⟨hDying, hWiped⟩ hFinal
          hPossible
        refine ⟨hDying.step hFinal hPossible, ?_⟩
        rcases hWiped with hOut | hScrubbed
        · exact .inl (refused_subset hPossible hOut)
        · right
          intro dir hMem
          exact (final_keeps hFinal hPossible.1).2
            (hScrubbed dir hMem)
      · rintro _ s ⟨hDying, hOut | hScrubbed⟩
        · exact ⟨hDying.explained, .inl (.inr hOut)⟩
        · exact ⟨hDying.explained, .inr hScrubbed⟩

end

------------------------------------------------------------
-- The Run of the Init
------------------------------------------------------------

section

variable {image : Image}

/-
  The machine, as the kernel starts the init on it: nothing
  but its root file system, which has no links.
-/
structure Start (s : Machine) : Prop where
  mounts : ∃ root : Root, s.mounts = [root.mount]
  plain : ∀ path, s.entry path ≠ .symlink
  unsealed : s.rootSealed = false
  unseeded : s.seeded = false
  unwiped : s.wipeStarted = false

/- The first stage is where a boot starts. -/
theorem Start.stage {s : Machine} (hStart : Start s) :
    ∃ root : Root,
      Stage [root.mount] (.fresh (0, 0)) s := by
  rcases hStart.mounts with ⟨root, hMounts⟩
  refine ⟨root, ?_⟩
  exact
    { mounts := hMounts
      links := by
        intro link hLink
        exact absurd hLink (hStart.plain link)
      rootSealed := hStart.unsealed
      filtered := nofun
      handlesSigterm := nofun
      seeded := hStart.unseeded
      owned := nofun
      unwiped := hStart.unwiped }

/- What each of the ends of the init says of the machine. -/
def Outcome (image : Image) : End → Session → Prop
| .notInit, s => s.machine.pid ≠ 1
| .watching _, s => ∃ launch, Sealed image launch s.machine
| .poweredOff failure, s =>
    failure.Explained image s ∧
      (Unwiped s ∨
        ∀ dir ∈ wiped image, dir ∈ s.machine.scrubbed)

/- A boot that is given up is wiped, and powered off. -/
theorem sound_fatalShutdown (turns : Nat) (stop : Stop) :
    Sound image (Excused image stop)
      (fatalShutdown image turns stop) (Outcome image) := by
  cases stop with
  | waiting => exact spec_stop fun _ _ => trivial
  | fatal failure =>
      refine spec_bind (sound_killWipeAndPowerOff turns)
        fun _ => ?_
      exact sound_pure fun _ hEnd => hEnd

/- The whole of the init, from its first call. -/
theorem sound_main (root : Root) (turns : Nat) :
    Sound image (At [root.mount] (.fresh (0, 0)))
      (main image turns) (Outcome image) := by
  unfold main
  refine spec_bind (sound_attempt_quiet rfl ?_) fun _ => ?_
  · intro s hStage
    exact ⟨trivial, trivial⟩
  have hPid :
      Sound image (At [root.mount] (.fresh (0, 0)))
        (ask .processId)
        fun pid s =>
          pid = s.machine.pid ∧
            At [root.mount] (.fresh (0, 0)) s := by
    apply sound_call
    · intro s _
      exact ⟨trivial, trivial⟩
    · intro s pid t hStage hProceeds _
      refine ⟨?_, Stage.of_quiet hStage rfl hProceeds⟩
      rw [show t.machine = _ from hProceeds.2]
      exact hProceeds.1
  refine spec_bind hPid fun pid => ?_
  split
  · next hNot =>
      apply sound_pure
      rintro s ⟨hSame, _⟩
      intro hPid
      exact hNot (hSame.trans hPid)
  · apply spec_recover
    · refine spec_bind
        (spec_strengthen (fun _ hBoth => hBoth.2)
          (sound_boot turns (0, 0)))
        fun appPid => ?_
      exact spec_done fun _ hSealed => hSealed
    · exact sound_fatalShutdown turns

end

end Boot

end Guest

end CargoUnikernel
