import CargoUnikernel.Schema.Validate
import CargoUnikernel.Library.Transition
import Mathlib.Data.List.Induction

/-
  Providing the disk image of the guest's storage.

  An image that is there is left alone, whatever it holds.
  One that is not is created and then given its size, in two
  steps that can each fail. A call that creates the image
  and fails to size it leaves an empty one, which later
  calls take for the guest's.

  Main declarations:
    * `Attempt`, `stage`, `storage`
    * `AllOrNothing`, `FailsToSize`
    * `stage_of_failsToSize`, `stage_of_sized`
    * `all_or_nothing_iff_sized`
-/

------------------------------------------------------------
-- One Call
------------------------------------------------------------

namespace CargoUnikernel

namespace Pipeline

namespace Storage

open Schema Transition

/- The bytes of the image, if there is one. -/
abbrev Image := Option (List UInt8)

/- Which of the steps of a call succeed, if it takes them. -/
structure Attempt where
  hostDistDir : Bool
  create : Bool
  setLen : Bool

/- What a call failed to do. -/
inductive StageError
| hostDistDir
| create
| size
deriving DecidableEq

/- On 64 bits. -/
def saturatingMul (a b : Nat) : Nat :=
  min (a * b) (2 ^ 64 - 1)

/- The size of the image in bytes, as far as it fits. -/
def imageLen (config : Config) : Nat :=
  saturatingMul
    (saturatingMul config.storage.sizeMib.toNat 1024) 1024

/- Cut off, or filled with zeros, at the length. -/
def setLen (len : Nat) (content : List UInt8) :
    List UInt8 :=
  content.take len ++
    List.replicate (len - content.length) 0

/- The result of a call, and the image after it. -/
def stage
    (config : Config) (attempt : Attempt) (image : Image) :
    Except StageError Unit × Image :=
  if config.storage.mode ≠ .persistent then
    (.ok (), image)
  else if ¬ attempt.hostDistDir then
    (.error .hostDistDir, image)
  else if image.isSome then
    (.ok (), image)
  else if ¬ attempt.create then
    (.error .create, image)
  else if ¬ attempt.setLen then
    (.error .size, some [])
  else
    (.ok (), some (setLen (imageLen config) []))

/- The image and what the last call returned, if any did. -/
structure Staged where
  image : Image
  returned : Option (Except StageError Unit)

/- Call after call, from an image that may be there. -/
def storage (config : Config) (image : Image) :
    System Staged Attempt where
  init s := s = ⟨image, none⟩
  step s attempt :=
    let outcome := stage config attempt s.image
    some ⟨outcome.2, some outcome.1⟩

/- The size in bytes is never too large for its type. -/
theorem imageLen_eq (config : Config) :
    imageLen config =
      config.storage.sizeMib.toNat * 2 ^ 20 := by
  have hSize := config.storage.sizeMib.toNat_lt
  unfold imageLen saturatingMul
  omega

@[simp] theorem length_setLen
    (len : Nat) (content : List UInt8) :
    (setLen len content).length = len := by
  unfold setLen
  rw [List.length_append, List.length_take,
    List.length_replicate]
  omega

------------------------------------------------------------
-- What a Call Can Do
------------------------------------------------------------

/- The call creates the image and then fails to size it. -/
def FailsToSize (image : Image) (attempt : Attempt) : Prop :=
  image = none ∧ attempt.hostDistDir = true ∧
    attempt.create = true ∧ attempt.setLen = false

instance (image : Image) (attempt : Attempt) :
    Decidable (FailsToSize image attempt) :=
  inferInstanceAs (Decidable (_ ∧ _ ∧ _ ∧ _))

/- The image as it is to be. -/
def IsSized (config : Config) (image : Image) : Prop :=
  ∃ content,
    image = some content ∧
      content.length =
        config.storage.sizeMib.toNat * 2 ^ 20

/- An image that is there is left alone. -/
theorem stage_of_some
    (config : Config) (attempt : Attempt)
    (content : List UInt8) :
    (stage config attempt (some content)).2 =
      some content := by
  unfold stage
  split
  · rfl
  · split
    · rfl
    · rfl

/- Then an empty image is left behind. -/
theorem stage_of_failsToSize
    {config : Config}
    (hMode : config.storage.mode = .persistent)
    {image : Image} {attempt : Attempt}
    (hFails : FailsToSize image attempt) :
    stage config attempt image = (.error .size, some []) := by
  rcases hFails with ⟨rfl, hDist, hCreate, hSize⟩
  unfold stage
  rw [if_neg (not_not.2 hMode), hDist, hCreate, hSize]
  rfl

/-
  Otherwise, where there is no image, a call fails and makes
  none, or makes one of the right size.
-/
theorem stage_of_sized
    {config : Config}
    (hMode : config.storage.mode = .persistent)
    {attempt : Attempt}
    (hSized : ¬ FailsToSize none attempt) :
    (∃ error,
        stage config attempt none = (.error error, none)) ∨
      ∃ image,
        stage config attempt none = (.ok (), image) ∧
          IsSized config image := by
  unfold stage
  rw [if_neg (not_not.2 hMode)]
  cases hDist : attempt.hostDistDir with
  | false => exact Or.inl ⟨.hostDistDir, rfl⟩
  | true =>
      cases hCreate : attempt.create with
      | false => exact Or.inl ⟨.create, rfl⟩
      | true =>
          cases hSize : attempt.setLen with
          | false =>
              exact absurd ⟨rfl, hDist, hCreate, hSize⟩ hSized
          | true =>
              right
              refine ⟨_, rfl, _, rfl, ?_⟩
              rw [length_setLen, imageLen_eq]

/- An empty image is not one of the size. -/
theorem not_isSized_nil
    {config : Config}
    (hSize : 0 < config.storage.sizeMib.toNat) :
    ¬ IsSized config (some []) := by
  rintro ⟨content, hContent, hLength⟩
  cases hContent
  rw [List.length_nil] at hLength
  omega

------------------------------------------------------------
-- All or Nothing
------------------------------------------------------------

/-
  What was there is unchanged; what was not is not there or
  has its size, and has it when the last call succeeded.
-/
structure AllOrNothing
    (config : Config) (before : Image) (s : Staged) :
    Prop where
  untouched :
    ∀ content, before = some content →
      s.image = some content
  whole :
    before = none → s.image = none ∨ IsSized config s.image
  present :
    before = none → s.returned = some (.ok ()) →
      IsSized config s.image

section

variable {config : Config}
variable (hMode : config.storage.mode = .persistent)
variable {before : Image}

include hMode

/- A step keeps it, unless the call fails to size. -/
theorem allOrNothing_step
    {s t : Staged} {attempt : Attempt}
    (hBefore : AllOrNothing config before s)
    (hSized : ¬ FailsToSize s.image attempt)
    (hStep : (storage config before).step s attempt = some t) :
    AllOrNothing config before t := by
  rcases s with ⟨image, returned⟩
  cases hStep
  cases image with
  | some content =>
      have hAfter := stage_of_some config attempt content
      constructor
      · intro other hOther
        have hSame := hBefore.untouched other hOther
        dsimp only at hSame ⊢
        rw [hAfter, hSame]
      · intro hNone
        have hWhole := hBefore.whole hNone
        dsimp only at hWhole ⊢
        rwa [hAfter]
      · intro hNone _
        have hWhole := hBefore.whole hNone
        dsimp only at hWhole ⊢
        rw [hAfter]
        exact hWhole.resolve_left (by simp)
  | none =>
      have hUntouched :
          ∀ {content : List UInt8} {image : Image},
            before = some content → image = some content := by
        intro content image hSome
        have hSame := hBefore.untouched content hSome
        cases hSame
      rcases stage_of_sized hMode hSized with
        ⟨error, hStage⟩ | ⟨image, hStage, hIs⟩
      · constructor
        · intro content hSome
          exact hUntouched hSome
        · intro _
          dsimp only
          rw [hStage]
          exact Or.inl rfl
        · intro _ hReturned
          dsimp only at hReturned
          rw [hStage] at hReturned
          cases hReturned
      · constructor
        · intro content hSome
          exact hUntouched hSome
        · intro _
          dsimp only
          rw [hStage]
          exact Or.inr hIs
        · intro _ _
          dsimp only
          rw [hStage]
          exact hIs

/- The call that fails to size leaves an empty image. -/
theorem not_allOrNothing_step
    (hSize : 0 < config.storage.sizeMib.toNat)
    {s t : Staged} {attempt : Attempt}
    (hBefore : AllOrNothing config before s)
    (hFails : FailsToSize s.image attempt)
    (hStep : (storage config before).step s attempt = some t) :
    ¬ AllOrNothing config before t := by
  intro hAfter
  have hAbsent : before = none := by
    cases hStart : before with
    | none => rfl
    | some content =>
        have hSame := hBefore.untouched content hStart
        rw [hFails.1] at hSame
        cases hSame
  have hWhole := hAfter.whole hAbsent
  have hStage := stage_of_failsToSize hMode hFails
  cases hStep
  dsimp only at hWhole
  rw [hStage] at hWhole
  rcases hWhole with hNone | hIs
  · cases hNone
  · exact not_isSized_nil hSize hIs

end

------------------------------------------------------------
-- Runs of Calls
------------------------------------------------------------

/- Every state on the way, the last included. -/
def Throughout
    (config : Config) (before : Image)
    (attempts : List Attempt) (P : Staged → Prop) : Prop :=
  ∀ made later s,
    attempts = made ++ later →
      (storage config before).run ⟨before, none⟩ made =
          some s →
        P s

/- No call of the run creates the image and cannot size it. -/
def NoneFailsToSize
    (config : Config) (before : Image)
    (attempts : List Attempt) : Prop :=
  ∀ made attempt later s,
    attempts = made ++ attempt :: later →
      (storage config before).run ⟨before, none⟩ made =
          some s →
        ¬ FailsToSize s.image attempt

/- Nothing was attempted yet. -/
theorem allOrNothing_start
    (config : Config) (before : Image) :
    AllOrNothing config before ⟨before, none⟩ := by
  constructor
  · intro content hSome
    exact hSome
  · intro hNone
    exact Or.inl hNone
  · intro _ hReturned
    cases hReturned

/- By induction on the attempts. -/
theorem allOrNothing_run
    {config : Config} {before : Image}
    (hMode : config.storage.mode = .persistent)
    {made : List Attempt} {s : Staged}
    (hSized : NoneFailsToSize config before made)
    (hRun :
      (storage config before).run ⟨before, none⟩ made =
        some s) :
    AllOrNothing config before s := by
  induction made using List.reverseRecOn generalizing s with
  | nil =>
      cases hRun
      exact allOrNothing_start config before
  | append_singleton made attempt ih =>
      rw [System.run_append, Option.bind_eq_some_iff] at hRun
      rcases hRun with ⟨between, hMade, hLast⟩
      rw [System.run_cons_eq_some_iff] at hLast
      rcases hLast with ⟨after, hStep, hNil⟩
      cases hNil
      have hBetween : AllOrNothing config before between := by
        apply ih
        · intro front other later t hFront hFrontRun
          apply hSized front other (later ++ [attempt]) t
          · rw [hFront, List.append_assoc]
            rfl
          · exact hFrontRun
        · exact hMade
      exact allOrNothing_step hMode hBetween
        (hSized made attempt [] between rfl hMade) hStep

/-
  An image that was there before is never modified. And
  throughout a run an image is whole or not there exactly
  when no call creates it and then fails to size it.
-/
theorem all_or_nothing_iff_sized
    {config : Config}
    (hMode : config.storage.mode = .persistent)
    (hSize : 0 < config.storage.sizeMib.toNat)
    (before : Image) (attempts : List Attempt) :
    (∀ content, before = some content →
        Throughout config before attempts fun s =>
          s.image = some content) ∧
      (Throughout config before attempts
          (AllOrNothing config before) ↔
        NoneFailsToSize config before attempts) := by
  constructor
  · intro content hSome made later s _ hRun
    have hKeeps :
        ∀ s attempt t, s.image = some content →
          (storage config before).step s attempt = some t →
            t.image = some content := by
      intro s attempt t hImage hStep
      cases hStep
      dsimp only
      rw [hImage]
      exact stage_of_some config attempt content
    exact (storage config before).run_preserves hKeeps hSome
      hRun
  · constructor
    · intro hThroughout made attempt later s hAttempts hRun
        hFails
      have hBefore :=
        hThroughout made (attempt :: later) s hAttempts hRun
      have hStep :
          (storage config before).step s attempt =
            some
              ⟨(stage config attempt s.image).2,
                some (stage config attempt s.image).1⟩ := rfl
      apply not_allOrNothing_step hMode hSize hBefore hFails
        hStep
      apply hThroughout (made ++ [attempt]) later
      · rw [hAttempts, List.append_assoc]
        rfl
      · rw [System.run_append, hRun, Option.bind_some,
          System.run_cons, hStep]
        rfl
    · intro hSized made later s hAttempts hRun
      apply allOrNothing_run hMode _ hRun
      intro front attempt rest t hFront hFrontRun
      apply hSized front attempt (rest ++ later) t
      · rw [hAttempts, hFront, List.append_assoc]
        rfl
      · exact hFrontRun

/- A config whose data outlives a boot. -/
def persistentConfig : Config :=
  { casualConfigWithFormats [.cpio] with
    storage := { mode := .persistent } }

/- The image cannot be created at first, and then can. -/
def lateAttempts : List Attempt :=
  [⟨true, false, true⟩, ⟨true, true, true⟩]

/- An attempt that fails after the image was sized. -/
theorem all_or_nothing_late :
    Throughout persistentConfig none lateAttempts
      (AllOrNothing persistentConfig none) := by
  have hAll := all_or_nothing_iff_sized
    (@rfl _ persistentConfig.storage.mode) (by decide) none
    lateAttempts
  apply hAll.2.2
  intro made attempt later s hAttempts _ hFails
  have hMem : attempt ∈ lateAttempts := by
    rw [hAttempts]
    simp
  have hSetLen : attempt.setLen = true := by
    simp only [lateAttempts, List.mem_cons,
      List.not_mem_nil, or_false] at hMem
    rcases hMem with rfl | rfl
    · rfl
    · rfl
  rw [hFails.2.2.2] at hSetLen
  cases hSetLen

/- The image cannot be sized at first, and then is not. -/
def unsizedAttempts : List Attempt :=
  [⟨true, true, false⟩, ⟨true, true, true⟩]

/- The second call succeeds on the image left by the first. -/
theorem empty_image_accepted :
    (storage persistentConfig none).run ⟨none, none⟩
          unsizedAttempts =
        some ⟨some [], some (.ok ())⟩ ∧
      ¬ Throughout persistentConfig none unsizedAttempts
        (AllOrNothing persistentConfig none) := by
  have hRun :
      (storage persistentConfig none).run ⟨none, none⟩
          unsizedAttempts =
        some ⟨some [], some (.ok ())⟩ := rfl
  refine ⟨hRun, ?_⟩
  intro hThroughout
  have hPresent :=
    (hThroughout unsizedAttempts [] _
      (List.append_nil _).symm hRun).present rfl rfl
  exact not_isSized_nil (by decide) hPresent

end Storage

end Pipeline

end CargoUnikernel
