import Mathlib.Order.WellFounded
import Mathlib.Data.List.Basic

/-
  Anything that can be written to, and writing to it in full.

  A writer answers each write as it likes, and may change as
  it does. Writing in full tries again after an interruption,
  goes on after a short write, and gives up at an error or
  when nothing is taken.

  Main declarations:
    * `Writer`, `Attempt`, `Run`, `writeAll`
    * `Made`, `writeAll_made`
    * `Written`, `writeAll_written`
    * `Writer.Resumes`, `exists_writeAll`
-/

------------------------------------------------------------
-- Writers
------------------------------------------------------------

namespace Writers

/- What comes of one write, and how much of it is taken. -/
inductive Answer
| wrote (count : Nat)
| interrupted
| failed (count : Nat)
deriving DecidableEq

/- Each write is answered, and may change the writer. -/
structure Writer (State : Type) where
  write : State → List UInt8 → Answer × State

/- A write that was tried, and its answer. -/
structure Attempt where
  bytes : List UInt8
  answer : Answer
deriving DecidableEq

namespace Attempt

/- The bytes that are taken. -/
def taken (attempt : Attempt) : List UInt8 :=
  match attempt.answer with
  | .wrote count => attempt.bytes.take count
  | .interrupted => []
  | .failed count => attempt.bytes.take count

/- What is left to be written. -/
def rest (attempt : Attempt) : List UInt8 :=
  match attempt.answer with
  | .wrote count => attempt.bytes.drop count
  | .interrupted => attempt.bytes
  | .failed count => attempt.bytes.drop count

/- An error, or that nothing is taken. -/
def Fails (attempt : Attempt) : Prop :=
  match attempt.answer with
  | .wrote count => count = 0
  | .interrupted => False
  | .failed _ => True

instance (attempt : Attempt) : Decidable attempt.Fails := by
  unfold Fails
  split <;> infer_instance

theorem taken_append_rest (attempt : Attempt) :
    attempt.taken ++ attempt.rest = attempt.bytes := by
  unfold taken rest
  split
  · exact List.take_append_drop _ _
  · rfl
  · exact List.take_append_drop _ _

theorem length_rest_le (attempt : Attempt) :
    attempt.rest.length ≤ attempt.bytes.length := by
  rw [← attempt.taken_append_rest, List.length_append]
  omega

theorem taken_prefix (attempt : Attempt) :
    attempt.taken <+: attempt.bytes :=
  ⟨attempt.rest, attempt.taken_append_rest⟩

/- Less is left, unless it failed or was interrupted. -/
theorem length_rest_lt
    {attempt : Attempt} (hBytes : attempt.bytes ≠ [])
    (hFails : ¬attempt.Fails)
    (hInterrupted : attempt.answer ≠ .interrupted) :
    attempt.rest.length < attempt.bytes.length := by
  have hPos := List.length_pos_iff.2 hBytes
  rcases attempt with ⟨bytes, answer⟩
  cases answer with
  | wrote count =>
      have hCount : count ≠ 0 := hFails
      unfold rest
      rw [List.length_drop]
      dsimp only at hPos ⊢
      omega
  | interrupted => exact absurd rfl hInterrupted
  | failed count => exact absurd trivial hFails

end Attempt

/- Whether all went well, what is left, and what was tried. -/
structure Run (State : Type) where
  done : Bool
  state : State
  attempts : List Attempt
deriving DecidableEq

/- The same with something tried before. -/
def Run.after
    {State : Type}
    (earlier : List Attempt) (run : Run State) : Run State :=
  { run with attempts := earlier ++ run.attempts }

/- All that is taken, in order. -/
def taken (attempts : List Attempt) : List UInt8 :=
  attempts.flatMap Attempt.taken

section

variable {State : Type} (writer : Writer State)

/-
  Writes until nothing is left. There is no result when the
  fuel is not enough.
-/
def writeAll :
    Nat → List UInt8 → State → Option (Run State)
| 0, bytes, s => if bytes = [] then some ⟨true, s, []⟩ else none
| fuel + 1, bytes, s =>
    if bytes = [] then
      some ⟨true, s, []⟩
    else
      let reply := writer.write s bytes
      let attempt := Attempt.mk bytes reply.1
      match reply.1 with
      | .wrote count =>
          if count = 0 then
            some ⟨false, reply.2, [attempt]⟩
          else
            (writeAll fuel (bytes.drop count) reply.2).map
              (Run.after [attempt])
      | .interrupted =>
          (writeAll fuel bytes reply.2).map
            (Run.after [attempt])
      | .failed _ => some ⟨false, reply.2, [attempt]⟩

/- The write of all that is left. -/
def attempt (bytes : List UInt8) (s : State) : Attempt :=
  ⟨bytes, (writer.write s bytes).1⟩

theorem writeAll_nil (fuel : Nat) (s : State) :
    writeAll writer fuel [] s = some ⟨true, s, []⟩ := by
  cases fuel with
  | zero => rw [writeAll, if_pos rfl]
  | succ fuel => rw [writeAll, if_pos rfl]

/- One turn: a failure ends it, the rest is written next. -/
theorem writeAll_succ
    {bytes : List UInt8} (hBytes : bytes ≠ [])
    (fuel : Nat) (s : State) :
    writeAll writer (fuel + 1) bytes s =
      if (attempt writer bytes s).Fails then
        some
          ⟨false, (writer.write s bytes).2,
            [attempt writer bytes s]⟩
      else
        (writeAll writer fuel (attempt writer bytes s).rest
            (writer.write s bytes).2).map
          (Run.after [attempt writer bytes s]) := by
  rw [writeAll, if_neg hBytes]
  unfold attempt
  generalize writer.write s bytes = reply
  rcases reply with ⟨answer, t⟩
  cases answer with
  | wrote count => rfl
  | interrupted => rfl
  | failed count => rfl

end

------------------------------------------------------------
-- One Write After Another
------------------------------------------------------------

section

variable {State : Type}

/-
  The attempts are the writes that were made, each of them in
  the state that the one before it left.
-/
inductive Made (writer : Writer State) :
    State → List Attempt → State → Prop
| none {s : State} : Made writer s [] s
| write
    {s t : State} (bytes : List UInt8)
    {attempts : List Attempt}
    (hRest :
      Made writer (writer.write s bytes).2 attempts t) :
    Made writer s (attempt writer bytes s :: attempts) t

variable {writer : Writer State}

/- A single write, and the state that it leaves. -/
theorem Made.one (bytes : List UInt8) (s : State) :
    Made writer s [attempt writer bytes s]
      (writer.write s bytes).2 :=
  .write bytes .none

/- Writes that follow on others. -/
theorem Made.append
    {s t u : State} {earlier later : List Attempt}
    (hEarlier : Made writer s earlier t)
    (hLater : Made writer t later u) :
    Made writer s (earlier ++ later) u := by
  induction hEarlier with
  | none => exact hLater
  | write bytes _ ih => exact .write bytes (ih hLater)

/- Nothing is in the list but what was really written. -/
theorem writeAll_made
    {fuel : Nat} {bytes : List UInt8} {s : State}
    {run : Run State}
    (hRun : writeAll writer fuel bytes s = some run) :
    Made writer s run.attempts run.state := by
  induction fuel generalizing bytes s run with
  | zero =>
      unfold writeAll at hRun
      split at hRun
      · rcases Option.some.inj hRun with rfl
        exact .none
      · cases hRun
  | succ fuel ih =>
      by_cases hNil : bytes = []
      · rw [hNil, writeAll_nil] at hRun
        rcases Option.some.inj hRun with rfl
        exact .none
      · rw [writeAll_succ writer hNil] at hRun
        by_cases hFails : (attempt writer bytes s).Fails
        · rw [if_pos hFails] at hRun
          rcases Option.some.inj hRun with rfl
          exact .one bytes s
        · rw [if_neg hFails] at hRun
          rcases Option.map_eq_some_iff.1 hRun with
            ⟨rest, hRest, rfl⟩
          exact .write bytes (ih hRest)

end

------------------------------------------------------------
-- What Is Written
------------------------------------------------------------

@[simp] theorem taken_nil : taken [] = [] :=
  rfl

@[simp] theorem taken_cons
    (attempt : Attempt) (attempts : List Attempt) :
    taken (attempt :: attempts) =
      attempt.taken ++ taken attempts :=
  rfl

@[simp] theorem taken_append
    (earlier later : List Attempt) :
    taken (earlier ++ later) = taken earlier ++ taken later :=
  List.flatMap_append

/-
  The bytes in full after attempts that went well, or some
  first ones of them, where the last attempt alone failed.
-/
inductive Written
    {State : Type} (bytes : List UInt8) (run : Run State) : Prop
| done
    (hDone : run.done = true)
    (hTaken : taken run.attempts = bytes)
    (hNone : ∀ attempt ∈ run.attempts, ¬attempt.Fails)
| failed
    (earlier : List Attempt) (last : Attempt)
    (hFailed : run.done = false)
    (hAttempts : run.attempts = earlier ++ [last])
    (hTaken : taken run.attempts <+: bytes)
    (hLast : last.Fails)
    (hNone : ∀ attempt ∈ earlier, ¬attempt.Fails)

namespace Written

variable {State : Type} {run : Run State}
variable {bytes more : List UInt8}

/- After what has gone well, for the bytes in turn. -/
theorem after
    {earlier : List Attempt}
    (hEarlier : ∀ attempt ∈ earlier, ¬attempt.Fails)
    (hWritten : Written bytes run) :
    Written (taken earlier ++ bytes) (run.after earlier) := by
  cases hWritten with
  | done hDone hTaken hNone =>
      refine .done hDone ?_ ?_
      · unfold Run.after
        rw [taken_append, hTaken]
      · intro attempt hMem
        rcases List.mem_append.1 hMem with hMem | hMem
        · exact hEarlier attempt hMem
        · exact hNone attempt hMem
  | failed before last hFailed hAttempts hTaken hLast hNone =>
      refine
        .failed (earlier ++ before) last hFailed ?_ ?_ hLast ?_
      · unfold Run.after
        rw [hAttempts, List.append_assoc]
      · unfold Run.after
        rw [taken_append]
        exact (List.prefix_append_right_inj _).2 hTaken
      · intro attempt hMem
        rcases List.mem_append.1 hMem with hMem | hMem
        · exact hEarlier attempt hMem
        · exact hNone attempt hMem

/- The first attempt goes on, and the rest is written. -/
theorem cons
    {attempt : Attempt} (hFails : ¬attempt.Fails)
    (hWritten : Written attempt.rest run) :
    Written attempt.bytes (run.after [attempt]) := by
  have hAfter :
      Written (taken [attempt] ++ attempt.rest)
        (run.after [attempt]) := by
    apply after _ hWritten
    intro other hMem
    rw [List.mem_singleton.1 hMem]
    exact hFails
  rw [taken_cons, taken_nil, List.append_nil,
    attempt.taken_append_rest] at hAfter
  exact hAfter

/- One attempt that failed writes what it took, if any. -/
theorem of_fails
    {s : State} {attempt : Attempt}
    (hFails : attempt.Fails) :
    Written attempt.bytes ⟨false, s, [attempt]⟩ := by
  refine .failed [] attempt rfl rfl ?_ hFails ?_
  · rw [taken_cons, taken_nil, List.append_nil]
    exact attempt.taken_prefix
  · intro other hMem
    cases hMem

theorem of_nil (s : State) :
    Written [] ⟨true, s, []⟩ := by
  refine .done rfl rfl ?_
  intro attempt hMem
  cases hMem

/- What fails on the way to more has failed on that as well. -/
theorem append_of_failed
    (hFailed : run.done = false)
    (hWritten : Written bytes run) :
    Written (bytes ++ more) run := by
  cases hWritten with
  | done hDone hTaken hNone =>
      rw [hDone] at hFailed
      cases hFailed
  | failed before last hFailed hAttempts hTaken hLast hNone =>
      exact
        .failed before last hFailed hAttempts
          (hTaken.trans (List.prefix_append _ _)) hLast hNone

theorem of_done
    (hDone : run.done = true)
    (hWritten : Written bytes run) :
    taken run.attempts = bytes ∧
      ∀ attempt ∈ run.attempts, ¬attempt.Fails := by
  cases hWritten with
  | done hDone hTaken hNone => exact ⟨hTaken, hNone⟩
  | failed before last hFailed =>
      rw [hDone] at hFailed
      cases hFailed

end Written

section

variable {State : Type} {writer : Writer State}

/- No attempt is longer, and the bytes are written. -/
theorem writeAll_written
    {fuel : Nat} {bytes : List UInt8} {s : State}
    {run : Run State}
    (hRun : writeAll writer fuel bytes s = some run) :
    Written bytes run ∧
      ∀ attempt ∈ run.attempts,
        attempt.bytes.length ≤ bytes.length := by
  induction fuel generalizing bytes s run with
  | zero =>
      unfold writeAll at hRun
      split at hRun
      · rename_i hNil
        rcases Option.some.inj hRun with rfl
        rw [hNil]
        refine ⟨.of_nil s, ?_⟩
        intro attempt hMem
        cases hMem
      · cases hRun
  | succ fuel ih =>
      by_cases hNil : bytes = []
      · rw [hNil, writeAll_nil] at hRun
        rcases Option.some.inj hRun with rfl
        rw [hNil]
        refine ⟨.of_nil s, ?_⟩
        intro attempt hMem
        cases hMem
      · rw [writeAll_succ writer hNil] at hRun
        by_cases hFails : (attempt writer bytes s).Fails
        · rw [if_pos hFails] at hRun
          rcases Option.some.inj hRun with rfl
          refine ⟨.of_fails hFails, ?_⟩
          intro other hMem
          rw [List.mem_singleton.1 hMem]
          exact le_rfl
        · rw [if_neg hFails] at hRun
          rcases Option.map_eq_some_iff.1 hRun with
            ⟨rest, hRest, rfl⟩
          rcases ih hRest with ⟨hWritten, hShort⟩
          refine ⟨hWritten.cons hFails, ?_⟩
          intro other hMem
          rcases List.mem_cons.1 hMem with rfl | hMem
          · exact le_rfl
          · exact
              (hShort other hMem).trans
                (attempt writer bytes s).length_rest_le

end

------------------------------------------------------------
-- That It Ends
------------------------------------------------------------

section

variable {State : Type}

/- No write is interrupted for ever. -/
def Writer.Resumes (writer : Writer State) : Prop :=
  ∀ bytes,
    WellFounded fun later now =>
      writer.write now bytes = (.interrupted, later)

variable {writer : Writer State}

/- More fuel makes no difference to a result. -/
theorem writeAll_mono
    {fuel more : Nat} (hMore : fuel ≤ more)
    {bytes : List UInt8} {s : State} {run : Run State}
    (hRun : writeAll writer fuel bytes s = some run) :
    writeAll writer more bytes s = some run := by
  induction fuel generalizing more bytes s run with
  | zero =>
      unfold writeAll at hRun
      split at hRun
      · rename_i hNil
        rw [hNil, writeAll_nil, hRun]
      · cases hRun
  | succ fuel ih =>
      by_cases hNil : bytes = []
      · rw [hNil, writeAll_nil] at hRun ⊢
        exact hRun
      · rcases Nat.exists_eq_add_of_le' hMore with ⟨k, rfl⟩
        rw [← Nat.add_assoc, writeAll_succ writer hNil]
        rw [writeAll_succ writer hNil] at hRun
        split at hRun
        · rename_i hFails
          rw [if_pos hFails, hRun]
        · rename_i hFails
          rcases Option.map_eq_some_iff.1 hRun with
            ⟨rest, hRest, rfl⟩
          rw [if_neg hFails, ih (by omega) hRest,
            Option.map_some]

/-
  The induction is on how much is left, and while writes are
  interrupted on how long that goes on.
-/
theorem exists_writeAll
    (hResumes : writer.Resumes) (bytes : List UInt8)
    (s : State) :
    ∃ fuel run, writeAll writer fuel bytes s = some run := by
  generalize hLength : bytes.length = length
  induction length using Nat.strongRecOn
    generalizing bytes s with
  | ind length ih =>
      induction s using (hResumes bytes).induction with
      | h s ihState =>
          by_cases hNil : bytes = []
          · exact ⟨0, _, by rw [hNil, writeAll_nil]⟩
          · have hRest :
                ¬(attempt writer bytes s).Fails →
                  ∃ fuel run,
                    writeAll writer fuel
                        (attempt writer bytes s).rest
                        (writer.write s bytes).2 =
                      some run := by
              intro hFails
              by_cases hAgain :
                  (writer.write s bytes).1 = .interrupted
              · have hSame :
                    (attempt writer bytes s).rest = bytes := by
                  unfold attempt Attempt.rest
                  rw [hAgain]
                rw [hSame]
                exact ihState _ (Prod.ext hAgain rfl)
              · have hLess :=
                  Attempt.length_rest_lt hNil hFails hAgain
                exact ih _ (hLength ▸ hLess) _ _ rfl
            by_cases hFails : (attempt writer bytes s).Fails
            · apply Exists.intro 1
              rw [writeAll_succ writer hNil, if_pos hFails]
              exact ⟨_, rfl⟩
            · rcases hRest hFails with ⟨fuel, run, hRun⟩
              apply Exists.intro (fuel + 1)
              rw [writeAll_succ writer hNil, if_neg hFails,
                hRun, Option.map_some]
              exact ⟨_, rfl⟩

end

end Writers
