/-
  Programs that make calls, and what can come of them.

  A program is done, or makes a call and goes on with the
  answer. A handler runs it alone. Among other actors, which
  change the state between any two calls, it is judged by
  what it calls after what has happened.

  Main declarations:
    * `Script`, `Script.perform`
    * `Event`, `Runs`, `Licensed`, `licensed_of_runs`
    * `licensed_seq`, `licensed_call`, `licensed_forM`
    * `exec`, `exec_bind`, `runs_exec`
-/

------------------------------------------------------------
-- Scripts
------------------------------------------------------------

namespace Calls

/- A value, or a call and what is done with its answer. -/
inductive Script
    (Request : Type) (Answer : Request → Type) (α : Type)
| done (value : α)
| call
    (request : Request)
    (next : Answer request → Script Request Answer α)

namespace Script

variable {Request : Type} {Answer : Request → Type}
variable {α β : Type}

/- What comes after depends on the value. -/
def bind
    (script : Script Request Answer α)
    (next : α → Script Request Answer β) :
    Script Request Answer β :=
  match script with
  | .done value => next value
  | .call request rest =>
      .call request fun answer => (rest answer).bind next

instance : Monad (Script Request Answer) where
  pure := done
  bind := bind

/- One call, for its answer. -/
def perform (request : Request) :
    Script Request Answer (Answer request) :=
  .call request .done

@[simp] theorem pure_eq (value : α) :
    (pure value : Script Request Answer α) = .done value :=
  rfl

@[simp] theorem done_bind
    (value : α) (next : α → Script Request Answer β) :
    (.done value : Script Request Answer α) >>= next =
      next value :=
  rfl

@[simp] theorem call_bind
    (request : Request)
    (rest : Answer request → Script Request Answer α)
    (next : α → Script Request Answer β) :
    .call request rest >>= next =
      .call request fun answer => rest answer >>= next :=
  rfl

end Script

------------------------------------------------------------
-- Among Other Actors
------------------------------------------------------------

section

variable {State Request : Type} {Answer : Request → Type}
variable {α β : Type}

/- A call, where it was made, and its answer. -/
structure Event
    (State Request : Type) (Answer : Request → Type) where
  before : State
  request : Request
  answer : Answer request

variable
  (Possible :
    State → (request : Request) → Answer request → State →
      Prop)

/-
  A run up to any of the calls. Before each of them, others
  have their turn.
-/
inductive Runs (Between : State → State → Prop) :
    Script Request Answer α → State →
      List (Event State Request Answer) →
      Script Request Answer α → State → Prop
| stop (script : Script Request Answer α) (s : State) :
    Runs Between script s [] script s
| call {request : Request}
    {next : Answer request → Script Request Answer α}
    {s mid after t : State} {answer : Answer request}
    {trace : List (Event State Request Answer)}
    {rest : Script Request Answer α}
    (hBetween : Between s mid)
    (hPossible : Possible mid request answer after)
    (hRuns : Runs Between (next answer) after trace rest t) :
    Runs Between (.call request next) s
      (⟨mid, request, answer⟩ :: trace) rest t

/-
  Whatever the answers are, each call may be made after what
  has happened, and the end is as it should be.
-/
def Licensed
    (May :
      List (Event State Request Answer) → Request → Prop)
    (Post : α → List (Event State Request Answer) → Prop) :
    Script Request Answer α →
      List (Event State Request Answer) → Prop
| .done value, past => Post value past
| .call request next, past =>
    May past request ∧
      ∀ before answer after,
        Possible before request answer after →
          Licensed May Post (next answer)
            (past ++ [⟨before, request, answer⟩])

variable {Possible}
variable
  {May : List (Event State Request Answer) → Request → Prop}

theorem licensed_mono
    {Post More :
      α → List (Event State Request Answer) → Prop}
    (hPost : ∀ value past, Post value past → More value past)
    {script : Script Request Answer α}
    {past : List (Event State Request Answer)}
    (hLicensed : Licensed Possible May Post script past) :
    Licensed Possible May More script past := by
  induction script generalizing past with
  | done value => exact hPost value past hLicensed
  | call request next ih =>
      refine ⟨hLicensed.1, ?_⟩
      intro before answer after hPossible
      apply ih
      exact hLicensed.2 before answer after hPossible

/- One after the other, from what the first has led to. -/
theorem licensed_bind
    {Post : β → List (Event State Request Answer) → Prop}
    {script : Script Request Answer α}
    {next : α → Script Request Answer β}
    {past : List (Event State Request Answer)}
    (hLicensed :
      Licensed Possible May
        (fun value past =>
          Licensed Possible May Post (next value) past)
        script past) :
    Licensed Possible May Post (script >>= next) past := by
  induction script generalizing past with
  | done value => exact hLicensed
  | call request rest ih =>
      refine ⟨hLicensed.1, ?_⟩
      intro before answer after hPossible
      apply ih
      exact hLicensed.2 before answer after hPossible

/- What has happened stays in what has happened. -/
theorem licensed_extends
    {Post : α → List (Event State Request Answer) → Prop}
    {script : Script Request Answer α}
    {past : List (Event State Request Answer)}
    (hLicensed : Licensed Possible May Post script past) :
    Licensed Possible May
      (fun value more => past <+: more ∧ Post value more)
      script past := by
  induction script generalizing past with
  | done value => exact ⟨List.prefix_rfl, hLicensed⟩
  | call request next ih =>
      refine ⟨hLicensed.1, ?_⟩
      intro before answer after hPossible
      have hRest :=
        ih answer (hLicensed.2 before answer after hPossible)
      apply licensed_mono _ hRest
      intro value more hMore
      exact
        ⟨(List.prefix_append _ _).trans hMore.1, hMore.2⟩

/- The second starts from more than the first has. -/
theorem licensed_seq
    {Post : β → List (Event State Request Answer) → Prop}
    {Mid : α → List (Event State Request Answer) → Prop}
    {script : Script Request Answer α}
    {next : α → Script Request Answer β}
    {past : List (Event State Request Answer)}
    (hFirst : Licensed Possible May Mid script past)
    (hNext :
      ∀ value more, past <+: more → Mid value more →
        Licensed Possible May Post (next value) more) :
    Licensed Possible May Post (script >>= next) past := by
  apply licensed_bind
  apply licensed_mono _ (licensed_extends hFirst)
  intro value more hMore
  exact hNext value more hMore.1 hMore.2

/- A call, and what is done with each answer to it. -/
theorem licensed_call
    {Post : α → List (Event State Request Answer) → Prop}
    {request : Request}
    {next : Answer request → Script Request Answer α}
    {past : List (Event State Request Answer)}
    (hMay : May past request)
    (hNext :
      ∀ before answer after,
        Possible before request answer after →
          Licensed Possible May Post (next answer)
            (past ++ [⟨before, request, answer⟩])) :
    Licensed Possible May Post
      (Script.perform request >>= next) past :=
  ⟨hMay, hNext⟩

/- A loop, by what each of its turns keeps. -/
theorem licensed_forM
    {Kept : List (Event State Request Answer) → Prop}
    {body : β → Script Request Answer Unit}
    {items : List β}
    {past : List (Event State Request Answer)}
    (hBody :
      ∀ item ∈ items, ∀ past, Kept past →
        Licensed Possible May (fun _ past => Kept past)
          (body item) past)
    (hKept : Kept past) :
    Licensed Possible May (fun _ past => Kept past)
      (forM items body) past := by
  induction items generalizing past with
  | nil => exact hKept
  | cons item items ih =>
      rw [List.forM_cons]
      apply licensed_bind
      apply licensed_mono _
        (hBody item List.mem_cons_self past hKept)
      intro _ past hKept
      apply ih _ hKept
      intro other hMem
      exact hBody other (List.mem_cons_of_mem item hMem)

/- In a run, every call was one that might be made. -/
theorem licensed_of_runs
    {Between : State → State → Prop}
    {Post : α → List (Event State Request Answer) → Prop}
    {script rest : Script Request Answer α} {s t : State}
    {past trace : List (Event State Request Answer)}
    (hLicensed : Licensed Possible May Post script past)
    (hRuns : Runs Possible Between script s trace rest t)
    {earlier later : List (Event State Request Answer)}
    {event : Event State Request Answer}
    (hTrace : trace = earlier ++ event :: later) :
    May (past ++ earlier) event.request := by
  induction hRuns generalizing past earlier with
  | stop script s =>
      have hNil := congrArg List.length hTrace
      simp at hNil
  | call hBetween hPossible hRuns ih =>
      cases earlier with
      | nil =>
          rw [List.nil_append, List.cons.injEq] at hTrace
          rw [List.append_nil, ← hTrace.1]
          exact hLicensed.1
      | cons first earlier =>
          rw [List.cons_append, List.cons.injEq] at hTrace
          rw [← hTrace.1, List.append_cons]
          apply ih _ hTrace.2
          exact hLicensed.2 _ _ _ hPossible

/- In a run, what is left is judged by what has happened. -/
theorem licensed_rest_of_runs
    {Between : State → State → Prop}
    {Post : α → List (Event State Request Answer) → Prop}
    {script rest : Script Request Answer α} {s t : State}
    {past trace : List (Event State Request Answer)}
    (hLicensed : Licensed Possible May Post script past)
    (hRuns : Runs Possible Between script s trace rest t) :
    Licensed Possible May Post rest (past ++ trace) := by
  induction hRuns generalizing past with
  | stop script s => rwa [List.append_nil]
  | call hBetween hPossible hRuns ih =>
      rw [List.append_cons]
      apply ih
      exact hLicensed.2 _ _ _ hPossible

end

------------------------------------------------------------
-- Alone
------------------------------------------------------------

section

variable {State Request : Type} {Answer : Request → Type}
variable {α β : Type}

/- The value, the state that is left, and what happened. -/
structure Outcome
    (State Request : Type) (Answer : Request → Type)
    (α : Type) where
  value : α
  state : State
  trace : List (Event State Request Answer)

/- Each call is answered by the handler, in its turn. -/
def exec
    (handler :
      State → (request : Request) → Answer request × State) :
    Script Request Answer α → State →
      Outcome State Request Answer α
| .done value, s => ⟨value, s, []⟩
| .call request next, s =>
    let reply := handler s request
    let rest := exec handler (next reply.1) reply.2
    ⟨rest.value, rest.state,
      ⟨s, request, reply.1⟩ :: rest.trace⟩

variable
  {handler :
    State → (request : Request) → Answer request × State}

@[simp] theorem exec_done (value : α) (s : State) :
    exec handler (.done value) s = ⟨value, s, []⟩ :=
  rfl

theorem exec_call
    (request : Request)
    (next : Answer request → Script Request Answer α)
    (s : State) :
    exec handler (.call request next) s =
      ⟨(exec handler (next (handler s request).1)
          (handler s request).2).value,
        (exec handler (next (handler s request).1)
          (handler s request).2).state,
        ⟨s, request, (handler s request).1⟩ ::
          (exec handler (next (handler s request).1)
            (handler s request).2).trace⟩ :=
  rfl

@[simp] theorem exec_perform (request : Request) (s : State) :
    exec handler (.perform request) s =
      ⟨(handler s request).1, (handler s request).2,
        [⟨s, request, (handler s request).1⟩]⟩ :=
  rfl

@[simp] theorem exec_bind
    (script : Script Request Answer α)
    (next : α → Script Request Answer β) (s : State) :
    exec handler (script >>= next) s =
      ⟨(exec handler (next (exec handler script s).value)
          (exec handler script s).state).value,
        (exec handler (next (exec handler script s).value)
          (exec handler script s).state).state,
        (exec handler script s).trace ++
          (exec handler (next (exec handler script s).value)
            (exec handler script s).state).trace⟩ := by
  induction script generalizing s with
  | done value => rfl
  | call request rest ih =>
      rw [Script.call_bind, exec_call, exec_call, ih]
      rfl

/- Alone, it runs as it might among others. -/
theorem runs_exec
    {Possible :
      State → (request : Request) → Answer request → State →
        Prop}
    {Between : State → State → Prop}
    (hHandler :
      ∀ s request,
        Possible s request (handler s request).1
          (handler s request).2)
    (hBetween : ∀ s, Between s s)
    (script : Script Request Answer α) (s : State) :
    Runs Possible Between script s
      (exec handler script s).trace
      (.done (exec handler script s).value)
      (exec handler script s).state := by
  induction script generalizing s with
  | done value => exact .stop _ _
  | call request next ih =>
      exact .call (hBetween s) (hHandler s request) (ih _ _)

end

end Calls
