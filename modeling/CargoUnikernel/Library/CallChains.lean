import CargoUnikernel.Library.Calls

/-
  Calls in a chain that ends at the first failure.

  No one else changes the state, so a program is judged by
  the state in which it makes each of its calls. A link of
  the chain is judged by what it makes of the state when none
  of its failures counts.

  Main declarations:
    * `Guarded`, `guarded_bind`, `guarded_of_runs`
    * `Chain`, `Chain.andThen`, `Chain.mapError`, `syscall`
    * `Triple`, `triple_consequence`, `triple_andThen`
    * `triple_syscall`, `triple_of_runs`
-/

------------------------------------------------------------
-- Guarded Programs
------------------------------------------------------------

namespace CallChains

open Calls

section Guards

variable {State Request : Type} {Answer : Request → Type}
variable {α β : Type}
variable
  (Possible :
    State → (request : Request) → Answer request → State →
      Prop)

/-
  Whatever the answers are, each call may be made where it is
  made, and the end is as it should be.
-/
def Guarded
    (May :
      List (Event State Request Answer) → State → Request →
        Prop)
    (Post :
      α → List (Event State Request Answer) → State → Prop) :
    Script Request Answer α →
      List (Event State Request Answer) → State → Prop
| .done value, past, s => Post value past s
| .call request next, past, s =>
    May past s request ∧
      ∀ answer after,
        Possible s request answer after →
          Guarded May Post (next answer)
            (past ++ [⟨s, request, answer⟩]) after

variable {Possible}
variable
  {May :
    List (Event State Request Answer) → State → Request →
      Prop}

theorem guarded_mono
    {Post More :
      α → List (Event State Request Answer) → State → Prop}
    (hPost :
      ∀ value past s, Post value past s → More value past s)
    {script : Script Request Answer α}
    {past : List (Event State Request Answer)} {s : State}
    (hGuarded : Guarded Possible May Post script past s) :
    Guarded Possible May More script past s := by
  induction script generalizing past s with
  | done value => exact hPost value past s hGuarded
  | call request next ih =>
      refine ⟨hGuarded.1, ?_⟩
      intro answer after hPossible
      apply ih
      exact hGuarded.2 answer after hPossible

/- The past makes no difference to rules without it. -/
theorem guarded_of_past
    {May : State → Request → Prop} {Post : α → State → Prop}
    {script : Script Request Answer α}
    {past other : List (Event State Request Answer)}
    {s : State}
    (hGuarded :
      Guarded Possible (fun _ s request => May s request)
        (fun value _ s => Post value s) script past s) :
    Guarded Possible (fun _ s request => May s request)
      (fun value _ s => Post value s) script other s := by
  induction script generalizing past other s with
  | done value => exact hGuarded
  | call request next ih =>
      refine ⟨hGuarded.1, ?_⟩
      intro answer after hPossible
      exact ih answer (hGuarded.2 answer after hPossible)

/- One after the other, from where the first has led to. -/
theorem guarded_bind
    {Post :
      β → List (Event State Request Answer) → State → Prop}
    {script : Script Request Answer α}
    {next : α → Script Request Answer β}
    {past : List (Event State Request Answer)} {s : State}
    (hGuarded :
      Guarded Possible May
        (fun value past s =>
          Guarded Possible May Post (next value) past s)
        script past s) :
    Guarded Possible May Post (script.bind next) past s := by
  induction script generalizing past s with
  | done value => exact hGuarded
  | call request rest ih =>
      refine ⟨hGuarded.1, ?_⟩
      intro answer after hPossible
      apply ih
      exact hGuarded.2 answer after hPossible

/- What holds of the state through all of the calls. -/
theorem guarded_invariant
    {Stricter :
      List (Event State Request Answer) → State → Request →
        Prop}
    {Post :
      α → List (Event State Request Answer) → State → Prop}
    {Kept : State → Prop}
    (hMay :
      ∀ past s request, Kept s → May past s request →
        Stricter past s request)
    (hKept :
      ∀ past s request answer after,
        Kept s → May past s request →
          Possible s request answer after → Kept after)
    {script : Script Request Answer α}
    {past : List (Event State Request Answer)} {s : State}
    (hGuarded : Guarded Possible May Post script past s)
    (hStart : Kept s) :
    Guarded Possible Stricter
      (fun value past s => Post value past s ∧ Kept s)
      script past s := by
  induction script generalizing past s with
  | done value => exact ⟨hGuarded, hStart⟩
  | call request next ih =>
      refine ⟨hMay past s request hStart hGuarded.1, ?_⟩
      intro answer after hPossible
      apply ih
      · exact hGuarded.2 answer after hPossible
      · exact
          hKept past s request answer after hStart hGuarded.1
            hPossible

/- In a run, each call was one that might be made there. -/
theorem guarded_of_runs
    {Post :
      α → List (Event State Request Answer) → State → Prop}
    {script rest : Script Request Answer α} {s t : State}
    {past trace : List (Event State Request Answer)}
    (hGuarded : Guarded Possible May Post script past s)
    (hRuns : Runs Possible Eq script s trace rest t) :
    (∀ earlier event later,
        trace = earlier ++ event :: later →
          May (past ++ earlier) event.before event.request) ∧
      Guarded Possible May Post rest (past ++ trace) t := by
  induction hRuns generalizing past with
  | stop script s =>
      constructor
      · intro earlier event later hTrace
        have hLength := congrArg List.length hTrace
        simp at hLength
      · rwa [List.append_nil]
  | call hBetween hPossible hRuns ih =>
      subst hBetween
      have hRest := ih (hGuarded.2 _ _ hPossible)
      rw [List.append_assoc] at hRest
      refine ⟨?_, hRest.2⟩
      intro earlier event later hTrace
      cases earlier with
      | nil =>
          rw [List.nil_append, List.cons.injEq] at hTrace
          rw [List.append_nil, ← hTrace.1]
          exact hGuarded.1
      | cons first earlier =>
          rw [List.cons_append, List.cons.injEq] at hTrace
          have hLater := hRest.1 earlier event later hTrace.2
          rw [List.append_assoc] at hLater
          rwa [← hTrace.1]

end Guards

------------------------------------------------------------
-- Chains
------------------------------------------------------------

section Chains

variable {State Request ε δ : Type}

/- A program that fails or not, as each of its calls does. -/
abbrev Chain (Request ε δ : Type) :=
  Script Request (fun _ => Except ε Unit) (Except δ Unit)

/- A call of a chain, where it was made, and its answer. -/
abbrev Link (State Request ε : Type) :=
  Event State Request fun _ => Except ε Unit

/- The second part, unless the first one has failed. -/
def Chain.andThen
    (first second : Chain Request ε δ) : Chain Request ε δ :=
  Script.bind first fun result =>
    match result with
    | .ok () => second
    | .error error => .done (.error error)

/- The same calls, with another error at the end. -/
def Chain.mapError {δ' : Type}
    (convert : δ → δ') (chain : Chain Request ε δ) :
    Chain Request ε δ' :=
  Script.bind chain fun result =>
    .done (result.mapError convert)

/- One call, whose failure is the end. -/
def syscall
    (convert : ε → δ) (request : Request) :
    Chain Request ε δ :=
  .call request fun answer =>
    .done (answer.mapError convert)

variable
  (Possible :
    State → Request → Except ε Unit → State → Prop)
variable (Fine : Link State Request ε → Prop)
variable
  (May :
    List (Link State Request ε) → State → Request → Prop)

/-
  From one kind of state to another, if it does not fail, and
  then no call has failed in a way that counts.
-/
def Triple
    (Pre : State → Prop) (chain : Chain Request ε δ)
    (Post : State → Prop) : Prop :=
  ∀ past s, Pre s → (∀ link ∈ past, Fine link) →
    Guarded Possible May
      (fun result past t =>
        result = .ok () →
          (∀ link ∈ past, Fine link) ∧ Post t)
      chain past s

variable {Possible Fine May}
variable {Pre Mid Post : State → Prop}

theorem forall_mem_snoc
    {past : List (Link State Request ε)}
    {link : Link State Request ε}
    (hPast : ∀ link ∈ past, Fine link)
    (hFine : Fine link) :
    ∀ other ∈ past ++ [link], Fine other := by
  intro other hMem
  rcases List.mem_append.1 hMem with hOld | hNew
  · exact hPast other hOld
  · rw [List.mem_singleton.1 hNew]
    exact hFine

theorem triple_done
    (hPost : ∀ s, Pre s → Post s) :
    Triple Possible Fine May Pre
      (.done (.ok ()) : Chain Request ε δ) Post := by
  intro past s hPre hFine _
  exact ⟨hFine, hPost s hPre⟩

theorem triple_consequence
    {More Less : State → Prop}
    {chain : Chain Request ε δ}
    (hPre : ∀ s, More s → Pre s)
    (hTriple : Triple Possible Fine May Pre chain Post)
    (hPost : ∀ s, Post s → Less s) :
    Triple Possible Fine May More chain Less := by
  intro past s hMore hFine
  apply guarded_mono _ (hTriple past s (hPre s hMore) hFine)
  intro result more t hResult hOk
  have hEnd := hResult hOk
  exact ⟨hEnd.1, hPost t hEnd.2⟩

theorem triple_andThen
    {first second : Chain Request ε δ}
    (hFirst : Triple Possible Fine May Pre first Mid)
    (hSecond : Triple Possible Fine May Mid second Post) :
    Triple Possible Fine May Pre (first.andThen second)
      Post := by
  intro past s hPre hFine
  apply guarded_bind
  apply guarded_mono _ (hFirst past s hPre hFine)
  intro result more t hResult
  cases result with
  | error error =>
      intro hOk
      cases hOk
  | ok done =>
      have hMid := hResult rfl
      exact hSecond more t hMid.2 hMid.1

theorem triple_mapError {δ' : Type}
    {convert : δ → δ'} {chain : Chain Request ε δ}
    (hTriple : Triple Possible Fine May Pre chain Post) :
    Triple Possible Fine May Pre (chain.mapError convert)
      Post := by
  intro past s hPre hFine
  apply guarded_bind
  apply guarded_mono _ (hTriple past s hPre hFine)
  intro result more t hResult
  cases result with
  | error error =>
      intro hOk
      cases hOk
  | ok done =>
      intro _
      exact hResult rfl

theorem triple_syscall
    {convert : ε → δ} {request : Request}
    (hMay :
      ∀ past s, Pre s → (∀ link ∈ past, Fine link) →
        May past s request)
    (hFine : ∀ s, Fine ⟨s, request, .ok ()⟩)
    (hPost :
      ∀ s t, Pre s → Possible s request (.ok ()) t →
        Post t) :
    Triple Possible Fine May Pre (syscall convert request)
      Post := by
  intro past s hPre hPast
  refine ⟨hMay past s hPre hPast, ?_⟩
  intro answer after hPossible
  cases answer with
  | error error =>
      intro hOk
      cases hOk
  | ok done =>
      intro _
      refine ⟨?_, hPost s after hPre hPossible⟩
      exact forall_mem_snoc hPast (hFine s)

/- What holds before it, and after it if it does not fail. -/
theorem triple_of_runs
    {chain rest : Chain Request ε δ} {s t : State}
    {trace : List (Link State Request ε)}
    (hTriple : Triple Possible Fine May Pre chain Post)
    (hPre : Pre s)
    (hRuns : Runs Possible Eq chain s trace rest t) :
    (∀ earlier link later,
        trace = earlier ++ link :: later →
          May earlier link.before link.request) ∧
      (rest = .done (.ok ()) →
        (∀ link ∈ trace, Fine link) ∧ Post t) := by
  have hGuarded :=
    hTriple [] s hPre fun link hMem => by cases hMem
  have hBoth := guarded_of_runs hGuarded hRuns
  refine ⟨hBoth.1, ?_⟩
  intro hRest
  have hEnd := hBoth.2
  rw [hRest] at hEnd
  exact hEnd rfl

end Chains

end CallChains
