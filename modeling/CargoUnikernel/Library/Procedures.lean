import CargoUnikernel.Library.CallChains

/-
  Procedures: programs that have a value or stop.

  What stops one stops every one it is a part of. A procedure
  is specified by what it may call where, and by what holds
  after it if it does not stop; nothing is said of how the
  calls are answered.

  Main declarations:
    * `Proc`, `Proc.perform`, `Proc.stop`
    * `Proc.expect`, `Proc.when`, `Proc.recover`
    * `Proc.unlessDue`, `spec_unlessDue`
    * `Spec`, `spec_bind`, `spec_perform`, `spec_forM`
    * `spec_recover`, `spec_consequence`
    * `spec_exists`, `spec_invariant`
    * `spec_of_runs`
    * `Logged`, `logged_bind`, `logged_perform`
    * `logged_frame`, `logged_forM`, `logged_forM_foldl`
    * `logged_of_runs`
-/

------------------------------------------------------------
-- Procedures
------------------------------------------------------------

namespace Procedures

open Calls CallChains

/- A program for a value, or for what stopped it. -/
def Proc
    (Request : Type) (Answer : Request → Type)
    (ε α : Type) : Type :=
  Script Request Answer (Except ε α)

namespace Proc

variable {Request : Type} {Answer : Request → Type}
variable {ε δ α β : Type}

/- A value, and no call. -/
def done (value : α) : Proc Request Answer ε α :=
  Script.done (.ok value)

/- An error, and no call. -/
def stop (error : ε) : Proc Request Answer ε α :=
  Script.done (.error error)

/- An error skips what comes after. -/
def bind
    (first : Proc Request Answer ε α)
    (next : α → Proc Request Answer ε β) :
    Proc Request Answer ε β :=
  Script.bind first fun result =>
    match result with
    | .ok value => next value
    | .error error => .done (.error error)

instance : Monad (Proc Request Answer ε) where
  pure := done
  bind := bind

/- One call, for its answer. -/
def perform (request : Request) :
    Proc Request Answer ε (Answer request) :=
  Script.call request fun answer => .done (.ok answer)

/- The value of a result, or the end. -/
def expect (convert : δ → ε) :
    Except δ α → Proc Request Answer ε α
| .ok value => done value
| .error error => stop (convert error)

/- Only where it is wanted. -/
def when
    (wanted : Bool) (proc : Proc Request Answer ε Unit) :
    Proc Request Answer ε Unit :=
  if wanted then proc else done ()

/- What stops it is handled. -/
def recover
    (proc : Proc Request Answer ε α)
    (handler : ε → Proc Request Answer δ α) :
    Proc Request Answer δ α :=
  Script.bind proc fun result =>
    match result with
    | .ok value => .done (.ok value)
    | .error error => handler error

/-
  The same, but before each of its calls it is asked if its
  time is over. Where it is, the rest is left undone.
-/
def unlessDue
    (due : Proc Request Answer ε Bool) (cut : α) :
    Script Request Answer (Except ε α) →
      Proc Request Answer ε α
| .done result => Script.done result
| .call request next =>
    Proc.bind due fun isDue =>
      if isDue then
        done cut
      else
        Script.call request fun answer =>
          unlessDue due cut (next answer)

/- A value is gone on with. -/
theorem expect_ok_bind
    (convert : δ → ε) (value : α)
    (next : α → Proc Request Answer ε β) :
    expect convert (.ok value) >>= next = next value :=
  rfl

end Proc

------------------------------------------------------------
-- Specifications
------------------------------------------------------------

section

variable {State Request : Type} {Answer : Request → Type}
variable {ε δ α β : Type}
variable
  (Possible :
    State → (request : Request) → Answer request → State →
      Prop)
variable (May : State → Request → Prop)

/-
  From states of one kind it makes only calls that may be
  made where they are made. If it has a value then what is
  said of the value holds after it, and if it is stopped then
  what is said of that.
-/
def Spec
    (Pre : State → Prop) (proc : Proc Request Answer ε α)
    (Stopped : ε → State → Prop) (Post : α → State → Prop) :
    Prop :=
  ∀ past s, Pre s →
    Guarded Possible (fun _ s request => May s request)
      (fun result _ t =>
        (∀ value, result = .ok value → Post value t) ∧
          ∀ error, result = .error error → Stopped error t)
      proc past s

variable {Possible May}
variable {Pre : State → Prop} {Post : α → State → Prop}
variable {Stopped : ε → State → Prop}

theorem spec_done
    {value : α} (hPost : ∀ s, Pre s → Post value s) :
    Spec Possible May Pre
      (.done value : Proc Request Answer ε α) Stopped Post := by
  intro past s hPre
  constructor
  · intro other hOther
    rw [← Except.ok.inj hOther]
    exact hPost s hPre
  · intro error hError
    cases hError

theorem spec_stop
    {error : ε} (hStopped : ∀ s, Pre s → Stopped error s) :
    Spec Possible May Pre
      (.stop error : Proc Request Answer ε α) Stopped Post := by
  intro past s hPre
  constructor
  · intro value hValue
    cases hValue
  · intro other hOther
    rw [← Except.error.inj hOther]
    exact hStopped s hPre

theorem spec_bind
    {Mid : α → State → Prop} {Post : β → State → Prop}
    {first : Proc Request Answer ε α}
    {next : α → Proc Request Answer ε β}
    (hFirst : Spec Possible May Pre first Stopped Mid)
    (hNext :
      ∀ value,
        Spec Possible May (Mid value) (next value) Stopped
          Post) :
    Spec Possible May Pre (first >>= next) Stopped Post := by
  intro past s hPre
  apply guarded_bind
  apply guarded_mono _ (hFirst past s hPre)
  intro result more t hResult
  cases result with
  | error error =>
      constructor
      · intro value hValue
        cases hValue
      · intro other hOther
        rw [← Except.error.inj hOther]
        exact hResult.2 error rfl
  | ok value => exact hNext value more t (hResult.1 value rfl)

theorem spec_perform
    {request : Request} {Post : Answer request → State → Prop}
    (hMay : ∀ s, Pre s → May s request)
    (hPost :
      ∀ s answer t, Pre s → Possible s request answer t →
        Post answer t) :
    Spec Possible May Pre
      (.perform request : Proc Request Answer ε _) Stopped
      Post := by
  intro past s hPre
  refine ⟨hMay s hPre, ?_⟩
  intro answer after hPossible
  constructor
  · intro value hValue
    rw [← Except.ok.inj hValue]
    exact hPost s answer after hPre hPossible
  · intro error hError
    cases hError

/- The handler starts from where the other was stopped. -/
theorem spec_recover
    {Failed : δ → State → Prop}
    {proc : Proc Request Answer δ α}
    {handler : δ → Proc Request Answer ε α}
    (hProc : Spec Possible May Pre proc Failed Post)
    (hHandler :
      ∀ error,
        Spec Possible May (Failed error) (handler error)
          Stopped Post) :
    Spec Possible May Pre (proc.recover handler) Stopped
      Post := by
  intro past s hPre
  apply guarded_bind
  apply guarded_mono _ (hProc past s hPre)
  intro result more t hResult
  cases result with
  | error error =>
      exact hHandler error more t (hResult.2 error rfl)
  | ok value =>
      constructor
      · intro other hOther
        rw [← Except.ok.inj hOther]
        exact hResult.1 value rfl
      · intro error hError
        cases hError

theorem spec_when
    {wanted : Bool} {proc : Proc Request Answer ε Unit}
    {Post : State → Prop}
    (hWanted :
      wanted = true →
        Spec Possible May Pre proc Stopped fun _ => Post)
    (hSkipped : ∀ s, wanted = false → Pre s → Post s) :
    Spec Possible May Pre (.when wanted proc) Stopped
      fun _ => Post := by
  unfold Proc.when
  by_cases hCase : wanted = true
  · rw [if_pos hCase]
    exact hWanted hCase
  · rw [if_neg hCase]
    apply spec_done
    intro s
    exact hSkipped s (Bool.eq_false_iff.2 hCase)

/- Only a value goes on. -/
theorem spec_expect
    {convert : δ → ε} {result : Except δ α}
    (hPost :
      ∀ value s, result = .ok value → Pre s →
        Post value s)
    (hStopped :
      ∀ error s, result = .error error → Pre s →
        Stopped (convert error) s) :
    Spec Possible May Pre
      (.expect convert result : Proc Request Answer ε α)
      Stopped Post := by
  cases result with
  | error error =>
      exact spec_stop fun s => hStopped error s rfl
  | ok value => exact spec_done fun s => hPost value s rfl

theorem spec_consequence
    {More : State → Prop} {Less : α → State → Prop}
    {proc : Proc Request Answer ε α}
    (hPre : ∀ s, More s → Pre s)
    (hSpec : Spec Possible May Pre proc Stopped Post)
    (hPost : ∀ value s, Post value s → Less value s) :
    Spec Possible May More proc Stopped Less := by
  intro past s hMore
  apply guarded_mono _ (hSpec past s (hPre s hMore))
  intro result more t hResult
  refine ⟨?_, hResult.2⟩
  intro value hValue
  exact hPost value t (hResult.1 value hValue)

/- From a weaker condition than there is. -/
theorem spec_strengthen
    {More : State → Prop} {proc : Proc Request Answer ε α}
    (hPre : ∀ s, More s → Pre s)
    (hSpec : Spec Possible May Pre proc Stopped Post) :
    Spec Possible May More proc Stopped Post :=
  spec_consequence hPre hSpec fun _ _ hPost => hPost

/- What is known of more than the state. -/
theorem spec_given
    {Known : Prop} {proc : Proc Request Answer ε α}
    (hSpec :
      Known → Spec Possible May Pre proc Stopped Post) :
    Spec Possible May (fun s => Known ∧ Pre s) proc Stopped
      Post := by
  rintro past s ⟨hKnown, hPre⟩
  exact hSpec hKnown past s hPre

/- A call that may be made may be made by laxer rules. -/
theorem spec_laxer
    {Laxer : State → Request → Prop}
    {proc : Proc Request Answer ε α}
    (hMay : ∀ s request, May s request → Laxer s request)
    (hSpec : Spec Possible May Pre proc Stopped Post) :
    Spec Possible Laxer Pre proc Stopped Post := by
  intro past s hPre
  have hGuarded := hSpec past s hPre
  clear hSpec hPre
  induction proc generalizing past s with
  | done result => exact hGuarded
  | call request next ih =>
      refine ⟨hMay s request hGuarded.1, ?_⟩
      intro answer after hPossible
      apply ih
      exact hGuarded.2 answer after hPossible

/-
  It is done, or its time was over before one of its calls.
  To ask for that changes nothing unless it is the case.
-/
theorem spec_unlessDue
    {Kept Due : State → Prop} {cut : α}
    {due : Proc Request Answer ε Bool}
    {proc : Proc Request Answer ε α}
    (hDue :
      ∀ s, Kept s →
        Spec Possible May (fun now => now = s) due Stopped
          fun isDue now =>
            (isDue = true → Due now) ∧
              (isDue = false → now = s))
    (hSpec :
      Spec Possible
        (fun s request => May s request ∧ Kept s) Pre proc
        Stopped Post) :
    Spec Possible May Pre (.unlessDue due cut proc) Stopped
      fun value s => Post value s ∨ value = cut ∧ Due s := by
  intro past s hPre
  have hGuarded := hSpec past s hPre
  clear hSpec hPre
  induction proc generalizing past s with
  | done result =>
      constructor
      · intro value hValue
        exact .inl (hGuarded.1 value hValue)
      · exact hGuarded.2
  | call request next ih =>
      rcases hGuarded with ⟨⟨hMay, hKept⟩, hNext⟩
      apply guarded_bind
      apply guarded_mono _ (hDue s hKept past s rfl)
      intro result more t hResult
      cases result with
      | error error =>
          constructor
          · intro value hValue
            cases hValue
          · intro other hOther
            rw [← Except.error.inj hOther]
            exact hResult.2 error rfl
      | ok isDue =>
          have hAsked := hResult.1 isDue rfl
          cases isDue with
          | true =>
              constructor
              · intro value hValue
                exact
                  .inr ⟨(Except.ok.inj hValue).symm,
                    hAsked.1 rfl⟩
              · intro error hError
                cases hError
          | false =>
              rw [hAsked.2 rfl]
              refine ⟨hMay, ?_⟩
              intro answer after hPossible
              apply ih
              exact
                guarded_of_past (hNext answer after hPossible)

/- From every one of some states. -/
theorem spec_exists
    {Index : Type} {Among : Index → State → Prop}
    {proc : Proc Request Answer ε α}
    (hSpec :
      ∀ index,
        Spec Possible May (Among index) proc Stopped Post) :
    Spec Possible May (fun s => ∃ index, Among index s) proc
      Stopped Post := by
  intro past s hAmong
  rcases hAmong with ⟨index, hAmong⟩
  exact hSpec index past s hAmong

/- What no call that may be made takes away. -/
theorem spec_invariant
    {Kept : State → Prop} {proc : Proc Request Answer ε α}
    (hKept :
      ∀ s request answer t, Kept s → May s request →
        Possible s request answer t → Kept t)
    (hSpec : Spec Possible May Pre proc Stopped Post) :
    Spec Possible (fun s request => May s request ∧ Kept s)
      (fun s => Pre s ∧ Kept s) proc
      (fun error s => Stopped error s ∧ Kept s)
      fun value s => Post value s ∧ Kept s := by
  rintro past s ⟨hPre, hStart⟩
  refine guarded_mono ?_
    (guarded_invariant ?_ ?_ (hSpec past s hPre) hStart)
  · rintro result more t ⟨⟨hValue, hError⟩, hEnd⟩
    constructor
    · intro value hResult
      exact ⟨hValue value hResult, hEnd⟩
    · intro error hResult
      exact ⟨hError error hResult, hEnd⟩
  · intro _ now request hNow hMay
    exact ⟨hMay, hNow⟩
  · intro _ now request answer after
    exact hKept now request answer after

/- A loop, by what each of its turns keeps. -/
theorem spec_forM
    {body : β → Proc Request Answer ε Unit} {items : List β}
    {Kept : State → Prop}
    (hBody :
      ∀ item ∈ items,
        Spec Possible May Kept (body item) Stopped fun _ =>
          Kept) :
    Spec Possible May Kept (forM items body) Stopped
      fun _ => Kept := by
  induction items with
  | nil => exact spec_done fun _ hKept => hKept
  | cons item items ih =>
      rw [List.forM_cons]
      refine spec_bind (hBody item List.mem_cons_self) ?_
      intro _
      apply ih
      intro other hMem
      exact hBody other (List.mem_cons_of_mem item hMem)

/-
  In a run, every call was one that might be made there, and
  what comes at the end is as it is said.
-/
theorem spec_of_runs
    {proc : Proc Request Answer ε α}
    {rest : Script Request Answer (Except ε α)} {s t : State}
    {trace : List (Event State Request Answer)}
    (hSpec : Spec Possible May Pre proc Stopped Post)
    (hPre : Pre s)
    (hRuns : Runs Possible Eq proc s trace rest t) :
    (∀ event ∈ trace, May event.before event.request) ∧
      (∀ value, rest = .done (.ok value) → Post value t) ∧
      ∀ error, rest = .done (.error error) →
        Stopped error t := by
  have hBoth := guarded_of_runs (hSpec [] s hPre) hRuns
  refine ⟨?_, ?_, ?_⟩
  · intro event hMem
    rcases List.append_of_mem hMem with
      ⟨earlier, later, hTrace⟩
    exact hBoth.1 earlier event later hTrace
  · intro value hRest
    have hEnd := hBoth.2
    rw [hRest] at hEnd
    exact hEnd.1 value rfl
  · intro error hRest
    have hEnd := hBoth.2
    rw [hRest] at hEnd
    exact hEnd.2 error rfl

end

------------------------------------------------------------
-- Histories
------------------------------------------------------------

section

variable {State Request : Type} {Answer : Request → Type}
variable {ε δ α β : Type}
variable
  (Possible :
    State → (request : Request) → Answer request → State →
      Prop)
variable
  (May :
    List (Event State Request Answer) → Request → Prop)

/-
  After histories of one kind it makes only calls that may be
  made after what has happened. If it has a value then what
  is said of the value holds of all that has happened.
-/
def Logged
    (Pre : List (Event State Request Answer) → Prop)
    (proc : Proc Request Answer ε α)
    (Post :
      α → List (Event State Request Answer) → Prop) :
    Prop :=
  ∀ past, Pre past →
    Licensed Possible May
      (fun result past =>
        ∀ value, result = .ok value → Post value past)
      proc past

variable {Possible May}
variable {Pre : List (Event State Request Answer) → Prop}
variable
  {Post : α → List (Event State Request Answer) → Prop}

theorem logged_done
    {value : α} (hPost : ∀ past, Pre past → Post value past) :
    Logged Possible May Pre
      (.done value : Proc Request Answer ε α) Post := by
  intro past hPre other hOther
  rw [← Except.ok.inj hOther]
  exact hPost past hPre

theorem logged_bind
    {Mid : α → List (Event State Request Answer) → Prop}
    {Post : β → List (Event State Request Answer) → Prop}
    {first : Proc Request Answer ε α}
    {next : α → Proc Request Answer ε β}
    (hFirst : Logged Possible May Pre first Mid)
    (hNext :
      ∀ value, Logged Possible May (Mid value) (next value)
        Post) :
    Logged Possible May Pre (first >>= next) Post := by
  intro past hPre
  apply licensed_bind
  apply licensed_mono _ (hFirst past hPre)
  intro result more hResult
  cases result with
  | error error =>
      intro value hValue
      cases hValue
  | ok value => exact hNext value more (hResult value rfl)

theorem logged_perform
    {request : Request}
    {Post :
      Answer request →
        List (Event State Request Answer) → Prop}
    (hMay : ∀ past, Pre past → May past request)
    (hPost :
      ∀ past before answer after, Pre past →
        Possible before request answer after →
          Post answer
            (past ++ [⟨before, request, answer⟩])) :
    Logged Possible May Pre
      (.perform request : Proc Request Answer ε _) Post := by
  intro past hPre
  refine ⟨hMay past hPre, ?_⟩
  intro before answer after hPossible value hValue
  rw [← Except.ok.inj hValue]
  exact hPost past before answer after hPre hPossible

theorem logged_when
    {wanted : Bool} {proc : Proc Request Answer ε Unit}
    {Post : List (Event State Request Answer) → Prop}
    (hWanted :
      wanted = true →
        Logged Possible May Pre proc fun _ => Post)
    (hSkipped :
      ∀ past, wanted = false → Pre past → Post past) :
    Logged Possible May Pre (.when wanted proc)
      fun _ => Post := by
  unfold Proc.when
  by_cases hCase : wanted = true
  · rw [if_pos hCase]
    exact hWanted hCase
  · rw [if_neg hCase]
    apply logged_done
    intro past
    exact hSkipped past (Bool.eq_false_iff.2 hCase)

theorem logged_consequence
    {More : List (Event State Request Answer) → Prop}
    {Less :
      α → List (Event State Request Answer) → Prop}
    {proc : Proc Request Answer ε α}
    (hPre : ∀ past, More past → Pre past)
    (hLogged : Logged Possible May Pre proc Post)
    (hPost :
      ∀ value past, Post value past → Less value past) :
    Logged Possible May More proc Less := by
  intro past hMore
  apply licensed_mono _ (hLogged past (hPre past hMore))
  intro result more hResult value hValue
  exact hPost value more (hResult value hValue)

/- What is known of more than what has happened. -/
theorem logged_given
    {Known : Prop} {proc : Proc Request Answer ε α}
    (hLogged :
      Known → Logged Possible May Pre proc Post) :
    Logged Possible May (fun past => Known ∧ Pre past) proc
      Post := by
  rintro past ⟨hKnown, hPre⟩
  exact hLogged hKnown past hPre

/- From every one of some kinds of histories. -/
theorem logged_exists
    {Index : Type}
    {Among :
      Index → List (Event State Request Answer) → Prop}
    {proc : Proc Request Answer ε α}
    (hLogged :
      ∀ index,
        Logged Possible May (Among index) proc Post) :
    Logged Possible May (fun past => ∃ index, Among index past)
      proc Post := by
  rintro past ⟨index, hAmong⟩
  exact hLogged index past hAmong

/- What has once happened has happened at the end. -/
theorem logged_frame
    {Kept : List (Event State Request Answer) → Prop}
    {proc : Proc Request Answer ε α}
    (hKept :
      ∀ past more, past <+: more → Kept past → Kept more)
    (hLogged : Logged Possible May Pre proc Post) :
    Logged Possible May (fun past => Pre past ∧ Kept past)
      proc fun value past => Post value past ∧ Kept past := by
  rintro past ⟨hPre, hStart⟩
  apply licensed_mono _ (licensed_extends (hLogged past hPre))
  rintro result more ⟨hExtends, hResult⟩ value hValue
  exact
    ⟨hResult value hValue, hKept past more hExtends hStart⟩

/- A loop, by what each of its turns keeps and adds. -/
theorem logged_forM
    {body : β → Proc Request Answer ε Unit} {items : List β}
    {Kept : List (Event State Request Answer) → Prop}
    {Added :
      β → List (Event State Request Answer) → Prop}
    (hBody :
      ∀ item ∈ items,
        Logged Possible May Kept (body item)
          fun _ past => Kept past ∧ Added item past)
    (hAdded :
      ∀ item past more, past <+: more →
        Added item past → Added item more) :
    Logged Possible May Kept (forM items body)
      fun _ past =>
        Kept past ∧ ∀ item ∈ items, Added item past := by
  induction items with
  | nil =>
      apply logged_done
      intro past hKept
      exact ⟨hKept, nofun⟩
  | cons item items ih =>
      rw [List.forM_cons]
      refine logged_bind (hBody item List.mem_cons_self) ?_
      intro _
      have hItems :
          ∀ other ∈ items,
            Logged Possible May Kept (body other)
              fun _ past => Kept past ∧ Added other past := by
        intro other hMem
        exact hBody other (List.mem_cons_of_mem item hMem)
      refine logged_consequence (fun _ hBoth => hBoth)
        (logged_frame (hAdded item) (ih hItems)) ?_
      rintro _ past ⟨⟨hKept, hAll⟩, hFirst⟩
      exact ⟨hKept, List.forall_mem_cons.2 ⟨hFirst, hAll⟩⟩

/- A loop, by what each of its turns adds to a value. -/
theorem logged_forM_foldl
    {body : β → Proc Request Answer ε Unit} {items : List β}
    {Total : Type} {add : Total → β → Total}
    {Sum : Total → List (Event State Request Answer) → Prop}
    (hBody :
      ∀ total, ∀ item ∈ items,
        Logged Possible May (Sum total) (body item)
          fun _ => Sum (add total item))
    (total : Total) :
    Logged Possible May (Sum total) (forM items body)
      fun _ => Sum (items.foldl add total) := by
  induction items generalizing total with
  | nil => exact logged_done fun _ hSum => hSum
  | cons item items ih =>
      rw [List.forM_cons, List.foldl_cons]
      refine logged_bind
        (hBody total item List.mem_cons_self) fun _ => ?_
      apply ih
      intro total other hMem
      exact hBody total other (List.mem_cons_of_mem item hMem)

/- In a run, from the first call on. -/
theorem logged_of_runs
    {Between : State → State → Prop}
    {proc : Proc Request Answer ε α}
    {rest : Script Request Answer (Except ε α)} {s t : State}
    {trace : List (Event State Request Answer)}
    (hLogged : Logged Possible May Pre proc Post)
    (hPre : Pre [])
    (hRuns : Runs Possible Between proc s trace rest t) :
    (∀ earlier event later,
        trace = earlier ++ event :: later →
          May earlier event.request) ∧
      ∀ value, rest = .done (.ok value) →
        Post value trace := by
  have hLicensed := hLogged [] hPre
  constructor
  · intro earlier event later hTrace
    exact licensed_of_runs hLicensed hRuns hTrace
  · intro value hRest
    have hEnd := licensed_rest_of_runs hLicensed hRuns
    rw [hRest] at hEnd
    exact hEnd value rfl

end

end Procedures
