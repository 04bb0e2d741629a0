import CargoUnikernel.Library.Transition
import Mathlib.Data.Set.Basic
import Mathlib.Logic.Function.Basic

/-
  Processes that share a store.

  A process takes steps on a local state. Each step reads some
  locations of the store and writes some. A location is live
  for a process when the process, going on alone, reads it
  before it writes it. Runs of several processes that leave
  one another's live locations alone end for each process as
  if it had run alone.

  Main declarations:
    * `Store`, `AgreeOn`, `apply`
    * `Process`, `Process.Live`, `Process.alone`
    * `Process.live_subset`
    * `interleaved`, `Undisturbing`
    * `alone_of_undisturbed`, `outputs_of_undisturbed`
-/

------------------------------------------------------------
-- Stores
------------------------------------------------------------

namespace Interference

/- What each location holds, if anything. -/
abbrev Store (L V : Type) := L → Option V

/- New contents by location, `none` to remove what is there. -/
abbrev Writes (L V : Type) := List (L × Option V)

variable {L V : Type}

/- Agreement on a set of locations. -/
def AgreeOn (S : Set L) (s t : Store L V) : Prop :=
  ∀ loc ∈ S, s loc = t loc

theorem AgreeOn.symm
    {S : Set L} {s t : Store L V}
    (hAgree : AgreeOn S s t) :
    AgreeOn S t s :=
  fun loc hMem => (hAgree loc hMem).symm

theorem AgreeOn.trans
    {S : Set L} {s t u : Store L V}
    (hFirst : AgreeOn S s t)
    (hSecond : AgreeOn S t u) :
    AgreeOn S s u :=
  fun loc hMem => (hFirst loc hMem).trans (hSecond loc hMem)

theorem AgreeOn.mono
    {S T : Set L} {s t : Store L V}
    (hAgree : AgreeOn T s t)
    (hSub : S ⊆ T) :
    AgreeOn S s t :=
  fun loc hMem => hAgree loc (hSub hMem)

variable [DecidableEq L]

/- The store after the writes, the first to a location. -/
def apply (ws : Writes L V) (s : Store L V) : Store L V :=
  fun loc => (ws.lookup loc).getD (s loc)

/- The locations that are written. -/
def written (ws : Writes L V) : List L :=
  ws.map Prod.fst

@[simp] theorem apply_nil (s : Store L V) :
    apply [] s = s := rfl

theorem apply_cons_self
    (loc : L) (content : Option V)
    (ws : Writes L V) (s : Store L V) :
    apply ((loc, content) :: ws) s loc = content := by
  unfold apply
  rw [List.lookup_cons_self]
  rfl

theorem apply_cons_of_ne
    {loc other : L} (hNe : loc ≠ other)
    (content : Option V)
    (ws : Writes L V) (s : Store L V) :
    apply ((other, content) :: ws) s loc = apply ws s loc := by
  unfold apply
  rw [List.lookup_cons, beq_false_of_ne hNe]

/- What is not written stays. -/
theorem apply_of_not_mem
    {ws : Writes L V} {loc : L}
    (hMem : loc ∉ written ws) (s : Store L V) :
    apply ws s loc = s loc := by
  induction ws with
  | nil => rfl
  | cons entry ws ih =>
      rcases entry with ⟨other, content⟩
      unfold written at hMem ih
      rw [List.map_cons, List.mem_cons, not_or] at hMem
      rw [apply_cons_of_ne hMem.1, ih hMem.2]

/- What is written does not depend on the store. -/
theorem apply_of_mem
    {ws : Writes L V} {loc : L}
    (hMem : loc ∈ written ws) (s t : Store L V) :
    apply ws s loc = apply ws t loc := by
  induction ws with
  | nil => exact absurd hMem List.not_mem_nil
  | cons entry ws ih =>
      rcases entry with ⟨other, content⟩
      by_cases hSame : loc = other
      · rw [hSame, apply_cons_self, apply_cons_self]
      · unfold written at hMem
        rw [List.map_cons, List.mem_cons] at hMem
        rw [apply_cons_of_ne hSame, apply_cons_of_ne hSame]
        exact ih (hMem.resolve_left hSame)

------------------------------------------------------------
-- Processes
------------------------------------------------------------

/-
  A step, what it reads, and what the process is run for. A
  step is the same in stores that agree on what it reads.
-/
structure Process (σ L V : Type) where
  step : σ → Store L V → Option (σ × Writes L V)
  reads : σ → Store L V → Set L
  outputs : σ → Set L
  step_congr :
    ∀ p s t, AgreeOn (reads p s) s t → step p t = step p s
  reads_congr :
    ∀ p s t, AgreeOn (reads p s) s t → reads p t = reads p s

namespace Process

variable {σ : Type} (proc : Process σ L V)

/-
  The process, going on alone, reads the location before it
  writes it, or ends with it among its outputs.
-/
inductive Live : σ → Store L V → L → Prop
| reads {p : σ} {s : Store L V} {loc : L} :
    loc ∈ proc.reads p s → Live p s loc
| later {p q : σ} {s : Store L V} {ws : Writes L V} {loc : L} :
    proc.step p s = some (q, ws) →
      loc ∉ written ws →
      Live q (apply ws s) loc →
      Live p s loc
| output {p : σ} {s : Store L V} {loc : L} :
    proc.step p s = none →
      loc ∈ proc.outputs p →
      Live p s loc

/- The live locations. -/
def live (p : σ) (s : Store L V) : Set L :=
  { loc | proc.Live p s loc }

variable {proc}

theorem reads_subset_live (p : σ) (s : Store L V) :
    proc.reads p s ⊆ proc.live p s :=
  fun _ hMem => .reads hMem

/-
  Sets that hold what a step reads, what was needed after it
  and it has not written, and the outputs at the end, hold
  everything that is live.
-/
theorem live_subset
    {needed : σ → Store L V → Set L}
    (hReads : ∀ p s, proc.reads p s ⊆ needed p s)
    (hStep :
      ∀ p s q ws, proc.step p s = some (q, ws) →
        ∀ loc, loc ∉ written ws →
          loc ∈ needed q (apply ws s) → loc ∈ needed p s)
    (hEnd :
      ∀ p s, proc.step p s = none →
        proc.outputs p ⊆ needed p s)
    (p : σ) (s : Store L V) :
    proc.live p s ⊆ needed p s := by
  intro loc hLive
  change proc.Live p s loc at hLive
  induction hLive with
  | reads hMem => exact hReads _ _ hMem
  | later hNext hNot _ ih => exact hStep _ _ _ _ hNext _ hNot ih
  | output hNone hMem => exact hEnd _ _ hNone hMem

/- Agreement where it counts is kept by a step. -/
theorem agreeOn_live_step
    {p q : σ} {s t : Store L V} {ws : Writes L V}
    (hAgree : AgreeOn (proc.live p s) s t)
    (hStep : proc.step p s = some (q, ws)) :
    AgreeOn (proc.live q (apply ws s))
      (apply ws s) (apply ws t) := by
  intro loc hLive
  by_cases hMem : loc ∈ written ws
  · exact apply_of_mem hMem s t
  · rw [apply_of_not_mem hMem, apply_of_not_mem hMem]
    exact hAgree loc (.later hStep hMem hLive)

/- What is live depends on what is live only. -/
theorem live_subset_of_agreeOn
    {p : σ} {s t : Store L V}
    (hAgree : AgreeOn (proc.live p s) s t) :
    proc.live p t ⊆ proc.live p s := by
  intro loc hLive
  have hLocal : ∀ {p : σ} {s t : Store L V},
      AgreeOn (proc.live p s) s t →
        AgreeOn (proc.reads p s) s t :=
    fun hAgree => hAgree.mono (reads_subset_live _ _)
  change proc.Live p t loc at hLive
  change proc.Live p s loc
  induction hLive generalizing s with
  | reads hMem =>
      rw [proc.reads_congr _ _ _ (hLocal hAgree)] at hMem
      exact .reads hMem
  | later hStep hMem _ ih =>
      rw [proc.step_congr _ _ _ (hLocal hAgree)] at hStep
      exact .later hStep hMem
        (ih (agreeOn_live_step hAgree hStep))
  | output hStep hMem =>
      rw [proc.step_congr _ _ _ (hLocal hAgree)] at hStep
      exact .output hStep hMem

theorem live_eq_of_agreeOn
    {p : σ} {s t : Store L V}
    (hAgree : AgreeOn (proc.live p s) s t) :
    proc.live p t = proc.live p s := by
  apply Set.Subset.antisymm
  · exact live_subset_of_agreeOn hAgree
  · apply live_subset_of_agreeOn
    exact (hAgree.mono
      (live_subset_of_agreeOn hAgree)).symm

variable (proc)

/- The process on a store of its own. -/
def alone (start : σ) (s : Store L V) :
    Transition.System (σ × Store L V) Unit where
  init state := state = (start, s)
  step state _ :=
    (proc.step state.1 state.2).map fun next =>
      (next.1, apply next.2 state.2)

variable {proc}

theorem alone_step
    {start : σ} {s₀ : Store L V} {p q : σ}
    {s : Store L V} {ws : Writes L V}
    (hReach : (proc.alone start s₀).Reachable (p, s))
    (hStep : proc.step p s = some (q, ws)) :
    (proc.alone start s₀).Reachable (q, apply ws s) := by
  refine .next (e := ()) hReach trivial ?_
  change (proc.step p s).map _ = _
  rw [hStep]
  rfl

end Process

------------------------------------------------------------
-- Interleavings
------------------------------------------------------------

/- The shared store and the local state of each process. -/
structure World (ι σ L V : Type) where
  store : Store L V
  locals : ι → σ

section Interleaved

variable {ι σ : Type} [DecidableEq ι]
variable (procs : ι → Process σ L V)
variable (start : ι → σ) (s₀ : Store L V)

/- One step of one of the processes. -/
def stepOf
    (w : World ι σ L V) (i : ι) : Option (World ι σ L V) :=
  ((procs i).step (w.locals i) w.store).map fun next =>
    { store := apply next.2 w.store
      locals := Function.update w.locals i next.1 }

/- All processes on one store, in any order of steps. -/
def interleaved : Transition.System (World ι σ L V) ι where
  init w := w = { store := s₀, locals := start }
  step := stepOf procs

/- The step leaves alone what is live for the others. -/
def Undisturbing (w : World ι σ L V) (i : ι) : Prop :=
  ∀ w', stepOf procs w i = some w' →
    ∀ j, j ≠ i →
      AgreeOn ((procs j).live (w.locals j) w.store)
        w.store w'.store

/-
  The process is where it gets to alone, and the shared
  store is as it left it where that still counts.
-/
def AsAlone (w : World ι σ L V) (i : ι) : Prop :=
  ∃ s, ((procs i).alone (start i) s₀).Reachable
      (w.locals i, s) ∧
    AgreeOn ((procs i).live (w.locals i) s) s w.store

variable {procs start s₀}

theorem stepOf_eq_some
    {w w' : World ι σ L V} {i : ι}
    (hStep : stepOf procs w i = some w') :
    ∃ q ws,
      (procs i).step (w.locals i) w.store = some (q, ws) ∧
        w'.store = apply ws w.store ∧
        w'.locals = Function.update w.locals i q := by
  unfold stepOf at hStep
  rw [Option.map_eq_some_iff] at hStep
  rcases hStep with ⟨⟨q, ws⟩, hStep, rfl⟩
  exact ⟨q, ws, hStep, rfl, rfl⟩

/- The process that takes the step goes on as alone. -/
theorem asAlone_step_self
    {w w' : World ι σ L V} {i : ι}
    (hAlone : AsAlone procs start s₀ w i)
    (hStep : stepOf procs w i = some w') :
    AsAlone procs start s₀ w' i := by
  rcases hAlone with ⟨s, hReach, hAgree⟩
  rcases stepOf_eq_some hStep with
    ⟨q, ws, hStep, hStore, hLocals⟩
  rw [(procs i).step_congr _ _ _
    (hAgree.mono (Process.reads_subset_live _ _))] at hStep
  unfold AsAlone
  rw [hStore, hLocals, Function.update_self]
  exact ⟨apply ws s, Process.alone_step hReach hStep,
    Process.agreeOn_live_step hAgree hStep⟩

/- The others do not notice an undisturbing step. -/
theorem asAlone_step_other
    {w w' : World ι σ L V} {i j : ι}
    (hAlone : AsAlone procs start s₀ w j)
    (hOk : Undisturbing procs w i)
    (hStep : stepOf procs w i = some w')
    (hOther : j ≠ i) :
    AsAlone procs start s₀ w' j := by
  rcases hAlone with ⟨s, hReach, hAgree⟩
  have hStore := hOk w' hStep j hOther
  have hLocal : w'.locals j = w.locals j := by
    rcases stepOf_eq_some hStep with ⟨q, _, _, _, hLocals⟩
    rw [hLocals]
    exact Function.update_of_ne hOther q w.locals
  rw [Process.live_eq_of_agreeOn hAgree] at hStore
  unfold AsAlone
  rw [hLocal]
  exact ⟨s, hReach, hAgree.trans hStore⟩

/- Undisturbed processes all go as if each ran alone. -/
theorem alone_of_undisturbed
    {w : World ι σ L V}
    (hReach :
      (interleaved procs start s₀).ReachableUnder
        (Undisturbing procs) w)
    (i : ι) :
    AsAlone procs start s₀ w i := by
  refine hReach.invariant
    (P := fun w => AsAlone procs start s₀ w i) ?_ ?_
  · rintro w rfl
    exact ⟨s₀, .start rfl, fun _ _ => rfl⟩
  · intro w j w' hAlone hOk hStep
    by_cases hSame : i = j
    · subst hSame
      exact asAlone_step_self hAlone hStep
    · exact asAlone_step_other hAlone hOk hStep hSame

/- A process that has ended has the outputs it has alone. -/
theorem outputs_of_undisturbed
    {w : World ι σ L V}
    (hReach :
      (interleaved procs start s₀).ReachableUnder
        (Undisturbing procs) w)
    {i : ι}
    (hEnd : ∀ s, (procs i).step (w.locals i) s = none) :
    ∃ s, ((procs i).alone (start i) s₀).Reachable
        (w.locals i, s) ∧
      AgreeOn ((procs i).outputs (w.locals i)) s w.store := by
  rcases alone_of_undisturbed hReach i with
    ⟨s, hAlone, hAgree⟩
  refine ⟨s, hAlone, hAgree.mono ?_⟩
  intro loc hMem
  exact .output (hEnd s) hMem

end Interleaved

end Interference
