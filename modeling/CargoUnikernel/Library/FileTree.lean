import Mathlib.Data.List.Induction
import Mathlib.Tactic.Common

/-
  Directories, files and symbolic links, and the calls that
  make them.

  A place is a list of names from the root, without links on
  the way. A path is a list of steps, which may lead through
  links. What a call creates or opens for writing is kept as
  a list of places, whether the call succeeds or not.

  Main declarations:
    * `Disk`, `walk`, `walk_append`
    * `Extends`, `walk_found_of_extends`
    * `Leads`, `Leads.append`, `Leads.unique`
    * `Host`, `createDir`, `createDirAll`, `openCreate`
    * `descend`, `createDirAll_spec`
-/

------------------------------------------------------------
-- Trees
------------------------------------------------------------

namespace FileTree

/- The names from the root. -/
abbrev Place (N : Type) := List N

/- What a path asks for, between two slashes. -/
inductive Step (N : Type)
| root
| here
| up
| down (name : N)

/-
  What is at a place; a link is not followed in the tree.
-/
inductive Node (N : Type)
| directory
| file
| link (target : List (Step N))

/- Whatever there is, is in a directory. -/
structure Disk (N : Type) where
  node : Place N → Option (Node N)
  root_eq : node [] = some .directory
  parent_eq :
    ∀ place name,
      (node (place ++ [name])).isSome →
        node place = some .directory

namespace Disk

variable {N : Type} (tree : Disk N)

/- There is a directory, and no link to one. -/
def isDirectory (place : Place N) : Bool :=
  match tree.node place with
  | some .directory => true
  | _ => false

theorem isDirectory_iff {place : Place N} :
    tree.isDirectory place = true ↔
      tree.node place = some .directory := by
  unfold isDirectory
  split
  · simp_all
  · simp_all

/- All places on the way to something are directories. -/
theorem isDirectory_of_isSome
    {place : Place N} {name : N} {rest : List N}
    (hSome : (tree.node (place ++ name :: rest)).isSome) :
    tree.node place = some .directory := by
  induction rest using List.reverseRecOn with
  | nil => exact tree.parent_eq place name hSome
  | append_singleton rest last ih =>
      apply ih
      have hParent : (tree.node
          ((place ++ name :: rest) ++ [last])).isSome := by
        simpa using hSome
      rw [tree.parent_eq _ _ hParent]
      rfl

/- A directory or a file, and not a link. -/
def IsReal (place : Place N) : Prop :=
  tree.node place = some .directory ∨
    tree.node place = some .file

/- A place that is real has a node. -/
theorem isSome_of_isReal
    {place : Place N} (hReal : tree.IsReal place) :
    (tree.node place).isSome := by
  rcases hReal with hNode | hNode
  · rw [hNode]
    rfl
  · rw [hNode]
    rfl

/- What lies above a real place is real. -/
theorem isReal_of_append
    {place rest : Place N}
    (hReal : tree.IsReal (place ++ rest)) :
    tree.IsReal place := by
  cases rest with
  | nil => simpa using hReal
  | cons name rest =>
      exact
        Or.inl
          (tree.isDirectory_of_isSome
            (tree.isSome_of_isReal hReal))

/- Nothing but the root. -/
def bare : Disk N where
  node place := if place.isEmpty then some .directory else none
  root_eq := rfl
  parent_eq place name hSome := by
    have hNone : (place ++ [name]).isEmpty = false := by simp
    rw [hNone] at hSome
    cases hSome

/- One more entry of a directory that has none of the name. -/
def add [DecidableEq N]
    (dir : Place N) (name : N) (entry : Node N) :
    Disk N where
  node place :=
    if place = dir ++ [name] ∧ tree.isDirectory dir = true ∧
        (tree.node place).isNone then
      some entry
    else
      tree.node place
  root_eq := by
    rw [if_neg]
    · exact tree.root_eq
    · rintro ⟨hRoot, _⟩
      simp at hRoot
  parent_eq place child hSome := by
    have hOld :
        tree.node place = some .directory := by
      by_cases hNew :
          place ++ [child] = dir ++ [name] ∧
            tree.isDirectory dir = true ∧
            (tree.node (place ++ [child])).isNone
      · have hPlace := List.append_inj_left' hNew.1 rfl
        rw [hPlace]
        exact tree.isDirectory_iff.1 hNew.2.1
      · rw [if_neg hNew] at hSome
        exact tree.parent_eq place child hSome
    rw [if_neg]
    · exact hOld
    · rintro ⟨_, _, hNone⟩
      rw [hOld] at hNone
      cases hNone

variable [DecidableEq N] {tree}

/- An entry is found where it was added. -/
theorem add_node_self
    {dir : Place N} {name : N} {entry : Node N}
    (hDir : tree.isDirectory dir = true)
    (hNone : tree.node (dir ++ [name]) = none) :
    (tree.add dir name entry).node (dir ++ [name]) =
      some entry := by
  unfold add
  dsimp only
  rw [if_pos]
  rw [hNone]
  exact ⟨rfl, hDir, rfl⟩

/- And everything else is where it was. -/
theorem add_node_of_ne
    {dir place : Place N} {name : N} {entry : Node N}
    (hOther : place ≠ dir ++ [name]) :
    (tree.add dir name entry).node place =
      tree.node place := by
  unfold add
  dsimp only
  rw [if_neg]
  rintro ⟨hPlace, _⟩
  exact hOther hPlace

end Disk

/- What there is in one tree is in the other. -/
def Extends {N : Type} (tree later : Disk N) : Prop :=
  ∀ place entry,
    tree.node place = some entry →
      later.node place = some entry

namespace Extends

variable {N : Type} {tree later last : Disk N}

/- A tree extends itself. -/
theorem refl (tree : Disk N) : Extends tree tree :=
  fun _ _ hNode => hNode

/- Extensions compose. -/
theorem trans
    (hFirst : Extends tree later)
    (hSecond : Extends later last) :
    Extends tree last :=
  fun place entry hNode =>
    hSecond place entry (hFirst place entry hNode)

/- A directory stays one. -/
theorem isDirectory
    (hExtends : Extends tree later) {place : Place N}
    (hDir : tree.isDirectory place = true) :
    later.isDirectory place = true := by
  rw [Disk.isDirectory_iff] at hDir ⊢
  exact hExtends place _ hDir

theorem add [DecidableEq N]
    (tree : Disk N) (dir : Place N) (name : N)
    (entry : Node N) :
    Extends tree (tree.add dir name entry) := by
  intro place old hNode
  unfold Disk.add
  dsimp only
  rw [if_neg]
  · exact hNode
  · rintro ⟨_, _, hNone⟩
    rw [hNode] at hNone
    cases hNone

end Extends

------------------------------------------------------------
-- Paths
------------------------------------------------------------

/- Where a path leads, with the links that may still follow. -/
inductive Walk (N : Type)
| found (place : Place N) (links : Nat)
| missing
    (dir : Place N) (name : N) (rest : List (Step N))
| notDirectory
| tooManyLinks

section Paths

variable {N : Type} (tree : Disk N)

/- A path step by step, given how links are followed. -/
def walkWith
    (links : Nat) (follow : Place N → List (Step N) → Walk N) :
    Place N → List (Step N) → Walk N
| place, [] => .found place links
| place, step :: rest =>
    if tree.isDirectory place then
      match step with
      | .root => walkWith links follow [] rest
      | .here => walkWith links follow place rest
      | .up => walkWith links follow place.dropLast rest
      | .down name =>
          match tree.node (place ++ [name]) with
          | none => .missing place name rest
          | some (.link target) => follow place (target ++ rest)
          | some _ => walkWith links follow (place ++ [name]) rest
    else
      .notDirectory

/- Follow a path, through so many links at the most. -/
def walk : Nat → Place N → List (Step N) → Walk N
| 0 => walkWith tree 0 fun _ _ => .tooManyLinks
| links + 1 => walkWith tree (links + 1) (walk links)

/- Go on where a path leads. -/
def Walk.andThen (rest : List (Step N)) : Walk N → Walk N
| .found place links => walk tree links place rest
| .missing dir name more => .missing dir name (more ++ rest)
| .notDirectory => .notDirectory
| .tooManyLinks => .tooManyLinks

variable {tree}

@[simp] theorem walk_nil (links : Nat) (place : Place N) :
    walk tree links place [] = .found place links := by
  cases links with
  | zero => rfl
  | succ links => rfl

/- A walk along two stretches is two walks. -/
theorem walkWith_append
    {links : Nat} {follow : Place N → List (Step N) → Walk N}
    {rest : List (Step N)}
    (hWalk : walk tree links = walkWith tree links follow)
    (hFollow :
      ∀ place first,
        follow place (first ++ rest) =
          (follow place first).andThen tree rest)
    (place : Place N) (first : List (Step N)) :
    walkWith tree links follow place (first ++ rest) =
      (walkWith tree links follow place first).andThen tree
        rest := by
  induction first generalizing place with
  | nil =>
      rw [List.nil_append, ← hWalk, walk_nil]
      rfl
  | cons step first ih =>
      rw [List.cons_append]
      unfold walkWith
      by_cases hDir : tree.isDirectory place = true
      · rw [if_pos hDir, if_pos hDir]
        cases step with
        | root => exact ih []
        | here => exact ih place
        | up => exact ih place.dropLast
        | down name =>
            dsimp only
            cases tree.node (place ++ [name]) with
            | none => rfl
            | some entry =>
                cases entry with
                | directory => exact ih (place ++ [name])
                | file => exact ih (place ++ [name])
                | link target =>
                    dsimp only
                    rw [← List.append_assoc, hFollow]
      · rw [if_neg hDir, if_neg hDir]
        rfl

/- A path in two parts. -/
theorem walk_append
    (links : Nat) (place : Place N)
    (first rest : List (Step N)) :
    walk tree links place (first ++ rest) =
      (walk tree links place first).andThen tree rest := by
  induction links generalizing place first with
  | zero => exact walkWith_append rfl (fun _ _ => rfl) _ _
  | succ links ih => exact walkWith_append rfl ih _ _

/- What a walk finds, it still finds in a larger tree. -/
theorem walkWith_found_of_extends
    {later : Disk N} {links left : Nat}
    {follow other : Place N → List (Step N) → Walk N}
    (hExtends : Extends tree later)
    (hFollow :
      ∀ place steps there,
        follow place steps = .found there left →
          other place steps = .found there left)
    {place there : Place N} {steps : List (Step N)}
    (hFound :
      walkWith tree links follow place steps =
        .found there left) :
    walkWith later links other place steps =
      .found there left := by
  induction steps generalizing place with
  | nil => exact hFound
  | cons step steps ih =>
      unfold walkWith at hFound ⊢
      by_cases hDir : tree.isDirectory place = true
      · rw [if_pos hDir] at hFound
        rw [if_pos (hExtends.isDirectory hDir)]
        cases step with
        | root => exact ih hFound
        | here => exact ih hFound
        | up => exact ih hFound
        | down name =>
            dsimp only at hFound ⊢
            cases hNode : tree.node (place ++ [name]) with
            | none =>
                rw [hNode] at hFound
                cases hFound
            | some entry =>
                rw [hExtends _ _ hNode]
                rw [hNode] at hFound
                cases entry with
                | directory => exact ih hFound
                | file => exact ih hFound
                | link target =>
                    exact hFollow _ _ _ hFound
      · rw [if_neg hDir] at hFound
        cases hFound

/- What is found is found after more has been made. -/
theorem walk_found_of_extends
    {later : Disk N} (hExtends : Extends tree later)
    {links left : Nat} {place there : Place N}
    {steps : List (Step N)}
    (hFound :
      walk tree links place steps = .found there left) :
    walk later links place steps = .found there left := by
  induction links generalizing place there steps with
  | zero =>
      apply walkWith_found_of_extends hExtends _ hFound
      intro _ _ _ hNever
      cases hNever
  | succ links ih =>
      apply walkWith_found_of_extends hExtends _ hFound
      intro _ _ _ hFollow
      exact ih hFollow

/- A walk ends at a real place, through links or not. -/
theorem walkWith_found_isReal
    {links left : Nat}
    {follow : Place N → List (Step N) → Walk N}
    {there : Place N}
    (hFollow :
      ∀ place steps, tree.IsReal place →
        follow place steps = .found there left →
          tree.IsReal there)
    {place : Place N} {steps : List (Step N)}
    (hReal : tree.IsReal place)
    (hFound :
      walkWith tree links follow place steps =
        .found there left) :
    tree.IsReal there := by
  induction steps generalizing place with
  | nil =>
      cases hFound
      exact hReal
  | cons step steps ih =>
      unfold walkWith at hFound
      by_cases hDir : tree.isDirectory place = true
      · rw [if_pos hDir] at hFound
        cases step with
        | root => exact ih (Or.inl tree.root_eq) hFound
        | here => exact ih hReal hFound
        | up =>
            have hParent : tree.IsReal place.dropLast := by
              cases place using List.reverseRecOn with
              | nil => exact hReal
              | append_singleton place last =>
                  rw [List.dropLast_concat]
                  exact tree.isReal_of_append hReal
            exact ih hParent hFound
        | down name =>
            dsimp only at hFound
            cases hNode : tree.node (place ++ [name]) with
            | none =>
                rw [hNode] at hFound
                cases hFound
            | some entry =>
                rw [hNode] at hFound
                cases entry with
                | directory => exact ih (Or.inl hNode) hFound
                | file => exact ih (Or.inr hNode) hFound
                | link target => exact hFollow _ _ hReal hFound
      · rw [if_neg hDir] at hFound
        cases hFound

/- No path leads to a link itself. -/
theorem walk_found_isReal
    {links left : Nat} {place there : Place N}
    {steps : List (Step N)}
    (hReal : tree.IsReal place)
    (hFound :
      walk tree links place steps = .found there left) :
    tree.IsReal there := by
  induction links generalizing place steps with
  | zero =>
      refine walkWith_found_isReal ?_ hReal hFound
      intro _ _ _ hNever
      cases hNever
  | succ links ih =>
      refine walkWith_found_isReal ?_ hReal hFound
      intro _ _ hReal hFound
      exact ih hReal hFound

/- A place is found under its own names. -/
theorem walk_down
    {links : Nat} {dir : Place N} {names : List N}
    (hReal : tree.IsReal (dir ++ names)) :
    walk tree links dir (names.map .down) =
      .found (dir ++ names) links := by
  have hWith :
      ∀ follow,
        walkWith tree links follow dir (names.map .down) =
          .found (dir ++ names) links := by
    intro follow
    induction names generalizing dir with
    | nil =>
        rw [List.append_nil]
        rfl
    | cons name names ih =>
        have hHere : tree.isDirectory dir = true := by
          rw [Disk.isDirectory_iff]
          exact
            tree.isDirectory_of_isSome
              (tree.isSome_of_isReal hReal)
        have hAssoc :
            dir ++ name :: names = (dir ++ [name]) ++ names := by
          simp
        rw [hAssoc] at hReal ⊢
        rw [List.map_cons]
        unfold walkWith
        rw [if_pos hHere]
        dsimp only
        rcases tree.isReal_of_append hReal with hNode | hNode
        · rw [hNode]
          exact ih hReal
        · rw [hNode]
          exact ih hReal
  cases links with
  | zero => exact hWith _
  | succ links => exact hWith _

/- A path from the root by names leads to its place. -/
theorem walk_root_down
    {links : Nat} {place : Place N}
    (hReal : tree.IsReal place) (rest : List (Step N)) :
    walk tree links [] (.root :: place.map .down ++ rest) =
      walk tree links place rest := by
  have hRoot : tree.isDirectory [] = true := by
    rw [Disk.isDirectory_iff]
    exact tree.root_eq
  have hWith :
      ∀ follow steps,
        walkWith tree links follow [] (.root :: steps) =
          walkWith tree links follow [] steps := by
    intro follow steps
    conv_lhs => unfold walkWith
    rw [if_pos hRoot]
  have hStart :
      ∀ steps,
        walk tree links [] (.root :: steps) =
          walk tree links [] steps := by
    intro steps
    cases links with
    | zero => exact hWith _ steps
    | succ links => exact hWith _ steps
  have hDown :
      walk tree links [] (place.map .down) =
        .found place links := by
    have hAll : tree.IsReal ([] ++ place) := hReal
    exact walk_down hAll
  rw [List.cons_append, hStart, walk_append, hDown]
  rfl

/- A name that is not there. -/
theorem walk_down_none
    {links : Nat} {dir : Place N} {name : N}
    (hDir : tree.isDirectory dir = true)
    (hNone : tree.node (dir ++ [name]) = none)
    (rest : List (Step N)) :
    walk tree links dir (.down name :: rest) =
      .missing dir name rest := by
  have hWith :
      ∀ follow,
        walkWith tree links follow dir (.down name :: rest) =
          .missing dir name rest := by
    intro follow
    unfold walkWith
    rw [if_pos hDir]
    dsimp only
    rw [hNone]
  cases links with
  | zero => exact hWith _
  | succ links => exact hWith _

/- Nothing lies below what is no directory. -/
theorem walk_not_directory
    {links : Nat} {place : Place N}
    (hDir : ¬ tree.isDirectory place = true)
    (step : Step N) (rest : List (Step N)) :
    walk tree links place (step :: rest) = .notDirectory := by
  have hWith :
      ∀ follow,
        walkWith tree links follow place (step :: rest) =
          .notDirectory := by
    intro follow
    unfold walkWith
    rw [if_neg hDir]
  cases links with
  | zero => exact hWith _
  | succ links => exact hWith _

/- More links allowed, the same place found. -/
theorem walkWith_found_more
    {links left more : Nat} {there : Place N}
    {follow other : Place N → List (Step N) → Walk N}
    (hFollow :
      ∀ place steps,
        follow place steps = .found there left →
          other place steps = .found there (left + more))
    {place : Place N} {steps : List (Step N)}
    (hFound :
      walkWith tree links follow place steps =
        .found there left) :
    walkWith tree (links + more) other place steps =
      .found there (left + more) := by
  induction steps generalizing place with
  | nil =>
      cases hFound
      rfl
  | cons step steps ih =>
      unfold walkWith at hFound ⊢
      by_cases hDir : tree.isDirectory place = true
      · rw [if_pos hDir] at hFound ⊢
        cases step with
        | root => exact ih hFound
        | here => exact ih hFound
        | up => exact ih hFound
        | down name =>
            dsimp only at hFound ⊢
            cases hNode : tree.node (place ++ [name]) with
            | none =>
                rw [hNode] at hFound
                cases hFound
            | some entry =>
                rw [hNode] at hFound
                cases entry with
                | directory => exact ih hFound
                | file => exact ih hFound
                | link target => exact hFollow _ _ hFound
      · rw [if_neg hDir] at hFound
        cases hFound

/- What is found is found where more links may be followed. -/
theorem walk_found_more
    {links left : Nat} {place there : Place N}
    {steps : List (Step N)}
    (hFound :
      walk tree links place steps = .found there left)
    (more : Nat) :
    walk tree (links + more) place steps =
      .found there (left + more) := by
  induction links generalizing place steps with
  | zero =>
      have hNever :
          ∀ place steps,
            (fun _ _ => Walk.tooManyLinks) place steps =
                Walk.found there left →
              ∀ other : Place N → List (Step N) → Walk N,
                other place steps =
                  .found there (left + more) := by
        intro _ _ hNever
        cases hNever
      cases more with
      | zero => exact hFound
      | succ more =>
          have hMore :
              walk tree (0 + (more + 1)) place steps =
                walkWith tree (0 + (more + 1))
                  (walk tree more) place steps := by
            rw [Nat.zero_add]
            rfl
          rw [hMore]
          apply walkWith_found_more _ hFound
          intro place steps hFollow
          exact hNever place steps hFollow _
  | succ links ih =>
      have hMore :
          walk tree (links + 1 + more) place steps =
            walkWith tree (links + 1 + more)
              (walk tree (links + more)) place steps := by
        rw [Nat.add_right_comm]
        rfl
      rw [hMore]
      apply walkWith_found_more _ hFound
      intro place steps hFollow
      exact ih hFollow

/- Where a step leads by its words alone. -/
def Step.apply (place : Place N) : Step N → Place N
| .root => []
| .here => place
| .up => place.dropLast
| .down name => place ++ [name]

/- A walk never gives links back. -/
theorem walkWith_found_links
    {links left : Nat} {there : Place N}
    {follow : Place N → List (Step N) → Walk N}
    (hFollow :
      ∀ place steps,
        follow place steps = .found there left →
          left < links)
    {place : Place N} {steps : List (Step N)}
    (hFound :
      walkWith tree links follow place steps =
        .found there left) :
    left < links ∨
      left = links ∧ there = steps.foldl Step.apply place := by
  induction steps generalizing place with
  | nil =>
      cases hFound
      exact Or.inr ⟨rfl, rfl⟩
  | cons step steps ih =>
      unfold walkWith at hFound
      by_cases hDir : tree.isDirectory place = true
      · rw [if_pos hDir] at hFound
        cases step with
        | root => exact ih hFound
        | here => exact ih hFound
        | up => exact ih hFound
        | down name =>
            dsimp only at hFound
            cases hNode : tree.node (place ++ [name]) with
            | none =>
                rw [hNode] at hFound
                cases hFound
            | some entry =>
                rw [hNode] at hFound
                cases entry with
                | directory => exact ih hFound
                | file => exact ih hFound
                | link target =>
                    exact Or.inl (hFollow _ _ hFound)
      · rw [if_neg hDir] at hFound
        cases hFound

/- Without a link on the way, the words tell where it leads. -/
theorem walk_found_links
    {links left : Nat} {place there : Place N}
    {steps : List (Step N)}
    (hFound :
      walk tree links place steps = .found there left) :
    left < links ∨
      left = links ∧ there = steps.foldl Step.apply place := by
  induction links generalizing place steps with
  | zero =>
      apply walkWith_found_links _ hFound
      intro _ _ hNever
      cases hNever
  | succ links ih =>
      apply walkWith_found_links _ hFound
      intro place steps hFollow
      rcases ih hFollow with hLess | ⟨hSame, _⟩
      · omega
      · omega

/- Where the steps lead, through as many links as it takes. -/
def Leads
    (tree : Disk N) (place : Place N) (steps : List (Step N))
    (there : Place N) : Prop :=
  ∃ links left, walk tree links place steps = .found there left

theorem Leads.nil (place : Place N) : Leads tree place [] place :=
  ⟨0, 0, walk_nil 0 place⟩

/- Two walks in a row. -/
theorem Leads.append
    {place mid there : Place N} {first rest : List (Step N)}
    (hFirst : Leads tree place first mid)
    (hRest : Leads tree mid rest there) :
    Leads tree place (first ++ rest) there := by
  rcases hFirst with ⟨links, left, hWalk⟩
  rcases hRest with ⟨more, last, hMore⟩
  refine ⟨links + more, last + left, ?_⟩
  rw [walk_append, walk_found_more hWalk more]
  unfold Walk.andThen
  dsimp only
  rw [Nat.add_comm left more]
  exact walk_found_more hMore left

/- A walk that leads somewhere still does. -/
theorem Leads.of_extends
    {later : Disk N} (hExtends : Extends tree later)
    {place there : Place N} {steps : List (Step N)}
    (hLeads : Leads tree place steps there) :
    Leads later place steps there := by
  rcases hLeads with ⟨links, left, hWalk⟩
  exact ⟨links, left, walk_found_of_extends hExtends hWalk⟩

/- Where the first part leads, the rest goes on. -/
theorem Leads.of_append
    {place there : Place N} {first rest : List (Step N)}
    (hLeads : Leads tree place (first ++ rest) there) :
    ∃ mid, Leads tree place first mid ∧
      Leads tree mid rest there := by
  rcases hLeads with ⟨links, left, hWalk⟩
  rw [walk_append] at hWalk
  cases hFirst : walk tree links place first with
  | found mid more =>
      rw [hFirst] at hWalk
      exact ⟨mid, ⟨links, more, hFirst⟩, ⟨more, left, hWalk⟩⟩
  | missing dir name steps =>
      rw [hFirst] at hWalk
      cases hWalk
  | notDirectory =>
      rw [hFirst] at hWalk
      cases hWalk
  | tooManyLinks =>
      rw [hFirst] at hWalk
      cases hWalk

/- The first step, and the rest of them. -/
theorem Leads.of_cons
    {place there : Place N} {step : Step N}
    {rest : List (Step N)}
    (hLeads : Leads tree place (step :: rest) there) :
    ∃ mid, Leads tree place [step] mid ∧
      Leads tree mid rest there :=
  @Leads.of_append _ _ _ _ [step] rest hLeads

/- However many links are allowed, the place is the same. -/
theorem Leads.unique
    {place there other : Place N} {steps : List (Step N)}
    (hThere : Leads tree place steps there)
    (hOther : Leads tree place steps other) :
    there = other := by
  rcases hThere with ⟨links, left, hWalk⟩
  rcases hOther with ⟨more, last, hMore⟩
  have hFirst := walk_found_more hWalk more
  have hSecond := walk_found_more hMore links
  rw [Nat.add_comm more links, hFirst] at hSecond
  injection hSecond

/- Only from a directory is there a step. -/
theorem Leads.isDirectory
    {place there : Place N} {step : Step N}
    {rest : List (Step N)}
    (hLeads : Leads tree place (step :: rest) there) :
    tree.isDirectory place = true := by
  rcases hLeads with ⟨links, left, hWalk⟩
  by_contra hDir
  rw [walk_not_directory hDir] at hWalk
  cases hWalk

/- A step that follows no link leads where it says. -/
theorem Leads.of_word
    {place there : Place N} {step : Step N}
    (hWord : ∀ name, step ≠ .down name)
    (hLeads : Leads tree place [step] there) :
    there = Step.apply place step := by
  have hDir := hLeads.isDirectory
  rcases hLeads with ⟨links, left, hWalk⟩
  have hWith (follow) :
      walkWith tree links follow place [step] =
        .found (Step.apply place step) links := by
    unfold walkWith
    rw [if_pos hDir]
    cases step with
    | root => rfl
    | here => rfl
    | up => rfl
    | down name => exact absurd rfl (hWord name)
  cases links with
  | zero =>
      cases (hWith _).symm.trans hWalk
      rfl
  | succ links =>
      cases (hWith _).symm.trans hWalk
      rfl

/- A directory is where it is. -/
theorem Leads.here
    {place : Place N} (hDir : tree.isDirectory place = true) :
    Leads tree place [.here] place := by
  refine ⟨0, 0, ?_⟩
  unfold walk walkWith
  rw [if_pos hDir]
  rfl

end Paths

------------------------------------------------------------
-- Calls
------------------------------------------------------------

/- Why a call fails, or what a program refuses. -/
inductive FileError (R : Type)
| notFound
| alreadyExists
| notDirectory
| isDirectory
| tooManyLinks
| invalidInput
| refused (reason : R)

/- How a program ends, and all that it has created or opened. -/
structure Outcome (N R α : Type) where
  result : Except (FileError R) α
  tree : Disk N
  touched : List (Place N)

/- A program that makes calls, until one fails. -/
def Host (N R α : Type) := Disk N → Outcome N R α

/- The links a path may lead through, and what a name is. -/
structure Limits (N : Type) where
  links : Nat
  isName : N → Bool

/- The names of the path are names. -/
def Step.isValid {N : Type} (limits : Limits N) :
    Step N → Bool
| .down name => limits.isName name
| _ => true

/- Only what is there is an answer. -/
def Walk.result {N R : Type} :
    Walk N → Except (FileError R) (Place N)
| .found place _ => .ok place
| .missing _ _ _ => .error .notFound
| .notDirectory => .error .notDirectory
| .tooManyLinks => .error .tooManyLinks

namespace Host

variable {N R α β : Type}

/- An answer that touches nothing. -/
def done (a : α) : Host N R α := fun tree =>
  { result := .ok a
    tree := tree
    touched := [] }

/- An error that touches nothing. -/
def fail (error : FileError R) : Host N R α := fun tree =>
  { result := .error error
    tree := tree
    touched := [] }

/- The places of both, if the first one succeeds. -/
def andThen
    (first : Host N R α) (rest : α → Host N R β) :
    Host N R β := fun tree =>
  match (first tree).result with
  | .error error =>
      { result := .error error
        tree := (first tree).tree
        touched := (first tree).touched }
  | .ok a =>
      { result := (rest a (first tree).tree).result
        tree := (rest a (first tree).tree).tree
        touched :=
          (first tree).touched ++
            (rest a (first tree).tree).touched }

instance : Monad (Host N R) where
  pure := done
  bind := andThen

/- Something that the tree tells. -/
def look (tell : Disk N → Except (FileError R) α) :
    Host N R α := fun tree =>
  { result := tell tree
    tree := tree
    touched := [] }

/- Go on after a failure, with the error. -/
def attempt (program : Host N R α) :
    Host N R (Except (FileError R) α) := fun tree =>
  { result := .ok (program tree).result
    tree := (program tree).tree
    touched := (program tree).touched }

end Host

section Calls

variable {N R : Type} (limits : Limits N)

/- Where a path leads, links followed. -/
def Disk.stat (tree : Disk N) (path : List (Step N)) :
    Except (FileError R) (Place N) :=
  if path.all (Step.isValid limits) then
    (walk tree limits.links [] path).result
  else
    .error .invalidInput

/- Whether a path leads to a directory. -/
def Disk.isDir (tree : Disk N) (path : List (Step N)) : Bool :=
  match tree.stat (R := Empty) limits path with
  | .ok place => tree.isDirectory place
  | .error _ => false

/- Whether a path leads anywhere. -/
def Disk.pathExists
    (tree : Disk N) (path : List (Step N)) : Bool :=
  match tree.stat (R := Empty) limits path with
  | .ok _ => true
  | .error _ => false

/- Whether something is there, as a call. -/
def askExists (path : List (Step N)) : Host N R Bool :=
  .look fun tree => .ok (tree.pathExists limits path)

/- The place that a path leads to. -/
def canonicalize (path : List (Step N)) :
    Host N R (Place N) :=
  .look fun tree => tree.stat limits path

/- Whether there is a file that can be read. -/
def Disk.isReadable
    (tree : Disk N) (path : List (Step N)) : Bool :=
  match tree.stat (R := Empty) limits path with
  | .ok place => !tree.isDirectory place
  | .error _ => false

/- The file has to be there, and to be no directory. -/
def read (path : List (Step N)) : Host N R Unit :=
  .look fun tree =>
    match tree.stat limits path with
    | .error error => .error error
    | .ok place =>
        if tree.isDirectory place then
          .error .isDirectory
        else
          .ok ()

variable [DecidableEq N]

/- A link is not followed by its last name. -/
def createDirIn
    (parent : List (Step N)) (name : N) : Host N R Unit :=
  fun tree =>
    if limits.isName name then
      match tree.stat limits parent with
      | .error error => Host.fail error tree
      | .ok dir =>
          if tree.isDirectory dir then
            if (tree.node (dir ++ [name])).isSome then
              Host.fail .alreadyExists tree
            else
              { result := .ok ()
                tree := tree.add dir name .directory
                touched := [dir ++ [name]] }
          else
            Host.fail .notDirectory tree
    else
      Host.fail .invalidInput tree

/- Of a path with its last step first. -/
def createDir : List (Step N) → Host N R Unit
| .down name :: parents =>
    createDirIn limits parents.reverse name
| path =>
    .look fun tree =>
      match tree.stat limits path.reverse with
      | .error error => .error error
      | .ok _ => .error .alreadyExists

/- A failure does not count where there is a directory. -/
def unlessDir
    (path : List (Step N)) :
    Except (FileError R) Unit → Host N R Unit
| .ok () => .done ()
| .error error =>
    .look fun tree =>
      if tree.isDir limits path.reverse then
        .ok ()
      else
        .error error

/- The directory, after its parents if those are missing. -/
def createDirAll : List (Step N) → Host N R Unit
| [] => .done ()
| step :: parents =>
    (Host.attempt (createDir limits (step :: parents))).andThen
      fun first =>
        match first with
        | .error .notFound =>
            (createDirAll parents).andThen fun _ =>
              (Host.attempt
                (createDir limits (step :: parents))).andThen
                  (unlessDir limits (step :: parents))
        | _ => unlessDir limits (step :: parents) first

/- Where a file is opened or created for writing. -/
def Disk.landing (tree : Disk N) (path : List (Step N)) :
    Except (FileError R) (Place N) :=
  if path.all (Step.isValid limits) then
    match walk tree limits.links [] path with
    | .found place _ =>
        if tree.isDirectory place then
          .error .isDirectory
        else
          .ok place
    | .missing dir name [] => .ok (dir ++ [name])
    | .missing _ _ (_ :: _) => .error .notFound
    | .notDirectory => .error .notDirectory
    | .tooManyLinks => .error .tooManyLinks
  else
    .error .invalidInput

/- Also a link is followed, and what it leads to is created. -/
def openCreate (path : List (Step N)) : Host N R Unit :=
  fun tree =>
    match tree.landing limits path with
    | .error error => Host.fail error tree
    | .ok place =>
        { result := .ok ()
          tree :=
            match place.getLast? with
            | none => tree
            | some name => tree.add place.dropLast name .file
          touched := [place] }

end Calls

section Stat

variable {N R : Type} {limits : Limits N} {tree : Disk N}
variable {path : List (Step N)} {place : Place N}

theorem Disk.stat_eq_ok_iff :
    tree.stat (R := R) limits path = .ok place ↔
      path.all (Step.isValid limits) = true ∧
        ∃ left,
          walk tree limits.links [] path =
            .found place left := by
  unfold Disk.stat
  by_cases hValid : path.all (Step.isValid limits) = true
  · rw [if_pos hValid]
    cases walk tree limits.links [] path with
    | found there left => simp [Walk.result, hValid]
    | missing _ _ _ => simp [Walk.result]
    | notDirectory => simp [Walk.result]
    | tooManyLinks => simp [Walk.result]
  · rw [if_neg hValid]
    simp [hValid]

/- What `stat` answers is a real place. -/
theorem Disk.isReal_of_stat
    (hStat : tree.stat (R := R) limits path = .ok place) :
    tree.IsReal place := by
  rw [Disk.stat_eq_ok_iff] at hStat
  rcases hStat with ⟨_, left, hWalk⟩
  exact walk_found_isReal (Or.inl tree.root_eq) hWalk

/- And it answers the same in a larger tree. -/
theorem Disk.stat_of_extends
    {later : Disk N} (hExtends : Extends tree later)
    (hStat : tree.stat (R := R) limits path = .ok place) :
    later.stat (R := R) limits path = .ok place := by
  rw [Disk.stat_eq_ok_iff] at hStat ⊢
  rcases hStat with ⟨hValid, left, hWalk⟩
  exact
    ⟨hValid, left, walk_found_of_extends hExtends hWalk⟩

end Stat

------------------------------------------------------------
-- Growth
------------------------------------------------------------

/- A program that removes nothing. -/
def Host.Grows {N R α : Type} (program : Host N R α) : Prop :=
  ∀ tree, Extends tree (program tree).tree

namespace Host

variable {N R α β : Type}
variable {first : Host N R α} {rest : α → Host N R β}

/- What follows runs on the tree that is left. -/
theorem andThen_of_ok
    {tree : Disk N} {a : α}
    (hOk : (first tree).result = .ok a) :
    first.andThen rest tree =
      { result := (rest a (first tree).tree).result
        tree := (rest a (first tree).tree).tree
        touched :=
          (first tree).touched ++
            (rest a (first tree).tree).touched } := by
  unfold andThen
  rw [hOk]

/- A failure ends the steps, the tree left as it is. -/
theorem andThen_of_error
    {tree : Disk N} {error : FileError R}
    (hError : (first tree).result = .error error) :
    first.andThen rest tree =
      { result := .error error
        tree := (first tree).tree
        touched := (first tree).touched } := by
  unfold andThen
  rw [hError]

/- Looking changes nothing. -/
theorem look_andThen_of_ok
    {tell : Disk N → Except (FileError R) α}
    {tree : Disk N} {a : α} (hTell : tell tree = .ok a) :
    (look tell).andThen rest tree = rest a tree := by
  have hOk : ((look tell) tree).result = .ok a := hTell
  rw [andThen_of_ok hOk]
  rfl

/- Nor does a look that fails. -/
theorem look_andThen_of_error
    {tell : Disk N → Except (FileError R) α}
    {tree : Disk N} {error : FileError R}
    (hTell : tell tree = .error error) :
    (look tell).andThen rest tree = fail error tree := by
  have hError : ((look tell) tree).result = .error error :=
    hTell
  rw [andThen_of_error hError]
  rfl

/- What was tried and has failed without a trace. -/
theorem attempt_andThen_of_fail
    {other : Except (FileError R) α → Host N R β}
    {tree : Disk N} {error : FileError R}
    (hFail : first tree = fail error tree) :
    first.attempt.andThen other tree =
      other (.error error) tree := by
  have hResult :
      (first.attempt tree).result = .ok (.error error) := by
    unfold attempt
    rw [hFail]
    rfl
  have hTree : (first.attempt tree).tree = tree := by
    unfold attempt
    rw [hFail]
    rfl
  have hTouched : (first.attempt tree).touched = [] := by
    unfold attempt
    rw [hFail]
    rfl
  rw [andThen_of_ok hResult, hTree, hTouched]
  rfl

/- What was tried and was made. -/
theorem attempt_andThen_of_made
    {other : Except (FileError R) α → Host N R β}
    {tree later : Disk N} {a : α} {places : List (Place N)}
    (hMade :
      first tree =
        { result := .ok a
          tree := later
          touched := places }) :
    first.attempt.andThen other tree =
      { result := (other (.ok a) later).result
        tree := (other (.ok a) later).tree
        touched :=
          places ++ (other (.ok a) later).touched } := by
  have hResult :
      (first.attempt tree).result = .ok (.ok a) := by
    unfold attempt
    rw [hMade]
  rw [andThen_of_ok hResult]
  unfold attempt
  rw [hMade]

/- What both halves touch is touched. -/
theorem mem_touched_andThen
    {tree : Disk N} {place : Place N} :
    place ∈ (first.andThen rest tree).touched ↔
      place ∈ (first tree).touched ∨
        ∃ a, (first tree).result = .ok a ∧
          place ∈ (rest a (first tree).tree).touched := by
  cases hResult : (first tree).result with
  | error error =>
      rw [andThen_of_error hResult]
      simp
  | ok a =>
      rw [andThen_of_ok hResult, List.mem_append]
      simp

/- An answer adds nothing. -/
theorem grows_done (a : α) :
    (done a : Host N R α).Grows :=
  fun tree => .refl tree

/- Nor does a failure. -/
theorem grows_fail (error : FileError R) :
    (fail error : Host N R α).Grows :=
  fun tree => .refl tree

/- Nor does a look. -/
theorem grows_look
    (tell : Disk N → Except (FileError R) α) :
    (look tell).Grows :=
  fun tree => .refl tree

/- Steps that only add, one after the other. -/
theorem grows_andThen
    (hFirst : first.Grows) (hRest : ∀ a, (rest a).Grows) :
    (first.andThen rest).Grows := by
  intro tree
  cases hResult : (first tree).result with
  | error error =>
      rw [andThen_of_error hResult]
      exact hFirst tree
  | ok a =>
      rw [andThen_of_ok hResult]
      exact (hFirst tree).trans (hRest a _)

/- A step whose failure is looked at. -/
theorem grows_attempt (hFirst : first.Grows) :
    first.attempt.Grows :=
  hFirst

end Host

theorem askExists_andThen
    {N R β : Type} {limits : Limits N} {tree : Disk N}
    (path : List (Step N)) (rest : Bool → Host N R β) :
    (askExists limits path).andThen rest tree =
      rest (tree.pathExists limits path) tree := by
  have hTell :
      (askExists (R := R) limits path tree).result =
        .ok (tree.pathExists limits path) := rfl
  rw [Host.andThen_of_ok hTell]
  rfl

/- What follows a read is done where there is a file. -/
theorem mem_touched_read_andThen
    {N R β : Type} {limits : Limits N} {tree : Disk N}
    {path : List (Step N)} {program : Host N R β}
    {place : Place N} :
    place ∈
        ((read limits path).andThen (fun _ => program)
          tree).touched ↔
      tree.isReadable limits path = true ∧
        place ∈ (program tree).touched := by
  have hOk :
      (read (R := R) limits path tree).result = .ok () ↔
        tree.isReadable limits path = true := by
    unfold read Disk.isReadable Host.look Disk.stat
    dsimp only
    by_cases hValid : path.all (Step.isValid limits) = true
    · rw [if_pos hValid, if_pos hValid]
      cases walk tree limits.links [] path with
      | found there left =>
          by_cases hDir : tree.isDirectory there = true
          · simp [Walk.result, hDir]
          · simp [Walk.result, hDir]
      | missing _ _ _ => simp [Walk.result]
      | notDirectory => simp [Walk.result]
      | tooManyLinks => simp [Walk.result]
    · rw [if_neg hValid, if_neg hValid]
      simp
  have hTree : (read (R := R) limits path tree).tree = tree :=
    rfl
  have hTouched :
      (read (R := R) limits path tree).touched = [] := rfl
  rw [Host.mem_touched_andThen, hTree, hTouched]
  simp only [List.not_mem_nil, false_or, ← hOk]
  constructor
  · rintro ⟨done, hDone, hPlace⟩
    exact ⟨hDone, hPlace⟩
  · rintro ⟨hDone, hPlace⟩
    exact ⟨(), hDone, hPlace⟩

section Growing

variable {N R : Type} [DecidableEq N] (limits : Limits N)

/- Each of the calls only adds. -/
theorem grows_createDirIn
    (parent : List (Step N)) (name : N) :
    (createDirIn (R := R) limits parent name).Grows := by
  intro tree
  unfold createDirIn
  split
  · split
    · exact .refl tree
    · split
      · split
        · exact .refl tree
        · exact .add tree _ _ _
      · exact .refl tree
  · exact .refl tree

theorem grows_createDir (path : List (Step N)) :
    (createDir (R := R) limits path).Grows := by
  unfold createDir
  split
  · exact grows_createDirIn limits _ _
  · exact Host.grows_look _

omit [DecidableEq N] in
theorem grows_unlessDir
    (path : List (Step N))
    (first : Except (FileError R) Unit) :
    (unlessDir limits path first).Grows := by
  unfold unlessDir
  split
  · exact Host.grows_done ()
  · exact Host.grows_look _

theorem grows_createDirAll (path : List (Step N)) :
    (createDirAll (R := R) limits path).Grows := by
  induction path with
  | nil => exact Host.grows_done ()
  | cons step parents ih =>
      unfold createDirAll
      apply Host.grows_andThen
      · exact
          Host.grows_attempt
            (grows_createDir limits (step :: parents))
      · intro first
        split
        · apply Host.grows_andThen ih
          intro _
          apply Host.grows_andThen
          · exact
              Host.grows_attempt
                (grows_createDir limits (step :: parents))
          · exact grows_unlessDir limits _
        · exact grows_unlessDir limits _ _

theorem grows_openCreate (path : List (Step N)) :
    (openCreate (R := R) limits path).Grows := by
  intro tree
  unfold openCreate
  split
  · exact .refl tree
  · dsimp only
    split
    · exact .refl tree
    · exact .add tree _ _ _

/- Only the place it lands at is touched by an opening. -/
theorem mem_touched_openCreate
    {tree : Disk N} {path : List (Step N)} {place : Place N} :
    place ∈ (openCreate (R := R) limits path tree).touched ↔
      tree.landing (R := R) limits path = .ok place := by
  unfold openCreate
  cases hLanding : tree.landing (R := R) limits path with
  | error error => simp [Host.fail]
  | ok other =>
      simp only [List.mem_singleton, Except.ok.injEq]
      exact eq_comm

end Growing

------------------------------------------------------------
-- Directories Below a Directory
------------------------------------------------------------

section Descent

variable {N : Type} (tree : Disk N)

/-
  The last directory on the way down, the links that may
  still follow, and the names that are missing below it.
-/
def descend :
    Nat → Place N → List N → Option (Place N × Nat × List N)
| links, place, [] => some (place, links, [])
| links, place, name :: rest =>
    if tree.isDirectory place then
      if (tree.node (place ++ [name])).isNone then
        some (place, links, name :: rest)
      else
        match walk tree links place [.down name] with
        | .found next left => descend left next rest
        | _ => none
    else
      none

variable {tree}

/- What is known of the way, and what is missing. -/
theorem descend_eq_some
    {links left : Nat} {place dir : Place N}
    {names missing : List N}
    (hDescend :
      descend tree links place names =
        some (dir, left, missing)) :
    (∃ known,
        names = known ++ missing ∧
          walk tree links place (known.map .down) =
            .found dir left) ∧
      ∀ name rest, missing = name :: rest →
        tree.isDirectory dir = true ∧
          tree.node (dir ++ [name]) = none := by
  induction names generalizing links place with
  | nil =>
      cases hDescend
      refine ⟨⟨[], rfl, walk_nil _ _⟩, ?_⟩
      intro name rest hMissing
      cases hMissing
  | cons name names ih =>
      unfold descend at hDescend
      by_cases hDir : tree.isDirectory place = true
      · rw [if_pos hDir] at hDescend
        by_cases hNone : (tree.node (place ++ [name])).isNone
        · rw [if_pos hNone] at hDescend
          cases hDescend
          refine ⟨⟨[], rfl, walk_nil _ _⟩, ?_⟩
          intro first rest hMissing
          cases hMissing
          exact ⟨hDir, Option.isNone_iff_eq_none.1 hNone⟩
        · rw [if_neg hNone] at hDescend
          cases hWalk : walk tree links place [.down name] with
          | found next more =>
              rw [hWalk] at hDescend
              rcases ih hDescend with
                ⟨⟨known, hNames, hFound⟩, hMissing⟩
              refine ⟨⟨name :: known, ?_, ?_⟩, hMissing⟩
              · rw [hNames, List.cons_append]
              · rw [List.map_cons, ← List.singleton_append,
                  walk_append, hWalk]
                exact hFound
          | missing _ _ _ =>
              rw [hWalk] at hDescend
              cases hDescend
          | notDirectory =>
              rw [hWalk] at hDescend
              cases hDescend
          | tooManyLinks =>
              rw [hWalk] at hDescend
              cases hDescend
      · rw [if_neg hDir] at hDescend
        cases hDescend

/- Where the names run out, no walk goes further. -/
theorem not_found_of_descend_none
    {links left : Nat} {place there : Place N}
    {names : List N}
    (hDescend : descend tree links place names = none) :
    walk tree links place (names.map .down) ≠
      .found there left := by
  induction names generalizing links place with
  | nil => cases hDescend
  | cons name names ih =>
      intro hFound
      unfold descend at hDescend
      rw [List.map_cons, ← List.singleton_append,
        walk_append] at hFound
      by_cases hDir : tree.isDirectory place = true
      · rw [if_pos hDir] at hDescend
        by_cases hNone : (tree.node (place ++ [name])).isNone
        · rw [if_pos hNone] at hDescend
          cases hDescend
        · rw [if_neg hNone] at hDescend
          cases hWalk : walk tree links place [.down name] with
          | found next more =>
              rw [hWalk] at hDescend hFound
              exact ih hDescend hFound
          | missing _ _ _ =>
              rw [hWalk] at hFound
              cases hFound
          | notDirectory =>
              rw [hWalk] at hFound
              cases hFound
          | tooManyLinks =>
              rw [hWalk] at hFound
              cases hFound
      · rw [walk_not_directory hDir] at hFound
        cases hFound

/- One more name at the end. -/
theorem descend_concat
    {links : Nat} {place : Place N}
    (names : List N) (last : N) :
    descend tree links place (names ++ [last]) =
      match descend tree links place names with
      | none => none
      | some (dir, left, []) => descend tree left dir [last]
      | some (dir, left, name :: rest) =>
          some (dir, left, name :: rest ++ [last]) := by
  induction names generalizing links place with
  | nil => rfl
  | cons name names ih =>
      rw [List.cons_append]
      unfold descend
      by_cases hDir : tree.isDirectory place = true
      · rw [if_pos hDir, if_pos hDir]
        by_cases hNone : (tree.node (place ++ [name])).isNone
        · rw [if_pos hNone, if_pos hNone]
          rfl
        · rw [if_neg hNone, if_neg hNone]
          cases walk tree links place [.down name] with
          | found next more => exact ih
          | missing _ _ _ => rfl
          | notDirectory => rfl
          | tooManyLinks => rfl
      · rw [if_neg hDir, if_neg hDir]

/- The way is found once the missing names have been made. -/
theorem walk_of_descend
    {later : Disk N} (hExtends : Extends tree later)
    {links left : Nat} {place dir : Place N}
    {names missing : List N}
    (hDescend :
      descend tree links place names =
        some (dir, left, missing))
    (hMade :
      missing = [] ∨ later.IsReal (dir ++ missing)) :
    walk later links place (names.map .down) =
      .found (dir ++ missing) left := by
  rcases (descend_eq_some hDescend).1 with
    ⟨known, hNames, hFound⟩
  rw [hNames, List.map_append, walk_append,
    walk_found_of_extends hExtends hFound]
  rcases hMade with rfl | hReal
  · simp [Walk.andThen]
  · exact walk_down hReal

/- Before that, the first missing name is missed. -/
theorem walk_missing_of_descend
    {links left : Nat} {place dir : Place N}
    {names rest : List N} {name : N}
    (hDescend :
      descend tree links place names =
        some (dir, left, name :: rest)) :
    walk tree links place (names.map .down) =
      .missing dir name (rest.map .down) := by
  rcases descend_eq_some hDescend with
    ⟨⟨known, hNames, hFound⟩, hMissing⟩
  rcases hMissing name rest rfl with ⟨hDir, hNone⟩
  rw [hNames, List.map_append, walk_append, hFound]
  exact walk_down_none hDir hNone _

end Descent

------------------------------------------------------------
-- Making Directories
------------------------------------------------------------

section Making

variable {N R : Type} [DecidableEq N] {limits : Limits N}
variable {tree : Disk N}

/- A path that is no path is refused before anything. -/
theorem createDirIn_of_invalid
    {parent : List (Step N)} {name : N}
    (hValid :
      ¬ (parent ++ [Step.down name]).all
        (Step.isValid limits) = true) :
    createDirIn (R := R) limits parent name tree =
      Host.fail .invalidInput tree := by
  unfold createDirIn
  by_cases hName : limits.isName name = true
  · have hParent :
        ¬ parent.all (Step.isValid limits) = true := by
      intro hAll
      apply hValid
      rw [List.all_append, hAll]
      simpa [Step.isValid] using hName
    rw [if_pos hName]
    unfold Disk.stat
    rw [if_neg hParent]
  · rw [if_neg hName]

/- The parent's error is the call's. -/
theorem createDirIn_of_error
    {parent : List (Step N)} {name : N} {error : FileError R}
    (hName : limits.isName name = true)
    (hStat : tree.stat limits parent = .error error) :
    createDirIn limits parent name tree =
      Host.fail error tree := by
  unfold createDirIn
  rw [if_pos hName, hStat]

/- Something of the name is there. -/
theorem createDirIn_of_exists
    {parent : List (Step N)} {name : N} {dir : Place N}
    (hName : limits.isName name = true)
    (hStat : tree.stat (R := R) limits parent = .ok dir)
    (hDir : tree.isDirectory dir = true)
    (hSome : (tree.node (dir ++ [name])).isSome) :
    createDirIn (R := R) limits parent name tree =
      Host.fail .alreadyExists tree := by
  unfold createDirIn
  rw [if_pos hName, hStat]
  dsimp only
  rw [if_pos hDir, if_pos hSome]

/- The parent is a file. -/
theorem createDirIn_of_file
    {parent : List (Step N)} {name : N} {dir : Place N}
    (hName : limits.isName name = true)
    (hStat : tree.stat (R := R) limits parent = .ok dir)
    (hDir : ¬ tree.isDirectory dir = true) :
    createDirIn (R := R) limits parent name tree =
      Host.fail .notDirectory tree := by
  unfold createDirIn
  rw [if_pos hName, hStat]
  dsimp only
  rw [if_neg hDir]

/- The directory is made. -/
theorem createDirIn_of_none
    {parent : List (Step N)} {name : N} {dir : Place N}
    (hName : limits.isName name = true)
    (hStat : tree.stat (R := R) limits parent = .ok dir)
    (hDir : tree.isDirectory dir = true)
    (hNone : tree.node (dir ++ [name]) = none) :
    createDirIn (R := R) limits parent name tree =
      { result := .ok ()
        tree := tree.add dir name .directory
        touched := [dir ++ [name]] } := by
  have hAbsent : ¬ (tree.node (dir ++ [name])).isSome := by
    rw [hNone]
    exact Bool.false_ne_true
  unfold createDirIn
  rw [if_pos hName, hStat]
  dsimp only
  rw [if_pos hDir, if_neg hAbsent]

/- A directory that has just been made is empty. -/
theorem node_add_child
    {dir : Place N} {name child : N} {entry : Node N}
    (hNone : tree.node (dir ++ [name]) = none) :
    (tree.add dir name entry).node
        (dir ++ [name] ++ [child]) = none := by
  rw [Disk.add_node_of_ne (by simp)]
  cases hNode : tree.node (dir ++ [name] ++ [child]) with
  | none => rfl
  | some other =>
      have hParent :=
        tree.parent_eq (dir ++ [name]) child
          (by rw [hNode]; rfl)
      rw [hNone] at hParent
      cases hParent

/- What is made at once is made. -/
theorem createDirAll_of_made
    {step : Step N} {parents : List (Step N)}
    {later : Disk N} {places : List (Place N)}
    (hMade :
      createDir (R := R) limits (step :: parents) tree =
        { result := .ok ()
          tree := later
          touched := places }) :
    createDirAll (R := R) limits (step :: parents) tree =
      { result := .ok ()
        tree := later
        touched := places } := by
  unfold createDirAll
  rw [Host.attempt_andThen_of_made hMade]
  unfold unlessDir Host.done
  dsimp only
  rw [List.append_nil]

/- A failure that leaves nothing, where something else is. -/
theorem createDirAll_of_fail
    {step : Step N} {parents : List (Step N)}
    {error : FileError R}
    (hFail :
      createDir limits (step :: parents) tree =
        Host.fail error tree)
    (hError : error ≠ .notFound) :
    createDirAll limits (step :: parents) tree =
      unlessDir limits (step :: parents) (.error error)
        tree := by
  unfold createDirAll
  rw [Host.attempt_andThen_of_fail hFail]
  cases error with
  | notFound => exact absurd rfl hError
  | _ => rfl

/- The parents first, where they are missing. -/
theorem createDirAll_of_notFound
    {step : Step N} {parents : List (Step N)}
    (hFail :
      createDir (R := R) limits (step :: parents) tree =
        Host.fail .notFound tree) :
    createDirAll (R := R) limits (step :: parents) tree =
      ((createDirAll limits parents).andThen fun _ =>
        ((createDir limits (step :: parents)).attempt).andThen
          (unlessDir limits (step :: parents))) tree := by
  conv_lhs => unfold createDirAll
  rw [Host.attempt_andThen_of_fail hFail]

omit [DecidableEq N] in

/- Asking for the directory changes nothing. -/
theorem unlessDir_same
    {path : List (Step N)}
    (first : Except (FileError R) Unit) :
    (unlessDir limits path first tree).tree = tree ∧
      (unlessDir limits path first tree).touched = [] := by
  unfold unlessDir
  split
  · exact ⟨rfl, rfl⟩
  · exact ⟨rfl, rfl⟩

omit [DecidableEq N] in

/- And forgives the call that found it there. -/
theorem unlessDir_of_isDir
    {path : List (Step N)}
    {first : Except (FileError R) Unit}
    (hDir : tree.isDir limits path.reverse = true) :
    (unlessDir limits path first tree).result = .ok () := by
  unfold unlessDir
  split
  · rfl
  · unfold Host.look
    dsimp only
    rw [if_pos hDir]

/- What making the directories of some names comes to. -/
def MadeBelow
    (tree : Disk N) (links : Nat) (start : Place N)
    (names : List N) (made : Outcome N R Unit) : Prop :=
  match descend tree links start names with
  | none => made.tree = tree ∧ made.touched = []
  | some (dir, _, []) =>
      made.tree = tree ∧ made.touched = [] ∧
        (tree.isDirectory dir = true → made.result = .ok ())
  | some (dir, _, name :: rest) =>
      made.result = .ok () ∧
        dir ++ [name] ∈ made.touched ∧
        (∀ place ∈ made.touched, dir <+: place) ∧
        made.tree.isDirectory (dir ++ name :: rest) = true ∧
        ∀ child,
          made.tree.node (dir ++ name :: rest ++ [child]) =
            none

omit [DecidableEq N] in

/- Below a place already found, the walk goes on. -/
theorem stat_below
    {base : List (Step N)} {start : Place N} {links : Nat}
    (hBase :
      walk tree limits.links [] base = .found start links)
    (hValid : base.all (Step.isValid limits) = true)
    {names : List N}
    (hNames : names.all limits.isName = true) :
    tree.stat (R := R) limits (base ++ names.map .down) =
      (walk tree links start (names.map .down)).result := by
  have hAll :
      (base ++ names.map Step.down).all
          (Step.isValid limits) = true := by
    rw [List.all_append, hValid, Bool.true_and,
      List.all_map]
    exact hNames
  unfold Disk.stat
  rw [if_pos hAll, walk_append, hBase]
  rfl

/- A path the host cannot take is refused whole. -/
theorem createDirAll_of_invalid
    {name : N} {parents : List (Step N)}
    (hValid :
      ¬ (parents.reverse ++ [Step.down name]).all
        (Step.isValid limits) = true) :
    (createDirAll (R := R) limits (.down name :: parents)
          tree).touched = [] := by
  have hFail :
      createDir (R := R) limits (.down name :: parents) tree =
        Host.fail .invalidInput tree :=
    createDirIn_of_invalid hValid
  rw [createDirAll_of_fail hFail (by simp)]
  exact (unlessDir_same _).2

omit [DecidableEq N] in
/- A file lands only on a path that is one. -/
theorem valid_of_landing
    {path : List (Step N)} {place : Place N}
    (hLanding :
      tree.landing (R := R) limits path = .ok place) :
    path.all (Step.isValid limits) = true := by
  unfold Disk.landing at hLanding
  by_cases hValid : path.all (Step.isValid limits) = true
  · exact hValid
  · rw [if_neg hValid] at hLanding
    cases hLanding

omit [DecidableEq N] in
/- Nor does it land where its directory cannot be found. -/
theorem found_of_landing
    {path : List (Step N)} {name : N} {place : Place N}
    (hLanding :
      tree.landing (R := R) limits (path ++ [.down name]) =
        .ok place) :
    ∃ dir left,
      walk tree limits.links [] path = .found dir left ∧
        tree.isDirectory dir = true := by
  have hValid := valid_of_landing hLanding
  unfold Disk.landing at hLanding
  rw [if_pos hValid, walk_append] at hLanding
  cases hWalk : walk tree limits.links [] path with
  | found dir left =>
      refine ⟨dir, left, rfl, ?_⟩
      by_contra hDir
      have hEnd :
          (Walk.found dir left).andThen tree [.down name] =
            .notDirectory :=
        walk_not_directory hDir _ _
      rw [hWalk, hEnd] at hLanding
      cases hLanding
  | missing dir missed rest =>
      rw [hWalk] at hLanding
      unfold Walk.andThen at hLanding
      cases rest with
      | nil => cases hLanding
      | cons step rest => cases hLanding
  | notDirectory =>
      rw [hWalk] at hLanding
      cases hLanding
  | tooManyLinks =>
      rw [hWalk] at hLanding
      cases hLanding

omit [DecidableEq N] in
/- A file that its directory does not have is made there. -/
theorem landing_of_missing
    {path : List (Step N)} {dir place : Place N}
    {name : N} {left : Nat}
    (hWalk :
      walk tree limits.links [] path = .found dir left)
    (hDir : tree.isDirectory dir = true)
    (hNone : tree.node (dir ++ [name]) = none)
    (hLanding :
      tree.landing (R := R) limits (path ++ [.down name]) =
        .ok place) :
    place = dir ++ [name] := by
  have hEnd :
      (Walk.found dir left).andThen tree [.down name] =
        .missing dir name [] :=
    walk_down_none hDir hNone []
  have hValid := valid_of_landing hLanding
  unfold Disk.landing at hLanding
  rw [if_pos hValid, walk_append, hWalk, hEnd] at hLanding
  cases hLanding
  rfl

section Below

variable {base : List (Step N)} {start : Place N}
variable {links : Nat} {names : List N} {last : N}

/- The path of a name below others, last step first. -/
def pathBelow
    (base : List (Step N)) (names : List N) :
    List (Step N) :=
  (base ++ names.map Step.down).reverse

omit [DecidableEq N] in

/- The last name is the first of the reversed path. -/
theorem pathBelow_concat
    (base : List (Step N)) (names : List N) (last : N) :
    pathBelow base (names ++ [last]) =
      .down last :: pathBelow base names := by
  simp [pathBelow]

omit [DecidableEq N] in

/- Read forwards, the base and then the names. -/
theorem pathBelow_reverse
    (base : List (Step N)) (names : List N) :
    (pathBelow base names).reverse =
      base ++ names.map Step.down := by
  unfold pathBelow
  rw [List.reverse_reverse]

/- The last name is made in what leads to it. -/
theorem createDir_pathBelow :
    createDir (R := R) limits
        (.down last :: pathBelow base names) =
      createDirIn limits (base ++ names.map Step.down)
        last := by
  unfold createDir
  dsimp only
  rw [pathBelow_reverse]

variable
  (hBase : walk tree limits.links [] base = .found start links)
  (hValid : base.all (Step.isValid limits) = true)
  (hNames : names.all limits.isName = true)
  (hLast : limits.isName last = true)

include hBase hValid hNames hLast

/- Parents that cannot be found leave nothing behind. -/
theorem madeBelow_of_none
    (hDescend : descend tree links start names = none)
    (hParents :
      MadeBelow tree links start names
        (createDirAll (R := R) limits (pathBelow base names)
          tree)) :
    MadeBelow tree links start (names ++ [last])
      (createDirAll (R := R) limits
        (pathBelow base (names ++ [last])) tree) := by
  unfold MadeBelow at hParents ⊢
  rw [descend_concat, hDescend]
  rw [hDescend] at hParents
  rw [pathBelow_concat]
  have hStat :=
    stat_below (R := R) hBase hValid hNames
  cases hWalk :
      (walk tree links start
        (names.map .down)).result (R := R) with
  | ok place =>
      exfalso
      cases hFound :
          walk tree links start (names.map .down) with
      | found there left =>
          exact not_found_of_descend_none hDescend hFound
      | missing _ _ _ | notDirectory | tooManyLinks =>
          rw [hFound] at hWalk
          cases hWalk
  | error error =>
      rw [hWalk] at hStat
      have hFail :
          createDir limits
              (.down last :: pathBelow base names) tree =
            Host.fail error tree := by
        rw [createDir_pathBelow]
        exact createDirIn_of_error hLast hStat
      by_cases hError : error = .notFound
      · subst hError
        rw [createDirAll_of_notFound hFail]
        cases hResult :
            (createDirAll (R := R) limits
              (pathBelow base names) tree).result with
        | error error =>
            rw [Host.andThen_of_error hResult]
            exact hParents
        | ok done =>
            rw [Host.andThen_of_ok hResult, hParents.1,
              hParents.2, Host.attempt_andThen_of_fail hFail]
            exact unlessDir_same _
      · rw [createDirAll_of_fail hFail hError]
        exact unlessDir_same _

/- Below a directory that is there, one more is made. -/
theorem madeBelow_of_found
    {dir : Place N} {left : Nat}
    (hDescend :
      descend tree links start names =
        some (dir, left, [])) :
    MadeBelow tree links start (names ++ [last])
      (createDirAll (R := R) limits
        (pathBelow base (names ++ [last])) tree) := by
  have hWalk :
      walk tree links start (names.map .down) =
        .found dir left := by
    have hFound :=
      walk_of_descend (.refl tree) hDescend (Or.inl rfl)
    rwa [List.append_nil] at hFound
  have hStat :=
    stat_below (R := R) hBase hValid hNames
  rw [hWalk] at hStat
  unfold MadeBelow
  rw [descend_concat, hDescend, pathBelow_concat]
  dsimp only
  unfold descend
  by_cases hDir : tree.isDirectory dir = true
  · rw [if_pos hDir]
    by_cases hNone : (tree.node (dir ++ [last])).isNone
    · rw [if_pos hNone]
      rw [Option.isNone_iff_eq_none] at hNone
      have hMade :
          createDir (R := R) limits
              (.down last :: pathBelow base names) tree =
            { result := .ok ()
              tree := tree.add dir last .directory
              touched := [dir ++ [last]] } := by
        rw [createDir_pathBelow]
        exact createDirIn_of_none hLast hStat hDir hNone
      rw [createDirAll_of_made hMade]
      refine ⟨rfl, by simp, by simp, ?_, ?_⟩
      · rw [Disk.isDirectory_iff]
        exact Disk.add_node_self hDir hNone
      · intro child
        exact node_add_child hNone
    · rw [if_neg hNone]
      have hSome : (tree.node (dir ++ [last])).isSome := by
        rw [Option.isSome_iff_ne_none]
        rwa [Option.isNone_iff_eq_none] at hNone
      have hFail :
          createDir (R := R) limits
              (.down last :: pathBelow base names) tree =
            Host.fail .alreadyExists tree := by
        rw [createDir_pathBelow]
        exact createDirIn_of_exists hLast hStat hDir hSome
      rw [createDirAll_of_fail hFail (by simp)]
      cases hNext : walk tree left dir [.down last] with
      | missing _ _ _ | notDirectory | tooManyLinks =>
          exact unlessDir_same _
      | found next more =>
          refine
            ⟨(unlessDir_same _).1, (unlessDir_same _).2, ?_⟩
          intro hIsDir
          apply unlessDir_of_isDir
          rw [← pathBelow_concat, pathBelow_reverse]
          unfold Disk.isDir
          have hAll :
              (names ++ [last]).all limits.isName = true := by
            rw [List.all_append, hNames]
            simpa using hLast
          have hEnd :
              walk tree links start
                  ((names ++ [last]).map .down) =
                .found next more := by
            rw [List.map_append, walk_append, hWalk]
            exact hNext
          rw [stat_below hBase hValid hAll, hEnd]
          exact hIsDir
  · rw [if_neg hDir]
    have hFail :
        createDir (R := R) limits
            (.down last :: pathBelow base names) tree =
          Host.fail .notDirectory tree := by
      rw [createDir_pathBelow]
      exact createDirIn_of_file hLast hStat hDir
    rw [createDirAll_of_fail hFail (by simp)]
    exact unlessDir_same _

/- Where parents are missing, they have been made before. -/
theorem madeBelow_of_missing
    {dir : Place N} {left : Nat} {name : N} {rest : List N}
    (hDescend :
      descend tree links start names =
        some (dir, left, name :: rest))
    (hParents :
      MadeBelow tree links start names
        (createDirAll (R := R) limits (pathBelow base names)
          tree)) :
    MadeBelow tree links start (names ++ [last])
      (createDirAll (R := R) limits
        (pathBelow base (names ++ [last])) tree) := by
  unfold MadeBelow at hParents ⊢
  rw [descend_concat, hDescend]
  rw [hDescend] at hParents
  dsimp only at hParents ⊢
  rcases hParents with ⟨hOk, hMem, hBelow, hDir, hEmpty⟩
  rw [pathBelow_concat]
  have hStat := stat_below (R := R) hBase hValid hNames
  rw [walk_missing_of_descend hDescend] at hStat
  have hFail :
      createDir (R := R) limits
          (.down last :: pathBelow base names) tree =
        Host.fail .notFound tree := by
    rw [createDir_pathBelow]
    exact createDirIn_of_error hLast hStat
  have hExtends :=
    grows_createDirAll (R := R) limits (pathBelow base names)
      tree
  have hLater :=
    stat_below (R := R) (walk_found_of_extends hExtends hBase)
      hValid hNames
  rw [walk_of_descend hExtends hDescend
    (Or.inr (Or.inl ((Disk.isDirectory_iff _).1 hDir)))]
    at hLater
  have hMade :=
    createDirIn_of_none hLast hLater hDir (hEmpty last)
  rw [← createDir_pathBelow] at hMade
  have hRetry :
      (createDir (R := R) limits
          (.down last :: pathBelow base names)).attempt.andThen
            (unlessDir limits
              (.down last :: pathBelow base names))
            (createDirAll (R := R) limits
              (pathBelow base names) tree).tree =
        createDir (R := R) limits
          (.down last :: pathBelow base names)
          (createDirAll (R := R) limits
            (pathBelow base names) tree).tree := by
    rw [Host.attempt_andThen_of_made hMade, hMade]
    rfl
  rw [createDirAll_of_notFound hFail,
    Host.andThen_of_ok hOk, hRetry, hMade]
  have hPath :
      dir ++ name :: rest.append [last] =
        dir ++ name :: rest ++ [last] := by
    rw [List.append_assoc]
    rfl
  refine ⟨rfl, ?_, ?_, ?_, ?_⟩
  · exact List.mem_append_left _ hMem
  · intro place hPlace
    rw [List.mem_append, List.mem_singleton] at hPlace
    rcases hPlace with hPlace | rfl
    · exact hBelow place hPlace
    · rw [List.append_assoc]
      exact List.prefix_append _ _
  · rw [hPath, Disk.isDirectory_iff]
    exact Disk.add_node_self hDir (hEmpty last)
  · intro child
    rw [hPath]
    exact node_add_child (hEmpty last)

omit hNames hLast in
/- What is made, and what is touched, by making directories. -/
theorem createDirAll_spec
    (hAll : (names ++ [last]).all limits.isName = true) :
    MadeBelow tree links start (names ++ [last])
      (createDirAll (R := R) limits
        (pathBelow base (names ++ [last])) tree) := by
  induction names using List.reverseRecOn generalizing last with
  | nil =>
      apply madeBelow_of_found hBase hValid rfl
      · simpa using hAll
      · rfl
  | append_singleton names before ih =>
      rw [List.all_append, Bool.and_eq_true] at hAll
      rcases hAll with ⟨hNames, hLast⟩
      have hLast : limits.isName last = true := by
        simpa using hLast
      have hParents := ih hNames
      cases hDescend :
          descend tree links start (names ++ [before]) with
      | none =>
          exact
            madeBelow_of_none hBase hValid hNames hLast
              hDescend hParents
      | some found =>
          rcases found with ⟨dir, left, missing⟩
          cases missing with
          | nil =>
              exact
                madeBelow_of_found hBase hValid hNames hLast
                  hDescend
          | cons name rest =>
              exact
                madeBelow_of_missing hBase hValid hNames hLast
                  hDescend hParents

end Below

end Making

end FileTree
