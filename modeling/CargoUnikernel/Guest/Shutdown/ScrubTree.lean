import CargoUnikernel.Guest.Shutdown.ScrubConfinement

/-
  A tree for the scrub, with nobody else at work.

  Every call succeeds that can: what is refused is opening a
  link, opening something as what it is not, and removing a
  directory that is not empty. For each entry, reading its
  directory gives its type or leaves it unknown.

  Main declarations:
    * `Host`, `Host.handler`, `confined_alone`
    * `Forest`, `Forest.leftover`, `leftover_eq_nil_iff`
    * `Forest.Stored`, `Tree`, `Tree.StoredIn`
-/

------------------------------------------------------------
-- A Host without Failures
------------------------------------------------------------

namespace CargoUnikernel

namespace Guest

namespace Shutdown

namespace Scrub

open Streams Calls Calls.Script

/- Which types are left out, and how each file is written. -/
structure Host (Ino : Type) where
  type : Ino → FileType
  unreported : Ino → Bool
  writes : Ino → List WriteCall

section

variable {Ino : Type}

/- The type of an entry as reading its directory gives it. -/
def Host.report
    (host : Host Ino) (entry : Name × Ino) : DirEntry where
  fileName := entry.1
  fileType :=
    if host.unreported entry.2 then
      .unknown
    else
      host.type entry.2

/- Both dots come first, and then everything there is. -/
def Host.reports
    (host : Host Ino) (entries : List (Name × Ino)) :
    List DirEntry :=
  ⟨dot, .directory⟩ :: ⟨dotDot, .directory⟩ ::
    entries.map host.report

variable [DecidableEq Ino]

/- The answers of the tree to each call. -/
def Host.handler
    (host : Host Ino) (s : FileSystem Ino) :
    (request : Request Ino) →
      Answer request × FileSystem Ino
| .openDir =>
    (s.root.filter fun ino =>
        OpenMode.directory.admits (host.type ino),
      s)
| .openAt fd name mode =>
    ((s.resolve fd name).filter fun ino =>
        mode.admits (host.type ino),
      s)
| .readFrom fd => (some (host.reports (s.entries fd)), s)
| .metadata file =>
    (some
        ⟨host.type file == .regularFile,
          (s.content file).length⟩,
      s)
| .writeZeros file len =>
    (decide
        ((zeroed (host.writes file) len
          (s.content file)).ending = .done),
      s.setContent file
        (zeroed (host.writes file) len
          (s.content file)).sink.content)
| .syncData _ => (true, s)
| .unlinkAt fd name removeDir =>
    if mayUnlink host.type s fd name removeDir then
      (true, s.removeEntry fd name)
    else
      (false, s)
| .enter _ _ => ((), s)

/- Each answer is one that can come. -/
theorem handler_possible
    (host : Host Ino) (s : FileSystem Ino)
    (request : Request Ino) :
    Possible host.type s request
      (host.handler s request).1
      (host.handler s request).2 := by
  cases request with
  | openDir =>
      refine ⟨rfl, ?_⟩
      intro ino hSome
      exact Option.filter_eq_some_iff.1 hSome
  | openAt fd name mode =>
      refine ⟨rfl, ?_⟩
      intro ino hSome
      exact Option.filter_eq_some_iff.1 hSome
  | readFrom fd => exact rfl
  | metadata file =>
      refine ⟨rfl, ?_⟩
      intro found hSome
      cases hSome
      exact ⟨rfl, rfl⟩
  | writeZeros file len => exact ⟨_, rfl, rfl⟩
  | syncData file => exact rfl
  | unlinkAt fd name removeDir =>
      unfold Host.handler
      dsimp only
      split
      · rename_i hMay
        refine ⟨?_, fun _ => ⟨hMay, rfl⟩⟩
        intro hFalse
        cases hFalse
      · refine ⟨fun _ => rfl, ?_⟩
        intro hTrue
        cases hTrue
  | enter fd depth => exact rfl

/- So the walk stays in its tree here as well. -/
theorem confined_alone
    (host : Host Ino) (depth : Nat) (s : FileSystem Ino)
    {earlier later : History Ino}
    {event : Event (FileSystem Ino) (Request Ino) Answer}
    (hTrace :
      (exec host.handler (scrubDir depth) s).trace =
        earlier ++ event :: later) :
    Confined host.type depth earlier event.request := by
  have hRuns :
      Runs (Possible host.type) (fun _ _ => True)
        (scrubDir depth) s
        (exec host.handler (scrubDir depth) s).trace
        (.done (exec host.handler (scrubDir depth) s).value)
        (exec host.handler (scrubDir depth) s).state := by
    apply runs_exec
    · exact handler_possible host
    · intro _
      trivial
  exact licensed_of_runs scrubDir_confined hRuns hTrace

end

------------------------------------------------------------
-- Forests
------------------------------------------------------------

/- What a directory holds: an entry, and the rest. -/
inductive Forest (Ino : Type)
| nil
| file
    (name : Name) (ino : Ino) (bytes : List UInt8)
    (rest : Forest Ino)
| link (name : Name) (ino : Ino) (rest : Forest Ino)
| dir
    (name : Name) (ino : Ino) (children rest : Forest Ino)

namespace Forest

variable {Ino : Type}

/- The entries of the directory itself. -/
def listing : Forest Ino → List (Name × Ino)
| nil => []
| file name ino _ rest => (name, ino) :: rest.listing
| link name ino rest => (name, ino) :: rest.listing
| dir name ino _ rest => (name, ino) :: rest.listing

/- The names of the entries. -/
def names (forest : Forest Ino) : List Name :=
  forest.listing.map Prod.fst

/- Everything at all levels. -/
def inos : Forest Ino → List Ino
| nil => []
| file _ ino _ rest => ino :: rest.inos
| link _ ino rest => ino :: rest.inos
| dir _ ino children rest =>
    ino :: (children.inos ++ rest.inos)

/- The files with their bytes, at any depth. -/
def files : Forest Ino → List (Ino × List UInt8)
| nil => []
| file _ ino bytes rest => (ino, bytes) :: rest.files
| link _ _ rest => rest.files
| dir _ _ children rest => children.files ++ rest.files

/- The links, at any depth. -/
def links : Forest Ino → List Ino
| nil => []
| file _ _ _ rest => rest.links
| link _ ino rest => ino :: rest.links
| dir _ _ children rest => children.links ++ rest.links

/- The level of the deepest entry, from one. -/
def height : Forest Ino → Nat
| nil => 0
| file _ _ _ rest => max 1 rest.height
| link _ _ rest => max 1 rest.height
| dir _ _ children rest =>
    max (children.height + 1) rest.height

/- In each directory a name is there once, and no dots. -/
def Named : Forest Ino → Prop
| nil => True
| file name _ _ rest =>
    ¬ IsDots name ∧ name ∉ rest.names ∧ rest.Named
| link name _ rest =>
    ¬ IsDots name ∧ name ∉ rest.names ∧ rest.Named
| dir name _ children rest =>
    ¬ IsDots name ∧ name ∉ rest.names ∧ children.Named ∧
      rest.Named

/-
  What a scrub leaves: the links that were not reported as
  such, and the directories that they keep from being empty.
-/
def leftover (unreported : Ino → Bool) :
    Forest Ino → Forest Ino
| nil => nil
| file _ _ _ rest => rest.leftover unreported
| link name ino rest =>
    if unreported ino then
      link name ino (rest.leftover unreported)
    else
      rest.leftover unreported
| dir name ino children rest =>
    match children.leftover unreported with
    | nil => rest.leftover unreported
    | left => dir name ino left (rest.leftover unreported)

/- The file system has the forest where its listing is. -/
def Stored
    (type : Ino → FileType) (s : FileSystem Ino) :
    Forest Ino → Prop
| nil => True
| file _ ino bytes rest =>
    type ino = .regularFile ∧ s.content ino = bytes ∧
      rest.Stored type s
| link _ ino rest =>
    type ino = .symlink ∧ rest.Stored type s
| dir _ ino children rest =>
    type ino = .directory ∧
      s.entries ino = children.listing ∧
      children.Stored type s ∧ rest.Stored type s

/- No entries are no tree. -/
theorem listing_eq_nil_iff
    {forest : Forest Ino} :
    forest.listing = [] ↔ forest = nil := by
  cases forest with
  | nil => simp [listing]
  | file name ino bytes rest => simp [listing]
  | link name ino rest => simp [listing]
  | dir name ino children rest => simp [listing]

/- A tree without levels has no entries. -/
theorem height_eq_zero_iff
    {forest : Forest Ino} :
    forest.height = 0 ↔ forest = nil := by
  cases forest with
  | nil => simp [height]
  | file name ino bytes rest =>
      simp only [height, reduceCtorEq, iff_false]
      omega
  | link name ino rest =>
      simp only [height, reduceCtorEq, iff_false]
      omega
  | dir name ino children rest =>
      simp only [height, reduceCtorEq, iff_false]
      omega

/- Nothing is left exactly if no link went unreported. -/
theorem leftover_eq_nil_iff
    {unreported : Ino → Bool} {forest : Forest Ino} :
    forest.leftover unreported = nil ↔
      ∀ ino ∈ forest.links, unreported ino = false := by
  induction forest with
  | nil => simp [leftover, links]
  | file name ino bytes rest ih => exact ih
  | link name ino rest ih =>
      unfold leftover links
      rw [List.forall_mem_cons]
      cases hReported : unreported ino with
      | true => simp
      | false =>
          rw [if_neg Bool.false_ne_true, ih]
          simp
  | dir name ino children rest ihChildren ihRest =>
      unfold leftover links
      rw [List.forall_mem_append, ← ihChildren, ← ihRest]
      split
      · rename_i hNil
        simp [hNil]
      · rename_i hLeft
        simp only [reduceCtorEq, false_iff, not_and]
        intro hNil
        exact absurd hNil hLeft

/- Only what is of the forest matters to it. -/
theorem Stored.congr
    {type : Ino → FileType} {s t : FileSystem Ino}
    {forest : Forest Ino}
    (hStored : forest.Stored type s)
    (hSame :
      ∀ ino ∈ forest.inos,
        t.entries ino = s.entries ino ∧
          t.content ino = s.content ino) :
    forest.Stored type t := by
  induction forest with
  | nil => trivial
  | file name ino bytes rest ih =>
      rcases hStored with ⟨hType, hContent, hRest⟩
      refine ⟨hType, ?_, ih hRest ?_⟩
      · rw [(hSame ino List.mem_cons_self).2, hContent]
      · intro other hMem
        exact hSame other (List.mem_cons_of_mem _ hMem)
  | link name ino rest ih =>
      refine ⟨hStored.1, ih hStored.2 ?_⟩
      intro other hMem
      exact hSame other (List.mem_cons_of_mem _ hMem)
  | dir name ino children rest ihChildren ihRest =>
      rcases hStored with
        ⟨hType, hEntries, hChildren, hRest⟩
      refine
        ⟨hType, ?_, ihChildren hChildren ?_, ihRest hRest ?_⟩
      · rw [(hSame ino List.mem_cons_self).1, hEntries]
      · intro other hMem
        apply hSame
        exact
          List.mem_cons_of_mem _ (List.mem_append_left _ hMem)
      · intro other hMem
        apply hSame
        exact
          List.mem_cons_of_mem _
            (List.mem_append_right _ hMem)

end Forest

------------------------------------------------------------
-- Trees
------------------------------------------------------------

/- A root and what is below it, each inode in one place. -/
structure Tree (Ino : Type) where
  root : Ino
  below : Forest Ino
  distinct : (root :: below.inos).Nodup
  named : below.Named

/- The path names the root, and the tree is there. -/
structure Tree.StoredIn
    {Ino : Type} (tree : Tree Ino)
    (type : Ino → FileType) (s : FileSystem Ino) : Prop where
  root_eq : s.root = some tree.root
  root_type : type tree.root = .directory
  entries_eq : s.entries tree.root = tree.below.listing
  stored : tree.below.Stored type s

end Scrub

end Shutdown

end Guest

end CargoUnikernel
