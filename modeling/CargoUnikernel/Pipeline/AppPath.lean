import CargoUnikernel.Library.BytePaths
import CargoUnikernel.Library.Fallible
import CargoUnikernel.Library.Shell
import CargoUnikernel.Schema.Validate

/-
  The app's path, on the host and in the container.

  On the host the path leads through links to a place below
  the project directory. The script gets the names of that
  place as text, below `/workspace`. Names that are no text
  are changed on the way, and then the script looks for
  something else.

  Main declarations:
    * `AcquireError`, `acquire`, `handed`, `appWord`
    * `Accepted`, `acquire_eq_ok_iff`
    * `Faithful`, `Translatable`
    * `acquire_faithful_iff`
-/

------------------------------------------------------------
-- Finding the App
------------------------------------------------------------

namespace CargoUnikernel

namespace Pipeline

namespace AppPath

open Schema FileTree Utf8 BytePaths

/- Why no app is found. -/
inductive AcquireError
| missingBinarySection
| missingBinaryPath
| missingSourceSection
| missingSourcePath
| projectNotCanonical (cause : FileError Empty)
| binaryDoesNotExist (path : Text) (cause : FileError Empty)
| binaryOutsideProject (path : Text)
| sourceDoesNotExist
    (path packagePath : Text) (cause : FileError Empty)
| sourceOutsideProject
| sourceWithoutManifest (path packagePath : Text)

namespace AcquireError

/- What the user is told, before the cause. -/
def message : AcquireError → Text
| missingBinarySection =>
    "app.mode = \"binary\" requires an [app.binary] section".toList
| missingBinaryPath =>
    "[app.binary] must set \x60path\x60".toList
| missingSourceSection =>
    "app.mode = \"source\" requires an [app.source] section".toList
| missingSourcePath =>
    "[app.source] must set \x60path\x60".toList
| projectNotCanonical _ =>
    "failed to canonicalize project directory".toList
| binaryDoesNotExist path _ =>
    "app.binary.path '".toList ++ path ++
      "' does not exist".toList
| binaryOutsideProject path =>
    ("app.binary.path must live inside the project " ++
        "directory (got ").toList ++ path ++ ")".toList
| sourceDoesNotExist path packagePath _ =>
    "app source directory '".toList ++ path ++ "/".toList ++
      packagePath ++ "' does not exist".toList
| sourceOutsideProject =>
    ("app source directory must live inside the project " ++
      "directory").toList
| sourceWithoutManifest path packagePath =>
    "app source directory '".toList ++ path ++ "/".toList ++
      packagePath ++ "' has no Cargo.toml".toList

end AcquireError

/- Where the app is in the project. -/
inductive AcquiredApp
| binary (path : Bytes)
| localSource (packagePath : Text)

/- Where the project is in the container. -/
def workspaceName : Bytes := encode "workspace".toList

/- `/workspace`, where the project is mounted. -/
def workspace : Bytes := slash :: workspaceName

/- What a Rust package has. -/
def manifestName : Bytes := encode "Cargo.toml".toList

/- The path of a place, as `canonicalize` answers it. -/
def canonicalPath (place : Place Bytes) : Bytes :=
  slash :: namesPath place

/- There is a file, links followed. -/
def isFile (machine : Machine) (path : Bytes) : Bool :=
  match machine.resolve path with
  | .error _ => false
  | .ok place =>
      match machine.tree.node place with
      | some .file => true
      | _ => false

section Acquire

variable (machine : Machine) (project : Bytes)

/- The project has to be there. -/
def canonicalProject : Except AcquireError (Place Bytes) :=
  (machine.resolve project).mapError .projectNotCanonical

/- The configured path, from the project on. -/
def binaryCandidate (path : Text) : Bytes :=
  joinPath project (encode path)

/- The file is there and below the project. -/
def acquireBinary (config : Config) :
    Except AcquireError AcquiredApp :=
  match config.app.binary with
  | none => .error .missingBinarySection
  | some binary =>
      match binary.path with
      | none => .error .missingBinaryPath
      | some path => do
          let root ← canonicalProject machine project
          let place ←
            (machine.resolve
              (binaryCandidate project path)).mapError
                (.binaryDoesNotExist path)
          if root.isPrefixOf place then
            .ok
              (.binary
                (joinPath workspace
                  (namesPath (place.drop root.length))))
          else
            .error (.binaryOutsideProject path)

/- The package's path, from the source's on. -/
def sourceCandidate (source : AppSource) (path : Text) :
    Bytes :=
  joinPath (joinPath project (encode path))
    (encode source.packagePath)

/- What a Rust package has to have in its directory. -/
def hasManifest (source : AppSource) (place : Place Bytes) :
    Bool :=
  source.toolchain ≠ .rust ∨
    isFile machine
      (joinPath (canonicalPath place) manifestName)

/- The package is there and below the project. -/
def acquireSource (config : Config) :
    Except AcquireError AcquiredApp :=
  match config.app.source with
  | none => .error .missingSourceSection
  | some source =>
      match source.path with
      | none => .error .missingSourcePath
      | some path => do
          let root ← canonicalProject machine project
          let place ←
            (machine.resolve
              (sourceCandidate project source path)).mapError
                (.sourceDoesNotExist path source.packagePath)
          if root.isPrefixOf place then
            if hasManifest machine source place then
              .ok
                (.localSource
                  (lossy
                    (namesPath (place.drop root.length))))
            else
              .error
                (.sourceWithoutManifest path
                  source.packagePath)
          else
            .error .sourceOutsideProject

/- The app, by its mode. -/
def acquire (config : Config) :
    Except AcquireError AcquiredApp :=
  match config.app.mode with
  | .binary => acquireBinary machine project config
  | .source => acquireSource machine project config

end Acquire

/- The path that is put into the script. -/
def handed : AcquiredApp → Text
| .binary path => lossy path
| .localSource packagePath =>
    "/workspace/".toList ++ packagePath

/- How the script writes it. -/
def appWord (app : AcquiredApp) : Text :=
  Shell.shellQuote (handed app)

------------------------------------------------------------
-- What Is Accepted
------------------------------------------------------------

/- The path that is looked up on the host. -/
def candidate (project : Bytes) (config : Config) :
    Option Bytes :=
  match config.app.mode with
  | .binary =>
      config.app.binary.bind fun binary =>
        binary.path.map (binaryCandidate project)
  | .source =>
      config.app.source.bind fun source =>
        source.path.map (sourceCandidate project source)

/- What else is asked of the place that it leads to. -/
def hasRequired
    (machine : Machine) (config : Config)
    (place : Place Bytes) : Bool :=
  match config.app.mode with
  | .binary => true
  | .source =>
      match config.app.source with
      | none => false
      | some source => hasManifest machine source place

/- The candidate is below the project, under these names. -/
structure Accepted
    (machine : Machine) (project : Bytes) (config : Config)
    (root names : Place Bytes) : Prop where
  root_eq : machine.resolve project = .ok root
  place_eq :
    ∃ path,
      candidate project config = some path ∧
        machine.resolve path = .ok (root ++ names)
  required : hasRequired machine config (root ++ names) = true

/- What is handed on for a place below the project. -/
def acquiredAs (mode : AppMode) (names : Place Bytes) :
    AcquiredApp :=
  match mode with
  | .binary => .binary (joinPath workspace (namesPath names))
  | .source => .localSource (lossy (namesPath names))

section Accepting

variable {machine : Machine} {project : Bytes}
variable {config : Config}

/- An error by another name is still an error. -/
theorem canonicalProject_eq_ok_iff {root : Place Bytes} :
    canonicalProject machine project = .ok root ↔
      machine.resolve project = .ok root := by
  unfold canonicalProject
  cases machine.resolve project with
  | error cause => simp [Except.mapError]
  | ok place => simp [Except.mapError]

/- The answer is the same. -/
theorem mapError_eq_ok_iff
    {ε δ α : Type} {convert : ε → δ} {a : α}
    {result : Except ε α} :
    result.mapError convert = .ok a ↔ result = .ok a := by
  cases result with
  | error cause => simp [Except.mapError]
  | ok value => simp [Except.mapError]

/- Both ways of finding the app look for a place below. -/
theorem below_eq_ok_iff
    {path : Bytes} {outside : AcquireError}
    {absent : FileError Empty → AcquireError}
    {found :
      Place Bytes → Place Bytes →
        Except AcquireError AcquiredApp}
    {app : AcquiredApp} :
    (do
      let root ← canonicalProject machine project
      let place ← (machine.resolve path).mapError absent
      if root.isPrefixOf place then
        found root place
      else
        .error outside) = .ok app ↔
      ∃ root names,
        machine.resolve project = .ok root ∧
          machine.resolve path = .ok (root ++ names) ∧
          found root (root ++ names) = .ok app := by
  constructor
  · intro hOk
    rcases (Fallible.bind_eq_ok_iff _ _ _).1 hOk with
      ⟨root, hRoot, hRest⟩
    rcases (Fallible.bind_eq_ok_iff _ _ _).1 hRest with
      ⟨place, hPlace, hLast⟩
    rw [canonicalProject_eq_ok_iff] at hRoot
    rw [mapError_eq_ok_iff] at hPlace
    by_cases hPrefix : root.isPrefixOf place = true
    · rw [if_pos hPrefix] at hLast
      rcases List.isPrefixOf_iff_prefix.1 hPrefix with
        ⟨names, rfl⟩
      exact ⟨root, names, hRoot, hPlace, hLast⟩
    · rw [if_neg hPrefix] at hLast
      cases hLast
  · rintro ⟨root, names, hRoot, hPlace, hFound⟩
    rw [canonicalProject_eq_ok_iff.2 hRoot, Fallible.ok_bind,
      mapError_eq_ok_iff.2 hPlace, Fallible.ok_bind, if_pos]
    · exact hFound
    · exact List.isPrefixOf_iff_prefix.2 ⟨names, rfl⟩

/- What is asked of a binary, and no more. -/
theorem acquireBinary_eq_ok_iff
    {app : AcquiredApp} (hMode : config.app.mode = .binary) :
    acquireBinary machine project config = .ok app ↔
      ∃ root names,
        Accepted machine project config root names ∧
          app = acquiredAs config.app.mode names := by
  unfold acquireBinary
  rw [hMode]
  constructor
  · intro hOk
    cases hBinary : config.app.binary with
    | none =>
        rw [hBinary] at hOk
        cases hOk
    | some binary =>
        rw [hBinary] at hOk
        dsimp only at hOk
        cases hPath : binary.path with
        | none =>
            rw [hPath] at hOk
            cases hOk
        | some path =>
            rw [hPath] at hOk
            rcases below_eq_ok_iff.1 hOk with
              ⟨root, names, hRoot, hPlace, hFound⟩
            rw [List.drop_left] at hFound
            refine ⟨root, names, ⟨hRoot, ?_, ?_⟩, ?_⟩
            · refine ⟨binaryCandidate project path, ?_, hPlace⟩
              unfold candidate
              rw [hMode, hBinary]
              dsimp only [Option.bind_some]
              rw [hPath]
              rfl
            · unfold hasRequired
              rw [hMode]
            · exact (Except.ok.inj hFound).symm
  · rintro ⟨root, names, ⟨hRoot, ⟨path, hPath, hPlace⟩, _⟩, rfl⟩
    unfold candidate at hPath
    rw [hMode] at hPath
    dsimp only at hPath
    cases hBinary : config.app.binary with
    | none =>
        rw [hBinary] at hPath
        cases hPath
    | some binary =>
        rw [hBinary, Option.bind_some] at hPath
        dsimp only
        cases hText : binary.path with
        | none =>
            rw [hText] at hPath
            cases hPath
        | some text =>
            rw [hText, Option.map_some] at hPath
            apply below_eq_ok_iff.2
            refine ⟨root, names, hRoot, ?_, ?_⟩
            · rw [Option.some.inj hPath]
              exact hPlace
            · rw [List.drop_left]
              rfl

/- What is asked of a package, and no more. -/
theorem acquireSource_eq_ok_iff
    {app : AcquiredApp} (hMode : config.app.mode = .source) :
    acquireSource machine project config = .ok app ↔
      ∃ root names,
        Accepted machine project config root names ∧
          app = acquiredAs config.app.mode names := by
  unfold acquireSource
  rw [hMode]
  constructor
  · intro hOk
    cases hSource : config.app.source with
    | none =>
        rw [hSource] at hOk
        cases hOk
    | some source =>
        rw [hSource] at hOk
        dsimp only at hOk
        cases hPath : source.path with
        | none =>
            rw [hPath] at hOk
            cases hOk
        | some path =>
            rw [hPath] at hOk
            rcases below_eq_ok_iff.1 hOk with
              ⟨root, names, hRoot, hPlace, hFound⟩
            rw [List.drop_left] at hFound
            by_cases hManifest :
                hasManifest machine source (root ++ names) = true
            · rw [if_pos hManifest] at hFound
              refine ⟨root, names, ⟨hRoot, ?_, ?_⟩, ?_⟩
              · refine
                  ⟨sourceCandidate project source path, ?_,
                    hPlace⟩
                unfold candidate
                rw [hMode, hSource]
                dsimp only [Option.bind_some]
                rw [hPath]
                rfl
              · unfold hasRequired
                rw [hMode, hSource]
                exact hManifest
              · exact (Except.ok.inj hFound).symm
            · rw [if_neg hManifest] at hFound
              cases hFound
  · rintro
      ⟨root, names, ⟨hRoot, ⟨path, hPath, hPlace⟩, hRequired⟩,
        rfl⟩
    unfold candidate at hPath
    unfold hasRequired at hRequired
    rw [hMode] at hPath hRequired
    dsimp only at hPath hRequired
    cases hSource : config.app.source with
    | none =>
        rw [hSource] at hPath
        cases hPath
    | some source =>
        rw [hSource] at hRequired
        rw [hSource, Option.bind_some] at hPath
        dsimp only
        cases hText : source.path with
        | none =>
            rw [hText] at hPath
            cases hPath
        | some text =>
            rw [hText, Option.map_some] at hPath
            apply below_eq_ok_iff.2
            refine ⟨root, names, hRoot, ?_, ?_⟩
            · rw [Option.some.inj hPath]
              exact hPlace
            · rw [if_pos hRequired, List.drop_left]
              rfl

/- An app is found exactly if a place for it is accepted. -/
theorem acquire_eq_ok_iff {app : AcquiredApp} :
    acquire machine project config = .ok app ↔
      ∃ root names,
        Accepted machine project config root names ∧
          app = acquiredAs config.app.mode names := by
  unfold acquire
  cases hMode : config.app.mode with
  | binary =>
      have hBinary :=
        @acquireBinary_eq_ok_iff machine project config app hMode
      rwa [hMode] at hBinary
  | source =>
      have hSource :=
        @acquireSource_eq_ok_iff machine project config app hMode
      rwa [hMode] at hSource

/- The names below the project are names of files. -/
theorem Accepted.named
    {root names : Place Bytes}
    (hAccepted :
      Accepted machine project config root names) :
    ∀ name ∈ names, IsFileName name := by
  rcases hAccepted.place_eq with ⟨path, _, hPlace⟩
  intro name hMem
  exact
    machine.named_of_resolve hPlace name
      (List.mem_append_right root hMem)

------------------------------------------------------------
-- What the Script Gets
------------------------------------------------------------

/- The project's name in the container is one. -/
theorem workspaceName_isFileName :
    IsFileName workspaceName where
  nonempty := by decide
  noSlash := by decide
  noNul := by decide
  notHere := by decide
  notUp := by decide

/- The names are put below it. -/
theorem joinPath_workspace
    {names : Place Bytes}
    (hNames : ∀ name ∈ names, IsFileName name) :
    joinPath workspace (namesPath names) =
      workspace ++ slash :: namesPath names := by
  have hRelative : isAbsolute (namesPath names) = false := by
    cases names with
    | nil => rfl
    | cons name names =>
        have hName := hNames name List.mem_cons_self
        cases name with
        | nil => exact absurd rfl hName.nonempty
        | cons byte name =>
            have hByte : byte ≠ slash := by
              rintro rfl
              exact hName.noSlash List.mem_cons_self
            unfold isAbsolute
            cases names with
            | nil => simpa [namesPath] using hByte
            | cons next names =>
                rw [namesPath_cons_cons]
                simpa using hByte
  unfold joinPath
  rw [hRelative]
  rfl

/- Its path is text. -/
theorem lossy_workspace :
    lossy workspace = "/workspace".toList :=
  lossy_encode "/workspace".toList

/- Either way, it is the text of the path below `/workspace`. -/
theorem encode_handed_acquiredAs
    {names : Place Bytes} (mode : AppMode)
    (hNames : ∀ name ∈ names, IsFileName name) :
    encode (handed (acquiredAs mode names)) =
      shownPath workspaceName names := by
  cases mode with
  | binary =>
      unfold acquiredAs handed
      dsimp only
      rw [joinPath_workspace hNames,
        lossy_append_cons (by decide), lossy_workspace,
        encode_append, encode_cons, encodeChar_slash]
      rfl
  | source =>
      unfold acquiredAs handed
      dsimp only
      rw [encode_append]
      rfl

end Accepting

------------------------------------------------------------
-- The Same Place
------------------------------------------------------------

/- The container's files, with the project among them. -/
def containerTree
    (machine : Machine) (base : Disk Bytes)
    (root : Place Bytes) : Disk Bytes :=
  bindMount base workspaceName machine.tree root

/-
  What the shell reads leads in the container to the place
  that was looked at on the host, below the project.
-/
def Denotes
    (machine : Machine) (base : Disk Bytes) (project : Bytes)
    (config : Config) (app : AcquiredApp) : Prop :=
  ∃ root names path text,
    machine.resolve project = .ok root ∧
      candidate project config = some path ∧
      machine.resolve path = .ok (root ++ names) ∧
      Shell.lex (appWord app) = some [.word text] ∧
      resolve machine.links (containerTree machine base root)
          [] (encode text) =
        .ok (workspaceName :: names)

/- So it is for every app that is found. -/
def Faithful
    (machine : Machine) (base : Disk Bytes) (project : Bytes)
    (config : Config) : Prop :=
  ∀ app, acquire machine project config = .ok app →
    Denotes machine base project config app

/-
  The names below the project are text, or else a link leads
  to the place from the names that are shown instead.
-/
def Translatable
    (machine : Machine) (base : Disk Bytes) (project : Bytes)
    (config : Config) : Prop :=
  ∀ root names,
    Accepted machine project config root names →
      IsUtf8 (namesPath names) ∨
        HasAlias machine.links (containerTree machine base root)
          workspaceName names

section Translating

variable {machine : Machine} {project : Bytes}
variable {config : Config}

/- What is accepted on the host is there in the container. -/
theorem Accepted.isReal
    {root names : Place Bytes}
    (hAccepted :
      Accepted machine project config root names)
    (base : Disk Bytes) :
    (containerTree machine base root).IsReal
      (workspaceName :: names) := by
  rcases hAccepted.place_eq with ⟨path, _, hPlace⟩
  have hReal := machine.isReal_of_resolve hPlace
  unfold Disk.IsReal containerTree at *
  rw [bindMount_node]
  exact hReal

/-
  The path is translated faithfully exactly where the names
  are text, as far as no link makes up for the others.
-/
theorem acquire_faithful_iff
    (base : Disk Bytes)
    (hProject :
      ∀ root, machine.resolve project = .ok root →
        machine.tree.node root = some .directory) :
    Faithful machine base project config ↔
      Translatable machine base project config := by
  have hShown :
      ∀ {root names},
        Accepted machine project config root names →
          (resolve machine.links
                (containerTree machine base root) []
                (encode
                  (handed
                    (acquiredAs config.app.mode names))) =
              .ok (workspaceName :: names) ↔
            IsUtf8 (namesPath names) ∨
              HasAlias machine.links
                (containerTree machine base root)
                workspaceName names) := by
    intro root names hAccepted
    have hNames := hAccepted.named
    rw [encode_handed_acquiredAs config.app.mode hNames]
    apply
      resolve_shownPath_iff workspaceName_isFileName hNames
        (hAccepted.isReal base)
    intro _
    unfold containerTree
    rw [bindMount_node, List.append_nil]
    exact hProject root hAccepted.root_eq
  constructor
  · intro hFaithful root names hAccepted
    have hOk :
        acquire machine project config =
          .ok (acquiredAs config.app.mode names) :=
      acquire_eq_ok_iff.2 ⟨root, names, hAccepted, rfl⟩
    rcases hFaithful _ hOk with
      ⟨other, rest, path, text, hRoot, hPath, hPlace, hWord,
        hResolve⟩
    rcases hAccepted.place_eq with ⟨same, hSame, hThere⟩
    have hRootEq : other = root := by
      rw [hAccepted.root_eq] at hRoot
      exact (Except.ok.inj hRoot).symm
    have hPathEq : path = same := by
      rw [hSame] at hPath
      exact (Option.some.inj hPath).symm
    have hRest : rest = names := by
      rw [hPathEq, hThere, hRootEq] at hPlace
      exact
        (List.append_cancel_left (Except.ok.inj hPlace)).symm
    have hText :
        text = handed (acquiredAs config.app.mode names) := by
      unfold appWord at hWord
      rw [Shell.lex_shellQuote] at hWord
      cases hWord
      rfl
    rw [hRootEq, hRest, hText] at hResolve
    exact (hShown hAccepted).1 hResolve
  · intro hTranslatable app hOk
    rcases acquire_eq_ok_iff.1 hOk with
      ⟨root, names, hAccepted, rfl⟩
    rcases hAccepted.place_eq with ⟨path, hPath, hPlace⟩
    refine
      ⟨root, names, path, _, hAccepted.root_eq, hPath, hPlace,
        Shell.lex_shellQuote _, ?_⟩
    exact
      (hShown hAccepted).2 (hTranslatable root names hAccepted)

end Translating

------------------------------------------------------------
-- A Name That Is No Text
------------------------------------------------------------

/- A project with one file, and its app. -/
def projectName : Bytes := encode "project".toList

def projectPath : Bytes := slash :: projectName

def appName : Bytes := encode "app".toList

/- The app is a link to another file of the project. -/
def linkMachine
    (target : Bytes) (hTarget : IsFileName target) :
    Machine where
  links := 40
  tree :=
    ((Disk.bare.add [] projectName .directory).add
        [projectName] target .file).add [projectName] appName
      (.link [.down target])
  cwd := []
  named :=
    named_add
      (named_add
        (named_add named_bare
          ⟨by decide, by decide, by decide, by decide,
            by decide⟩)
        hTarget)
      ⟨by decide, by decide, by decide, by decide, by decide⟩
  cwd_eq := rfl

/- A name that is text. -/
def versionName : Bytes := [0x61, 0x31]

/- The file is named in ASCII. -/
def versionMachine : Machine :=
  linkMachine versionName
    ⟨by decide, by decide, by decide, by decide, by decide⟩

/- A byte that starts no character. -/
def oddName : Bytes := [0x62, 0xFF]

/- The file's name is no text. -/
def linkedMachine : Machine :=
  linkMachine oddName
    ⟨by decide, by decide, by decide, by decide, by decide⟩

/- The app is there already. -/
def binaryConfig : ValidConfig where
  config :=
    { casualConfigWithFormats [.cpio] with
      app :=
        { mode := .binary
          binary := some { path := some "app".toList } } }
  valid := rfl

/- The file behind the link is found in the container. -/
theorem acquire_faithful_linked :
    acquire versionMachine projectPath binaryConfig.config =
        .ok (.binary (workspace ++ slash :: versionName)) ∧
      Faithful versionMachine .bare projectPath
        binaryConfig.config := by
  have hProject :
      versionMachine.resolve projectPath =
        .ok [projectName] := by
    rfl
  refine ⟨rfl, (acquire_faithful_iff .bare ?_).2 ?_⟩
  · intro root hRoot
    rw [hProject] at hRoot
    cases hRoot
    rfl
  · intro root names hAccepted
    left
    rcases hAccepted.place_eq with ⟨path, hPath, hPlace⟩
    have hCandidate :
        versionMachine.resolve
            (binaryCandidate projectPath "app".toList) =
          .ok ([projectName] ++ [versionName]) := by
      rw [← Fallible.toOption_eq_some_iff]
      decide
    have hRoot : root = [projectName] := by
      have hRoot := hAccepted.root_eq
      rw [hProject] at hRoot
      exact (Except.ok.inj hRoot).symm
    have hNames : names = [versionName] := by
      cases hPath
      rw [hRoot] at hPlace
      have hBoth := hCandidate.symm.trans hPlace
      exact
        (List.append_cancel_left (Except.ok.inj hBoth)).symm
    rw [hNames]
    exact ⟨"a1".toList, rfl⟩

/- The script looks for another name, which is not there. -/
theorem odd_name_is_not_found :
    linkedMachine.resolve projectPath = .ok [projectName] ∧
      linkedMachine.tree.node [projectName] =
        some .directory ∧
      ¬ Faithful linkedMachine .bare projectPath
        binaryConfig.config := by
  refine ⟨rfl, rfl, ?_⟩
  intro hFaithful
  have hOk :
      acquire linkedMachine projectPath binaryConfig.config =
        .ok (.binary (workspace ++ slash :: oddName)) := by
    rfl
  rcases hFaithful _ hOk with
    ⟨root, names, path, text, hRoot, _, _, hWord, hResolve⟩
  cases hRoot
  cases hWord
  cases hResolve

end AppPath

end Pipeline

end CargoUnikernel
