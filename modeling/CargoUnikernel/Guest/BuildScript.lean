import CargoUnikernel.Library.Text
import Mathlib.Data.List.Nodup

/-
  The guest's build script.

  It bakes environment variables into compile-time constants
  by printing directives, one a line. A variable that is not
  set has the default its `passthrough` names.

  Main declarations:
    * `Constant`, `passthroughs`
    * `value`, `constant`
    * `passthrough`, `main`
    * `directives`, `lines_main_iff`
    * `received`, `compiled`, `compiled_main`
-/

------------------------------------------------------------
-- Constants
------------------------------------------------------------

namespace CargoUnikernel

namespace Guest

namespace BuildScript

/- The constants, under their names without the prefix. -/
inductive Constant
| payloadDir
| appPath
| appUid
| appGid
| appEnv
| ipv6Static
| ipv6Gateway
| ipv6Iface
| extraSysctls
| limitNofile
| limitNproc
| limitAsMb
| limitMemlockMb
| tmpfsTmpMb
| tmpfsRunMb
| tmpfsShmMb
| tmpfsVarTmpMb
| firewallRules
| landlockRo
| landlockRw
| nameservers
| dnsSearch
deriving DecidableEq

/- The name, without what all of them begin with. -/
def Constant.suffix : Constant → String
| .payloadDir => "PAYLOAD_DIR"
| .appPath => "APP_PATH"
| .appUid => "APP_UID"
| .appGid => "APP_GID"
| .appEnv => "APP_ENV"
| .ipv6Static => "IPV6_STATIC"
| .ipv6Gateway => "IPV6_GATEWAY"
| .ipv6Iface => "IPV6_IFACE"
| .extraSysctls => "EXTRA_SYSCTLS"
| .limitNofile => "LIMIT_NOFILE"
| .limitNproc => "LIMIT_NPROC"
| .limitAsMb => "LIMIT_AS_MB"
| .limitMemlockMb => "LIMIT_MEMLOCK_MB"
| .tmpfsTmpMb => "TMPFS_TMP_MB"
| .tmpfsRunMb => "TMPFS_RUN_MB"
| .tmpfsShmMb => "TMPFS_SHM_MB"
| .tmpfsVarTmpMb => "TMPFS_VAR_TMP_MB"
| .firewallRules => "FIREWALL_RULES"
| .landlockRo => "LANDLOCK_RO"
| .landlockRw => "LANDLOCK_RW"
| .nameservers => "NAMESERVERS"
| .dnsSearch => "DNS_SEARCH"

/- The name of the variable and of the constant. -/
def Constant.name (constant : Constant) : Text :=
  "CARGO_UNIKERNEL_".toList ++ constant.suffix.toList

/- What is passed through, with the default of each. -/
def passthroughs : List (Constant × String) :=
  [(.payloadDir, "/payload"),
    (.appPath, "/payload/app"),
    (.appUid, "65534"),
    (.appGid, "65534"),
    (.appEnv, ""),
    (.ipv6Static, ""),
    (.ipv6Gateway, ""),
    (.ipv6Iface, ""),
    (.extraSysctls, ""),
    (.limitNofile, "65536"),
    (.limitNproc, "2048"),
    (.limitAsMb, "0"),
    (.limitMemlockMb, "64"),
    (.tmpfsTmpMb, "64"),
    (.tmpfsRunMb, "16"),
    (.tmpfsShmMb, "64"),
    (.tmpfsVarTmpMb, "64"),
    (.firewallRules, ""),
    (.landlockRo, ""),
    (.landlockRw, ""),
    (.nameservers, ""),
    (.dnsSearch, "")]

------------------------------------------------------------
-- The Script
------------------------------------------------------------

/- The environment the script runs in, one entry a name. -/
abbrev Environment := List (Constant × Text)

/- A variable that is not set has its default. -/
def value
    (environment : Environment) (name : Constant)
    (default : String) : Text :=
  (environment.lookup name).getD default.toList

/- The directive that sets a variable for the compiler. -/
def rustcEnv (name : Constant) (value : Text) : Text :=
  "cargo:rustc-env=".toList ++ name.name ++ '=' :: value

/- The directive that has cargo watch a variable. -/
def rerunIfEnvChanged (name : Constant) : Text :=
  "cargo:rerun-if-env-changed=".toList ++ name.name

/- The two directives of one variable, a line each. -/
def passthrough
    (environment : Environment) (name : Constant)
    (default : String) : Text :=
  rustcEnv name (value environment name default) ++ '\n' ::
    (rerunIfEnvChanged name ++ ['\n'])

/- All that the script prints. -/
def main (environment : Environment) : Text :=
  passthroughs.flatMap fun entry =>
    passthrough environment entry.1 entry.2

/- What a constant of the crate then resolves to. -/
def constant
    (environment : Environment) (name : Constant) : Text :=
  value environment name
    ((passthroughs.lookup name).getD "")

------------------------------------------------------------
-- The Lines It Prints
------------------------------------------------------------

/- The directives that are meant, one entry a line. -/
def directives (environment : Environment) : List Text :=
  passthroughs.flatMap fun entry =>
    [rustcEnv entry.1 (value environment entry.1 entry.2),
      rerunIfEnvChanged entry.1]

/- What is printed is the directives, line by line. -/
theorem main_eq_unlines (environment : Environment) :
    main environment = Text.unlines (directives environment) := by
  unfold main directives Text.unlines
  rw [List.flatMap_assoc]
  apply List.flatMap_congr
  intro entry _
  simp [passthrough]

/- Only a value can bring a newline in. -/
theorem newline_not_mem_name (name : Constant) :
    '\n' ∉ name.name := by
  cases name <;> decide

theorem newline_not_mem_rerunIfEnvChanged
    (name : Constant) :
    '\n' ∉ rerunIfEnvChanged name := by
  have hKey :
      '\n' ∉ "cargo:rerun-if-env-changed=".toList := by
    decide
  unfold rerunIfEnvChanged
  rw [List.mem_append, not_or]
  exact ⟨hKey, newline_not_mem_name name⟩

/- A directive has the newlines of its value. -/
theorem newline_mem_rustcEnv_iff
    (name : Constant) (value : Text) :
    '\n' ∈ rustcEnv name value ↔ '\n' ∈ value := by
  have hKey :
      '\n' ∉ "cargo:rustc-env=".toList ++ name.name := by
    rw [List.mem_append, not_or]
    exact ⟨by decide, newline_not_mem_name name⟩
  have hEquals : '\n' ≠ '=' := by
    decide
  unfold rustcEnv
  rw [List.mem_append, List.mem_cons, or_iff_right hKey,
    or_iff_right hEquals]

/- Every constant is passed through, under its default. -/
theorem mem_passthroughs (name : Constant) :
    (name, (passthroughs.lookup name).getD "") ∈
      passthroughs := by
  cases name <;> decide

/- No constant is passed through twice. -/
theorem eq_default_of_mem :
    ∀ entry ∈ passthroughs,
      (passthroughs.lookup entry.1).getD "" = entry.2 := by
  decide

/- No directive has a newline where no constant does. -/
theorem newline_not_mem_directives
    {environment : Environment}
    (hFree : ∀ name, '\n' ∉ constant environment name) :
    ∀ line ∈ directives environment, '\n' ∉ line := by
  intro line hMem
  unfold directives at hMem
  rw [List.mem_flatMap] at hMem
  rcases hMem with ⟨⟨name, default⟩, hEntry, hLine⟩
  have hValue := hFree name
  unfold constant at hValue
  rw [eq_default_of_mem _ hEntry] at hValue
  simp only [List.mem_cons, List.not_mem_nil, or_false]
    at hLine
  rcases hLine with rfl | rfl
  · rwa [newline_mem_rustcEnv_iff]
  · exact newline_not_mem_rerunIfEnvChanged name

/-
  The printed lines are the directives where no constant has
  a newline in its value, and only there.
-/
theorem lines_main_iff (environment : Environment) :
    Text.lines (main environment) = directives environment ↔
      ∀ name, '\n' ∉ constant environment name := by
  rw [main_eq_unlines, Text.lines_unlines_iff]
  constructor
  · intro hFree name hNewline
    refine hFree (rustcEnv name (constant environment name))
      ?_ ((newline_mem_rustcEnv_iff _ _).2 hNewline)
    unfold directives
    rw [List.mem_flatMap]
    exact ⟨_, mem_passthroughs name, List.mem_cons_self⟩
  · exact newline_not_mem_directives

------------------------------------------------------------
-- What Cargo Makes of Them
------------------------------------------------------------

/- A shell that reads a script leaves out its NULs. -/
def received (exports : Environment) : Environment :=
  exports.map fun entry =>
    (entry.1, entry.2.filter fun c => c ≠ '\x00')

/- A variable is received without its value's NULs. -/
theorem lookup_received
    (exports : Environment) (name : Constant) :
    (received exports).lookup name =
      (exports.lookup name).map fun value =>
        value.filter fun c => c ≠ '\x00' := by
  unfold received
  induction exports with
  | nil => rfl
  | cons entry exports ih =>
      rw [List.map_cons, List.lookup_cons, List.lookup_cons]
      split
      · rfl
      · exact ih

/- What has no NUL is received as it is. -/
theorem constant_received
    {exports : Environment} {name : Constant}
    (hFree : '\x00' ∉ constant exports name) :
    constant (received exports) name =
      constant exports name := by
  unfold constant value at hFree ⊢
  rw [lookup_received]
  cases hFound : exports.lookup name with
  | none => rfl
  | some value =>
      rw [hFound] at hFree
      rw [Option.map_some, Option.getD_some, Option.getD_some]
      apply List.filter_eq_self.2
      intro c hMem
      rw [decide_eq_true_eq]
      rintro rfl
      exact hFree hMem

/- The key and the value of a line, in either spelling. -/
def directive (line : Text) : Option (Text × Text) :=
  let line := Text.trim line
  let data :=
    (Text.stripPrefix "cargo::".toList line).or
      (Text.stripPrefix "cargo:".toList line)
  data.bind (Text.splitOnce '=')

/- The variable that a line sets, and what it sets it to. -/
def setting (line : Text) : Option (Text × Text) :=
  (directive line).bind fun entry =>
    if entry.1 = "rustc-env".toList then
      Text.splitOnce '=' entry.2
    else
      none

/-
  What the crate is compiled with, by the lines that a script
  has printed: of the lines for one variable the last counts.
-/
def compiled (output : Text) (name : Constant) :
    Option Text :=
  let settings := (Text.split '\n' output).filterMap setting
  (settings.filter fun entry =>
    entry.1 = name.name).getLast?.map Prod.snd

/- The first `=` ends the name. -/
theorem equals_not_mem_name (name : Constant) :
    '=' ∉ name.name := by
  cases name <;> decide

/- No two constants have one variable. -/
theorem name_injective : Function.Injective Constant.name := by
  have hNames :
      (passthroughs.map fun entry => entry.1.name).Nodup := by
    decide
  intro first second hSame
  have hEntries :=
    List.inj_on_of_nodup_map hNames
      (mem_passthroughs first) (mem_passthroughs second)
      hSame
  exact congrArg Prod.fst hEntries

/- A line in the older spelling, which ends as it should. -/
theorem directive_of_older
    {key : Text} (hKey : '=' ∉ key)
    (hOther : key.head? ≠ some ':') {value : Text}
    (hEnd : Text.EndsSolid value) :
    directive ("cargo:".toList ++ (key ++ '=' :: value)) =
      some (key, value) := by
  have hTrim :
      Text.trim ("cargo:".toList ++ (key ++ '=' :: value)) =
        "cargo:".toList ++ (key ++ '=' :: value) := by
    apply Text.trim_of_solid
    · intro c hFirst
      cases hFirst
      decide
    · rw [← List.append_assoc]
      exact hEnd.append_cons (by decide) _
  have hNewer :
      Text.stripPrefix "cargo::".toList
          ("cargo:".toList ++ (key ++ '=' :: value)) =
        none := by
    cases key with
    | nil => rfl
    | cons first rest =>
        have hFirst : ':' ≠ first := by
          rintro rfl
          exact hOther rfl
        simp [Text.stripPrefix, hFirst]
  unfold directive
  dsimp only
  rw [hTrim, hNewer, Text.stripPrefix_append, Option.none_or,
    Option.bind_some, Text.splitOnce_append hKey]

/- No name ends in white space. -/
theorem endsSolid_name (name : Constant) :
    Text.EndsSolid name.name := by
  cases name <;> decide

/- A value that ends in no white space is read in full. -/
theorem setting_rustcEnv
    (name : Constant) {value : Text}
    (hEnd : Text.EndsSolid value) :
    setting (rustcEnv name value) =
      some (name.name, value) := by
  have hKey :
      "cargo:rustc-env=".toList =
        "cargo:".toList ++ ("rustc-env".toList ++ ['=']) := by
    decide
  have hLine :
      rustcEnv name value =
        "cargo:".toList ++
          ("rustc-env".toList ++
            '=' :: (name.name ++ '=' :: value)) := by
    unfold rustcEnv
    rw [hKey]
    simp only [List.append_assoc, List.cons_append,
      List.nil_append]
  have hValue :
      Text.EndsSolid (name.name ++ '=' :: value) :=
    hEnd.append_cons (by decide) name.name
  have hDirective :
      directive (rustcEnv name value) =
        some
          ("rustc-env".toList,
            name.name ++ '=' :: value) := by
    rw [hLine]
    exact directive_of_older (by decide) (by decide) hValue
  have hSplit :
      Text.splitOnce '=' (name.name ++ '=' :: value) =
        some (name.name, value) :=
    Text.splitOnce_append (equals_not_mem_name name) value
  unfold setting
  rw [hDirective, Option.bind_some]
  exact (if_pos (Eq.refl "rustc-env".toList)).trans hSplit

/- These directives set no variable. -/
theorem setting_rerunIfEnvChanged (name : Constant) :
    setting (rerunIfEnvChanged name) = none := by
  have hKey :
      "cargo:rerun-if-env-changed=".toList =
        "cargo:".toList ++
          ("rerun-if-env-changed".toList ++ ['=']) := by
    decide
  have hLine :
      rerunIfEnvChanged name =
        "cargo:".toList ++
          ("rerun-if-env-changed".toList ++
            '=' :: name.name) := by
    unfold rerunIfEnvChanged
    rw [hKey]
    simp only [List.append_assoc, List.cons_append,
      List.nil_append]
  have hNot :
      "rerun-if-env-changed".toList ≠ "rustc-env".toList := by
    decide
  unfold setting
  rw [hLine,
    directive_of_older (by decide) (by decide)
      (endsSolid_name name),
    Option.bind_some]
  exact if_neg hNot

/- The variables are set to the values that are passed on. -/
theorem settings_directives
    {environment : Environment}
    (hEnds :
      ∀ name, Text.EndsSolid (constant environment name)) :
    (directives environment).filterMap setting =
      passthroughs.map fun entry =>
        (entry.1.name,
          value environment entry.1 entry.2) := by
  unfold directives
  rw [List.filterMap_flatMap, List.map_eq_flatMap]
  apply List.flatMap_congr
  rintro ⟨name, default⟩ hEntry
  have hEnd := hEnds name
  unfold constant at hEnd
  rw [eq_default_of_mem _ hEntry] at hEnd
  simp [setting_rustcEnv name hEnd,
    setting_rerunIfEnvChanged name]

/-
  A crate is compiled with the constants that were meant, if
  each of them is on one line and ends in no white space.
-/
theorem compiled_main
    {environment : Environment}
    (hFree : ∀ name, '\n' ∉ constant environment name)
    (hEnds :
      ∀ name, Text.EndsSolid (constant environment name))
    (name : Constant) :
    compiled (main environment) name =
      some (constant environment name) := by
  have hSettings :
      (Text.split '\n' (main environment)).filterMap setting =
        passthroughs.map fun entry =>
          (entry.1.name,
            value environment entry.1 entry.2) := by
    rw [main_eq_unlines,
      Text.split_unlines (newline_not_mem_directives hFree),
      List.filterMap_append, settings_directives hEnds]
    exact List.append_nil _
  have hFilter :
      (passthroughs.map fun entry =>
          (entry.1.name,
            value environment entry.1 entry.2)).filter
          (fun entry => entry.1 = name.name) =
        (passthroughs.filter fun entry =>
            entry.1 = name).map
          fun entry =>
            (entry.1.name,
              value environment entry.1 entry.2) := by
    rw [List.filter_map]
    congr 1
    apply List.filter_congr
    intro entry _
    simp [name_injective.eq_iff]
  unfold compiled
  dsimp only
  rw [hSettings, hFilter]
  cases name <;> rfl

end BuildScript

end Guest

end CargoUnikernel
