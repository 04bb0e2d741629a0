import CargoUnikernel.Guest.Boot.Mounted

/-
  What a boot does besides mounting, once all is mounted.

  None of it changes the table of mounts. Every path that is
  written or read is on a mount that has it: the sysctls and
  the tables of the network are beneath `/proc`, which shows
  all of them until it is remounted.

  Main declarations:
    * `Keeps`, `keeps_bind`, `keeps_forM`
    * `keeps_initNetworking`, `keeps_writeEtc`
    * `keeps_applyHardening`, `sound_waitForEntropy`
    * `sound_armShutdownTriggers`, `sound_chownDirsForApp`
-/

------------------------------------------------------------
-- Procedures that Keep the Stage
------------------------------------------------------------

namespace CargoUnikernel

namespace Guest

namespace Boot

open Landlock (locate follow)
open Procedures

/- Whatever comes of it, the stage is the same. -/
def Keeps
    (image : Image) (table : Table) (marks : Marks)
    {α : Type} (proc : Init α) : Prop :=
  Sound image (At table marks) proc fun _ => At table marks

section

variable {image : Image} {table : Table} {marks : Marks}
variable {α β : Type}

/- The rules for procedures that stay at a stage. -/
theorem keeps_pure (value : α) :
    Keeps image table marks (pure value) :=
  sound_pure fun _ hStage => hStage

theorem keeps_bind
    {first : Init α} {next : α → Init β}
    (hFirst : Keeps image table marks first)
    (hNext : ∀ value, Keeps image table marks (next value)) :
    Keeps image table marks (first >>= next) :=
  spec_bind hFirst hNext

/- What may be left out keeps the stage either way. -/
theorem keeps_when
    {wanted : Bool} {proc : Init Unit}
    (hWanted :
      wanted = true → Keeps image table marks proc) :
    Keeps image table marks (.when wanted proc) :=
  spec_when hWanted fun _ _ hStage => hStage

/- A list of procedures that all keep the stage. -/
theorem keeps_forM
    {items : List β} {body : β → Init Unit}
    (hBody :
      ∀ item ∈ items, Keeps image table marks (body item)) :
    Keeps image table marks (forM items body) :=
  spec_forM hBody

/- A question that is always ready at the stage. -/
theorem keeps_ask
    {query : Query}
    (hReady :
      ∀ s, Stage table marks s → query.Ready image s) :
    Keeps image table marks (ask query) := by
  refine spec_consequence (fun _ hStage => hStage)
    (sound_quiet rfl ?_) fun _ _ hBoth => hBoth.1
  intro s hStage
  exact ⟨hReady s hStage, trivial⟩

/- The names in a directory are names of files. -/
theorem sound_readDir
    {path : Text}
    (hReaches : reaches table (locate path) = true) :
    Sound image (At table marks) (ask (.readDir path))
      fun answer s =>
        (∀ entries, answer = .ok entries →
          ∀ name ∈ flattened entries, IsFileName name) ∧
          At table marks s := by
  apply sound_call
  · intro s hStage
    exact ⟨hStage.reaches hReaches, trivial⟩
  · intro s answer t hStage hProceeds _
    refine ⟨?_, Stage.of_quiet hStage rfl hProceeds⟩
    rintro entries rfl name hMem
    apply hProceeds.1 name
    rcases List.mem_filterMap.1 hMem with
      ⟨entry, hEntry, hName⟩
    cases entry with
    | error errno => cases hName
    | ok other =>
        cases hName
        exact hEntry

end

/- A name is the last part of the path it is put to. -/
theorem split_append_name
    {dir name : Text} (hName : IsFileName name) :
    Text.split '/' (dir ++ '/' :: name) =
      Text.split '/' dir ++ [name] := by
  have hJoin :
      Text.split '/' (Text.join '/' [name]) = [name] := by
    apply Text.split_join
    · simpa using hName.noSlash
    · exact List.cons_ne_nil _ _
  have hWhole : Text.split '/' name = [name] := by
    simpa [Text.join, List.intercalate] using hJoin
  rw [← hWhole]
  exact List.splitOn_append_cons_self ..

/- A file in a directory. -/
theorem locate_name
    {dir name : Text} (hName : IsFileName name) :
    locate (dir ++ '/' :: name) = locate dir ++ [name] := by
  unfold locate
  rw [split_append_name hName, List.foldl_append,
    List.foldl_cons, List.foldl_nil]
  unfold follow
  rw [if_neg (not_or.2 ⟨hName.nonempty, hName.notDot⟩),
    if_neg hName.notUp]

/- The name of an interface does not lead out of its place. -/
theorem isSysctlPath_interfaceKnob
    {family name : String} {entry : Text}
    (hDir :
      Hardening.isSysctlPath (Hardening.confDir family) = true)
    (hName : "..".toList ∉ Text.split '/' name.toList)
    (hEntry : IsFileName entry) :
    Hardening.isSysctlPath
        (Hardening.interfaceKnob family entry name).1 =
      true := by
  rcases (Hardening.isSysctlPath_iff _).1 hDir with
    ⟨hPrefix, hUp⟩
  rw [Hardening.isSysctlPath_iff]
  unfold Hardening.interfaceKnob
  constructor
  · rw [List.append_assoc]
    exact hPrefix.trans (List.prefix_append _ _)
  · have hParts :
        Text.split '/'
            (Hardening.confDir family ++ '/' :: entry ++
              '/' :: name.toList) =
          Text.split '/'
              (Hardening.confDir family ++ '/' :: entry) ++
            Text.split '/' name.toList :=
      List.splitOn_append_cons_self ..
    rw [hParts, split_append_name hEntry]
    simp only [List.mem_append, List.mem_singleton, not_or]
    exact ⟨⟨hUp, Ne.symm hEntry.notUp⟩, hName⟩

/-
  The directories of the interfaces are below `/proc/sys`.
-/
theorem isSysctlPath_confDir
    {family : String × List String}
    (hFamily : family ∈ Hardening.existingInterfaceKnobs) :
    Hardening.isSysctlPath (Hardening.confDir family.1) =
      true := by
  unfold Hardening.existingInterfaceKnobs at hFamily
  simp only [List.mem_cons, List.not_mem_nil, or_false]
    at hFamily
  rcases hFamily with rfl | rfl
  · rfl
  · rfl

/- None of the knobs leads out of it, either. -/
theorem up_not_mem_existingInterfaceKnobs :
    ∀ family ∈ Hardening.existingInterfaceKnobs,
      ∀ name ∈ family.2,
        "..".toList ∉ Text.split '/' name.toList := by
  decide

------------------------------------------------------------
-- The Network
------------------------------------------------------------

section

variable {image : Image} {marks : Marks}
variable {root : Root} {data : Baked.Mounts} {pts : Bool}

open Layout

/- A link is brought up behind the filter, if there is one. -/
theorem keeps_ioctl
    {table : Table} {inet6 : Bool} {request : Ioctl}
    {arg : List UInt8}
    (hFiltered :
      image.has .firewall = true → marks.filtered = true) :
    Keeps image table marks (ioctl inet6 request arg) := by
  apply keeps_ask
  intro s hStage
  cases request with
  | siocsifflags =>
      intro hFirewall
      exact hStage.filtered (hFiltered hFirewall)
  | _ => exact trivial

/- All of `/proc` is there, and can be written. -/
theorem writable_proc (name : Text) (rest : Path) :
    writable ((opened root data pts).table image) false
        (['p', 'r', 'o', 'c'] :: name :: rest) =
      true := by
  cases pts
  · rfl
  · rfl

/- The list of interfaces is on the device tree. -/
theorem reaches_interfaces :
    reaches ((opened root data pts).table image)
        (locate "/sys/class/net".toList) =
      true := by
  cases pts
  · rfl
  · rfl

/- The networks' procedures ask, and mount nothing. -/
theorem keeps_nonLoopbackInterfaces :
    Keeps image ((opened root data pts).table image) marks
      nonLoopbackInterfaces := by
  unfold nonLoopbackInterfaces
  refine keeps_bind (keeps_ask ?_) ?_
  · intro s hStage
    exact hStage.reaches reaches_interfaces
  · intro entries
    cases entries with
    | error errno => exact keeps_pure []
    | ok entries => exact keeps_pure _

/- All that is read is below `/proc`. -/
theorem keeps_readToString
    {path : Text} {name : Text} {rest : Path}
    (hPath :
      locate path = ['p', 'r', 'o', 'c'] :: name :: rest) :
    Keeps image ((opened root data pts).table image) marks
      (ask (.readToString path)) := by
  apply keeps_ask
  intro s hStage
  apply hStage.reaches
  rw [hPath]
  exact reaches_of_writable (writable_proc name rest)

section

variable
  (hFiltered :
    image.has .firewall = true → marks.filtered = true)
include hFiltered

theorem keeps_configureLoopbackV4 :
    Keeps image ((opened root data pts).table image) marks
      configureLoopbackV4 := by
  unfold configureLoopbackV4
  refine keeps_bind (keeps_ioctl hFiltered) ?_
  intro assigned
  cases assigned with
  | error errno => exact keeps_pure _
  | ok ifr =>
      refine keeps_bind (keeps_ioctl hFiltered) ?_
      intro masked
      exact keeps_pure _

theorem keeps_ensureInterfaceUp (name : Text) :
    Keeps image ((opened root data pts).table image) marks
      (ensureInterfaceUp name) := by
  unfold ensureInterfaceUp
  refine keeps_bind (keeps_ioctl hFiltered) ?_
  intro answer
  cases answer with
  | error errno => exact keeps_pure _
  | ok ifr =>
      dsimp only
      split
      · exact keeps_pure _
      · refine keeps_bind (keeps_ioctl hFiltered) ?_
        intro changed
        exact keeps_pure _

/- So the links are taken up at one stage. -/
theorem keeps_initNetworking :
    Keeps image ((opened root data pts).table image) marks
      (initNetworking image) := by
  unfold initNetworking
  refine keeps_bind (keeps_when fun _ => ?_) ?_
  · refine keeps_bind (keeps_configureLoopbackV4 hFiltered) ?_
    intro _
    exact keeps_pure ()
  · intro _
    refine keeps_bind keeps_nonLoopbackInterfaces ?_
    intro names
    apply keeps_forM
    intro name _
    refine keeps_bind (keeps_ensureInterfaceUp hFiltered name)
      ?_
    intro _
    exact keeps_pure ()

/- The requests need no mount. -/
theorem keeps_interfaceIndex (name : Text) :
    Keeps image ((opened root data pts).table image) marks
      (interfaceIndex name) := by
  unfold interfaceIndex
  refine keeps_bind (keeps_ioctl hFiltered) ?_
  intro answer
  exact keeps_pure _

theorem keeps_assignIpv6Address
    (name : Text) (address : Schema.Ipv6Addr)
    (prefixLen : Nat) :
    Keeps image ((opened root data pts).table image) marks
      (assignIpv6Address name address prefixLen) := by
  unfold assignIpv6Address
  refine keeps_bind (keeps_interfaceIndex hFiltered name) ?_
  intro index
  cases index with
  | error errno => exact keeps_pure ()
  | ok ifindex =>
      refine keeps_bind (keeps_ioctl hFiltered) ?_
      intro _
      exact keeps_pure ()

theorem keeps_addIpv6DefaultRoute
    (name : Text) (gateway : Schema.Ipv6Addr) :
    Keeps image ((opened root data pts).table image) marks
      (addIpv6DefaultRoute name gateway) := by
  unfold addIpv6DefaultRoute
  refine keeps_bind (keeps_interfaceIndex hFiltered name) ?_
  intro index
  cases index with
  | error errno => exact keeps_pure ()
  | ok ifindex =>
      refine keeps_bind (keeps_ioctl hFiltered) ?_
      intro _
      exact keeps_pure ()

/- Address and route are asked for at one stage. -/
theorem keeps_configureStaticIpv6
    (staticV6 gateway interface : Text) :
    Keeps image ((opened root data pts).table image) marks
      (configureStaticIpv6 staticV6 gateway interface) := by
  unfold configureStaticIpv6
  split
  · exact keeps_pure ()
  · next address prefixLen _ =>
      refine keeps_bind ?_ ?_
      · unfold chooseInterface
        split
        · refine keeps_bind keeps_nonLoopbackInterfaces ?_
          intro candidates
          exact keeps_pure _
        · exact keeps_pure _
      · intro chosen
        cases chosen with
        | none => exact keeps_pure ()
        | some name =>
            refine keeps_bind
              (keeps_assignIpv6Address hFiltered name address
                prefixLen) ?_
            intro _
            split
            · exact keeps_pure ()
            · exact keeps_addIpv6DefaultRoute hFiltered name _

end

/- The tables of routes are below `/proc`. -/
theorem keeps_hasDefaultRoute :
    Keeps image ((opened root data pts).table image) marks
      (hasDefaultRoute image) := by
  have hV4 :
      Keeps image ((opened root data pts).table image) marks
        hasDefaultRouteV4 := by
    refine keeps_bind (keeps_readToString rfl) ?_
    intro routes
    exact keeps_pure _
  have hV6 :
      Keeps image ((opened root data pts).table image) marks
        hasDefaultRouteV6 := by
    refine keeps_bind (keeps_readToString rfl) ?_
    intro routes
    exact keeps_pure _
  have hIf {feature : Pipeline.Feature} {check : Init Bool}
      (hCheck :
        Keeps image ((opened root data pts).table image) marks
          check) :
      Keeps image ((opened root data pts).table image) marks
        (ifHas image feature check) := by
    unfold ifHas
    split
    · exact hCheck
    · exact keeps_pure false
  unfold hasDefaultRoute
  refine keeps_bind (hIf hV4) ?_
  intro v4
  cases v4 with
  | true => exact keeps_pure true
  | false => exact hIf hV6

section

variable
  (hFiltered :
    image.has .firewall = true → marks.filtered = true)
include hFiltered

theorem keeps_logInterfaceAddresses :
    Keeps image ((opened root data pts).table image) marks
      (logInterfaceAddresses image) := by
  unfold logInterfaceAddresses
  refine keeps_bind keeps_nonLoopbackInterfaces ?_
  intro names
  apply keeps_forM
  intro name _
  refine keeps_bind (keeps_when fun _ => ?_) ?_
  · refine keeps_bind (keeps_ioctl hFiltered) ?_
    intro _
    exact keeps_pure ()
  · intro _
    apply keeps_when
    intro _
    refine keeps_bind (keeps_readToString rfl) ?_
    intro _
    exact keeps_pure ()

/- By induction on the turns that are left. -/
theorem keeps_settleTurns (deadline turns : Nat) :
    Keeps image ((opened root data pts).table image) marks
      (settleTurns image deadline turns) := by
  induction turns with
  | zero => exact spec_stop fun _ _ => trivial
  | succ turns ih =>
      unfold settleTurns
      refine keeps_bind (keeps_ask fun _ _ => trivial) ?_
      intro now
      split
      · refine keeps_bind keeps_hasDefaultRoute ?_
        intro settled
        cases settled with
        | true => exact keeps_logInterfaceAddresses hFiltered
        | false =>
            refine keeps_bind (keeps_ask fun _ _ => trivial) ?_
            intro _
            exact ih
      · exact keeps_logInterfaceAddresses hFiltered

/- However long the network takes, nothing is mounted. -/
theorem keeps_waitForNetworkSettle (turns : Nat) :
    Keeps image ((opened root data pts).table image) marks
      (waitForNetworkSettle image turns) := by
  unfold waitForNetworkSettle
  refine keeps_bind (keeps_ask fun _ _ => trivial) ?_
  intro start
  exact keeps_settleTurns hFiltered _ turns

end

------------------------------------------------------------
-- Files and Sysctls
------------------------------------------------------------

section

variable (hUnsealed : marks.rootSealed = false)
include hUnsealed

/- A write that may fail, where writing is possible. -/
theorem keeps_attempt_write
    {table : Table} {path contents : Text}
    (hWritable : writable table false (locate path) = true) :
    Keeps image table marks
      (attempt (.write path contents)) := by
  apply sound_attempt_quiet rfl
  intro s hStage
  refine ⟨hStage.writes ?_, trivial⟩
  rwa [hUnsealed]

/- A file that is written, or warned of. -/
theorem keeps_writeFile
    {table : Table} {path : String} {contents : Text}
    (hWritable :
      writable table false (locate path.toList) = true) :
    Keeps image table marks (writeFile path contents) := by
  have hWrites (s : Machine) (hStage : Stage table marks s) :
      s.Writes (locate path.toList) := by
    apply hStage.writes
    rwa [hUnsealed]
  unfold writeFile
  refine spec_bind
    (sound_quiet rfl
      fun s hStage => ⟨hWrites s hStage, trivial⟩) ?_
  intro written
  refine spec_strengthen (fun _ hBoth => hBoth.1) ?_
  cases written with
  | error errno => exact keeps_pure ()
  | ok done =>
      apply sound_attempt_quiet rfl
      intro s hStage
      exact ⟨hWrites s hStage, trivial⟩

/- The root is not sealed yet. -/
theorem keeps_etcFile
    {path : String} {contents name : Text} {rest : Path}
    (hPath :
      locate path.toList = ['e', 't', 'c'] :: name :: rest) :
    Keeps image ((opened root data pts).table image) marks
      (writeFile path contents) := by
  apply keeps_writeFile hUnsealed
  rw [hPath]
  cases pts
  · rfl
  · rfl

/- All of the five files. -/
theorem keeps_writeEtc
    (passwd group nameservers search : Text) :
    Keeps image ((opened root data pts).table image) marks
      (writeEtc passwd group nameservers search) := by
  unfold writeEtc
  refine keeps_bind (keeps_etcFile hUnsealed rfl) fun _ => ?_
  refine keeps_bind (keeps_etcFile hUnsealed rfl) fun _ => ?_
  refine keeps_bind (keeps_etcFile hUnsealed rfl) fun _ => ?_
  refine keeps_bind (keeps_etcFile hUnsealed rfl) fun _ => ?_
  unfold writeResolvConf
  refine keeps_bind (keeps_readToString rfl) ?_
  intro pnp
  split
  · exact keeps_pure ()
  · exact keeps_etcFile hUnsealed rfl

/- A confined path is one of the sysctls. -/
theorem keeps_writeSysctl
    {knob : Hardening.Knob}
    (hPath : Hardening.isSysctlPath knob.1 = true) :
    Keeps image ((opened root data pts).table image) marks
      (writeSysctl knob) := by
  apply keeps_attempt_write hUnsealed
  rcases Hardening.sysctlRoot_prefix_locate hPath with
    ⟨rest, hRest⟩
  rw [← hRest]
  exact writable_proc _ rest

/- Settings are written below `/proc/sys`. -/
theorem keeps_writeKnobs
    {knobs : List Hardening.Knob}
    (hPaths :
      ∀ knob ∈ knobs, Hardening.isSysctlPath knob.1 = true) :
    Keeps image ((opened root data pts).table image) marks
      (writeKnobs knobs) := by
  apply keeps_forM
  intro knob hMem
  exact keeps_writeSysctl hUnsealed (hPaths knob hMem)

/- Also those of the interfaces that are listed. -/
theorem keeps_hardenFamily
    {family : String × List String}
    (hFamily : family ∈ Hardening.existingInterfaceKnobs) :
    Keeps image ((opened root data pts).table image) marks
      (hardenFamily family) := by
  have hDir := isSysctlPath_confDir hFamily
  have hNames :=
    up_not_mem_existingInterfaceKnobs family hFamily
  have hReaches :
      reaches ((opened root data pts).table image)
          (locate (Hardening.confDir family.1)) =
        true := by
    rcases Hardening.sysctlRoot_prefix_locate hDir with
      ⟨rest, hRest⟩
    rw [← hRest]
    exact reaches_of_writable (writable_proc _ rest)
  unfold hardenFamily
  refine spec_bind (sound_readDir hReaches) ?_
  intro entries
  apply spec_given
  intro hEntries
  cases entries with
  | error errno => exact keeps_pure ()
  | ok entries =>
      apply keeps_forM
      intro entry hMem
      apply keeps_when
      intro _
      apply keeps_writeKnobs hUnsealed
      intro knob hKnob
      rcases List.mem_map.1 hKnob with ⟨name, hName, rfl⟩
      exact isSysctlPath_interfaceKnob hDir (hNames name hName)
        (hEntries entries rfl entry hMem)

/- Every category has paths of that kind only. -/
theorem keeps_category
    {knobs : List Hardening.Knob}
    (hKnobs : knobs ∈ Hardening.categories) :
    Keeps image ((opened root data pts).table image) marks
      (writeKnobs knobs) :=
  keeps_writeKnobs hUnsealed
    (Hardening.isSysctlPath_of_mem_categories hKnobs)

theorem keeps_writeCategory
    {feature : Pipeline.Feature} {knobs : List Hardening.Knob}
    (hKnobs : knobs ∈ Hardening.categories) :
    Keeps image ((opened root data pts).table image) marks
      (writeCategory image feature knobs) :=
  keeps_when fun _ => keeps_category hUnsealed hKnobs

theorem keeps_applyNetworkSpoofingProtection :
    Keeps image ((opened root data pts).table image) marks
      applyNetworkSpoofingProtection := by
  unfold applyNetworkSpoofingProtection
  refine keeps_bind (keeps_category hUnsealed ?_) fun _ => ?_
  · simp [Hardening.categories]
  refine keeps_bind (keeps_category hUnsealed ?_) fun _ => ?_
  · simp [Hardening.categories]
  refine keeps_bind (keeps_category hUnsealed ?_) fun _ => ?_
  · simp [Hardening.categories]
  refine keeps_bind (keeps_forM ?_) fun _ => ?_
  · intro family hFamily
    exact keeps_hardenFamily hUnsealed hFamily
  · apply keeps_category hUnsealed
    simp [Hardening.categories]

/- What the config adds is checked before it is written. -/
theorem keeps_applyHardening
    (extra : List (Text × Text)) :
    Keeps image ((opened root data pts).table image) marks
      (applyHardening image extra) := by
  unfold applyHardening
  refine keeps_bind (keeps_category hUnsealed ?_) fun _ => ?_
  · simp [Hardening.categories]
  refine keeps_bind (keeps_when fun _ => ?_) fun _ => ?_
  · exact keeps_applyNetworkSpoofingProtection hUnsealed
  refine keeps_bind (keeps_writeCategory hUnsealed ?_)
    fun _ => ?_
  · simp [Hardening.categories]
  refine keeps_bind (keeps_writeCategory hUnsealed ?_)
    fun _ => ?_
  · simp [Hardening.categories]
  refine keeps_bind (keeps_writeCategory hUnsealed ?_)
    fun _ => ?_
  · simp [Hardening.categories]
  refine keeps_bind (keeps_writeCategory hUnsealed ?_)
    fun _ => ?_
  · simp [Hardening.categories]
  refine keeps_bind (keeps_writeCategory hUnsealed ?_)
    fun _ => ?_
  · simp [Hardening.categories]
  apply keeps_forM
  intro pair _
  apply keeps_when
  exact keeps_writeSysctl hUnsealed

end

------------------------------------------------------------
-- Triggers and Directories
------------------------------------------------------------

/- The button is among the devices. -/
theorem keeps_openDevice
    {name : Text} (hName : IsFileName name) :
    Keeps image ((opened root data pts).table image) marks
      (openDevice name) := by
  have hPath :
      locate ("/dev/input/".toList ++ name) =
        [['d', 'e', 'v'], ['i', 'n', 'p', 'u', 't'], name] := by
    have hText :
        "/dev/input/".toList ++ name =
          "/dev/input".toList ++ '/' :: name :=
      rfl
    rw [hText, locate_name hName]
    rfl
  have hReaches :
      reaches ((opened root data pts).table image)
          (locate ("/dev/input/".toList ++ name)) =
        true := by
    rw [hPath]
    cases pts
    · rfl
    · rfl
  unfold openDevice
  refine keeps_bind (keeps_ask ?_) ?_
  · intro s hStage
    exact hStage.reaches hReaches
  · intro opened
    apply keeps_when
    intro _
    apply sound_must
    · intro s hStage
      exact ⟨trivial, trivial⟩
    · intro errno
      rfl
    · intro errno
      exact .inr ⟨_, rfl⟩
    · intro s t hStage hEffect
      exact hStage.of_effect rfl hEffect

/- From here on the signal is handled. -/
theorem sound_armShutdownTriggers :
    Sound image
      (At ((opened root data pts).table image) marks)
      armShutdownTriggers
      fun _ =>
        At ((opened root data pts).table image)
          { marks with handlesSigterm := true } := by
  have hReaches :
      reaches ((opened root data pts).table image)
          (locate "/dev/input".toList) =
        true := by
    cases pts
    · rfl
    · rfl
  have hSignal :
      Sound image
        (At ((opened root data pts).table image) marks)
        (must .signalSigterm .shutdownTriggers)
        fun _ =>
          At ((opened root data pts).table image)
            { marks with handlesSigterm := true } := by
    apply sound_must
    · intro s hStage
      exact ⟨trivial, trivial⟩
    · intro errno
      rfl
    · intro errno
      exact .inl rfl
    · intro s t hStage hEffect
      rw [show t = _ from hEffect]
      exact { hStage with handlesSigterm := fun _ => rfl }
  unfold armShutdownTriggers
  refine spec_bind hSignal fun _ => ?_
  refine spec_bind (sound_readDir hReaches) ?_
  intro entries
  apply spec_given
  intro hEntries
  cases entries with
  | error errno => exact keeps_pure ()
  | ok entries =>
      apply keeps_forM
      intro name hMem
      apply keeps_openDevice
      exact hEntries entries rfl name (List.mem_filter.1 hMem).1

/- Each of the directories is the app's from then on. -/
theorem sound_chown
    {dir : String} {place : Path} {ids : Nat × Nat}
    (hPlace : locate dir.toList = place)
    (hOff : IsOffVolume place)
    (hUnsealed : marks.rootSealed = false)
    (hIds : marks.ids = ids)
    (hWritable :
      writable ((opened root data pts).table image) false
          place =
        true) :
    Sound image
      (At ((opened root data pts).table image) marks)
      (must (.chown dir.toList ids.1 ids.2)
        (.chown dir.toList))
      fun _ =>
        At ((opened root data pts).table image)
          { marks with owned := place :: marks.owned } := by
  subst hPlace hIds
  apply sound_must
  · intro s hStage
    refine ⟨hStage.writes ?_, trivial⟩
    rwa [hUnsealed]
  · intro errno
    rfl
  · intro errno
    exact ⟨_, _, rfl⟩
  · rintro s t hStage ⟨landed, hLands, hOwner⟩
    rw [landed_eq hStage.links hOff hLands] at hOwner
    rw [hOwner]
    refine { hStage with owned := ?_ }
    intro other hMem
    by_cases hSame : other = locate dir.toList
    · rw [hSame]
      exact Function.update_self ..
    · rw [List.mem_cons] at hMem
      have hOld := hStage.owned other (hMem.resolve_left hSame)
      rw [← hOld]
      exact Function.update_of_ne hSame ..

/- From here on the directories are the app's. -/
theorem sound_chownDirsForApp
    {ids : Nat × Nat}
    (hUnsealed : marks.rootSealed = false)
    (hIds : marks.ids = ids) :
    Sound image
      (At ((opened root data pts).table image) marks)
      (chownDirsForApp ids.1 ids.2)
      fun _ =>
        At ((opened root data pts).table image)
          { marks with
            owned := runDir :: varDir :: marks.owned } := by
  have hRun :
      writable ((opened root data pts).table image) false
          runDir =
        true := by
    cases pts
    · rfl
    · rfl
  have hVar :
      writable ((opened root data pts).table image) false
          varDir =
        true := by
    unfold table withVarTmp withVar varMount
      writableExecMountFlags
    cases image.has .dangerAllowWriteExecute
    · cases image.has .storagePersistent
      · rfl
      · rfl
    · cases image.has .storagePersistent
      · rfl
      · rfl
  unfold chownDirsForApp appOwnedDirs
  rw [List.forM_cons, List.forM_cons, List.forM_nil]
  refine spec_bind
    (sound_chown locate_var (fun _ => rfl) hUnsealed hIds
      hVar) ?_
  intro _
  refine spec_bind
    (sound_chown locate_run (isOffVolume_of_not_beneath rfl)
      hUnsealed hIds hRun) ?_
  intro _
  exact keeps_pure ()

------------------------------------------------------------
-- Entropy
------------------------------------------------------------

/- It goes on only once the random device is readable. -/
theorem sound_entropyTurns
    (hUnseeded : marks.seeded = false)
    (deadline turns : Nat) :
    Sound image
      (At ((opened root data pts).table image) marks)
      (entropyTurns deadline turns)
      fun _ =>
        At ((opened root data pts).table image)
          { marks with seeded := true } := by
  have hReaches :
      reaches ((opened root data pts).table image)
          (locate "/dev/random".toList) =
        true := by
    cases pts
    · rfl
    · rfl
  have hPoll :
      Sound image
        (At ((opened root data pts).table image) marks)
        (.perform Request.poll)
        fun polled s =>
          (polled = .events true →
              At ((opened root data pts).table image)
                { marks with seeded := true } s) ∧
            (polled ≠ .events true →
              At ((opened root data pts).table image) marks s ∧
                Told .poll polled s) := by
    apply sound_call
    · intro s hStage
      exact ⟨hStage.reaches hReaches, trivial⟩
    · intro s polled t hStage hProceeds hTold
      have hSame
          (hMachine : t.machine = s.machine) :
          At ((opened root data pts).table image) marks t := by
        unfold At
        rwa [hMachine]
      cases polled with
      | events isIn =>
          cases isIn with
          | true =>
              have hAfter :
                  t.machine = { s.machine with seeded := true } :=
                hProceeds
              refine ⟨fun _ => ?_, fun hNot => absurd rfl hNot⟩
              show Stage _ _ t.machine
              rw [hAfter]
              exact { hStage with seeded := rfl }
          | false =>
              exact ⟨nofun, fun _ => ⟨hSame hProceeds, hTold⟩⟩
      | _ => exact ⟨nofun, fun _ => ⟨hSame hProceeds, hTold⟩⟩
  induction turns with
  | zero => exact spec_stop fun _ _ => trivial
  | succ turns ih =>
      unfold entropyTurns
      refine spec_bind (keeps_ask fun _ _ => trivial) ?_
      intro now
      split
      · refine spec_bind hPoll ?_
        intro polled
        cases polled with
        | timeout =>
            exact
              spec_strengthen (fun _ h => (h.2 nofun).1) ih
        | interrupted =>
            exact
              spec_strengthen (fun _ h => (h.2 nofun).1) ih
        | failed =>
            apply spec_strengthen fun _ h => h.2 nofun
            exact sound_blaming rfl rfl
        | events isIn =>
            cases isIn with
            | true => exact sound_pure fun _ h => h.1 rfl
            | false =>
                exact
                  spec_strengthen (fun _ h => (h.2 nofun).1) ih
      · apply sound_fatal
        intro s hStage
        refine ⟨?_, hStage.unwiped⟩
        exact hStage.seeded.trans hUnseeded

end

end Boot

end Guest

end CargoUnikernel
