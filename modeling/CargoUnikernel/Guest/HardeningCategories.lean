import CargoUnikernel.Guest.Hardening
import Mathlib.Data.List.Nodup

/-
  The sysctls that each category of hardening sets.

  Main declarations:
    * `Knob`
    * `baselineTuning`, `redirectAndForwarding`
    * `sourceRouting`, `arpHardening`, `logMartians`
    * `existingInterfaceKnobs`, `interfaceKnob`
    * `icmpHardening`, `tcpHardening`, `infoLeak`
    * `ptraceAndBpf`, `kexecAndFs`
    * `isSysctlPath_of_mem_fixedKnobs`
    * `isSysctlPath_of_mem_categories`
    * `eq_of_locate_eq`, `isSkipped_of_locate`
-/

------------------------------------------------------------
-- Categories
------------------------------------------------------------

namespace CargoUnikernel

namespace Guest

namespace Hardening

open Landlock (locate)

/- A path and the value that is written to it. -/
abbrev Knob := Text × Text

/- A file below `/proc/sys`, and what is written to it. -/
def knob (path value : String) : Knob :=
  (path.toList, value.toList)

/- What is written whatever the features are. -/
def baselineTuning : List Knob :=
  [knob "/proc/sys/vm/max_map_count" "1048576",
    knob "/proc/sys/kernel/randomize_va_space" "2"]

/- A guest is no router, and none redirects it. -/
def redirectAndForwarding : List Knob :=
  [knob "/proc/sys/net/ipv4/conf/all/rp_filter" "1",
    knob "/proc/sys/net/ipv4/conf/default/rp_filter" "1",
    knob "/proc/sys/net/ipv4/conf/all/accept_redirects" "0",
    knob "/proc/sys/net/ipv4/conf/default/accept_redirects"
      "0",
    knob "/proc/sys/net/ipv4/conf/all/send_redirects" "0",
    knob "/proc/sys/net/ipv4/conf/default/send_redirects" "0",
    knob "/proc/sys/net/ipv4/conf/all/secure_redirects" "0",
    knob "/proc/sys/net/ipv4/conf/default/secure_redirects"
      "0",
    knob "/proc/sys/net/ipv6/conf/all/accept_redirects" "0",
    knob "/proc/sys/net/ipv6/conf/default/accept_redirects"
      "0",
    knob "/proc/sys/net/ipv4/ip_forward" "0",
    knob "/proc/sys/net/ipv6/conf/all/forwarding" "0"]

/- No packet chooses its own way. -/
def sourceRouting : List Knob :=
  [knob "/proc/sys/net/ipv4/conf/all/accept_source_route" "0",
    knob "/proc/sys/net/ipv4/conf/default/accept_source_route"
      "0",
    knob "/proc/sys/net/ipv6/conf/all/accept_source_route"
      "0",
    knob "/proc/sys/net/ipv6/conf/default/accept_source_route"
      "0"]

/- Only the interface with the address answers. -/
def arpHardening : List Knob :=
  [knob "/proc/sys/net/ipv4/conf/all/arp_filter" "1",
    knob "/proc/sys/net/ipv4/conf/all/arp_ignore" "1",
    knob "/proc/sys/net/ipv4/conf/all/drop_gratuitous_arp"
      "1",
    knob "/proc/sys/net/ipv4/conf/all/shared_media" "0"]

/- Impossible addresses are logged. -/
def logMartians : List Knob :=
  [knob "/proc/sys/net/ipv4/conf/all/log_martians" "1",
    knob "/proc/sys/net/ipv4/conf/default/log_martians" "1"]

/- A family, and what is set on each of its interfaces. -/
def existingInterfaceKnobs : List (String × List String) :=
  [("ipv4",
      ["accept_redirects", "send_redirects",
        "secure_redirects", "shared_media"]),
    ("ipv6", ["accept_redirects", "accept_source_route"])]

/- The directory with an entry for each interface. -/
def confDir (family : String) : Text :=
  "/proc/sys/net/".toList ++ family.toList ++ "/conf".toList

/- The entries that are no interface. -/
def isSkipped (entry : Text) : Bool :=
  entry == "all".toList || entry == "default".toList

/- The same setting for one interface. -/
def interfaceKnob
    (family : String) (entry : Text) (name : String) : Knob :=
  (confDir family ++ '/' :: entry ++ '/' :: name.toList,
    "0".toList)

def icmpHardening : List Knob :=
  [knob "/proc/sys/net/ipv4/icmp_echo_ignore_broadcasts" "1",
    knob "/proc/sys/net/ipv4/icmp_ignore_bogus_error_responses"
      "1",
    knob "/proc/sys/net/ipv4/icmp_echo_ignore_all" "1"]

/- Floods are survived, and closed connections let go. -/
def tcpHardening : List Knob :=
  [knob "/proc/sys/net/ipv4/tcp_syncookies" "1",
    knob "/proc/sys/net/ipv4/tcp_rfc1337" "1",
    knob "/proc/sys/net/core/somaxconn" "8192",
    knob "/proc/sys/net/core/netdev_max_backlog" "16384",
    knob "/proc/sys/net/ipv4/tcp_max_syn_backlog" "8192",
    knob "/proc/sys/net/ipv4/tcp_synack_retries" "2",
    knob "/proc/sys/net/ipv4/tcp_fin_timeout" "10",
    knob "/proc/sys/net/ipv4/tcp_keepalive_time" "60",
    knob "/proc/sys/net/ipv4/tcp_keepalive_intvl" "10",
    knob "/proc/sys/net/ipv4/tcp_keepalive_probes" "6",
    knob "/proc/sys/net/ipv4/tcp_max_orphans" "16384",
    knob "/proc/sys/net/ipv4/tcp_tw_reuse" "1",
    knob "/proc/sys/net/ipv4/tcp_slow_start_after_idle" "0",
    knob "/proc/sys/net/ipv4/tcp_congestion_control" "bbr"]

/- Addresses and logs are kept from the app. -/
def infoLeak : List Knob :=
  [knob "/proc/sys/kernel/kptr_restrict" "2",
    knob "/proc/sys/kernel/dmesg_restrict" "1",
    knob "/proc/sys/kernel/perf_event_paranoid" "3",
    knob "/proc/sys/kernel/sysrq" "0",
    knob "/proc/sys/kernel/panic_on_oops" "1",
    knob "/proc/sys/net/ipv4/tcp_timestamps" "0"]

/- What one process could do to another. -/
def ptraceAndBpf : List Knob :=
  [knob "/proc/sys/kernel/unprivileged_bpf_disabled" "1",
    knob "/proc/sys/vm/unprivileged_userfaultfd" "0",
    knob "/proc/sys/kernel/yama/ptrace_scope" "3",
    knob "/proc/sys/net/core/bpf_jit_harden" "2",
    knob "/proc/sys/kernel/modules_disabled" "1",
    knob "/proc/sys/kernel/io_uring_disabled" "2"]

/- No other kernel, and no traps in shared directories. -/
def kexecAndFs : List Knob :=
  [knob "/proc/sys/kernel/kexec_load_disabled" "1",
    knob "/proc/sys/fs/protected_symlinks" "1",
    knob "/proc/sys/fs/protected_hardlinks" "1",
    knob "/proc/sys/fs/protected_fifos" "2",
    knob "/proc/sys/fs/protected_regular" "2",
    knob "/proc/sys/fs/suid_dumpable" "0"]

/- All that is written by a fixed path. -/
def fixedKnobs : List Knob :=
  baselineTuning ++ redirectAndForwarding ++ sourceRouting ++
    arpHardening ++ logMartians ++ icmpHardening ++
    tcpHardening ++ infoLeak ++ ptraceAndBpf ++ kexecAndFs

/- The same, category by category. -/
def categories : List (List Knob) :=
  [baselineTuning, redirectAndForwarding, sourceRouting,
    arpHardening, logMartians, icmpHardening, tcpHardening,
    infoLeak, ptraceAndBpf, kexecAndFs]

theorem flatten_categories :
    categories.flatten = fixedKnobs := by
  simp [categories, fixedKnobs]

------------------------------------------------------------
-- Confinement of the Categories
------------------------------------------------------------

/- The characters that all the paths begin with. -/
def procSys : List Char :=
  ['/', 'p', 'r', 'o', 'c', '/', 's', 'y', 's', '/']

/- A path beneath `/proc/sys/` without any dot. -/
def isPlain (cs : List Char) : Bool :=
  procSys.isPrefixOf cs && !cs.contains '.'

/- A path of plain names below `/proc/sys` is accepted. -/
theorem isSysctlPath_of_isPlain
    {path : Text} (hPlain : isPlain path = true) :
    isSysctlPath path = true := by
  unfold isPlain at hPlain
  rw [Bool.and_eq_true, List.isPrefixOf_iff_prefix,
    Bool.not_eq_true', ← Bool.not_eq_true,
    List.contains_iff_mem] at hPlain
  rcases hPlain with ⟨hPrefix, hDot⟩
  rw [isSysctlPath_iff]
  refine ⟨hPrefix, ?_⟩
  intro hUp
  apply hDot
  have hParts : Text.join '/' (Text.split '/' path) = path :=
    List.intercalate_splitOn '/'
  rw [← hParts, Text.mem_join_iff (by decide)]
  exact ⟨_, hUp, by decide⟩

/- The same of a setting whose path is spelled out. -/
theorem isSysctlPath_knob
    {cs : List Char} {value : String}
    (hPlain : isPlain cs = true) :
    isSysctlPath (knob (String.ofList cs) value).1 = true := by
  apply isSysctlPath_of_isPlain
  unfold knob
  rwa [String.toList_ofList]

/- Every fixed path is confined. -/
theorem isSysctlPath_of_mem_fixedKnobs :
    ∀ knob ∈ fixedKnobs, isSysctlPath knob.1 = true := by
  unfold fixedKnobs baselineTuning redirectAndForwarding
    sourceRouting arpHardening logMartians icmpHardening
    tcpHardening infoLeak ptraceAndBpf kexecAndFs
  simp only [List.cons_append, List.nil_append,
    List.forall_mem_cons]
  and_intros
  all_goals first
    | exact isSysctlPath_knob (by decide)
    | exact List.forall_mem_nil _

/- So every setting of every category is accepted. -/
theorem isSysctlPath_of_mem_categories
    {knobs : List Knob} (hKnobs : knobs ∈ categories) :
    ∀ knob ∈ knobs, isSysctlPath knob.1 = true := by
  intro knob hMem
  apply isSysctlPath_of_mem_fixedKnobs
  rw [← flatten_categories]
  exact List.mem_flatten_of_mem hKnobs hMem

------------------------------------------------------------
-- No Path Is Written Twice
------------------------------------------------------------

theorem knob_ofList (cs : List Char) (value : String) :
    (knob (String.ofList cs) value).1 = cs :=
  String.toList_ofList

/- The paths of some settings, one by one. -/
theorem map_fst_cons
    {knob : Knob} {knobs : List Knob} {path : Text}
    {paths : List Text}
    (hPath : knob.1 = path)
    (hPaths : knobs.map Prod.fst = paths) :
    (knob :: knobs).map Prod.fst = path :: paths := by
  rw [List.map_cons, hPath, hPaths]

/- Each at a place of its own, and none on an interface. -/
def areApart (paths : List Text) : Bool :=
  decide (paths.map locate).Nodup &&
    paths.all fun path => ((locate path)[5]?).all isSkipped

/- No path is another one's, tested on the paths. -/
theorem areApart_of_map_fst
    {knobs : List Knob} {paths : List Text}
    (hPaths : knobs.map Prod.fst = paths)
    (hApart : areApart paths = true) :
    areApart (knobs.map Prod.fst) = true := by
  rw [hPaths]
  exact hApart

/- The paths are spelled out before they are compared. -/
theorem areApart_fixedKnobs :
    areApart (fixedKnobs.map Prod.fst) = true := by
  apply areApart_of_map_fst
  · unfold fixedKnobs baselineTuning redirectAndForwarding
      sourceRouting arpHardening logMartians icmpHardening
      tcpHardening infoLeak ptraceAndBpf kexecAndFs
    simp only [List.cons_append, List.nil_append]
    repeat apply map_fst_cons (knob_ofList _ _)
    exact List.map_nil
  · decide

/- No two of the fixed settings are of one file. -/
theorem eq_of_locate_eq
    {knob other : Knob}
    (hKnob : knob ∈ fixedKnobs) (hOther : other ∈ fixedKnobs)
    (hLocate : locate knob.1 = locate other.1) :
    knob = other := by
  have hApart := areApart_fixedKnobs
  unfold areApart at hApart
  rw [Bool.and_eq_true, decide_eq_true_iff, List.map_map]
    at hApart
  exact List.inj_on_of_nodup_map hApart.1 hKnob hOther hLocate

/- The fixed settings are of no interface's own. -/
theorem isSkipped_of_locate
    {knob : Knob} {entry : Text}
    (hKnob : knob ∈ fixedKnobs)
    (hEntry : (locate knob.1)[5]? = some entry) :
    isSkipped entry = true := by
  have hApart := areApart_fixedKnobs
  unfold areApart at hApart
  rw [Bool.and_eq_true, List.all_map, List.all_eq_true]
    at hApart
  have hAll := hApart.2 knob hKnob
  rw [Function.comp_apply, hEntry] at hAll
  exact hAll

end Hardening

end Guest

end CargoUnikernel
