import CargoUnikernel.Guest.Boot.Mounting
import CargoUnikernel.Guest.EtcFiles
import CargoUnikernel.Guest.HardeningCategories
import CargoUnikernel.Guest.Interfaces

/-
  What the init does besides mounting: the packet filter,
  the interfaces, `/etc`, the sysctls, and its waits.

  A wait asks for the time before each of its turns. It has
  as many turns as it is given, and is still waiting after
  them; so a run of some number of turns is any run so far.

  Main declarations:
    * `install`, `initNetworking`, `configureStaticIpv6`
    * `waitForNetworkSettle`, `waitForEntropy`
    * `writeEtc`, `applyHardening`
    * `armShutdownTriggers`, `chownDirsForApp`
-/

------------------------------------------------------------
-- The Packet Filter
------------------------------------------------------------

namespace CargoUnikernel

namespace Guest

namespace Boot

open BuildScript (Constant)
open Hardening (Knob)
open Interfaces
open Procedures (Proc)
open Schema (Ipv6Addr)

/- The firewall; a batch that is refused is fatal. -/
def install
    (image : Image) (rules : List Firewall.Rule) :
    Init Unit := do
  let batch ←
    .expect (fun message => .fatal (.firewallRuleset message))
      (Firewall.buildBatch (image.has .netIpv6) rules)
  must (.sendBatch batch) .firewallInstall

------------------------------------------------------------
-- Interfaces
------------------------------------------------------------

/- A request on a socket of one family. -/
def ioctl
    (inet6 : Bool) (request : Ioctl) (arg : List UInt8) :
    Init (Except Errno (List UInt8)) :=
  ask (.ioctl inet6 request arg)

/- The entries that can be read. -/
def flattened (entries : List (Except Errno Text)) :
    List Text :=
  entries.filterMap Except.toOption

/- The loopback. -/
def lo : Text := "lo".toList

/- An unreadable directory counts as an empty one. -/
def nonLoopbackInterfaces : Init (List Text) := do
  let entries ← ask (.readDir "/sys/class/net".toList)
  match entries with
  | .error _ => pure []
  | .ok entries =>
      pure ((flattened entries).filter fun name => name ≠ lo)

/- Address and mask; IPv6 needs neither. -/
def configureLoopbackV4 : Init (Except Errno Unit) := do
  let ifr :=
    setUnion (sockaddrIn [127, 0, 0, 1]) (ifreqFor lo)
  let assigned ← ioctl false .siocsifaddr ifr
  match assigned with
  | .error errno => pure (.error errno)
  | .ok ifr =>
      let masked ←
        ioctl false .siocsifnetmask
          (setUnion (sockaddrIn [255, 0, 0, 0]) ifr)
      pure (masked.map fun _ => ())

/- Whether it had to be changed. -/
def ensureInterfaceUp (name : Text) :
    Init (Except Errno Bool) := do
  let answer ← ioctl false .siocgifflags (ifreqFor name)
  match answer with
  | .error errno => pure (.error errno)
  | .ok ifr =>
      let flags := ifrFlags ifr
      if flags &&& iffUp ≠ 0 then
        pure (.ok false)
      else
        let changed ←
          ioctl false .siocsifflags
            (setFlags (flags ||| iffUp ||| iffRunning) ifr)
        pure (changed.map fun _ => true)

/- Every link is taken up. -/
def initNetworking (image : Image) : Init Unit := do
  .when (image.has .netIpv4) do
    let _ ← configureLoopbackV4
    pure ()
  let names ← nonLoopbackInterfaces
  forM (lo :: names) fun name => do
    let _ ← ensureInterfaceUp name
    pure ()

/- The number the kernel has given the interface. -/
def interfaceIndex (name : Text) :
    Init (Except Errno (List UInt8)) := do
  let answer ← ioctl false .siocgifindex (ifreqFor name)
  pure (answer.map ifrIfindex)

/- An interface that is not there is passed over. -/
def assignIpv6Address
    (name : Text) (address : Ipv6Addr) (prefixLen : Nat) :
    Init Unit := do
  let index ← interfaceIndex name
  match index with
  | .error _ => pure ()
  | .ok ifindex =>
      let _ ←
        ioctl true .siocsifaddr
          (in6IfReq address prefixLen ifindex)

/- So it is with the route. -/
def addIpv6DefaultRoute
    (name : Text) (gateway : Ipv6Addr) : Init Unit := do
  let index ← interfaceIndex name
  match index with
  | .error _ => pure ()
  | .ok ifindex =>
      let _ ← ioctl true .siocaddrt (in6RtMsg gateway ifindex)

/- The least of some names, byte by byte. -/
def leastName : List Text → Option Text
| [] => none
| name :: names =>
    match leastName names with
    | none => some name
    | some other =>
        if Utf8.encode other < Utf8.encode name then
          some other
        else
          some name

/- The interface that is named, or the first one in order. -/
def chooseInterface (interface : Text) :
    Init (Option Text) := do
  if interface = [] then
    let candidates ← nonLoopbackInterfaces
    pure (leastName candidates)
  else
    pure (some interface)

/- An address that cannot be read is passed over. -/
def configureStaticIpv6
    (staticV6 gateway interface : Text) : Init Unit := do
  match Network.parseStaticV6 staticV6 with
  | none => pure ()
  | some (address, prefixLen) =>
      let chosen ← chooseInterface interface
      match chosen with
      | none => pure ()
      | some name =>
          assignIpv6Address name address prefixLen
          match Ipv6Addr.parse gateway with
          | none => pure ()
          | some gatewayAddr =>
              addIpv6DefaultRoute name gatewayAddr

/- A table that cannot be read has none. -/
def hasDefaultRouteV4 : Init Bool := do
  let routes ← ask (.readToString "/proc/net/route".toList)
  pure (routes.toOption.any Network.routeV4HasDefault)

/- A table that cannot be read has none. -/
def hasDefaultRouteV6 : Init Bool := do
  let routes ←
    ask (.readToString "/proc/net/ipv6_route".toList)
  pure (routes.toOption.any Network.routeV6HasDefault)

/- False where the feature is not compiled in. -/
def ifHas
    (image : Image) (feature : Pipeline.Feature)
    (check : Init Bool) : Init Bool :=
  if image.has feature then check else pure false

/- Of the families the init was built for. -/
def hasDefaultRoute (image : Image) : Init Bool := do
  let v4 ← ifHas image .netIpv4 hasDefaultRouteV4
  if v4 then
    pure true
  else
    ifHas image .netIpv6 hasDefaultRouteV6

/- What is asked for the log, for each interface. -/
def logInterfaceAddresses (image : Image) : Init Unit := do
  let names ← nonLoopbackInterfaces
  forM names fun name => do
    .when (image.has .netIpv4) do
      let _ ← ioctl false .siocgifaddr (ifreqFor name)
      pure ()
    .when (image.has .netIpv6) do
      let _ ← ask (.readToString "/proc/net/if_inet6".toList)
      pure ()

/- The turns of the wait, up to the deadline. -/
def settleTurns (image : Image) (deadline : Nat) :
    Nat → Init Unit
| 0 => .stop .waiting
| turns + 1 => do
    let now : Nat ← ask .now
    if now < deadline then
      let settled ← hasDefaultRoute image
      if settled then
        logInterfaceAddresses image
      else
        ask .sleep
        settleTurns image deadline turns
    else
      logInterfaceAddresses image

/- Up to 30 seconds, in milliseconds. -/
def waitForNetworkSettle
    (image : Image) (turns : Nat) : Init Unit := do
  let start : Nat ← ask .now
  settleTurns image (start + 30000) turns

------------------------------------------------------------
-- Entropy
------------------------------------------------------------

/- The only way out is an event that says it is readable. -/
def entropyTurns (deadline : Nat) : Nat → Init Unit
| 0 => .stop .waiting
| turns + 1 => do
    let now : Nat ← ask .now
    if now < deadline then
      let polled ← Proc.perform Request.poll
      match polled with
      | .timeout | .interrupted => entropyTurns deadline turns
      | .failed => fatal .pollRandom
      | .events isIn =>
          if isIn then
            pure ()
          else
            entropyTurns deadline turns
    else
      fatal .crngNotInitialized

/- Thirty seconds for the kernel's generator. -/
def waitForEntropy (turns : Nat) : Init Unit := do
  let opened : Bool ← ask (.openFile "/dev/random".toList)
  if opened then
    let start : Nat ← ask .now
    entropyTurns (start + 30000) turns
  else
    fatal .openRandom

------------------------------------------------------------
-- Files
------------------------------------------------------------

/- The contents of `/etc/hosts`. -/
def hosts : Text :=
  "127.0.0.1\tlocalhost\n::1\tlocalhost ip6-localhost ip6-loopback\n".toList

/- The contents of `/etc/nsswitch.conf`. -/
def nsswitch : Text :=
  "hosts: files dns\npasswd: files\ngroup: files\n".toList

/- A file is left as it was made if it cannot be written. -/
def writeFile (path : String) (contents : Text) :
    Init Unit := do
  let written ← act (.write path.toList contents)
  match written with
  | .error _ => pure ()
  | .ok () => attempt (.setPermissions path.toList 0o444)

/- The file is left alone where there is nothing to say. -/
def writeResolvConf (nameservers search : Text) :
    Init Unit := do
  let pnp ← ask (.readToString "/proc/net/pnp".toList)
  match EtcFiles.writeResolvConf nameservers search
      pnp.toOption with
  | none => pure ()
  | some body => writeFile "/etc/resolv.conf" body

/- Five files, and none of them is fatal. -/
def writeEtc
    (passwd group nameservers search : Text) :
    Init Unit := do
  writeFile "/etc/hosts" hosts
  writeFile "/etc/nsswitch.conf" nsswitch
  writeFile "/etc/passwd" passwd
  writeFile "/etc/group" group
  writeResolvConf nameservers search

------------------------------------------------------------
-- Sysctls
------------------------------------------------------------

/- What comes of it is only counted. -/
def writeSysctl (knob : Knob) : Init Unit :=
  attempt (.write knob.1 knob.2)

/- One setting after another. -/
def writeKnobs (knobs : List Knob) : Init Unit :=
  forM knobs writeSysctl

/- Every knob on every interface of a family. -/
def hardenFamily (family : String × List String) :
    Init Unit := do
  let entries ← ask (.readDir (Hardening.confDir family.1))
  match entries with
  | .error _ => pure ()
  | .ok entries =>
      forM (flattened entries) fun entry =>
        .when (!Hardening.isSkipped entry)
          (writeKnobs
            (family.2.map
              (Hardening.interfaceKnob family.1 entry)))

/- Also for the interfaces that are there already. -/
def applyNetworkSpoofingProtection : Init Unit := do
  writeKnobs Hardening.redirectAndForwarding
  writeKnobs Hardening.sourceRouting
  writeKnobs Hardening.arpHardening
  forM Hardening.existingInterfaceKnobs hardenFamily
  writeKnobs Hardening.logMartians

/- A category that is not compiled in writes nothing. -/
def writeCategory
    (image : Image) (feature : Pipeline.Feature)
    (knobs : List Knob) : Init Unit :=
  .when (image.has feature) (writeKnobs knobs)

/- A key that is not confined is passed over. -/
def applyExtra (extra : List (Text × Text)) : Init Unit :=
  forM extra fun pair =>
    .when (Hardening.isSysctlPath pair.1) (writeSysctl pair)

/- What is always set, the categories, the config's own. -/
def applyHardening
    (image : Image) (extra : List (Text × Text)) :
    Init Unit := do
  writeKnobs Hardening.baselineTuning
  .when (image.has .hardeningNetSpoofing)
    applyNetworkSpoofingProtection
  writeCategory image .hardeningIcmp Hardening.icmpHardening
  writeCategory image .hardeningTcp Hardening.tcpHardening
  writeCategory image .hardeningInfoLeak Hardening.infoLeak
  writeCategory image .hardeningPtraceBpf
    Hardening.ptraceAndBpf
  writeCategory image .hardeningKexecFs Hardening.kexecAndFs
  applyExtra extra

------------------------------------------------------------
-- Triggers and Directories
------------------------------------------------------------

/- Where the power button is read from. -/
def isEventDevice (name : Text) : Bool :=
  "event".toList.isPrefixOf name

/- Devices that cannot be opened are passed over. -/
def openDevice (name : Text) : Init Unit := do
  let path := "/dev/input/".toList ++ name
  let opened : Bool ← ask (.openFile path)
  .when opened (must (.setNonblocking path) .shutdownTriggers)

/- The signal, and whatever button there is. -/
def armShutdownTriggers : Init Unit := do
  must .signalSigterm .shutdownTriggers
  let entries ← ask (.readDir "/dev/input".toList)
  match entries with
  | .error _ => pure ()
  | .ok entries =>
      forM ((flattened entries).filter isEventDevice)
        openDevice

/- What the app may write to without a rule. -/
def appOwnedDirs : List String := ["/var", "/run"]

/- They are the app's, or the boot is given up. -/
def chownDirsForApp (uid gid : Nat) : Init Unit :=
  forM appOwnedDirs fun dir =>
    must (.chown dir.toList uid gid) (.chown dir.toList)

end Boot

end Guest

end CargoUnikernel
