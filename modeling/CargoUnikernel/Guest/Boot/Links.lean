import CargoUnikernel.Guest.Boot.Kernel
import Mathlib.Data.Nat.Bitwise

/-
  What the kernel is asked of the interfaces.

  Every call is explained by what the kernel has answered to
  earlier ones: only links that were found down are taken up,
  and nothing else of their flags is changed.

  Main declarations:
    * `Answered`, `logged_ask`
    * `Listed`, `TakesUp`, `TakenUp`, `LinkCall`
    * `links_taken_up`
-/

------------------------------------------------------------
-- Answers
------------------------------------------------------------

namespace CargoUnikernel

namespace Guest

namespace Boot

open Calls
open Interfaces
open Procedures

/- What was asked in a boot, and what was answered. -/
abbrev History := List BootEvent

/- What the kernel has once answered to a query. -/
def Answered
    (past : History) (query : Query) (answer : query.Answer) :
    Prop :=
  ∃ before, ⟨before, .ask query, answer⟩ ∈ past

/- What has happened does not come to hold no longer. -/
def Stable (Kept : History → Prop) : Prop :=
  ∀ past more, past <+: more → Kept past → Kept more

/- What stays true as the history grows. -/
theorem stable_const (Known : Prop) :
    Stable fun _ => Known := by
  intro past more hExtends hKnown
  exact hKnown

theorem stable_and
    {Kept More : History → Prop}
    (hKept : Stable Kept) (hMore : Stable More) :
    Stable fun past => Kept past ∧ More past := by
  rintro past more hExtends ⟨hFirst, hSecond⟩
  exact
    ⟨hKept past more hExtends hFirst,
      hMore past more hExtends hSecond⟩

/- What was answered was answered. -/
theorem stable_answered
    {query : Query} (answer : query.Answer) :
    Stable fun past => Answered past query answer := by
  rintro past more hExtends ⟨before, hMem⟩
  exact ⟨before, hExtends.subset hMem⟩

section

variable {May : History → Request → Prop}
variable {Kept : History → Prop} {α : Type}

/- The answer is one that the kernel can give. -/
theorem logged_ask
    {query : Query}
    (hKept : Stable Kept)
    (hMay : ∀ past, Kept past → May past (.ask query)) :
    Logged Possible May Kept (ask query)
      fun answer past =>
        (∃ s, query.Consistent s answer) ∧
          Kept past ∧ Answered past query answer := by
  apply logged_perform hMay
  intro past before answer after hPast hPossible
  refine ⟨⟨before.machine, hPossible.1.1⟩, ?_, ?_⟩
  · exact hKept past _ (List.prefix_append _ _) hPast
  · refine ⟨before, ?_⟩
    rw [List.mem_append]
    exact .inr List.mem_cons_self

/- No call, and nothing more is known. -/
theorem logged_pure
    {value : α} {Post : α → History → Prop}
    (hPost : ∀ past, Kept past → Post value past) :
    Logged Possible May Kept (pure value : Init α) Post :=
  logged_done hPost

end

------------------------------------------------------------
-- Links
------------------------------------------------------------

/- The ones but for the loopback, if they could be listed. -/
def namesOf :
    Except Errno (List (Except Errno Text)) → List Text
| .error _ => []
| .ok entries =>
    (flattened entries).filter fun name => name ≠ lo

/- Where the interfaces are listed. -/
def netDir : Text := "/sys/class/net".toList

/- The loopback, and what the listing names. -/
def Listed (past : History) (name : Text) : Prop :=
  ∃ listing, Answered past (.readDir netDir) listing ∧
    name ∈ lo :: namesOf listing

/-
  The kernel finds the interface, and the flags it had with
  only the two of a link that is up.
-/
def TakesUp (name : Text) (reply arg : List UInt8) : Prop :=
  ifrName arg = (Utf8.encode name).take 15 ∧
    ifrFlags arg = ifrFlags reply ||| iffUp ||| iffRunning

/- The kernel finds the loopback, and an address for it. -/
def SetsLoopback (address arg : List UInt8) : Prop :=
  ifrName arg = Utf8.encode lo ∧
    readUnion 0 2 arg = Bytes.ofNatLe 2 afInet ∧
    readUnion 4 4 arg = address

/- The flags that were read lack the bit. -/
def IsDown (ifr : List UInt8) : Prop :=
  ifrFlags ifr &&& iffUp = 0

/- It was asked for its flags, and was down. -/
def FoundDown
    (past : History) (name : Text) (reply : List UInt8) :
    Prop :=
  Answered past
      (.ioctl false .siocgifflags (ifreqFor name))
      (.ok reply) ∧
    IsDown reply

/- It was taken up unless it was not found down. -/
def TakenUp (name : Text) (past : History) : Prop :=
  ∃ answer,
    Answered past
        (.ioctl false .siocgifflags (ifreqFor name)) answer ∧
      ∀ reply, answer = .ok reply → IsDown reply →
        ∃ arg done,
          TakesUp name reply arg ∧
            Answered past (.ioctl false .siocsifflags arg)
              done

/- What may be asked after what has happened. -/
def LinkCall (image : Image) (past : History) :
    Request → Prop
| .ask (.readDir path) => path = netDir
| .ask (.ioctl false .siocsifaddr arg) =>
    image.has .netIpv4 = true ∧
      SetsLoopback [127, 0, 0, 1] arg
| .ask (.ioctl false .siocsifnetmask arg) =>
    image.has .netIpv4 = true ∧
      SetsLoopback [255, 0, 0, 0] arg
| .ask (.ioctl false .siocgifflags arg) =>
    ∃ name, Listed past name ∧ arg = ifreqFor name
| .ask (.ioctl false .siocsifflags arg) =>
    ∃ name reply, Listed past name ∧
      FoundDown past name reply ∧ TakesUp name reply arg
| _ => False

------------------------------------------------------------
-- What the Kernel Finds
------------------------------------------------------------

/- The name is in the first sixteen bytes. -/
theorem ifrName_of_take
    {ifr other : List UInt8}
    (hName : ifr.take 16 = other.take 16) :
    ifrName ifr = ifrName other := by
  unfold ifrName field ifrNameSize
  rw [List.drop_zero, List.drop_zero, hName]

/- A field that was set is read back. -/
theorem readUnion_setUnion
    {value ifr part : List UInt8} {offset count : Nat}
    (hLength : ifrUnion ≤ ifr.length)
    (hPart : field offset count value = part)
    (hInside : offset + count ≤ value.length) :
    readUnion offset count (setUnion value ifr) = part := by
  have hFront : (ifr.take ifrUnion).length = ifrUnion := by
    rw [List.length_take, Nat.min_eq_left hLength]
  unfold readUnion setUnion
  rw [List.append_assoc, ← List.drop_drop,
    List.drop_left' hFront,
    List.drop_append_of_le_length (by omega),
    List.take_append_of_le_length]
  · exact hPart
  · rw [List.length_drop]
    omega

/- The request names the loopback and the address. -/
theorem setsLoopback_setUnion
    {a b c d : UInt8} {ifr : List UInt8}
    (hName : ifrName ifr = Utf8.encode lo)
    (hLength : ifr.length = ifReqSize) :
    SetsLoopback [a, b, c, d]
      (setUnion (sockaddrIn [a, b, c, d]) ifr) := by
  have hUnion : ifrUnion ≤ ifr.length := by
    rw [hLength]
    decide
  refine ⟨?_, ?_, ?_⟩
  · rw [ifrName_setUnion hUnion, hName]
  · exact readUnion_setUnion hUnion rfl
      (by simp [sockaddrIn])
  · exact readUnion_setUnion hUnion rfl
      (by simp [sockaddrIn])

/- The flags are two bytes. -/
theorem ifrFlags_lt
    {ifr : List UInt8} (hLength : ifr.length = ifReqSize) :
    ifrFlags ifr < 2 ^ 16 := by
  have hBytes : (readUnion 0 2 ifr).length = 2 := by
    unfold readUnion
    rw [List.length_take, List.length_drop, hLength]
    rfl
  have hLess := Bytes.toNatLe_lt (readUnion 0 2 ifr)
  rw [hBytes] at hLess
  exact hLess

/- The flags that were read, with two bits more. -/
theorem takesUp_setFlags
    {name : Text} {reply : List UInt8}
    (hNul : '\x00' ∉ name)
    (hLength : reply.length = ifReqSize)
    (hName : reply.take 16 = (ifreqFor name).take 16) :
    TakesUp name reply
      (setFlags (ifrFlags reply ||| iffUp ||| iffRunning)
        reply) := by
  have hUnion : ifrUnion ≤ reply.length := by
    rw [hLength]
    decide
  constructor
  · unfold setFlags
    rw [ifrName_setUnion hUnion, ifrName_of_take hName,
      ifrName_ifreqFor hNul]
  · apply ifrFlags_setFlags hUnion
    apply Nat.or_lt_two_pow
    · apply Nat.or_lt_two_pow
      · exact ifrFlags_lt hLength
      · decide
    · decide

/- The union is written in its place. -/
theorem length_setUnion
    {value ifr : List UInt8}
    (hLength : ifrUnion + value.length ≤ ifr.length) :
    (setUnion value ifr).length = ifr.length := by
  unfold setUnion
  simp only [List.length_append, List.length_take,
    List.length_drop]
  omega

/- The name is padded, and not cut. -/
theorem ifrName_lo :
    ifrName (ifreqFor lo) = Utf8.encode lo :=
  ifrName_ifreqFor (by decide)

------------------------------------------------------------
-- Bringing the Links Up
------------------------------------------------------------

section

variable {May : History → Request → Prop}
variable {image : Image} {Kept : History → Prop}

/- The names are as they were listed. -/
theorem logged_nonLoopbackInterfaces
    (hKept : Stable Kept)
    (hMay :
      ∀ past, Kept past → May past (.ask (.readDir netDir))) :
    Logged Possible May Kept nonLoopbackInterfaces
      fun names past =>
        ∃ listing,
          (names = namesOf listing ∧
              ∀ name ∈ names, '\x00' ∉ name) ∧
            Kept past ∧
              Answered past (.readDir netDir) listing := by
  unfold nonLoopbackInterfaces
  refine logged_bind (logged_ask hKept hMay) fun listing => ?_
  refine logged_given fun hGiven => ?_
  rcases hGiven with ⟨s, hConsistent⟩
  cases listing with
  | error errno =>
      apply logged_pure
      intro past hPast
      exact ⟨_, ⟨rfl, nofun⟩, hPast⟩
  | ok entries =>
      apply logged_pure
      intro past hPast
      refine ⟨_, ⟨rfl, ?_⟩, hPast⟩
      intro name hMem
      have hFlat := (List.mem_filter.1 hMem).1
      rcases List.mem_filterMap.1 hFlat with
        ⟨entry, hEntry, hName⟩
      cases entry with
      | error errno => cases hName
      | ok other =>
          cases hName
          exact (hConsistent name hEntry).noNul

/- Only requests on the loopback. -/
theorem logged_configureLoopbackV4
    (hV4 : image.has .netIpv4 = true) :
    Logged Possible (LinkCall image) (fun _ => True)
      configureLoopbackV4 fun _ _ => True := by
  unfold configureLoopbackV4 ioctl
  refine logged_bind (logged_ask (stable_const True) ?_)
    fun assigned => ?_
  · intro past _
    refine ⟨hV4, ?_⟩
    exact setsLoopback_setUnion ifrName_lo
      (length_ifreqFor lo)
  refine logged_given fun hGiven => ?_
  rcases hGiven with ⟨s, hConsistent⟩
  cases assigned with
  | error errno => exact logged_pure fun _ _ => trivial
  | ok ifr =>
      have hUnion : ifrUnion ≤ (ifreqFor lo).length := by
        rw [length_ifreqFor]
        decide
      have hName : ifrName ifr = Utf8.encode lo := by
        rw [ifrName_of_take (hConsistent.2 rfl),
          ifrName_setUnion hUnion, ifrName_lo]
      have hLength : ifr.length = ifReqSize := by
        rw [hConsistent.1, length_setUnion, length_ifreqFor]
        rw [length_ifreqFor]
        decide
      refine logged_consequence (fun _ _ => trivial)
        (logged_bind (logged_ask (stable_const True) ?_)
          fun masked => logged_pure fun _ _ => trivial)
        fun _ _ hTrue => hTrue
      intro past _
      refine ⟨hV4, ?_⟩
      exact setsLoopback_setUnion hName hLength

/- A link that was taken up was taken up. -/
theorem stable_takenUp (name : Text) :
    Stable (TakenUp name) := by
  rintro past more hExtends ⟨answer, hAnswered, hTaken⟩
  refine ⟨answer, ?_, ?_⟩
  · exact stable_answered answer past more hExtends hAnswered
  · intro reply hReply hDown
    rcases hTaken reply hReply hDown with
      ⟨arg, done, hTakes, hDone⟩
    refine ⟨arg, done, hTakes, ?_⟩
    exact stable_answered done past more hExtends hDone

/- A link that is found up is left as it is. -/
theorem logged_ensureInterfaceUp
    {listing : Except Errno (List (Except Errno Text))}
    {name : Text}
    (hName : name ∈ lo :: namesOf listing)
    (hNul : '\x00' ∉ name) :
    Logged Possible (LinkCall image)
      (fun past => Answered past (.readDir netDir) listing)
      (ensureInterfaceUp name)
      fun _ past =>
        Answered past (.readDir netDir) listing ∧
          TakenUp name past := by
  have hListed :
      Stable fun past =>
        Answered past (.readDir netDir) listing :=
    @stable_answered (.readDir netDir) listing
  unfold ensureInterfaceUp ioctl
  refine logged_bind (logged_ask hListed ?_) fun answer => ?_
  · intro past hPast
    exact ⟨name, ⟨listing, hPast, hName⟩, rfl⟩
  refine logged_given fun hGiven => ?_
  rcases hGiven with ⟨s, hConsistent⟩
  cases answer with
  | error errno =>
      apply logged_pure
      rintro past ⟨hPast, hAnswered⟩
      exact ⟨hPast, _, hAnswered, nofun⟩
  | ok reply =>
      dsimp only
      split
      · next hUp =>
          apply logged_pure
          rintro past ⟨hPast, hAnswered⟩
          refine ⟨hPast, _, hAnswered, ?_⟩
          intro other hOther hDown
          cases hOther
          exact absurd hDown hUp
      · next hDown =>
          have hDown : IsDown reply := not_not.1 hDown
          have hTakes :=
            takesUp_setFlags hNul
              (hConsistent.1.trans (length_ifreqFor name))
              (hConsistent.2 rfl)
          refine logged_bind (logged_ask ?_ ?_)
            fun changed => logged_pure ?_
          · rintro past more hExtends ⟨hPast, hAnswered⟩
            exact
              ⟨hListed past more hExtends hPast,
                stable_answered _ past more hExtends
                  hAnswered⟩
          · rintro past ⟨hPast, hAnswered⟩
            exact ⟨name, reply, ⟨listing, hPast, hName⟩,
              ⟨hAnswered, hDown⟩, hTakes⟩
          · rintro past ⟨_, ⟨hPast, hAnswered⟩, hDone⟩
            refine ⟨hPast, _, hAnswered, ?_⟩
            intro other hOther _
            cases hOther
            exact ⟨_, _, hTakes, hDone⟩

/- Every name that is listed is asked about. -/
theorem logged_initNetworking :
    Logged Possible (LinkCall image) (fun _ => True)
      (initNetworking image)
      fun _ past =>
        ∃ listing,
          Answered past (.readDir netDir) listing ∧
            ∀ name ∈ lo :: namesOf listing,
              TakenUp name past := by
  unfold initNetworking
  have hFirst :
      Logged Possible (LinkCall image) (fun _ => True)
        (.when (image.has .netIpv4) do
          let _ ← configureLoopbackV4
          pure ())
        fun _ _ => True := by
    apply logged_when
    · intro hV4
      refine logged_bind (logged_configureLoopbackV4 hV4)
        fun _ => ?_
      exact logged_pure fun _ _ => trivial
    · intro _ _ _
      trivial
  refine logged_bind hFirst fun _ => ?_
  refine logged_bind
    (logged_nonLoopbackInterfaces (stable_const True)
      fun _ _ => rfl)
    fun names => ?_
  refine logged_exists fun listing => ?_
  refine logged_given fun hNames => ?_
  rcases hNames with ⟨rfl, hNul⟩
  refine logged_consequence (fun _ hBoth => hBoth.2)
    (logged_forM ?_ stable_takenUp) ?_
  · intro name hMem
    refine logged_bind (logged_ensureInterfaceUp hMem ?_)
      fun _ => logged_pure fun _ hBoth => hBoth
    rcases List.mem_cons.1 hMem with rfl | hMem
    · decide
    · exact hNul name hMem
  · intro _ past hBoth
    exact ⟨listing, hBoth⟩

/-
  In every run, whatever is done between the calls: only
  links that were listed and found down are taken up, and at
  the end none that was found down was left out.
-/
theorem links_taken_up
    {Between : Session → Session → Prop} {s t : Session}
    {trace : History}
    {rest : Script Request Answer (Except Stop Unit)}
    (hRuns :
      Runs Possible Between (initNetworking image) s trace
        rest t) :
    (∀ earlier event later,
        trace = earlier ++ event :: later →
          LinkCall image earlier event.request) ∧
      (rest = .done (.ok ()) →
        ∃ listing,
          Answered trace (.readDir netDir) listing ∧
            ∀ name ∈ lo :: namesOf listing,
              TakenUp name trace) := by
  have hBoth :=
    logged_of_runs logged_initNetworking trivial hRuns
  constructor
  · exact hBoth.1
  · intro hRest
    exact hBoth.2 () hRest

end

/- An init that knows of IPv4 alone. -/
def ipv4Image : Image :=
  { plainImage with features := [.netIpv4] }

/- Its interfaces taken up by a kernel. -/
def linksRun (kernel : Kernel) :
    Calls.Outcome Session Request Answer (Except Stop Unit) :=
  exec kernel.handle (initNetworking ipv4Image) firstSession

/- An interface is to be taken up. -/
def takesUp (name : Text) : Request → Bool
| .ask (.ioctl false .siocsifflags arg) =>
    ifrName arg = (Utf8.encode name).take 15
| _ => false

/- The kernel lists one, which it says is down. -/
theorem links_taken_up_wired :
    (linksRun Kernel.wired).value = .ok () ∧
      (linksRun Kernel.wired).trace.any
          (fun event => takesUp Kernel.eth0 event.request) =
        true ∧
      (∀ earlier event later,
          (linksRun Kernel.wired).trace =
              earlier ++ event :: later →
            LinkCall ipv4Image earlier event.request) ∧
        ∃ listing,
          Answered (linksRun Kernel.wired).trace
              (.readDir netDir) listing ∧
            ∀ name ∈ lo :: namesOf listing,
              TakenUp name (linksRun Kernel.wired).trace := by
  have hEnd : (linksRun Kernel.wired).value = .ok () := by
    rfl
  have hTakes :
      (linksRun Kernel.wired).trace.any
          (fun event => takesUp Kernel.eth0 event.request) =
        true := by
    decide
  have hRuns :=
    Kernel.wired.runs_handle (initNetworking ipv4Image)
      firstSession
  have hBoth := links_taken_up hRuns
  refine ⟨hEnd, hTakes, hBoth.1, hBoth.2 ?_⟩
  exact congrArg Script.done hEnd

end Boot

end Guest

end CargoUnikernel
