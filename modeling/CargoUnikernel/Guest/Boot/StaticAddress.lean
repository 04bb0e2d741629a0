import CargoUnikernel.Guest.Boot.Links

/-
  A static IPv6 address, and the route that goes with it.

  What the kernel is asked for is read back from the bytes
  that it is given: the address that was planned, on an
  interface that it was asked for the index of, and the
  route through the gateway only after the address.

  Main declarations:
    * `Plan`, `Chosen`, `StaticCall`, `Assigned`
    * `isFirst_of_leastName`
    * `logged_configureStaticIpv6`
-/

------------------------------------------------------------
-- What Is Planned
------------------------------------------------------------

namespace CargoUnikernel

namespace Guest

namespace Boot

open Calls
open Interfaces
open Procedures
open Schema (Ipv6Addr)

/- No name is an interface left open. -/
structure Plan where
  address : Ipv6Addr
  prefixLen : Nat
  gateway : Option Ipv6Addr
  interface : Text

/- What the exports of the init say. -/
structure Plan.Reads
    (plan : Plan) (staticV6 gateway interface : Text) :
    Prop where
  address :
    Network.parseStaticV6 staticV6 =
      some (plan.address, plan.prefixLen)
  short : plan.prefixLen < 2 ^ 32
  gateway : Ipv6Addr.parse gateway = plan.gateway
  interface : interface = plan.interface

/- None of the names comes before it, byte by byte. -/
def IsFirst (names : List Text) (name : Text) : Prop :=
  name ∈ names ∧
    ∀ other ∈ names, Utf8.encode name ≤ Utf8.encode other

/- The one that is named, or the first that was listed. -/
def Chosen (plan : Plan) (past : History) (name : Text) :
    Prop :=
  (plan.interface = [] ∧
      ∃ listing, Answered past (.readDir netDir) listing ∧
        IsFirst (namesOf listing) name) ∨
    plan.interface ≠ [] ∧ name = plan.interface

/- There was none to choose from. -/
def NoneListed (plan : Plan) (past : History) : Prop :=
  plan.interface = [] ∧
    ∃ listing, Answered past (.readDir netDir) listing ∧
      namesOf listing = []

/- What an interface is chosen from, and what is chosen. -/
def Choice (plan : Plan) (past : History) :
    Option Text → Prop
| none => NoneListed plan past
| some name => Chosen plan past name

------------------------------------------------------------
-- What Is Asked For
------------------------------------------------------------

/- The request for the index of an interface. -/
def indexQuery (name : Text) : Query :=
  .ioctl false .siocgifindex (ifreqFor name)

/- The kernel was asked for the number and gave it. -/
def HasIndex
    (past : History) (name : Text) (ifindex : List UInt8) :
    Prop :=
  ∃ reply, Answered past (indexQuery name) (.ok reply) ∧
    ifindex = ifrIfindex reply

/- The kernel reads the address, on the chosen interface. -/
def AsksAddress
    (plan : Plan) (past : History) (name : Text)
    (arg : List UInt8) : Prop :=
  ∃ ifindex, HasIndex past name ifindex ∧
    AddressRequest.read arg =
      { addr := octets plan.address
        prefixLen := plan.prefixLen
        ifindex := ifindex }

/- The kernel reads a default route through the gateway. -/
def AsksRoute
    (gateway : Ipv6Addr) (past : History) (name : Text)
    (arg : List UInt8) : Prop :=
  ∃ ifindex, HasIndex past name ifindex ∧
    RouteRequest.read arg =
      { dst := List.replicate 16 0
        dstLen := 0
        gateway := octets gateway
        metric := staticRouteMetric
        flags := rtfUp ||| rtfGateway
        ifindex := ifindex }

/- It was asked for unless the interface had no index. -/
def Tried
    (asks : History → Text → List UInt8 → Prop)
    (request : Ioctl) (name : Text) (past : History) :
    Prop :=
  (∃ errno, Answered past (indexQuery name) (.error errno)) ∨
    ∃ arg done, asks past name arg ∧
      Answered past (.ioctl true request arg) done

/- The address was asked for on the interface. -/
def AddressTried (plan : Plan) : Text → History → Prop :=
  Tried (AsksAddress plan) .siocsifaddr

/- The route was asked for on the interface. -/
def RouteTried (gateway : Ipv6Addr) :
    Text → History → Prop :=
  Tried (AsksRoute gateway) .siocaddrt

/- What may be asked after what has happened. -/
def StaticCall (plan : Plan) (past : History) :
    Request → Prop
| .ask (.readDir path) =>
    path = netDir ∧ plan.interface = []
| .ask (.ioctl false .siocgifindex arg) =>
    ∃ name, Chosen plan past name ∧ arg = ifreqFor name
| .ask (.ioctl true .siocsifaddr arg) =>
    ∃ name, Chosen plan past name ∧
      AsksAddress plan past name arg
| .ask (.ioctl true .siocaddrt arg) =>
    ∃ name gateway, Chosen plan past name ∧
      AddressTried plan name past ∧
        plan.gateway = some gateway ∧
          AsksRoute gateway past name arg
| _ => False

/- All that was planned has been asked for. -/
def Assigned (plan : Plan) (past : History) : Prop :=
  NoneListed plan past ∨
    ∃ name, Chosen plan past name ∧
      AddressTried plan name past ∧
        ∀ gateway, plan.gateway = some gateway →
          RouteTried gateway name past

------------------------------------------------------------
-- What Comes First
------------------------------------------------------------

/- Without a least name there is no name. -/
theorem eq_nil_of_leastName
    {names : List Text} (hLeast : leastName names = none) :
    names = [] := by
  cases names with
  | nil => rfl
  | cons name names =>
      unfold leastName at hLeast
      split at hLeast
      · cases hLeast
      · split at hLeast
        · cases hLeast
        · cases hLeast

/- The least name is the first of them. -/
theorem isFirst_of_leastName
    {names : List Text} {name : Text}
    (hLeast : leastName names = some name) :
    IsFirst names name := by
  induction names generalizing name with
  | nil => cases hLeast
  | cons head names ih =>
      unfold leastName at hLeast
      unfold IsFirst
      rw [List.forall_mem_cons]
      split at hLeast
      · next hNone =>
          cases hLeast
          rw [eq_nil_of_leastName hNone]
          exact ⟨List.mem_cons_self, List.le_refl _, nofun⟩
      · next other hOther =>
          rcases ih hOther with ⟨hMem, hAll⟩
          split at hLeast
          · next hLess =>
              cases hLeast
              exact
                ⟨List.mem_cons_of_mem head hMem,
                  List.le_of_lt hLess, hAll⟩
          · next hNotLess =>
              cases hLeast
              refine
                ⟨List.mem_cons_self, List.le_refl _, ?_⟩
              intro name hName
              exact
                List.le_trans (List.not_lt.1 hNotLess)
                  (hAll name hName)

------------------------------------------------------------
-- What Has Once Happened
------------------------------------------------------------

/- What was chosen, asked and tried stays so. -/
theorem stable_chosen (plan : Plan) (name : Text) :
    Stable fun past => Chosen plan past name := by
  rintro past more hExtends
    (⟨hOpen, listing, hAnswered, hFirst⟩ | hNamed)
  · left
    refine ⟨hOpen, listing, ?_, hFirst⟩
    exact stable_answered _ past more hExtends hAnswered
  · right
    exact hNamed

theorem stable_hasIndex
    (name : Text) (ifindex : List UInt8) :
    Stable fun past => HasIndex past name ifindex := by
  rintro past more hExtends ⟨reply, hAnswered, hIndex⟩
  refine ⟨reply, ?_, hIndex⟩
  exact stable_answered _ past more hExtends hAnswered

theorem stable_asksAddress
    (plan : Plan) (name : Text) (arg : List UInt8) :
    Stable fun past => AsksAddress plan past name arg := by
  rintro past more hExtends ⟨ifindex, hIndex, hRead⟩
  refine ⟨ifindex, ?_, hRead⟩
  exact stable_hasIndex name ifindex past more hExtends hIndex

/- So for any request, if what it asks for is stable. -/
theorem stable_tried
    {asks : History → Text → List UInt8 → Prop}
    (request : Ioctl) (name : Text)
    (hAsks : ∀ arg, Stable fun past => asks past name arg) :
    Stable (Tried asks request name) := by
  rintro past more hExtends
    (⟨errno, hAnswered⟩ | ⟨arg, done, hAsked, hDone⟩)
  · left
    refine ⟨errno, ?_⟩
    exact stable_answered _ past more hExtends hAnswered
  · right
    refine ⟨arg, done, ?_, ?_⟩
    · exact hAsks arg past more hExtends hAsked
    · exact stable_answered _ past more hExtends hDone

theorem stable_addressTried (plan : Plan) (name : Text) :
    Stable (AddressTried plan name) :=
  stable_tried .siocsifaddr name
    (stable_asksAddress plan name)

------------------------------------------------------------
-- What Is Done
------------------------------------------------------------

section

variable {plan : Plan}

/- The answer is by the plan, or by the listing. -/
theorem logged_chooseInterface :
    Logged Possible (StaticCall plan) (fun _ => True)
      (chooseInterface plan.interface)
      fun chosen past => Choice plan past chosen := by
  unfold chooseInterface
  split
  · next hOpen =>
      refine logged_bind
        (logged_nonLoopbackInterfaces (stable_const True)
          fun _ _ => ⟨rfl, hOpen⟩)
        fun names => logged_pure ?_
      rintro past ⟨listing, ⟨rfl, _⟩, _, hAnswered⟩
      cases hLeast : leastName (namesOf listing) with
      | none =>
          exact
            ⟨hOpen, listing, hAnswered,
              eq_nil_of_leastName hLeast⟩
      | some name =>
          left
          exact
            ⟨hOpen, listing, hAnswered,
              isFirst_of_leastName hLeast⟩
  · next hNamed =>
      apply logged_pure
      intro past _
      right
      exact ⟨hNamed, rfl⟩

/- What comes of asking for the index of an interface. -/
def Indexed (past : History) (name : Text) :
    Except Errno (List UInt8) → Prop
| .error errno =>
    Answered past (indexQuery name) (.error errno)
| .ok ifindex =>
    HasIndex past name ifindex ∧ ifindex.length = 4

/- The number is asked for under the chosen name. -/
theorem logged_interfaceIndex
    {name : Text} {Kept : History → Prop}
    (hKept : Stable Kept)
    (hChosen : ∀ past, Kept past → Chosen plan past name) :
    Logged Possible (StaticCall plan) Kept
      (interfaceIndex name)
      fun index past => Kept past ∧ Indexed past name index := by
  unfold interfaceIndex ioctl
  refine logged_bind (logged_ask hKept ?_) fun answer => ?_
  · intro past hPast
    exact ⟨name, hChosen past hPast, rfl⟩
  refine logged_given fun hGiven => ?_
  rcases hGiven with ⟨s, hConsistent⟩
  cases answer with
  | error errno =>
      exact logged_pure fun past hBoth => hBoth
  | ok reply =>
      apply logged_pure
      rintro past ⟨hPast, hAnswered⟩
      refine ⟨hPast, ⟨reply, hAnswered, rfl⟩, ?_⟩
      have hLength : reply.length = ifReqSize :=
        hConsistent.1.trans (length_ifreqFor name)
      unfold ifrIfindex readUnion
      rw [List.length_take, List.length_drop, hLength]
      rfl

/-
  A request that is made out of the index of an interface,
  and of which the kernel reads what is meant.
-/
theorem logged_tries
    {name : Text} {request : Ioctl}
    {made : List UInt8 → List UInt8}
    {asks : History → Text → List UInt8 → Prop}
    {Kept : History → Prop}
    (hKept : Stable Kept)
    (hChosen : ∀ past, Kept past → Chosen plan past name)
    (hMade :
      ∀ past ifindex, HasIndex past name ifindex →
        ifindex.length = 4 → asks past name (made ifindex))
    (hMay :
      ∀ past arg, Kept past → asks past name arg →
        StaticCall plan past (.ask (.ioctl true request arg))) :
    Logged Possible (StaticCall plan) Kept
      (do
        let index ← interfaceIndex name
        match index with
        | .error _ => pure ()
        | .ok ifindex =>
            let _ ← ioctl true request (made ifindex))
      fun _ past => Kept past ∧ Tried asks request name past := by
  refine logged_bind (logged_interfaceIndex hKept hChosen)
    fun index => ?_
  cases index with
  | error errno =>
      apply logged_pure
      rintro past ⟨hPast, hFailed⟩
      exact ⟨hPast, .inl ⟨errno, hFailed⟩⟩
  | ok ifindex =>
      have hStable :
          Stable fun past =>
            Kept past ∧ HasIndex past name ifindex ∧
              ifindex.length = 4 :=
        stable_and hKept
          (stable_and (stable_hasIndex name ifindex)
            (stable_const _))
      unfold ioctl
      refine logged_bind (logged_ask hStable ?_)
        fun answer => logged_pure ?_
      · rintro past ⟨hPast, hIndex, hLength⟩
        apply hMay past _ hPast
        exact hMade past ifindex hIndex hLength
      · rintro past ⟨_, ⟨hPast, hIndex, hLength⟩, hDone⟩
        refine ⟨hPast, .inr ⟨made ifindex, _, ?_, hDone⟩⟩
        exact hMade past ifindex hIndex hLength

/- The address is tried, once there is a number. -/
theorem logged_assignIpv6Address
    {name : Text} (hShort : plan.prefixLen < 2 ^ 32) :
    Logged Possible (StaticCall plan)
      (fun past => Chosen plan past name)
      (assignIpv6Address name plan.address plan.prefixLen)
      fun _ past =>
        Chosen plan past name ∧ AddressTried plan name past := by
  apply logged_tries (stable_chosen plan name)
  · intro past hChosen
    exact hChosen
  · intro past ifindex hIndex hLength
    refine ⟨ifindex, hIndex, ?_⟩
    exact read_in6IfReq plan.address hShort hLength
  · intro past arg hChosen hAsks
    exact ⟨name, hChosen, hAsks⟩

/- And the route after it. -/
theorem logged_addIpv6DefaultRoute
    {name : Text} {gateway : Ipv6Addr}
    (hGateway : plan.gateway = some gateway) :
    Logged Possible (StaticCall plan)
      (fun past =>
        Chosen plan past name ∧ AddressTried plan name past)
      (addIpv6DefaultRoute name gateway)
      fun _ past =>
        (Chosen plan past name ∧
            AddressTried plan name past) ∧
          RouteTried gateway name past := by
  apply logged_tries
    (stable_and (stable_chosen plan name)
      (stable_addressTried plan name))
  · intro past hBoth
    exact hBoth.1
  · intro past ifindex hIndex hLength
    exact ⟨ifindex, hIndex, read_in6RtMsg gateway hLength⟩
  · rintro past arg ⟨hChosen, hTried⟩ hAsks
    exact ⟨name, gateway, hChosen, hTried, hGateway, hAsks⟩

/- All of it, from the choice on. -/
theorem logged_configureStaticIpv6
    {staticV6 gateway interface : Text}
    (hReads : plan.Reads staticV6 gateway interface) :
    Logged Possible (StaticCall plan) (fun _ => True)
      (configureStaticIpv6 staticV6 gateway interface)
      fun _ past => Assigned plan past := by
  unfold configureStaticIpv6
  rw [hReads.address, hReads.interface, hReads.gateway]
  refine logged_bind logged_chooseInterface fun chosen => ?_
  cases chosen with
  | none =>
      exact logged_pure fun past hNone => .inl hNone
  | some name =>
      refine logged_bind
        (logged_assignIpv6Address hReads.short) fun _ => ?_
      cases hGateway : plan.gateway with
      | none =>
          apply logged_pure
          rintro past ⟨hChosen, hTried⟩
          refine .inr ⟨name, hChosen, hTried, ?_⟩
          intro gateway hSome
          rw [hGateway] at hSome
          cases hSome
      | some gateway =>
          refine logged_consequence (fun _ hBoth => hBoth)
            (logged_addIpv6DefaultRoute hGateway) ?_
          rintro _ past ⟨⟨hChosen, hTried⟩, hRoute⟩
          refine .inr ⟨name, hChosen, hTried, ?_⟩
          intro other hSome
          rw [hGateway] at hSome
          cases hSome
          exact hRoute

end

end Boot

end Guest

end CargoUnikernel
