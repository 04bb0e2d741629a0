import CargoUnikernel.Guest.Boot.Links

/-
  What the sysctls are set to.

  The writes of a pass are those of the categories that are
  compiled in, those for each interface that was listed, and
  those that a project adds, in this order. No two of the
  first two kinds set one sysctl to different values.

  Main declarations:
    * `planned`, `written`, `Listings`
    * `logged_applyHardening`
    * `eq_value_of_mem_planned`
    * `hardening_settles`
-/

------------------------------------------------------------
-- What Is Written
------------------------------------------------------------

namespace CargoUnikernel

namespace Guest

namespace Boot

open Calls
open Hardening
open Landlock (locate)
open Pipeline (Feature)
open Procedures

/- What comes of reading a directory. -/
abbrev Listing := Except Errno (List (Except Errno Text))

/- What a call writes, if it is a write. -/
def writtenBy : Request → Option Knob
| .act (.write path contents) => some (path, contents)
| _ => none

/- All that was asked to be written, in order. -/
def written (trace : History) : List Knob :=
  trace.filterMap fun event => writtenBy event.request

/- The interfaces of a family that could be listed. -/
def interfacesOf : Listing → List Text
| .error _ => []
| .ok entries =>
    (flattened entries).filter fun entry => !isSkipped entry

/- The settings of one family, for what is listed. -/
def familyKnobs
    (family : String × List String) (listing : Listing) :
    List Knob :=
  (interfacesOf listing).flatMap fun entry =>
    family.2.map (interfaceKnob family.1 entry)

/- The whole category, in order. -/
def spoofingKnobs (listings : String → Listing) : List Knob :=
  redirectAndForwarding ++ sourceRouting ++ arpHardening ++
    (existingInterfaceKnobs.flatMap fun family =>
      familyKnobs family (listings family.1)) ++
    logMartians

/- A category counts if its feature is there. -/
def onlyIf (wanted : Bool) (knobs : List Knob) : List Knob :=
  if wanted then knobs else []

/- Those of all the categories that are compiled in. -/
def planned
    (image : Image) (listings : String → Listing) :
    List Knob :=
  baselineTuning ++
    onlyIf (image.has .hardeningNetSpoofing)
      (spoofingKnobs listings) ++
    onlyIf (image.has .hardeningIcmp) icmpHardening ++
    onlyIf (image.has .hardeningTcp) tcpHardening ++
    onlyIf (image.has .hardeningInfoLeak) infoLeak ++
    onlyIf (image.has .hardeningPtraceBpf) ptraceAndBpf ++
    onlyIf (image.has .hardeningKexecFs) kexecAndFs

/- It is what the kernel answered, and has file names. -/
def IsListing
    (past : History) (path : Text) (listing : Listing) :
    Prop :=
  (∃ s, Query.Consistent s (.readDir path) listing) ∧
    Answered past (.readDir path) listing

/- Of each family, where the interfaces are hardened. -/
def Listings
    (image : Image) (listings : String → Listing)
    (past : History) : Prop :=
  image.has .hardeningNetSpoofing = true →
    ∀ family ∈ existingInterfaceKnobs,
      IsListing past (confDir family.1) (listings family.1)

------------------------------------------------------------
-- In Which Order
------------------------------------------------------------

/- So much has been written by now. -/
def Wrote (knobs : List Knob) (past : History) : Prop :=
  written past = knobs

/- One call more, and what it writes. -/
theorem written_append_one
    (past : History) (event : BootEvent) :
    written (past ++ [event]) =
      written past ++ (writtenBy event.request).toList := by
  unfold written
  rw [List.filterMap_append, List.filterMap_cons,
    List.filterMap_nil]
  cases writtenBy event.request with
  | none => rfl
  | some knob => rfl

/- A directory that was listed was listed. -/
theorem stable_isListing (path : Text) (listing : Listing) :
    Stable fun past => IsListing past path listing := by
  rintro past more hExtends ⟨hConsistent, hAnswered⟩
  refine ⟨hConsistent, ?_⟩
  exact stable_answered _ past more hExtends hAnswered

/- What is skipped is what is filtered out. -/
theorem flatMap_onlyIf
    {β : Type} (items : List β) (wanted : β → Bool)
    (knobs : β → List Knob) :
    (items.flatMap fun item =>
        onlyIf (wanted item) (knobs item)) =
      (items.filter wanted).flatMap knobs := by
  induction items with
  | nil => rfl
  | cons item items ih =>
      rw [List.flatMap_cons, ih, List.filter_cons]
      unfold onlyIf
      split
      · rw [List.flatMap_cons]
      · rw [List.nil_append]

/- Anything may be asked. -/
def anything (_ : History) (_ : Request) : Prop :=
  True

section

variable {Kept : History → Prop} {before : List Knob}

/- What is asked writes nothing. -/
theorem logged_listing
    (hKept : Stable Kept) (path : Text) :
    Logged Possible anything
      (fun past => Kept past ∧ Wrote before past)
      (ask (.readDir path))
      fun listing past =>
        (Kept past ∧ IsListing past path listing) ∧
          Wrote before past := by
  apply logged_perform
  · intro past _
    trivial
  · rintro past now listing after ⟨hPast, hWrote⟩ hPossible
    refine ⟨⟨?_, ⟨now.machine, hPossible.1.1⟩, now, ?_⟩, ?_⟩
    · exact hKept past _ (List.prefix_append _ _) hPast
    · exact List.mem_append_right _ List.mem_cons_self
    · unfold Wrote at *
      rw [written_append_one, hWrote]
      exact List.append_nil before

/- One setting more is written. -/
theorem logged_writeSysctl
    (hKept : Stable Kept) (knob : Knob) :
    Logged Possible anything
      (fun past => Kept past ∧ Wrote before past)
      (writeSysctl knob)
      fun _ past =>
        Kept past ∧ Wrote (before ++ [knob]) past := by
  have hWritten :
      Logged Possible anything
        (fun past => Kept past ∧ Wrote before past)
        (act (.write knob.1 knob.2))
        fun _ past =>
          Kept past ∧ Wrote (before ++ [knob]) past := by
    apply logged_perform
    · intro past _
      trivial
    · rintro past now answer after ⟨hPast, hWrote⟩ _
      constructor
      · exact hKept past _ (List.prefix_append _ _) hPast
      · unfold Wrote at *
        rw [written_append_one, hWrote]
        rfl
  unfold writeSysctl attempt
  exact logged_bind hWritten fun _ =>
    logged_pure fun _ hBoth => hBoth

/- What each turn of a loop writes comes in its order. -/
theorem logged_forM_written
    {β : Type} {items : List β} {body : β → Init Unit}
    {added : β → List Knob}
    (hBody :
      ∀ before, ∀ item ∈ items,
        Logged Possible anything
          (fun past => Kept past ∧ Wrote before past)
          (body item)
          fun _ past =>
            Kept past ∧ Wrote (before ++ added item) past) :
    Logged Possible anything
      (fun past => Kept past ∧ Wrote before past)
      (forM items body)
      fun _ past =>
        Kept past ∧
          Wrote (before ++ items.flatMap added) past := by
  rw [List.flatMap_def, ← List.foldl_append_eq_append]
  exact logged_forM_foldl hBody before

/- By induction on the settings. -/
theorem logged_writeKnobs
    (hKept : Stable Kept) (knobs : List Knob) :
    Logged Possible anything
      (fun past => Kept past ∧ Wrote before past)
      (writeKnobs knobs)
      fun _ past =>
        Kept past ∧ Wrote (before ++ knobs) past := by
  have hLoop :
      Logged Possible anything
        (fun past => Kept past ∧ Wrote before past)
        (forM knobs writeSysctl)
        fun _ past =>
          Kept past ∧
            Wrote
              (before ++ knobs.flatMap fun knob => [knob])
              past := by
    apply logged_forM_written
    intro before knob _
    exact logged_writeSysctl hKept knob
  rw [List.flatMap_singleton'] at hLoop
  exact hLoop

/- A procedure that may be left out. -/
theorem logged_when_written
    {wanted : Bool} {proc : Init Unit} {knobs : List Knob}
    (hProc :
      Logged Possible anything
        (fun past => Kept past ∧ Wrote before past) proc
        fun _ past =>
          Kept past ∧ Wrote (before ++ knobs) past) :
    Logged Possible anything
      (fun past => Kept past ∧ Wrote before past)
      (.when wanted proc)
      fun _ past =>
        Kept past ∧
          Wrote (before ++ onlyIf wanted knobs) past := by
  apply logged_when
  · intro hWanted
    unfold onlyIf
    rw [if_pos hWanted]
    exact hProc
  · intro past hNot hBoth
    unfold onlyIf
    rw [hNot, if_neg Bool.false_ne_true, List.append_nil]
    exact hBoth

/- A category whose feature is not there writes nothing. -/
theorem logged_writeCategory
    (hKept : Stable Kept) (image : Image)
    (feature : Feature) (knobs : List Knob) :
    Logged Possible anything
      (fun past => Kept past ∧ Wrote before past)
      (writeCategory image feature knobs)
      fun _ past =>
        Kept past ∧
          Wrote (before ++ onlyIf (image.has feature) knobs)
            past :=
  logged_when_written (logged_writeKnobs hKept knobs)

/- The pairs that are not confined are left out. -/
theorem logged_applyExtra
    (hKept : Stable Kept) (extra : List Knob) :
    Logged Possible anything
      (fun past => Kept past ∧ Wrote before past)
      (applyExtra extra)
      fun _ past =>
        Kept past ∧ Wrote (before ++ accepted extra) past := by
  unfold accepted
  rw [← List.flatMap_singleton' (extra.filter _),
    ← flatMap_onlyIf]
  apply logged_forM_written
  intro before pair _
  exact logged_when_written (logged_writeSysctl hKept pair)

/- The interfaces are those that were listed. -/
theorem logged_hardenFamily
    (hKept : Stable Kept)
    (family : String × List String) :
    Logged Possible anything
      (fun past => Kept past ∧ Wrote before past)
      (hardenFamily family)
      fun _ past =>
        ∃ listing,
          (Kept past ∧
              IsListing past (confDir family.1) listing) ∧
            Wrote (before ++ familyKnobs family listing)
              past := by
  unfold hardenFamily
  refine logged_bind (logged_listing hKept _)
    fun listing => ?_
  cases listing with
  | error errno =>
      apply logged_pure
      rintro past ⟨hPast, hWrote⟩
      refine ⟨_, hPast, ?_⟩
      unfold familyKnobs interfacesOf
      rw [List.flatMap_nil, List.append_nil]
      exact hWrote
  | ok entries =>
      refine logged_consequence (fun _ hBoth => hBoth) ?_
        fun _ past hBoth => ⟨.ok entries, hBoth⟩
      unfold familyKnobs interfacesOf
      rw [← flatMap_onlyIf]
      apply logged_forM_written
      intro before entry _
      apply logged_when_written
      exact
        logged_writeKnobs
          (stable_and hKept (stable_isListing _ _)) _

/- Each family is listed once. -/
theorem logged_hardenFamilies
    {families : List (String × List String)}
    (hKept : Stable Kept)
    (hNodup : (families.map Prod.fst).Nodup) :
    Logged Possible anything
      (fun past => Kept past ∧ Wrote before past)
      (forM families hardenFamily)
      fun _ past =>
        ∃ listings : String → Listing,
          (Kept past ∧
              ∀ family ∈ families,
                IsListing past (confDir family.1)
                  (listings family.1)) ∧
            Wrote
              (before ++
                families.flatMap fun family =>
                  familyKnobs family (listings family.1))
              past := by
  induction families generalizing Kept before with
  | nil =>
      apply logged_done
      rintro past ⟨hPast, hWrote⟩
      refine ⟨fun _ => .ok [], ⟨hPast, nofun⟩, ?_⟩
      rw [List.flatMap_nil, List.append_nil]
      exact hWrote
  | cons family families ih =>
      rw [List.map_cons, List.nodup_cons] at hNodup
      rw [List.forM_cons]
      refine logged_bind (logged_hardenFamily hKept family)
        fun _ => logged_exists fun listing => ?_
      refine logged_consequence (fun _ hBoth => hBoth)
        (ih (stable_and hKept (stable_isListing _ _))
          hNodup.2) ?_
      rintro _ past
        ⟨listings, ⟨⟨hPast, hFirst⟩, hRest⟩, hWrote⟩
      have hOthers :
          ∀ other ∈ families,
            Function.update listings family.1 listing
                other.1 =
              listings other.1 := by
        intro other hMem
        apply Function.update_of_ne
        rintro hSame
        apply hNodup.1
        rw [← hSame]
        exact List.mem_map_of_mem hMem
      refine
        ⟨Function.update listings family.1 listing,
          ⟨hPast, ?_⟩, ?_⟩
      · intro other hMem
        rcases List.mem_cons.1 hMem with rfl | hMem
        · rw [Function.update_self]
          exact hFirst
        · rw [hOthers other hMem]
          exact hRest other hMem
      · rw [List.flatMap_cons, Function.update_self,
          ← List.append_assoc]
        have hSame :
            (families.flatMap fun other =>
                familyKnobs other
                  (Function.update listings family.1 listing
                    other.1)) =
              families.flatMap fun other =>
                familyKnobs other (listings other.1) := by
          apply List.flatMap_congr
          intro other hMem
          rw [hOthers other hMem]
        rw [hSame]
        exact hWrote

/- The listings that were seen stay known. -/
theorem stable_listings
    (image : Image) (listings : String → Listing) :
    Stable (Listings image listings) := by
  intro past more hExtends hListed hHas family hMem
  exact
    stable_isListing _ _ past more hExtends
      (hListed hHas family hMem)

/- The category with what was listed in the middle of it. -/
theorem logged_applyNetworkSpoofingProtection
    (image : Image) :
    Logged Possible anything
      (fun past => True ∧ Wrote before past)
      (.when (image.has .hardeningNetSpoofing)
        applyNetworkSpoofingProtection)
      fun _ past =>
        ∃ listings, Listings image listings past ∧
          Wrote
            (before ++
              onlyIf (image.has .hardeningNetSpoofing)
                (spoofingKnobs listings))
            past := by
  apply logged_when
  · intro hHas
    unfold applyNetworkSpoofingProtection
    refine logged_bind
      (logged_writeKnobs (stable_const True) _) fun _ => ?_
    refine logged_bind
      (logged_writeKnobs (stable_const True) _) fun _ => ?_
    refine logged_bind
      (logged_writeKnobs (stable_const True) _) fun _ => ?_
    refine logged_bind
      (logged_hardenFamilies (stable_const True) (by decide))
      fun _ => logged_exists fun listings => ?_
    refine logged_consequence (fun _ hBoth => hBoth)
      (logged_writeKnobs (stable_and (stable_const True) ?_)
        _) ?_
    · intro past more hExtends hListed family hMem
      exact
        stable_isListing _ _ past more hExtends
          (hListed family hMem)
    · rintro _ past ⟨⟨_, hListed⟩, hWrote⟩
      refine ⟨listings, fun _ => hListed, ?_⟩
      unfold onlyIf spoofingKnobs
      rw [if_pos hHas]
      simpa only [List.append_assoc] using hWrote
  · rintro past hNot ⟨_, hWrote⟩
    refine ⟨fun _ => .ok [], ?_, ?_⟩
    · intro hHas
      rw [hNot] at hHas
      cases hHas
    · unfold onlyIf
      rw [hNot, if_neg Bool.false_ne_true, List.append_nil]
      exact hWrote

/- Category by category, and what a project adds last. -/
theorem logged_applyHardening
    (image : Image) (extra : List Knob) :
    Logged Possible anything
      (fun past => True ∧ Wrote [] past)
      (applyHardening image extra)
      fun _ past =>
        ∃ listings, Listings image listings past ∧
          Wrote (planned image listings ++ accepted extra)
            past := by
  unfold applyHardening
  refine logged_bind
    (logged_writeKnobs (stable_const True) _) fun _ => ?_
  refine logged_bind
    (logged_applyNetworkSpoofingProtection image)
    fun _ => logged_exists fun listings => ?_
  have hListed := stable_listings image listings
  refine logged_bind (logged_writeCategory hListed image _ _)
    fun _ => ?_
  refine logged_bind (logged_writeCategory hListed image _ _)
    fun _ => ?_
  refine logged_bind (logged_writeCategory hListed image _ _)
    fun _ => ?_
  refine logged_bind (logged_writeCategory hListed image _ _)
    fun _ => ?_
  refine logged_bind (logged_writeCategory hListed image _ _)
    fun _ => ?_
  refine logged_consequence (fun _ hBoth => hBoth)
    (logged_applyExtra hListed extra) ?_
  intro _ past hBoth
  exact ⟨listings, hBoth⟩

end

------------------------------------------------------------
-- No Two Values
------------------------------------------------------------

/- A knob of an interface that is there. -/
def IsInterfaceKnob (knob : Knob) : Prop :=
  ∃ family ∈ existingInterfaceKnobs, ∃ entry,
    ∃ name ∈ family.2,
      IsFileName entry ∧ isSkipped entry = false ∧
        knob = interfaceKnob family.1 entry name

/- What is listed is a name, and not to be skipped. -/
theorem mem_interfacesOf
    {s : Machine} {path entry : Text} {listing : Listing}
    (hConsistent : Query.Consistent s (.readDir path) listing)
    (hMem : entry ∈ interfacesOf listing) :
    IsFileName entry ∧ isSkipped entry = false := by
  cases listing with
  | error errno => cases hMem
  | ok entries =>
      rcases List.mem_filter.1 hMem with ⟨hFlat, hKept⟩
      rcases List.mem_filterMap.1 hFlat with
        ⟨answer, hAnswer, hName⟩
      constructor
      · cases answer with
        | error errno => cases hName
        | ok name =>
            cases hName
            exact hConsistent entry hAnswer
      · simpa using hKept

/- What is of a category, and of its feature. -/
theorem mem_onlyIf_iff
    {wanted : Bool} {knob : Knob} {knobs : List Knob} :
    knob ∈ onlyIf wanted knobs ↔
      wanted = true ∧ knob ∈ knobs := by
  unfold onlyIf
  split
  · next hWanted => simp [hWanted]
  · next hNot => simp [hNot]

section

variable {image : Image} {listings : String → Listing}
variable {past : History}

/- What is planned is fixed, or of an interface. -/
theorem mem_planned
    (hListed : Listings image listings past) {knob : Knob}
    (hMem : knob ∈ planned image listings) :
    knob ∈ fixedKnobs ∨ IsInterfaceKnob knob := by
  by_cases hFixed : knob ∈ fixedKnobs
  · exact .inl hFixed
  · right
    have hSpoofing :
        image.has .hardeningNetSpoofing = true ∧
          knob ∈
            existingInterfaceKnobs.flatMap fun family =>
              familyKnobs family (listings family.1) := by
      simp only [planned, spoofingKnobs, fixedKnobs,
        List.mem_append, mem_onlyIf_iff] at hMem hFixed
      grind
    rcases hSpoofing with ⟨hHas, hFamily⟩
    rcases List.mem_flatMap.1 hFamily with
      ⟨family, hExisting, hKnob⟩
    rcases List.mem_flatMap.1 hKnob with
      ⟨entry, hEntry, hKnob⟩
    rcases List.mem_map.1 hKnob with ⟨name, hName, rfl⟩
    rcases hListed hHas family hExisting with
      ⟨⟨s, hConsistent⟩, _⟩
    rcases mem_interfacesOf hConsistent hEntry with
      ⟨hFile, hKept⟩
    exact
      ⟨family, hExisting, entry, name, hName, hFile, hKept,
        rfl⟩

/- All families are equally deep below `/proc`. -/
theorem length_locate_confDir :
    ∀ family ∈ existingInterfaceKnobs,
      (locate (confDir family.1)).length = 5 := by
  decide

/- The settings of a family are names of files. -/
theorem isFileName_of_knob
    {family : String × List String} {name : String}
    (hFamily : family ∈ existingInterfaceKnobs)
    (hName : name ∈ family.2) :
    IsFileName name.toList := by
  have hAll :
      ∀ family ∈ existingInterfaceKnobs,
        ∀ name ∈ family.2,
          '/' ∉ name.toList ∧ '\x00' ∉ name.toList ∧
            name.toList ≠ [] ∧ name.toList ≠ ".".toList ∧
              name.toList ≠ "..".toList := by
    decide
  rcases hAll family hFamily name hName with
    ⟨hSlash, hNul, hNonempty, hDot, hUp⟩
  exact ⟨hSlash, hNul, hNonempty, hDot, hUp⟩

/- The interface is the sixth name on the way to it. -/
theorem locate_interfaceKnob
    {knob : Knob} (hKnob : IsInterfaceKnob knob) :
    ∃ entry, (locate knob.1)[5]? = some entry ∧
      isSkipped entry = false := by
  rcases hKnob with
    ⟨family, hExisting, entry, name, hName, hFile, hKept,
      rfl⟩
  refine ⟨entry, ?_, hKept⟩
  have hPath :
      locate (interfaceKnob family.1 entry name).1 =
        locate (confDir family.1) ++ [entry] ++
          [name.toList] := by
    rw [← locate_name hFile,
      ← locate_name (isFileName_of_knob hExisting hName)]
    rfl
  have hLength := length_locate_confDir family hExisting
  rw [hPath, List.append_assoc, List.getElem?_append_right,
    hLength]
  · rfl
  · rw [hLength]

/- No file is written with two values. -/
theorem eq_value_of_mem_planned
    (hListed : Listings image listings past)
    {knob other : Knob}
    (hKnob : knob ∈ planned image listings)
    (hOther : other ∈ planned image listings)
    (hLocate : locate knob.1 = locate other.1) :
    knob.2 = other.2 := by
  rcases mem_planned hListed hKnob with hFixed | hThere
  · rcases mem_planned hListed hOther with hFixed' | hThere
    · rw [eq_of_locate_eq hFixed hFixed' hLocate]
    · rcases locate_interfaceKnob hThere with
        ⟨entry, hEntry, hKept⟩
      rw [← hLocate] at hEntry
      rw [isSkipped_of_locate hFixed hEntry] at hKept
      cases hKept
  · rcases mem_planned hListed hOther with hFixed | hThere'
    · rcases locate_interfaceKnob hThere with
        ⟨entry, hEntry, hKept⟩
      rw [hLocate] at hEntry
      rw [isSkipped_of_locate hFixed hEntry] at hKept
      cases hKept
    · rcases hThere with ⟨_, _, _, _, _, _, _, rfl⟩
      rcases hThere' with ⟨_, _, _, _, _, _, _, rfl⟩
      rfl

end

------------------------------------------------------------
-- What Is Settled
------------------------------------------------------------

/- By whichever name the place is called. -/
def WritesTo
    (request : Request) (place : Path) (value : Text) :
    Prop :=
  ∃ path, locate path = place ∧
    writtenBy request = some (path, value)

/- None of the pairs is for the place. -/
def Spares (knobs : List Knob) (place : Path) : Prop :=
  ∀ knob ∈ knobs, locate knob.1 ≠ place

section

variable {trace : History} {knobs : List Knob}

/- Whatever is written to a place was planned. -/
theorem mem_of_writesTo
    (hWrote : Wrote knobs trace) {event : BootEvent}
    {place : Path} {value : Text}
    (hMem : event ∈ trace)
    (hWrites : WritesTo event.request place value) :
    ∃ path, locate path = place ∧ (path, value) ∈ knobs := by
  rcases hWrites with ⟨path, hPath, hKnob⟩
  refine ⟨path, hPath, ?_⟩
  unfold Wrote at hWrote
  rw [← hWrote]
  exact List.mem_filterMap.2 ⟨event, hMem, hKnob⟩

/- Whatever was planned is written. -/
theorem writesTo_of_mem
    (hWrote : Wrote knobs trace) {knob : Knob}
    (hMem : knob ∈ knobs) :
    ∃ event ∈ trace,
      WritesTo event.request (locate knob.1) knob.2 := by
  unfold Wrote at hWrote
  rw [← hWrote] at hMem
  rcases List.mem_filterMap.1 hMem with
    ⟨event, hEvent, hKnob⟩
  exact ⟨event, hEvent, knob.1, rfl, hKnob⟩

/- What comes after a write comes after it in the run. -/
theorem split_of_wrote
    {before after : List Knob} {knob : Knob}
    (hWrote : Wrote (before ++ knob :: after) trace) :
    ∃ earlier event later,
      trace = earlier ++ event :: later ∧
        writtenBy event.request = some knob ∧
          Wrote after later := by
  unfold Wrote written at hWrote
  rw [List.filterMap_eq_append_iff] at hWrote
  rcases hWrote with ⟨first, second, rfl, _, hSecond⟩
  rw [List.filterMap_eq_cons_iff] at hSecond
  rcases hSecond with
    ⟨skipped, event, later, rfl, _, hKnob, hLater⟩
  refine
    ⟨first ++ skipped, event, later, ?_, hKnob, hLater⟩
  rw [List.append_assoc]

end

/-
  Each planned sysctl that the project does not set itself
  is written, and never to another value, so no category
  undoes another. Of those that the project sets, nothing is
  written after the last value. Nothing else is written.
-/
structure Settles
    (image : Image) (extra : List Knob)
    (listings : String → Listing) (trace : History) :
    Prop where
  asked :
    ∀ knob ∈ planned image listings,
      ∃ event ∈ trace,
        WritesTo event.request (locate knob.1) knob.2
  kept :
    ∀ knob ∈ planned image listings,
      Spares (accepted extra) (locate knob.1) →
        ∀ event ∈ trace, ∀ value,
          WritesTo event.request (locate knob.1) value →
            value = knob.2
  last :
    ∀ before pair after,
      accepted extra = before ++ pair :: after →
        Spares after (locate pair.1) →
          ∃ earlier event later,
            trace = earlier ++ event :: later ∧
              WritesTo event.request (locate pair.1) pair.2 ∧
                ∀ other ∈ later, ∀ value,
                  ¬ WritesTo other.request (locate pair.1)
                    value
  only :
    ∀ event ∈ trace, ∀ knob,
      writtenBy event.request = some knob →
        knob ∈ planned image listings ∨
          knob ∈ accepted extra

/-
  In every complete pass, whatever the kernel answers and
  whatever is done between the calls, the sysctls are settled
  for the interfaces that the kernel has listed.
-/
theorem hardening_settles
    {image : Image} {extra : List Knob}
    {Between : Session → Session → Prop} {s t : Session}
    {trace : History}
    (hRuns :
      Runs Possible Between (applyHardening image extra) s
        trace (.done (.ok ())) t) :
    ∃ listings, Listings image listings trace ∧
      Settles image extra listings trace := by
  rcases
    (logged_of_runs (logged_applyHardening image extra)
      ⟨trivial, rfl⟩ hRuns).2 () rfl with
    ⟨listings, hListed, hWrote⟩
  refine ⟨listings, hListed, ?_⟩
  constructor
  case asked =>
    intro knob hKnob
    exact
      writesTo_of_mem hWrote (List.mem_append_left _ hKnob)
  case kept =>
    intro knob hKnob hSpares event hEvent value hWrites
    rcases mem_of_writesTo hWrote hEvent hWrites with
      ⟨path, hPath, hMem⟩
    rcases List.mem_append.1 hMem with hPlanned | hExtra
    · exact
        eq_value_of_mem_planned hListed hPlanned hKnob hPath
    · exact absurd hPath (hSpares _ hExtra)
  case last =>
    intro before pair after hExtra hSpares
    rw [hExtra, ← List.append_assoc] at hWrote
    rcases split_of_wrote hWrote with
      ⟨earlier, event, later, hTrace, hPair, hLater⟩
    refine
      ⟨earlier, event, later, hTrace, ⟨_, rfl, hPair⟩, ?_⟩
    intro other hOther value hWrites
    rcases mem_of_writesTo hLater hOther hWrites with
      ⟨path, hPath, hMem⟩
    exact hSpares _ hMem hPath
  case only =>
    intro event hEvent knob hKnob
    unfold Wrote at hWrote
    rw [← List.mem_append, ← hWrote]
    exact List.mem_filterMap.2 ⟨event, hEvent, hKnob⟩

/- An init that protects from spoofing alone. -/
def spoofingImage : Image :=
  { plainImage with features := [.hardeningNetSpoofing] }

/- One that is confined, and one that is not. -/
def extraPairs : List Knob :=
  [knob "/proc/sys/vm/swappiness" "10",
    knob "/etc/passwd" "root"]

/- Of the interface that the kernel lists. -/
def redirectsOfEth0 : Knob :=
  knob "/proc/sys/net/ipv4/conf/eth0/accept_redirects" "0"

/- Hardening, on a kernel that grants everything. -/
def hardeningRun :
    Calls.Outcome Session Request Answer (Except Stop Unit) :=
  exec Kernel.wired.handle
    (applyHardening spoofingImage extraPairs) firstSession

/- An interface that is listed is protected too. -/
theorem hardening_settles_wired :
    hardeningRun.value = .ok () ∧
      hardeningRun.trace.any
          (fun event =>
            writtenBy event.request =
              some redirectsOfEth0) =
        true ∧
      ∃ listings,
        Listings spoofingImage listings hardeningRun.trace ∧
          Settles spoofingImage extraPairs listings
            hardeningRun.trace := by
  have hEnd : hardeningRun.value = .ok () := by
    apply eq_ok_of_isOk
    decide
  have hProtects :
      hardeningRun.trace.any
          (fun event =>
            writtenBy event.request =
              some redirectsOfEth0) =
        true := by
    decide
  have hRuns :=
    Kernel.wired.runs_handle
      (applyHardening spoofingImage extraPairs) firstSession
  exact ⟨hEnd, hProtects, hardening_settles (hEnd ▸ hRuns)⟩

end Boot

end Guest

end CargoUnikernel
