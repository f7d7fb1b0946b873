import BBCodeBase.Foundation.Rules
import Mathlib.Data.List.Induction

/-!
# The watchdog

`main` of `WatchDog/cems.c` checks the link every 30 seconds and counts in two
variables: `flag` the failed checks in a row, and `no_ap` the access-point scans
in a row that found nothing.  A fourth in either leaves the loop and reboots.
After a successful check `sprintf` writes 37 bytes into `buffer[30]`; from there
on nothing is defined, so a run ends there.
The argument count and the `fopen` of the log are left out; what `log_data`
writes is in `Log`.
-/

namespace BBCodeBase.WatchDog

open Reactive

/-- What becomes of `socket` and `connect` for one address of the resolved list. -/
inductive Connect where
  | noSocket
  | connected
  | refused
  | failed
  deriving DecidableEq, Repr

/-- What one check meets: the resolved addresses, and the line `fgets` reads of the scan. -/
structure Check where
  resolved : Option (List Connect)
  scan : Option String
  deriving DecidableEq, Repr

/--
`log size text` is a text that `sprintf` puts into a `char buffer[size]` and, if
it fits, `fwrite` appends to the log; `line` is a line of the scan that is appended.
-/
inductive Event where
  | system (command : String)
  | popen (command : String)
  | log (size : Nat) (text : String)
  | line (text : String)
  | logData
  | sleep (seconds : Nat)
  deriving DecidableEq, Repr

/-- The text and its terminating NUL fit into the array `sprintf` puts them in. -/
def Event.Fits : Event → Prop
  | .log size text => text.length + 1 ≤ size
  | _ => True

instance : DecidablePred Event.Fits := fun event =>
  match event with
  | .log size text => inferInstanceAs (Decidable (text.length + 1 ≤ size))
  | .system _ | .popen _ | .line _ | .logData | .sleep _ => isTrue trivial

structure Watch where
  flag : Nat
  noAp : Nat
  linkBrk : Nat
  deriving DecidableEq, Repr

def Watch.start : Watch := ⟨0, 0, 0⟩

abbrev Pass := List Event × Exit Watch Unit

/-- `sprintf` into a `char buffer[size]` and the `fwrite` after it, with what comes later. -/
def sprintf (size : Nat) (text : String) (later : Pass) : Pass :=
  if (Event.log size text).Fits then emit [.log size text] later
  else ([.log size text], .fault)

def tryAddresses : List Connect → Bool
  | [] => false
  | .noSocket :: rest => tryAddresses rest
  | .connected :: _ => true
  | .refused :: _ => true
  | .failed :: rest => tryAddresses rest

def resetWlan : List Event :=
  [.system "iwconfig wlan0 essid Ting", .system "ifconfig wlan0 10.10.10.1/24"]

def detectLinkBreakage (resolved : Option (List Connect)) : List Event × Bool :=
  match resolved with
  | none => (resetWlan, true)
  | some addresses => if tryAddresses addresses then ([], false) else (resetWlan, true)

/-- The scan of `onLinkBreakage`, which sets `no_ap` back or counts it on. -/
def scanAccessPoint (watch : Watch) (scan : Option String) : Pass :=
  match scan with
  | some text => ([.line text], .done { watch with noAp := 0 } ())
  | none =>
      let next := { watch with noAp := watch.noAp + 1 }
      if next.noAp = 4 then
        sprintf 100 "\nAP is not reachable ... going to reboot\n" ([], .done next ())
      else ([], .done next ())

def onLinkBreakage (watch : Watch) (scan : Option String) : Pass :=
  if watch.flag = 3 then
    sprintf 100 "\nUSB reset did not resolve connectivity, rebooting\n"
      ([], .done { watch with flag := 4 } ())
  else
    sprintf 100 "\nNot reachable, resetting USB module\n"
      (emit [.system "modprobe -r zd1211rw", .popen "iwlist wlan0 scan | grep Ting"]
        (andThen (scanAccessPoint watch scan) id fun next _ =>
          ([], .done { next with flag := next.flag + 1 } ())))

def rebootEvents : List Event := [.logData, .system "reboot"]

/-- The body of the loop of `main`, with what follows the loop where it is left. -/
def checkLink : Body Watch Check Event Unit := fun watch check =>
  match detectLinkBreakage check.resolved with
  | (events, true) =>
      emit events
        (andThen (onLinkBreakage { watch with linkBrk := watch.linkBrk + 1 } check.scan) id
          fun next _ =>
            if next.flag = 4 ∨ next.noAp = 4 then (rebootEvents, .done next ())
            else ([.sleep 30], .again next))
  | (events, false) =>
      emit events
        (sprintf 30 "\nEverthing OK .... Sleeping 30 secs\n"
          ([.sleep 30], .again { watch with flag := 0, linkBrk := 0 }))

def watchDog (checks : List Check) : List Event × Exit Watch Unit :=
  enter ([.logData], .again .start) checkLink checks

/-! ## One check -/

/-- The name does not resolve, or no address connects or is refused by `connect`. -/
def Check.Failed (check : Check) : Prop :=
  ∀ addresses, check.resolved = some addresses →
    ∀ address ∈ addresses, address ≠ .connected ∧ address ≠ .refused

theorem tryAddresses_eq_false_iff (addresses : List Connect) :
    tryAddresses addresses = false ↔
      ∀ address ∈ addresses, address ≠ .connected ∧ address ≠ .refused := by
  induction addresses with
  | nil => simp [tryAddresses]
  | cons address rest ih => cases address <;> simp [tryAddresses, ih]

theorem tryAddresses_iff (check : Check) :
    check.Failed ↔ ∀ addresses, check.resolved = some addresses →
      tryAddresses addresses = false := by
  simp only [Check.Failed, tryAddresses_eq_false_iff]

theorem detectLinkBreakage_failed {check : Check} (h : check.Failed) :
    detectLinkBreakage check.resolved = (resetWlan, true) := by
  rw [tryAddresses_iff] at h
  unfold detectLinkBreakage
  cases hresolved : check.resolved with
  | none => rfl
  | some addresses => simp [h addresses hresolved]

theorem detectLinkBreakage_reached {check : Check} (h : ¬ check.Failed) :
    detectLinkBreakage check.resolved = ([], false) := by
  rw [tryAddresses_iff] at h
  unfold detectLinkBreakage
  cases hresolved : check.resolved with
  | none => simp [hresolved] at h
  | some addresses =>
      have hreached : tryAddresses addresses = true := by simpa [hresolved] using h
      simp [hreached]

theorem detectLinkBreakage_iff (check : Check) :
    (detectLinkBreakage check.resolved).2 = true ↔ check.Failed := by
  by_cases h : check.Failed
  · simp [detectLinkBreakage_failed h, h]
  · simp [detectLinkBreakage_reached h, h]

instance : DecidablePred Check.Failed := fun check =>
  decidable_of_iff _ (detectLinkBreakage_iff check)

def scanLine (scan : Option String) : List Event := (scan.map Event.line).toList

/-- What a failed check does, by the failed checks that were made before. -/
def answer (failed : Nat) (check : Check) : List Event :=
  if failed = 3 then
    resetWlan ++ [.log 100 "\nUSB reset did not resolve connectivity, rebooting\n"] ++
      rebootEvents
  else
    resetWlan ++ [.log 100 "\nNot reachable, resetting USB module\n",
      .system "modprobe -r zd1211rw", .popen "iwlist wlan0 scan | grep Ting"] ++
      scanLine check.scan ++ [.sleep 30]

/-- The text of a successful check needs 37 bytes of the `char buffer[30]` of `main`. -/
theorem checkLink_reached (watch : Watch) {check : Check} (h : ¬ check.Failed) :
    checkLink watch check =
      ([.log 30 "\nEverthing OK .... Sleeping 30 secs\n"], .fault) := by
  have hlong : ¬ Event.Fits (.log 30 "\nEverthing OK .... Sleeping 30 secs\n") := by decide
  unfold checkLink sprintf
  rw [detectLinkBreakage_reached h, if_neg hlong]
  rfl

structure Counts (failed : Nat) (watch : Watch) : Prop where
  flag : watch.flag = failed
  flag_le : watch.flag ≤ 3
  noAp_le : watch.noAp ≤ watch.flag

theorem counts_start : Counts 0 .start := ⟨rfl, Nat.zero_le 3, Nat.zero_le 0⟩

theorem sprintf_fits {size : Nat} {text : String} (h : (Event.log size text).Fits)
    (later : Pass) : sprintf size text later = emit [.log size text] later :=
  if_pos h

/-- A scan that finds nothing is never the fourth: three failed checks came before at most. -/
theorem scanAccessPoint_eq {watch : Watch} (hroom : watch.noAp < 3) (scan : Option String) :
    ∃ next, scanAccessPoint watch scan = (scanLine scan, .done next ()) ∧
      next.flag = watch.flag ∧ next.noAp ≤ watch.noAp + 1 := by
  cases scan with
  | some text => exact ⟨_, rfl, rfl, Nat.zero_le _⟩
  | none => exact ⟨_, if_neg (by dsimp only; omega), rfl, Nat.le_refl _⟩

theorem onLinkBreakage_full {watch : Watch} (hfull : watch.flag = 3) (scan : Option String) :
    onLinkBreakage watch scan =
      ([.log 100 "\nUSB reset did not resolve connectivity, rebooting\n"],
        .done { watch with flag := 4 } ()) := by
  unfold onLinkBreakage
  rw [if_pos hfull, sprintf_fits (by decide)]
  rfl

theorem onLinkBreakage_room {watch : Watch} (hflag : watch.flag < 3) (hnoAp : watch.noAp < 3)
    (scan : Option String) :
    ∃ next, onLinkBreakage watch scan =
        (.log 100 "\nNot reachable, resetting USB module\n" ::
          .system "modprobe -r zd1211rw" :: .popen "iwlist wlan0 scan | grep Ting" ::
          scanLine scan, .done next ()) ∧
      next.flag = watch.flag + 1 ∧ next.noAp ≤ watch.noAp + 1 := by
  obtain ⟨next, hscan, hsame, hnext⟩ := scanAccessPoint_eq hnoAp scan
  refine ⟨{ next with flag := next.flag + 1 }, ?_, congrArg (· + 1) hsame, hnext⟩
  unfold onLinkBreakage
  rw [if_neg (by omega), sprintf_fits (by decide), hscan]
  simp [emit, andThen]

theorem Counts.checkLink_last {watch : Watch} (h : Counts 3 watch) {check : Check}
    (hfailed : check.Failed) :
    ∃ last, checkLink watch check = (answer 3 check, .done last ()) := by
  have hfull := @onLinkBreakage_full { watch with linkBrk := watch.linkBrk + 1 } h.flag
    check.scan
  refine ⟨{ watch with linkBrk := watch.linkBrk + 1, flag := 4 }, ?_⟩
  unfold checkLink answer
  rw [detectLinkBreakage_failed hfailed]
  dsimp only
  rw [hfull]
  rfl

theorem Counts.checkLink_next {failed : Nat} {watch : Watch} (h : Counts failed watch)
    (hroom : failed < 3) {check : Check} (hfailed : check.Failed) :
    ∃ next, checkLink watch check = (answer failed check, .again next) ∧
      Counts (failed + 1) next := by
  obtain ⟨hflag, -, hnoAp⟩ := h
  obtain ⟨next, hbreakage, hmore, hless⟩ :=
    @onLinkBreakage_room { watch with linkBrk := watch.linkBrk + 1 }
      (by dsimp only; omega) (by dsimp only; omega) check.scan
  dsimp only at hmore hless
  refine ⟨next, ?_, by omega, by omega, by omega⟩
  unfold checkLink answer
  rw [detectLinkBreakage_failed hfailed, if_neg (by omega)]
  dsimp only
  rw [hbreakage]
  simp [andThen, emit, show next.flag ≠ 4 by omega, show next.noAp ≠ 4 by omega]

/-! ## Failed checks in a row -/

def Watching (checks : List Check) : Prop :=
  ∃ events watch, watchDog checks = (events, .again watch)

def Reboots (checks : List Check) : Prop :=
  ∃ events last, watchDog checks = (events ++ rebootEvents, .done last ())

def FourInARow (checks : List Check) : Prop :=
  ∃ last, last <:+ checks ∧ last.length = 4 ∧ ∀ check ∈ last, check.Failed

/--
Check by check, the watchdog reboots with the fourth failed check in a row and
otherwise goes on.
-/
def RebootsOnFour (checks : List Check) : Prop :=
  ∀ made, made <+: checks →
    (∀ earlier, earlier <+: made → earlier ≠ made → ¬ FourInARow earlier) →
      (FourInARow made → Reboots made) ∧ (¬ FourInARow made → Watching made)

theorem run_failed {checks : List Check} (hroom : checks.length ≤ 3)
    (hfailed : ∀ check ∈ checks, check.Failed) :
    ∃ events watch, run checkLink .start checks = (events, .again watch) ∧
      Counts checks.length watch := by
  induction checks using List.reverseRecOn with
  | nil => exact ⟨[], .start, rfl, counts_start⟩
  | append_singleton checks check ih =>
      rw [List.length_append, List.length_singleton] at hroom ⊢
      rw [List.forall_mem_append, List.forall_mem_singleton] at hfailed
      obtain ⟨events, watch, hrun, hcounts⟩ := ih (by omega) hfailed.1
      obtain ⟨next, hpass, hnext⟩ := hcounts.checkLink_next (by omega) hfailed.2
      exact ⟨_, next, run_append_again hrun ((run_singleton _ _ _).trans hpass), hnext⟩

theorem watchDog_concat {checks : List Check} {events : List Event} {watch : Watch}
    (h : run checkLink .start checks = (events, .again watch)) (check : Check) :
    watchDog (checks ++ [check]) =
      emit (.logData :: events) (checkLink watch check) := by
  simp only [watchDog, enter, run_append h, run_singleton, emit]
  rfl

theorem watching_of_failed {checks : List Check} (hroom : checks.length ≤ 3)
    (hfailed : ∀ check ∈ checks, check.Failed) : Watching checks := by
  obtain ⟨events, watch, hrun, -⟩ := run_failed hroom hfailed
  exact ⟨.logData :: events, watch, by simp [watchDog, enter, hrun]⟩

theorem reboots_of_failed {checks : List Check} (hlength : checks.length = 4)
    (hfailed : ∀ check ∈ checks, check.Failed) : Reboots checks := by
  cases checks using List.reverseRecOn with
  | nil => simp at hlength
  | append_singleton checks check =>
      rw [List.forall_mem_append, List.forall_mem_singleton] at hfailed
      rw [List.length_append, List.length_singleton] at hlength
      obtain ⟨events, watch, hrun, hcounts⟩ := run_failed (by omega) hfailed.1
      rw [show checks.length = 3 by omega] at hcounts
      obtain ⟨last, hpass⟩ := hcounts.checkLink_last hfailed.2
      refine ⟨.logData :: (events ++ resetWlan ++
        [.log 100 "\nUSB reset did not resolve connectivity, rebooting\n"]), last, ?_⟩
      rw [watchDog_concat hrun, hpass]
      simp [emit, answer]

theorem not_watching_of_reached {checks : List Check} {check : Check}
    (hroom : checks.length ≤ 3) (hfailed : ∀ other ∈ checks, other.Failed)
    (hreached : ¬ check.Failed) : ¬ Watching (checks ++ [check]) := by
  obtain ⟨events, watch, hrun, -⟩ := run_failed hroom hfailed
  rintro ⟨_, _, hwatch⟩
  rw [watchDog_concat hrun, checkLink_reached watch hreached] at hwatch
  simp [emit] at hwatch

theorem FourInARow.four_le {checks : List Check} (h : FourInARow checks) :
    4 ≤ checks.length := by
  obtain ⟨last, hsuffix, hlength, -⟩ := h
  exact hlength ▸ hsuffix.length_le

theorem FourInARow.failed {checks : List Check} {check : Check}
    (h : FourInARow (checks ++ [check])) : check.Failed := by
  obtain ⟨last, hsuffix, hlength, hfailed⟩ := h
  rcases List.suffix_concat_iff.mp hsuffix with rfl | ⟨others, rfl, -⟩
  · simp at hlength
  · exact hfailed check (by simp)

/-- Before the fourth check nothing has come four times. -/
theorem RebootsOnFour.watching {checks made : List Check} {check : Check}
    (h : RebootsOnFour checks) (hmade : made ++ [check] <+: checks)
    (hroom : made.length ≤ 3) (hreached : ¬ check.Failed) : Watching (made ++ [check]) := by
  refine (h _ hmade fun earlier hearlier hother hfour => ?_).2 (mt FourInARow.failed hreached)
  have hlonger := hearlier.length_le
  have hless : earlier.length ≠ (made ++ [check]).length := mt hearlier.eq_of_length hother
  have hfour_le := hfour.four_le
  rw [List.length_append, List.length_singleton] at hlonger hless
  omega

theorem RebootsOnFour.failed {checks : List Check} (h : RebootsOnFour checks) {count : Nat}
    (hcount : count ≤ 4) : ∀ check ∈ checks.take count, check.Failed := by
  induction count with
  | zero => simp
  | succ count ih =>
      have hfailed := ih (by omega)
      rw [List.take_add_one]
      cases hcheck : checks[count]? with
      | none => simpa using hfailed
      | some check =>
          rw [Option.toList_some, List.forall_mem_append, List.forall_mem_singleton]
          refine ⟨hfailed, ?_⟩
          by_contra hreached
          have hroom : (checks.take count).length ≤ 3 := by
            rw [List.length_take]
            omega
          have hmade : checks.take count ++ [check] <+: checks := by
            have hnext := List.take_prefix (count + 1) checks
            rwa [List.take_add_one, hcheck, Option.toList_some] at hnext
          exact not_watching_of_reached hroom hfailed hreached
            (h.watching hmade hroom hreached)

/-- No check is made after the first four, and all that are made fail. -/
theorem made_failed {checks made : List Check}
    (hfailed : ∀ check ∈ checks.take 4, check.Failed) (hmade : made <+: checks)
    (hearlier : ∀ earlier, earlier <+: made → earlier ≠ made → ¬ FourInARow earlier) :
    made.length ≤ 4 ∧ ∀ check ∈ made, check.Failed := by
  have htake : ∀ check ∈ made.take 4, check.Failed := by
    obtain ⟨rest, rfl⟩ := hmade
    rw [List.take_append, List.forall_mem_append] at hfailed
    exact hfailed.1
  have hlength : made.length ≤ 4 := by
    by_contra hlong
    have hfour : (made.take 4).length = 4 := by
      rw [List.length_take]
      omega
    have hsame : made.take 4 ≠ made := fun heq => by
      rw [heq] at hfour
      omega
    exact hearlier _ (List.take_prefix 4 made) hsame ⟨_, List.suffix_rfl, hfour, htake⟩
  rw [List.take_of_length_le hlength] at htake
  exact ⟨hlength, htake⟩

/-- As long as none of the first four checks succeeds, the fourth failed one reboots. -/
theorem rebootsOnFour_iff (checks : List Check) :
    RebootsOnFour checks ↔ ∀ check ∈ checks.take 4, check.Failed := by
  constructor
  · exact fun h => h.failed (Nat.le_refl 4)
  · intro hfailed made hmade hearlier
    obtain ⟨hlength, hmade_failed⟩ := made_failed hfailed hmade hearlier
    by_cases hfour : made.length = 4
    · have hrow : FourInARow made := ⟨made, List.suffix_rfl, hfour, hmade_failed⟩
      exact ⟨fun _ => reboots_of_failed hfour hmade_failed, absurd hrow⟩
    · have hshort : ¬ FourInARow made := fun hrow => by
        have := hrow.four_le
        omega
      exact ⟨fun hrow => absurd hrow hshort,
        fun _ => watching_of_failed (by omega) hmade_failed⟩

def outages : List Check :=
  [⟨none, none⟩, ⟨some [.connected], none⟩, ⟨none, none⟩, ⟨some [.connected], none⟩,
    ⟨none, none⟩, ⟨some [.connected], none⟩, ⟨none, none⟩]

/-- The first successful check overruns `buffer[30]`. -/
theorem not_rebootsOnFour : ¬ RebootsOnFour outages := by
  intro h
  have hreached : ¬ Check.Failed ⟨some [.connected], none⟩ := by decide
  have hwatching : Watching ([⟨none, none⟩] ++ [⟨some [.connected], none⟩]) :=
    h.watching ⟨_, rfl⟩ (by decide) hreached
  exact not_watching_of_reached (by decide) (by decide) hreached hwatching

/-! ## The text buffers -/

theorem scanAccessPoint_fits (watch : Watch) (scan : Option String) :
    ∃ events next, scanAccessPoint watch scan = (events, .done next ()) ∧
      ∀ event ∈ events, event.Fits := by
  cases scan with
  | some text => exact ⟨_, _, rfl, List.forall_mem_singleton.mpr trivial⟩
  | none =>
      by_cases hfourth : watch.noAp + 1 = 4
      · refine ⟨[.log 100 "\nAP is not reachable ... going to reboot\n"],
          { watch with noAp := watch.noAp + 1 }, ?_, by decide⟩
        unfold scanAccessPoint
        dsimp only
        rw [if_pos hfourth, sprintf_fits (by decide)]
        rfl
      · exact ⟨[], _, if_neg hfourth, fun _ => nofun⟩

theorem onLinkBreakage_fits (watch : Watch) (scan : Option String) :
    ∃ events next, onLinkBreakage watch scan = (events, .done next ()) ∧
      ∀ event ∈ events, event.Fits := by
  by_cases hfull : watch.flag = 3
  · exact ⟨_, _, onLinkBreakage_full hfull scan, by decide⟩
  · obtain ⟨events, next, hscan, hfits⟩ := scanAccessPoint_fits watch scan
    refine ⟨[.log 100 "\nNot reachable, resetting USB module\n",
      .system "modprobe -r zd1211rw", .popen "iwlist wlan0 scan | grep Ting"] ++ events,
      { next with flag := next.flag + 1 }, ?_, List.forall_mem_append.mpr ⟨by decide, hfits⟩⟩
    unfold onLinkBreakage
    rw [if_neg hfull, sprintf_fits (by decide), hscan]
    simp [emit, andThen]

theorem checkLink_fits_iff (watch : Watch) (check : Check) :
    Meets Event.Fits (fun _ => True) (checkLink watch check) ↔ check.Failed := by
  by_cases hfailed : check.Failed
  · refine iff_of_true ?_ hfailed
    obtain ⟨events, next, hbreakage, hfits⟩ :=
      onLinkBreakage_fits { watch with linkBrk := watch.linkBrk + 1 } check.scan
    unfold checkLink
    rw [detectLinkBreakage_failed hfailed]
    dsimp only
    rw [hbreakage, meets_emit_iff]
    refine ⟨by decide, meets_emit_iff.mpr ⟨hfits, ?_⟩⟩
    dsimp only
    split
    · exact meets_done_iff.mpr ⟨by decide, trivial⟩
    · exact meets_again_iff.mpr (by decide)
  · rw [checkLink_reached watch hfailed, meets_fault_iff]
    exact iff_of_false (by decide) hfailed

/-- A run keeps to its text buffers exactly when every check it makes fails. -/
theorem watchDog_fits_iff (checks : List Check) :
    (∀ event ∈ (watchDog checks).1, event.Fits) ↔
      Along checkLink (fun _ check => check.Failed) .start checks := by
  have hpasses := @meets_run_iff _ _ _ _ Event.Fits (fun _ => True) checkLink .start checks
  simp only [checkLink_fits_iff] at hpasses
  rw [← hpasses]
  simp [Meets, watchDog, enter, Event.Fits]

end BBCodeBase.WatchDog
