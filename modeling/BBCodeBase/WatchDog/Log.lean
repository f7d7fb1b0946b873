import BBCodeBase.Foundation.Gather
import BBCodeBase.WatchDog.Watch
import Mathlib.Data.List.TakeWhile

/-!
# What the watchdog does and logs

Up to the first successful check a run does what the number of failed checks
calls for: `no_ap` never decides anything.  The log holds, between two reports
of `log_data`, the texts of these checks.
-/

namespace BBCodeBase.WatchDog

open Reactive Gather

/-! ## The rule -/

/-- A successful check ends the run, and so does the fourth failed one. -/
def answers (failed : Nat) : List Check → List Event
  | [] => []
  | check :: rest =>
      if check.Failed then
        answer failed check ++ if failed = 3 then [] else answers (failed + 1) rest
      else [.log 30 "\nEverthing OK .... Sleeping 30 secs\n"]

/-- With `failed` failed checks before them, the first of these make it four in a row. -/
def Outage (failed : Nat) (checks : List Check) : Prop :=
  4 ≤ failed + checks.length ∧ ∀ check ∈ checks.take (4 - failed), check.Failed

instance (failed : Nat) (checks : List Check) : Decidable (Outage failed checks) :=
  inferInstanceAs (Decidable (_ ∧ _))

theorem outage_cons {failed : Nat} (hroom : failed ≤ 3) (check : Check) (checks : List Check) :
    Outage failed (check :: checks) ↔
      check.Failed ∧ (failed = 3 ∨ Outage (failed + 1) checks) := by
  have htake : (check :: checks).take (4 - failed) =
      check :: checks.take (4 - (failed + 1)) := by
    rw [show 4 - failed = 4 - (failed + 1) + 1 by omega, List.take_succ_cons]
  have hlength : 4 ≤ failed + (checks.length + 1) ↔ 4 ≤ failed + 1 + checks.length := by
    omega
  unfold Outage
  rw [htake, List.forall_mem_cons, List.length_cons, hlength, and_left_comm]
  by_cases hlast : failed = 3
  · subst hlast
    simp
  · rw [or_iff_right hlast]

theorem run_answers {failed : Nat} {watch : Watch} (h : Counts failed watch)
    (checks : List Check) : (run checkLink watch checks).1 = answers failed checks := by
  induction checks generalizing failed watch with
  | nil => rfl
  | cons check checks ih =>
      unfold answers
      by_cases hfailed : check.Failed
      · rw [if_pos hfailed]
        by_cases hlast : failed = 3
        · subst hlast
          obtain ⟨last, hpass⟩ := h.checkLink_last hfailed
          rw [run_cons_done hpass, if_pos rfl, List.append_nil]
        · have hroom : failed < 3 := by
            have hflag := h.flag
            have hflag_le := h.flag_le
            omega
          obtain ⟨next, hpass, hnext⟩ := h.checkLink_next hroom hfailed
          rw [run_cons_again hpass, ih hnext, if_neg hlast]
      · rw [run_cons_fault (checkLink_reached watch hfailed), if_neg hfailed]

/-! ## `log_data` -/

/-- The 25 characters of `asctime`, and what the commands write. -/
structure Report where
  time : String
  time_length : time.length = 25
  ifconfig : List Char
  iwconfig : List Char
  dmesg : List Char
  lsmod : List Char

def nul : Char := Char.ofNat 0

def lineFeed : Char := Char.ofNat 10

/--
`while (fgets(buffer, sizeof(buffer)-1, fp2) != NULL)` for a `char buffer[100]`;
`fwrite` is given `strlen(buffer)`.
-/
def copyLines : (fuel : Nat) → List Char → List Event
  | 0, _ => []
  | fuel + 1, stream =>
      match readLine lineFeed 98 true stream with
      | none => []
      | some (line, rest) =>
          if line = [] then []
          else .line (String.ofList (line.takeWhile (· ≠ nul))) :: copyLines fuel rest

def copyOutput (output : List Char) : List Event := copyLines (output.length + 1) output

def logData (report : Report) : List Event :=
  [.log 100 ("\nThe current date/time is: " ++ report.time ++ "\n"), .popen "ifconfig"] ++
    copyOutput report.ifconfig ++ [.popen "iwconfig wlan0"] ++
    copyOutput report.iwconfig ++ [.popen "dmesg"] ++ copyOutput report.dmesg ++
    [.system "dmesg -c", .popen "lsmod"] ++ copyOutput report.lsmod

/-- A history in which each call of `log_data` writes the next report. -/
def reported : List Report → List Event → List Event
  | _, [] => []
  | report :: reports, .logData :: events => logData report ++ reported reports events
  | reports, event :: events => event :: reported reports events

/-- A text that overruns its array is not known to reach the log. -/
def Event.logged : Event → List Char
  | .log size text => if (Event.log size text).Fits then text.toList else []
  | .line text => text.toList
  | _ => []

def logText (events : List Event) : List Char := events.flatMap Event.logged

@[simp] theorem logText_append (first second : List Event) :
    logText (first ++ second) = logText first ++ logText second :=
  List.flatMap_append

theorem logText_copyLines {stream : List Char} (hnul : nul ∉ stream) {fuel : Nat}
    (hfuel : stream.length < fuel) : logText (copyLines fuel stream) = stream := by
  induction fuel generalizing stream with
  | zero => omega
  | succ fuel ih =>
      obtain ⟨line, rest, hread⟩ := readLine_closed lineFeed 98 stream
      have hsplit := readLine_append hread
      rw [copyLines, hread]
      dsimp only
      by_cases hnone : line = []
      · subst hnone
        rw [if_pos rfl, readLine_eq_nil (by decide) hread]
        rfl
      · have hwhole : line.takeWhile (· ≠ nul) = line := by
          rw [List.takeWhile_eq_self_iff]
          intro ch hmem
          have hother : ch ≠ nul := by
            rintro rfl
            exact hnul (hsplit ▸ List.mem_append_left rest hmem)
          simpa using hother
        have hpos := List.length_pos_of_ne_nil hnone
        have hlength := congrArg List.length hsplit
        rw [List.length_append] at hlength
        have hrest := ih (fun hmem => hnul (hsplit ▸ List.mem_append_right line hmem))
          (by omega)
        have hline : logText [.line (String.ofList line)] = line := by
          simp [logText, Event.logged]
        rw [if_neg hnone, hwhole, ← List.singleton_append, logText_append, hline, hrest,
          hsplit]

structure Report.NulFree (report : Report) : Prop where
  ifconfig : nul ∉ report.ifconfig
  iwconfig : nul ∉ report.iwconfig
  dmesg : nul ∉ report.dmesg
  lsmod : nul ∉ report.lsmod

def Report.text (report : Report) : List Char :=
  ("\nThe current date/time is: " ++ report.time ++ "\n").toList ++ report.ifconfig ++
    report.iwconfig ++ report.dmesg ++ report.lsmod

theorem logText_copyOutput {output : List Char} (h : nul ∉ output) :
    logText (copyOutput output) = output :=
  logText_copyLines h (Nat.lt_succ_self _)

theorem Report.time_fits (report : Report) :
    (Event.log 100 ("\nThe current date/time is: " ++ report.time ++ "\n")).Fits := by
  have hlength : ("\nThe current date/time is: " ++ report.time ++ "\n").length = 53 := by
    rw [String.length_append, String.length_append, report.time_length]
    rfl
  unfold Event.Fits
  dsimp only
  omega

/-- The lines in which a report is copied do not show in the log. -/
theorem logText_logData {report : Report} (h : report.NulFree) :
    logText (logData report) = report.text := by
  have hiwconfig : logText [.popen "iwconfig wlan0"] = [] := rfl
  have hdmesg : logText [.popen "dmesg"] = [] := rfl
  have hlsmod : logText [.system "dmesg -c", .popen "lsmod"] = [] := rfl
  have htime : logText [.log 100 ("\nThe current date/time is: " ++ report.time ++ "\n"),
      .popen "ifconfig"] = ("\nThe current date/time is: " ++ report.time ++ "\n").toList := by
    simp only [logText, List.flatMap_cons, List.flatMap_nil, Event.logged,
      if_pos report.time_fits, List.append_nil]
  simp only [logData, htime, logText_append, logText_copyOutput h.ifconfig,
    logText_copyOutput h.iwconfig, logText_copyOutput h.dmesg, logText_copyOutput h.lsmod,
    hiwconfig, hdmesg, hlsmod, List.append_nil]
  rfl

/-! ## The log of a run -/

theorem reported_append {events : List Event} (h : .logData ∉ events)
    (reports : List Report) (later : List Event) :
    reported reports (events ++ later) = events ++ reported reports later := by
  induction events with
  | nil => rfl
  | cons event events ih =>
      have hother : event ≠ .logData := fun heq => h (heq ▸ List.mem_cons_self)
      have hrest := ih fun hmem => h (List.mem_cons_of_mem event hmem)
      rw [List.cons_append, List.cons_append, ← hrest]
      cases event <;> first | exact absurd rfl hother | cases reports <;> rfl

theorem logData_not_mem_answer {failed : Nat} (hroom : failed ≠ 3) (check : Check) :
    .logData ∉ answer failed check := by
  have hreset : Event.logData ∉ resetWlan := by decide
  unfold answer scanLine
  rw [if_neg hroom]
  cases check.scan with
  | none => simp [hreset]
  | some text => simp [hreset]

/-- The second report follows the texts of the checks, when it is written at all. -/
theorem logText_answers {report : Report} (h : report.NulFree) {failed : Nat}
    (hroom : failed ≤ 3) (checks : List Check) :
    logText (reported [report] (answers failed checks)) =
      logText (answers failed checks) ++
        if Outage failed checks then report.text else [] := by
  induction checks generalizing failed with
  | nil =>
      have hnone : ¬ Outage failed [] := fun hfour => by
        have := hfour.1
        rw [List.length_nil] at this
        omega
      rw [if_neg hnone]
      rfl
  | cons check checks ih =>
      unfold answers
      simp only [outage_cons hroom]
      by_cases hfailed : check.Failed
      · rw [if_pos hfailed]
        by_cases hlast : failed = 3
        · subst hlast
          have hanswer : answer 3 check = resetWlan ++
            [.log 100 "\nUSB reset did not resolve connectivity, rebooting\n"] ++
              rebootEvents := rfl
          have hreport : reported [report] rebootEvents =
            logData report ++ [.system "reboot"] := rfl
          have hreboot : logText [.system "reboot"] = [] := rfl
          have hrest : logText rebootEvents = [] := rfl
          rw [if_pos rfl, if_pos ⟨hfailed, .inl rfl⟩, List.append_nil, hanswer,
            reported_append (by decide), hreport]
          simp only [logText_append, logText_logData h, hreboot, hrest, List.append_nil]
        · rw [if_neg hlast, reported_append (logData_not_mem_answer hlast check),
            logText_append, logText_append, ih (by omega), List.append_assoc]
          simp only [hfailed, hlast, true_and, false_or]
      · rw [if_neg hfailed, if_neg fun hfour => hfailed hfour.1]
        rfl

/--
A run does what the rule calls for, and its log is the first report, the texts of
the checks, and the second report if the first four checks fail.
-/
theorem watchDog_log (first last : Report) (hfirst : first.NulFree) (hlast : last.NulFree)
    (checks : List Check) :
    (watchDog checks).1 = .logData :: answers 0 checks ∧
      logText (reported [first, last] (watchDog checks).1) =
        first.text ++ logText (answers 0 checks) ++
          if Outage 0 checks then last.text else [] := by
  have hevents : (watchDog checks).1 = .logData :: answers 0 checks :=
    congrArg (Event.logData :: ·) (run_answers counts_start checks)
  have hreport : ∀ events, reported [first, last] (.logData :: events) =
      logData first ++ reported [last] events := fun _ => rfl
  refine ⟨hevents, ?_⟩
  rw [hevents, hreport, logText_append, logText_logData hfirst,
    logText_answers hlast (Nat.zero_le 3), List.append_assoc]

def quietReport : Report :=
  ⟨"Thu Jan  1 00:00:00 1970\n", by decide, ['l', 'o'], [], [], []⟩

/-- The access point is there, but the link is down at four checks. -/
theorem watchDog_log_outage :
    (watchDog (List.replicate 4 ⟨none, some "Ting\n"⟩)).1 =
        .logData :: answers 0 (List.replicate 4 ⟨none, some "Ting\n"⟩) ∧
      logText (reported [quietReport, quietReport]
          (watchDog (List.replicate 4 ⟨none, some "Ting\n"⟩)).1) =
        quietReport.text ++ logText (answers 0 (List.replicate 4 ⟨none, some "Ting\n"⟩)) ++
          quietReport.text :=
  watchDog_log quietReport quietReport ⟨by decide, by decide, by decide, by decide⟩
    ⟨by decide, by decide, by decide, by decide⟩ (List.replicate 4 ⟨none, some "Ting\n"⟩)

end BBCodeBase.WatchDog
