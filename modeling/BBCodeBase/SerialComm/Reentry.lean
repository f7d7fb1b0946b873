import BBCodeBase.Foundation.Nesting
import BBCodeBase.SerialComm.Flush
import BBCodeBase.SerialComm.Timer

/-!
# `onTimer`, entered again while it runs

`onTimer` and `upload_data` one statement at a time, with the globals that
their activations share.  The statements of a pass of the loop that touch only
local variables or the debug log are taken together with the `read` before
them: an activation cannot tell between which of them it is entered, and any
number of activations may be entered one after the other where they stand.
`time`, `localtime` and `sprintf` fill local variables, and `tcflush` and
`clock_interval` decide nothing here.  A statement whose effect is undefined
ends the run.
-/

namespace BBCodeBase.SerialComm

open Reactive

inductive Pointer where
  | fp
  | fp1
  deriving DecidableEq, Repr

/-- The stream of one `fopen`: the activation that opened it, and whether it is open. -/
structure Stream where
  opener : Nat
  isOpen : Bool
  deriving DecidableEq, Repr

structure Shared extends Process where
  fp : Option Stream
  fp1 : Option Stream
  deriving DecidableEq, Repr

def Shared.initial : Shared := ⟨.initial, none, none⟩

def Shared.stream (shared : Shared) : Pointer → Option Stream
  | .fp => shared.fp
  | .fp1 => shared.fp1

def Shared.assign (shared : Shared) (stream : Option Stream) : Pointer → Shared
  | .fp => { shared with fp := stream }
  | .fp1 => { shared with fp1 := stream }

def Shared.marked (shared : Shared) (alreadyUploading : Bool) : Shared :=
  { shared with alreadyUploading := alreadyUploading }

def Shared.occupied (shared : Shared) (anyOneHere : Bool) : Shared :=
  { shared with anyOneHere := anyOneHere }

def Shared.writable (shared : Shared) (pointer : Pointer) : Bool :=
  match shared.stream pointer with
  | some stream => stream.isOpen
  | none => false

def Event.pointer? : Event → Option Pointer
  | .fprintfChar _ => some .fp
  | .fprintfChar1 _ => some .fp1
  | _ => none

structure Alarm extends Activation where
  opens : Pointer → Bool

/--
The statement that an activation executes next.  In `uploading` the statements
of a pass in `pending` are still to be executed, and then the `read` at the head
of the loop or the `any_one_here = 0` before `upload_data` returns.
-/
inductive Place where
  | test
  | mark
  | openDayFile
  | openFile
  | guard
  | occupy
  | refused
  | uploading (pending : List Event) (exit : Exit Upload Return) (inputs : List Input)
  | releaseAgain
  | returning (result : Return)
  | report
  | closeFile
  | closeDayFile
  | unmark
  | finished

structure Frame where
  number : Nat
  alarm : Alarm
  place : Place

def Frame.start (number : Nat) (alarm : Alarm) : Frame := ⟨number, alarm, .test⟩

def Frame.go (frame : Frame) (place : Place) : Frame := { frame with place := place }

@[simp] theorem Frame.place_go (frame : Frame) (place : Place) :
    (frame.go place).place = place := rfl

/-- `fopen` as the activation calls it for the pointer; it may return NULL. -/
def Frame.fopen (frame : Frame) (pointer : Pointer) : Option Stream :=
  if frame.alarm.opens pointer then some ⟨frame.number, true⟩ else none

abbrev Executed := List Event × Exit (Shared × Frame) Unit

def proceed (shared : Shared) (frame : Frame) : Executed := ([], .again (shared, frame))

def fopenInto (shared : Shared) (frame : Frame) (pointer : Pointer) (place : Place) :
    Executed :=
  proceed (shared.assign (frame.fopen pointer) pointer) (frame.go place)

/-- `fclose` of a null pointer or of a closed stream is undefined. -/
def fclose (shared : Shared) (frame : Frame) (pointer : Pointer) (place : Place) :
    Executed :=
  match shared.stream pointer with
  | some ⟨opener, true⟩ =>
      proceed (shared.assign (some ⟨opener, false⟩) pointer) (frame.go place)
  | _ => ([], .fault)

/-- A statement of `upload_data` from the write of `'Q'` on. -/
def uploadStatement (shared : Shared) (frame : Frame) (inputs : List Input) :
    List Event → Exit Upload Return → Executed
  | event :: pending, exit =>
      let next := frame.go (.uploading pending exit inputs)
      match event.pointer? with
      | some pointer =>
          if shared.writable pointer then ([event], .again (shared, next))
          else ([], .fault)
      | none => ([event], .again (shared, next))
  | [], .again upload =>
      match inputs with
      | [] => proceed shared frame  -- the activation waits in `read`
      | input :: inputs =>
          let (events, exit) := uploadBody upload input
          proceed shared (frame.go (.uploading events exit inputs))
  | [], .done _ result =>
      proceed (shared.occupied false)
        (frame.go (if result = .ended then .releaseAgain else .returning result))
  | [], .fault => ([], .fault)

def onTimerStatement : Nesting.Statement Shared Frame Event := fun shared frame =>
  match frame.place with
  | .test => proceed shared (frame.go (if shared.alreadyUploading then .finished else .mark))
  | .mark => proceed (shared.marked true) (frame.go .openDayFile)
  | .openDayFile => fopenInto shared frame .fp1 .openFile
  | .openFile => fopenInto shared frame .fp .guard
  | .guard => proceed shared (frame.go (if shared.anyOneHere then .refused else .occupy))
  | .occupy =>
      proceed (shared.occupied true)
        (frame.go (.uploading (pollEvents frame.alarm.writeOk)
          (.again (.start frame.alarm.tempBuffer true)) frame.alarm.inputs))
  | .refused => proceed shared (frame.go (.returning .someoneHere))
  | .uploading pending exit inputs => uploadStatement shared frame inputs pending exit
  | .releaseAgain => proceed (shared.occupied false) (frame.go (.returning .ended))
  | .returning result =>
      proceed shared (frame.go (if result.value = 0 then .report else .closeFile))
  | .report => ([.printf "Upload failed \n"], .again (shared, frame.go .closeFile))
  | .closeFile => fclose shared frame .fp .closeDayFile
  | .closeDayFile => fclose shared frame .fp1 .unmark
  | .unmark => proceed (shared.marked false) (frame.go .finished)
  | .finished => ([], .done (shared, frame) ())

/-- The process after `main` has set the timer: SIGALRM may come at any moment. -/
def reentrant : Body (Nesting.State Shared Frame) (Nesting.Move Alarm) Event Nat :=
  Nesting.body Frame.start onTimerStatement

section Statements

variable {shared : Shared} {frame : Frame} {history : List Event}
  {post : Post (Shared × Frame) Event Unit}

theorem proceed_of_iff : post.Of history (proceed shared frame) ↔
    post.again history (shared, frame) :=
  Post.of_again_iff

theorem fclose_of {pointer : Pointer} {place : Place}
    (hclosed : ∀ stream,
      post.again history (shared.assign stream pointer, frame.go place))
    (hfault : ∀ events, post.fault events) :
    post.Of history (fclose shared frame pointer place) := by
  unfold fclose
  split
  · exact proceed_of_iff.mpr (hclosed _)
  · exact hfault _

theorem uploadStatement_of {pending : List Event} {exit : Exit Upload Return}
    {inputs : List Input}
    (hemit : ∀ event later, pending = event :: later →
      post.again (history ++ [event]) (shared, frame.go (.uploading later exit inputs)))
    (hwait : post.again history (shared, frame))
    (hread : ∀ upload input later, pending = [] → exit = .again upload →
      inputs = input :: later →
      post.again history (shared, frame.go
        (.uploading (uploadBody upload input).1 (uploadBody upload input).2 later)))
    (hrelease : ∀ last result, pending = [] → exit = .done last result →
      post.again history (shared.occupied false,
        frame.go (if result = .ended then .releaseAgain else .returning result)))
    (hfault : ∀ events, post.fault events) :
    post.Of history (uploadStatement shared frame inputs pending exit) := by
  cases pending with
  | cons event later =>
      unfold uploadStatement
      dsimp only
      split
      · split
        · exact hemit event later rfl
        · exact hfault _
      · exact hemit event later rfl
  | nil =>
      cases exit with
      | again upload =>
          cases inputs with
          | nil => exact proceed_of_iff.mpr hwait
          | cons input later => exact proceed_of_iff.mpr (hread upload input later rfl rfl rfl)
      | done last result => exact proceed_of_iff.mpr (hrelease last result rfl rfl)
      | fault => exact hfault _

end Statements

/-! ## The places of an activation -/

def Place.stage : Place → Nesting.Stage
  | .test | .finished => .outside
  | .mark => .admitted
  | _ => .inside

def Place.pastGuard : Place → Bool
  | .occupy | .uploading _ _ _ | .releaseAgain | .returning _ => true
  | _ => false

def Place.occupies : Place → Bool
  | .uploading _ _ _ => true
  | _ => false

def Place.holds : Place → Pointer → Bool
  | .test, _ | .mark, _ | .openDayFile, _ | .unmark, _ | .finished, _ => false
  | .openFile, pointer | .closeDayFile, pointer => pointer = .fp1
  | _, _ => true

def Place.reopensOrCloses : Place → Pointer → Bool
  | .openDayFile, pointer | .closeDayFile, pointer => pointer = .fp1
  | .openFile, pointer | .closeFile, pointer => pointer = .fp
  | _, _ => false

theorem Place.inside_of_pastGuard {place : Place} (h : place.pastGuard = true) :
    place.stage = .inside := by
  cases place <;> first | rfl | cases h

theorem Place.inside_of_holds {place : Place} {pointer : Pointer}
    (h : place.holds pointer = true) : place.stage = .inside := by
  cases place <;> first | rfl | cases h

theorem Place.inside_of_reopensOrCloses {place : Place} {pointer : Pointer}
    (h : place.reopensOrCloses pointer = true) : place.stage = .inside := by
  cases place <;> first | rfl | cases h

/-! ## The activation that is inside -/

@[simp] theorem Shared.toProcess_assign (shared : Shared) (stream : Option Stream)
    (pointer : Pointer) : (shared.assign stream pointer).toProcess = shared.toProcess := by
  cases pointer <;> rfl

@[simp] theorem Shared.stream_assign (shared : Shared) (stream : Option Stream)
    (pointer other : Pointer) : (shared.assign stream pointer).stream other =
      if other = pointer then stream else shared.stream other := by
  cases pointer <;> cases other <;> rfl

@[simp] theorem Shared.stream_occupied (shared : Shared) (anyOneHere : Bool)
    (pointer : Pointer) :
    (shared.occupied anyOneHere).stream pointer = shared.stream pointer := by
  cases pointer <;> rfl

structure Owns (shared : Shared) (frame : Frame) : Prop where
  marked : shared.alreadyUploading = true
  occupied : shared.anyOneHere = frame.place.occupies
  streams : ∀ pointer, frame.place.holds pointer = true →
    shared.stream pointer = frame.fopen pointer
  admitted : frame.place ≠ .refused

theorem Owns.go {shared : Shared} {frame : Frame} (h : Owns shared frame) {place : Place}
    (hoccupies : place.occupies = frame.place.occupies)
    (hholds : ∀ pointer, place.holds pointer = true → frame.place.holds pointer = true)
    (hadmitted : place ≠ .refused) : Owns shared (frame.go place) where
  marked := h.marked
  occupied := h.occupied.trans hoccupies.symm
  streams := fun pointer hpointer => h.streams pointer (hholds pointer hpointer)
  admitted := hadmitted

def Frame.stage (frame : Frame) : Nesting.Stage := frame.place.stage

def idle (_ : List Event) (shared : Shared) : Prop := shared.toProcess = .initial

def owned (_ : List Event) (shared : Shared) (frame : Frame) : Prop := Owns shared frame

abbrev keepsOwned (history : List Event) (executed : Executed) : Prop :=
  (Nesting.insidePost Frame.stage idle owned).Of history executed

section Statements

variable {history : List Event} {shared : Shared} {frame : Frame}

theorem keepsOwned_proceed (hinside : frame.stage = .inside) (h : Owns shared frame) :
    keepsOwned history (proceed shared frame) :=
  proceed_of_iff.mpr (.inl ⟨hinside, h⟩)

theorem keepsOwned_fopen {pointer : Pointer} {place : Place}
    (h : Owns shared frame) (hinside : place.stage = .inside)
    (hoccupies : place.occupies = frame.place.occupies)
    (hholds : ∀ other, place.holds other = true → other ≠ pointer →
      frame.place.holds other = true)
    (hadmitted : place ≠ .refused) :
    keepsOwned history (fopenInto shared frame pointer place) := by
  refine keepsOwned_proceed hinside ⟨?_, ?_, ?_, hadmitted⟩
  · simpa using h.marked
  · simpa using h.occupied.trans hoccupies.symm
  · intro other hother
    rw [Shared.stream_assign]
    split
    · next heq => rw [heq]; rfl
    · next hne => exact h.streams other (hholds other hother hne)

theorem keepsOwned_fclose {pointer : Pointer} {place : Place}
    (h : Owns shared frame) (hinside : place.stage = .inside)
    (hoccupies : place.occupies = frame.place.occupies)
    (hholds : ∀ other, place.holds other = true →
      other ≠ pointer ∧ frame.place.holds other = true)
    (hadmitted : place ≠ .refused) :
    keepsOwned history (fclose shared frame pointer place) := by
  refine fclose_of (fun stream => .inl ⟨hinside, ?_, ?_, ?_, hadmitted⟩) fun _ => trivial
  · simpa using h.marked
  · simpa using h.occupied.trans hoccupies.symm
  · intro other hother
    obtain ⟨hne, hheld⟩ := hholds other hother
    rw [Shared.stream_assign, if_neg hne]
    exact h.streams other hheld

/-- After `any_one_here = 0` the streams are still open. -/
theorem Owns.release {place : Place} (h : Owns shared frame)
    (hoccupies : place.occupies = false)
    (hholds : ∀ pointer, frame.place.holds pointer = true) (hadmitted : place ≠ .refused) :
    Owns (shared.occupied false) (frame.go place) where
  marked := h.marked
  occupied := hoccupies.symm
  streams := by
    intro pointer _
    rw [Shared.stream_occupied]
    exact h.streams pointer (hholds pointer)
  admitted := hadmitted

theorem keepsOwned_upload {pending : List Event} {exit : Exit Upload Return}
    {inputs : List Input} (h : Owns shared frame)
    (hplace : frame.place = .uploading pending exit inputs) :
    keepsOwned history (uploadStatement shared frame inputs pending exit) := by
  have hoccupies : frame.place.occupies = true := by rw [hplace]; rfl
  have hholds : ∀ pointer, frame.place.holds pointer = true := by
    rw [hplace]
    exact fun _ => rfl
  have hstay : ∀ pending exit inputs,
      Owns shared (frame.go (.uploading pending exit inputs)) :=
    fun _ _ _ => h.go hoccupies.symm (fun pointer _ => hholds pointer) (by simp)
  apply uploadStatement_of
  · exact fun _ _ _ => .inl ⟨rfl, hstay _ _ _⟩
  · exact .inl ⟨by rw [Frame.stage, hplace]; rfl, h⟩
  · exact fun _ _ _ _ _ _ => .inl ⟨rfl, hstay _ _ _⟩
  · intro last result _ _
    split
    · exact .inl ⟨rfl, h.release rfl hholds (by simp)⟩
    · exact .inl ⟨rfl, h.release rfl hholds (by simp)⟩
  · exact fun _ => trivial

theorem keepsOwned_statement (hinside : frame.stage = .inside) (h : Owns shared frame) :
    keepsOwned history (onTimerStatement shared frame) := by
  have hoccupied := h.occupied
  obtain ⟨number, alarm, place⟩ := frame
  cases place with
  | test => cases hinside
  | mark => cases hinside
  | openDayFile =>
      refine keepsOwned_fopen h rfl rfl ?_ (by simp)
      intro other hother hne
      simp [Place.holds, hne] at hother
  | openFile =>
      refine keepsOwned_fopen h rfl rfl ?_ (by simp)
      intro other _ hne
      cases other with
      | fp => exact absurd rfl hne
      | fp1 => rfl
  | guard =>
      -- nobody else is inside, so `any_one_here` is 0
      have hfree : shared.anyOneHere = false := hoccupied
      simp only [onTimerStatement, hfree]
      exact keepsOwned_proceed rfl (h.go rfl (fun _ _ => rfl) (by simp))
  | occupy =>
      refine keepsOwned_proceed rfl ⟨h.marked, rfl, ?_, by simp⟩
      intro pointer _
      rw [Shared.stream_occupied]
      exact h.streams pointer rfl
  | refused => exact absurd rfl h.admitted
  | uploading pending exit inputs => exact keepsOwned_upload h rfl
  | releaseAgain =>
      exact keepsOwned_proceed rfl (h.release rfl (fun _ => rfl) (by simp))
  | returning result =>
      unfold onTimerStatement
      dsimp only
      split
      · exact keepsOwned_proceed rfl (h.go rfl (fun _ _ => rfl) (by simp))
      · exact keepsOwned_proceed rfl (h.go rfl (fun _ _ => rfl) (by simp))
  | report => exact .inl ⟨rfl, h.go rfl (fun _ _ => rfl) (by simp)⟩
  | closeFile =>
      refine keepsOwned_fclose h rfl rfl ?_ (by simp)
      intro other hother
      cases other with
      | fp => cases hother
      | fp1 => exact ⟨by simp, rfl⟩
  | closeDayFile =>
      refine keepsOwned_fclose h rfl rfl ?_ (by simp)
      intro other hother
      cases other <;> cases hother
  | unmark =>
      refine proceed_of_iff.mpr (.inr ⟨rfl, ?_⟩)
      have hfree : shared.anyOneHere = false := hoccupied
      simp [idle, Shared.marked, hfree, Process.initial]
  | finished => cases hinside

end Statements

/-- The region behind `alreadyUploading`. -/
theorem uploadRegion :
    Nesting.Region Frame.start onTimerStatement Frame.stage idle owned where
  starts := fun _ _ => rfl
  outside := by
    intro history shared frame houtside
    obtain ⟨number, alarm, place⟩ := frame
    cases place <;> try cases houtside
    case test =>
        refine proceed_of_iff.mpr ⟨rfl, rfl, ?_⟩
        cases hmarked : shared.alreadyUploading with
        | true => exact .inl rfl
        | false =>
            refine .inr ⟨rfl, fun other _ howns => ?_⟩
            have hset := howns.marked
            rw [hmarked] at hset
            cases hset
    case finished => exact ⟨List.append_nil _, rfl⟩
  admitted := by
    intro history shared frame hadmitted hidle
    obtain ⟨number, alarm, place⟩ := frame
    cases place <;> try cases hadmitted
    case mark =>
        refine proceed_of_iff.mpr ⟨rfl, rfl, ?_, ?_, by simp⟩
        · exact congrArg Process.anyOneHere hidle
        · intro pointer hpointer
          cases hpointer
  inside := keepsOwned_statement

/-! ## Every moment of a run -/

/-- What the guards do for the activations that are under way. -/
structure Guarded (state : Nesting.State Shared Frame) : Prop where
  apart : (state.frames.filter fun frame => frame.place.pastGuard).length ≤ 1
  admitted : ∀ frame ∈ state.frames, frame.place ≠ .refused
  undisturbed : ∀ frame frames pointer, state.frames = frame :: frames →
    frame.place.reopensOrCloses pointer = true →
    ∀ other ∈ frames, other.place.holds pointer = false
  streams : ∀ frame ∈ state.frames, ∀ pointer, frame.place.holds pointer = true →
    state.shared.stream pointer = frame.fopen pointer
  released : state.frames = [] →
    state.shared.alreadyUploading = false ∧ state.shared.anyOneHere = false

theorem guarded_of_kept {history : List Event} {state : Nesting.State Shared Frame}
    (h : Nesting.Kept Frame.stage idle owned history state) : Guarded state where
  apart := by
    refine (List.Sublist.length_le ?_).trans (Nesting.length_inside_le_one h.apart)
    apply List.monotone_filter_right
    intro frame hpast
    exact decide_eq_true (Place.inside_of_pastGuard hpast)
  admitted := by
    intro frame hmem hrefused
    have hinside : frame.stage = .inside := by rw [Frame.stage, hrefused]; rfl
    exact (h.held frame hmem hinside).admitted hrefused
  undisturbed := by
    intro frame frames pointer hframes hchanges other hmem
    have hinside := Place.inside_of_reopensOrCloses hchanges
    have hbelow := h.below hframes (by rw [Frame.stage, hinside]; simp) other hmem
    by_contra hholds
    exact hbelow (Place.inside_of_holds (Bool.not_eq_false _ ▸ hholds))
  streams := fun frame hmem pointer hholds =>
    (h.held frame hmem (Place.inside_of_holds hholds)).streams pointer hholds
  released := by
    intro hnone
    have hidle : state.shared.toProcess = .initial := h.free (by simp [hnone])
    exact ⟨congrArg Process.alreadyUploading hidle, congrArg Process.anyOneHere hidle⟩

/--
However the activations of `onTimer` are nested and whatever they read and
write, at most one is past the guard of `upload_data`, which never refuses one;
no `fopen` or `fclose` comes between another's uses of its streams, and both
guards are 0 whenever no activation is under way.
-/
theorem onTimer_guarded (moves : List (Nesting.Move Alarm)) {events : List Event}
    {state : Nesting.State Shared Frame}
    (hrun : run reentrant (Nesting.initial Shared.initial) moves = (events, .again state)) :
    Guarded state :=
  guarded_of_kept (uploadRegion.run (show idle [] Shared.initial from rfl) hrun)

def failingAlarm : Alarm := ⟨⟨⟨fun _ => 0#8⟩, true, [⟨.error, true⟩]⟩, fun _ => true⟩

/--
The second activation comes between the test and the assignment of
`alreadyUploading` in the first one, and a third between those in the second.
-/
def threeNested : List (Nesting.Move Alarm) :=
  [.enter failingAlarm, .step, .enter failingAlarm, .step, .enter failingAlarm] ++
    List.replicate 43 .step

theorem onTimer_guarded_nested :
    Guarded ⟨⟨.initial, some ⟨0, false⟩, some ⟨0, false⟩⟩, [], 3⟩ :=
  onTimer_guarded threeNested (by rfl)

/-! ## What nested activations emit -/

def Serial (events : List Event) : Prop :=
  ∃ activations, run onTimer .initial activations = (events, .again .initial)

theorem Serial.next {before emitted : List Event} (h : Serial before)
    {activation : Activation}
    (hlast : onTimer .initial activation = (emitted, .again .initial)) :
    Serial (before ++ emitted) := by
  obtain ⟨activations, hrun⟩ := h
  refine ⟨activations ++ [activation], run_append_again hrun ?_⟩
  rw [run_singleton, hlast]

def endTimer (pass : Pass) : List Event × Exit Process Nat :=
  andThen pass (fun upload => ⟨true, upload.anyOneHere⟩)
    (fun last result => (uploadResult result, .again ⟨false, last.anyOneHere⟩))

def Frame.rest (frame : Frame) : List Event × Exit Process Nat :=
  match frame.place with
  | .test | .mark | .openDayFile | .openFile | .guard | .occupy =>
      onTimer .initial frame.alarm.toActivation
  | .uploading pending (.again upload) inputs =>
      emit pending (endTimer (run uploadBody upload inputs))
  | .uploading pending (.done _ result) _ =>
      (pending ++ uploadResult result, .again .initial)
  | .uploading pending .fault _ => (pending, .fault)
  | .returning result => (uploadResult result, .again .initial)
  | .report => ([.printf "Upload failed \n"], .again .initial)
  | .refused | .releaseAgain | .closeFile | .closeDayFile | .unmark | .finished =>
      ([], .again .initial)

theorem rest_read (frame : Frame) (upload : Upload) (input : Input) (inputs : List Input) :
    (frame.go (.uploading [] (.again upload) (input :: inputs))).rest =
      (frame.go (.uploading (uploadBody upload input).1 (uploadBody upload input).2
        inputs)).rest := by
  have hclears := uploadBody_clears upload input
  show emit [] (endTimer (run uploadBody upload (input :: inputs))) = _
  cases hbody : uploadBody upload input with
  | mk events exit =>
      cases exit with
      | again next =>
          rw [run_cons_again hbody]
          exact andThen_emit events (run uploadBody next inputs) _ _
      | done last result =>
          have hreleased := hclears last result (by rw [hbody])
          rw [run_cons_done hbody]
          simp [endTimer, andThen, emit, hreleased, Frame.rest, Process.initial]
      | fault =>
          rw [run_cons_fault hbody]
          rfl

theorem rest_emit (frame : Frame) (event : Event) (pending : List Event)
    (exit : Exit Upload Return) (inputs : List Input) :
    (frame.go (.uploading (event :: pending) exit inputs)).rest =
      emit [event] (frame.go (.uploading pending exit inputs)).rest := by
  cases exit <;> rfl

theorem rest_occupy (frame : Frame) :
    (frame.go .occupy).rest =
      (frame.go (.uploading (pollEvents frame.alarm.writeOk)
        (.again (.start frame.alarm.tempBuffer true)) frame.alarm.inputs)).rest :=
  andThen_emit (pollEvents frame.alarm.writeOk)
    (run uploadBody (.start frame.alarm.tempBuffer true) frame.alarm.inputs) _ _

def Partly (history : List Event) (_ : Shared) (frame : Frame) : Prop :=
  ∃ before emitted, Serial before ∧ history = before ++ emitted ∧
    onTimer .initial frame.alarm.toActivation = emit emitted frame.rest

def serially (history : List Event) (_ : Shared) : Prop := Serial history

section Statements

variable {history : List Event} {shared next : Shared} {frame : Frame} {place : Place}

theorem Partly.go {events : List Event} (h : Partly history shared frame)
    (hrest : frame.rest = emit events (frame.go place).rest) :
    Partly (history ++ events) next (frame.go place) := by
  obtain ⟨before, emitted, hserial, rfl, htimer⟩ := h
  refine ⟨before, emitted ++ events, hserial, List.append_assoc _ _ _, ?_⟩
  rw [Frame.go, htimer, hrest]
  simp [emit, List.append_assoc, Frame.go]

/-- A statement that emits nothing. -/
theorem Partly.stay (h : Partly history shared frame)
    (hrest : frame.rest = (frame.go place).rest) : Partly history next (frame.go place) := by
  have hgo := @Partly.go history shared next frame place [] h hrest
  rwa [List.append_nil] at hgo

abbrev keepsPartly (history : List Event) (executed : Executed) : Prop :=
  (Nesting.insidePost Frame.stage serially Partly).Of history executed

theorem keepsPartly_proceed (h : Partly history shared frame)
    (hinside : place.stage = .inside) (hrest : frame.rest = (frame.go place).rest) :
    keepsPartly history (proceed next (frame.go place)) :=
  proceed_of_iff.mpr (.inl ⟨hinside, h.stay hrest⟩)

theorem keepsPartly_fclose {pointer : Pointer} (h : Partly history shared frame)
    (hinside : place.stage = .inside) (hrest : frame.rest = (frame.go place).rest) :
    keepsPartly history (fclose shared frame pointer place) :=
  fclose_of (fun _ => .inl ⟨hinside, h.stay hrest⟩) fun _ => trivial

theorem keepsPartly_upload {pending : List Event} {exit : Exit Upload Return}
    {inputs : List Input} (h : Partly history shared frame)
    (hplace : frame.place = .uploading pending exit inputs) :
    keepsPartly history (uploadStatement shared frame inputs pending exit) := by
  obtain ⟨number, alarm, place⟩ := frame
  obtain rfl : place = .uploading pending exit inputs := hplace
  apply uploadStatement_of
  · rintro event later rfl
    exact .inl ⟨rfl, h.go (rest_emit ⟨number, alarm, .test⟩ event later exit inputs)⟩
  · exact .inl ⟨rfl, h⟩
  · rintro upload input later rfl rfl rfl
    exact .inl ⟨rfl, h.stay (rest_read ⟨number, alarm, .test⟩ upload input later)⟩
  · rintro last result rfl rfl
    split
    · next hended =>
        subst hended
        exact .inl ⟨rfl, h.stay rfl⟩
    · exact .inl ⟨rfl, h.stay rfl⟩
  · exact fun _ => trivial

theorem keepsPartly_statement (hinside : frame.stage = .inside) (howns : Owns shared frame)
    (h : Partly history shared frame) :
    keepsPartly history (onTimerStatement shared frame) := by
  obtain ⟨number, alarm, place⟩ := frame
  cases place with
  | test => cases hinside
  | mark => cases hinside
  | openDayFile => exact keepsPartly_proceed h rfl rfl
  | openFile => exact keepsPartly_proceed h rfl rfl
  | guard =>
      have hfree : shared.anyOneHere = false := howns.occupied
      simp only [onTimerStatement, hfree]
      exact keepsPartly_proceed h rfl rfl
  | occupy => exact keepsPartly_proceed h rfl (rest_occupy ⟨number, alarm, .occupy⟩)
  | refused => exact keepsPartly_proceed h rfl rfl
  | uploading pending exit inputs => exact keepsPartly_upload h rfl
  | releaseAgain => exact keepsPartly_proceed h rfl rfl
  | returning result =>
      unfold onTimerStatement
      dsimp only
      split
      · next hzero =>
          refine keepsPartly_proceed h rfl ?_
          simp [Frame.rest, Frame.go, uploadResult, hzero]
      · next hnonzero =>
          refine keepsPartly_proceed h rfl ?_
          simp [Frame.rest, Frame.go, uploadResult, hnonzero]
  | report => exact .inl ⟨rfl, h.go rfl⟩
  | closeFile => exact keepsPartly_fclose h rfl rfl
  | closeDayFile => exact keepsPartly_fclose h rfl rfl
  | unmark =>
      obtain ⟨before, emitted, hserial, rfl, htimer⟩ := h
      have hlast : onTimer .initial alarm.toActivation = (emitted, .again .initial) :=
        htimer.trans (by simp [Frame.rest, emit])
      exact proceed_of_iff.mpr (.inr ⟨rfl, hserial.next hlast⟩)
  | finished => cases hinside

end Statements

/-- The region, with the events of its activations. -/
theorem serialRegion : Nesting.Region Frame.start onTimerStatement Frame.stage
    (fun history shared => idle history shared ∧ serially history shared)
    (fun history shared frame => owned history shared frame ∧
      Partly history shared frame) := by
  refine uploadRegion.and ?_ keepsPartly_statement
  intro history shared frame hadmitted _ hserial
  obtain ⟨number, alarm, place⟩ := frame
  cases place <;> try cases hadmitted
  case mark =>
      refine proceed_of_iff.mpr ⟨rfl, history, [], hserial, ?_, rfl⟩
      exact (List.append_nil history).symm

/--
Nested activations refine activations that follow one another: a run after which
no activation is under way emits what `onTimer` emits in a run without nesting.
-/
theorem reentrant_serial (moves : List (Nesting.Move Alarm)) {events : List Event}
    {state : Nesting.State Shared Frame}
    (hrun : run reentrant (Nesting.initial Shared.initial) moves = (events, .again state))
    (hnone : state.frames = []) :
    ∃ activations, run onTimer .initial activations = (events, .again .initial) := by
  have hkept := serialRegion.run ⟨show idle [] Shared.initial from rfl, [], rfl⟩ hrun
  exact (hkept.free (by simp [hnone])).2

end BBCodeBase.SerialComm
