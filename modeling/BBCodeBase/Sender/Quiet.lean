import BBCodeBase.Sender.Contract
import Mathlib.Data.List.Induction

/-!
# Quiet calls

A contract that holds of every call made for a batch: it emits no event about
the content of `session_data`, and it returns -1 exactly when the server crashes.
-/

namespace BBCodeBase.Sender

open Reactive

variable {stack : Stack} {data : SessionData} {session : Session} {tasks : Tasks}
  {exchange : Exchange} {history : List Event}

/-! ## Quiet events -/

/-- Not about the content of `session_data` and what becomes of it. -/
def Event.quiet : Event → Bool
  | .stored _ => false
  | .batch _ => false
  | .returned .sessionHandle _ => false
  | _ => true

def Quietly (start history : List Event) : Prop :=
  ∃ events, history = start ++ events ∧ ∀ event ∈ events, event.quiet

variable {start : List Event}

theorem Quietly.refl (history : List Event) : Quietly history history :=
  ⟨[], (List.append_nil _).symm, fun _ hevent => absurd hevent List.not_mem_nil⟩

theorem Quietly.append (h : Quietly start history) {events : List Event}
    (hquiet : ∀ event ∈ events, event.quiet) : Quietly start (history ++ events) := by
  have ⟨before, hbefore, hquietBefore⟩ := h
  refine ⟨before ++ events, ?_, ?_⟩
  · rw [hbefore, List.append_assoc]
  · intro event hevent
    cases List.mem_append.mp hevent with
    | inl hmem => exact hquietBefore event hmem
    | inr hmem => exact hquiet event hmem

theorem Quietly.concat (h : Quietly start history) {event : Event}
    (hquiet : event.quiet) : Quietly start (history ++ [event]) := by
  apply h.append
  intro other hother
  rwa [List.mem_singleton.mp hother]

theorem Quietly.timeout (h : Quietly start history) (task : Nat) (junk : List Byte) :
    Quietly start (history ++ sessionPacketTimeout session tasks task junk) := by
  unfold sessionPacketTimeout
  cases tasks.live.find? (·.id = task) with
  | none => exact h.append (fun _ hevent => absurd hevent List.not_mem_nil)
  | some live => exact h.concat rfl

/-- What a quiet event leaves alone in a fold over the events, a quiet history does. -/
theorem Quietly.foldl_eq {τ ξ : Type} {next : τ → Event → τ} (view : τ → ξ)
    (hview : ∀ state event, event.quiet → view (next state event) = view state)
    (h : Quietly start history) (state : τ) :
    view (history.foldl next state) = view (start.foldl next state) := by
  obtain ⟨events, heq, hquiet⟩ := h
  rw [heq, List.foldl_append]
  clear heq
  induction events using List.reverseRecOn with
  | nil => rfl
  | append_singleton events event ih =>
      have hlast := hquiet event (List.mem_append_right _ List.mem_cons_self)
      rw [List.foldl_append, List.foldl_cons, List.foldl_nil, hview _ _ hlast]
      exact ih fun other hother => hquiet other (List.mem_append_left _ hother)

/-! ## The calls are quiet and return -1 on a crash only -/

def callPost (start : List Event) (crash : Prop) : Post Exchange Event Int where
  again := fun events _ => Quietly start events ∧ ¬ crash
  done := fun events _ value => Quietly start events ∧ (value = -1 ↔ crash)
  fault := fun _ => ¬ crash

variable {crash : Prop} {function : Function} {value : Int}

theorem return_call (h : Quietly start history) (hfunction : function ≠ .sessionHandle)
    (hvalue : value = -1 ↔ crash) :
    (callPost start crash).Of history (exchange.return function value) := by
  constructor
  · apply h.concat
    cases function <;> first | rfl | exact absurd rfl hfunction
  · exact hvalue

theorem deleteAndReturn_call (h : Quietly start history)
    (hfunction : function ≠ .sessionHandle) (hvalue : value = -1 ↔ crash) :
    (callPost start crash).Of history (exchange.deleteAndReturn function value) := by
  apply Post.of_emit_iff.mpr
  exact return_call (h.concat rfl) hfunction hvalue

/-- While a call receives, only what its answer leads to has to be shown. -/
theorem exchangeLoop_call {awaited : Session → List Byte → Bool}
    {done : Exchange → Answer → List Event × Exit Exchange Int} (h : Quietly start history)
    {input : Input}
    (hanswered : ∀ buffer, ¬ input.serverCrash →
      (callPost start input.serverCrash).Of history
        (done { exchange with buffer := buffer } .answered))
    (hcrash : input.serverCrash →
      (callPost start input.serverCrash).Of history (done exchange .serverCrash)) :
    (callPost start input.serverCrash).Of history
      (andThen (receiveLoop awaited exchange input) id done) := by
  apply exchangeLoop_of
  case hwait => exact fun hsafe _ => ⟨h, hsafe⟩
  case hresend => exact fun hsafe task junk => ⟨h.timeout task junk, hsafe⟩
  case hanswered => exact fun hsafe _ buffer _ _ _ => hanswered buffer hsafe
  case hcrash => exact hcrash
  case hfault => exact id

theorem sessionHandshake_call (h : Quietly start history) (hsafe : ¬ crash) :
    (callPost start crash).Of history (sessionHandshake stack session tasks) := by
  unfold sessionHandshake
  rw [Post.of_emit_iff]
  exact ⟨(h.concat rfl).concat rfl, hsafe⟩

theorem sessionHandshakeLoop_call (h : Quietly start history) (input : Input) :
    (callPost start input.serverCrash).Of history
      (sessionHandshakeLoop exchange input) := by
  unfold sessionHandshakeLoop
  apply exchangeLoop_call h
  · intro buffer hsafe
    exact deleteAndReturn_call h (by decide) (iff_of_false (by decide) hsafe)
  · intro hcrash
    exact deleteAndReturn_call h (by decide) (iff_of_true rfl hcrash)

theorem sessionSendNext_call (data : SessionData) (h : Quietly start history)
    (hsafe : ¬ crash) :
    (callPost start crash).Of history (sessionSendNext stack data exchange) := by
  unfold sessionSendNext
  split
  · exact return_call h (by decide) (iff_of_false (by decide) hsafe)
  · cases buildPktData exchange.session data (stack.bytes exchange.tasks.created) with
    | none => exact hsafe
    | some packet => exact ⟨h.concat rfl, hsafe⟩

theorem sessionSendData_call (data : SessionData) (h : Quietly start history)
    (hsafe : ¬ crash) :
    (callPost start crash).Of history (sessionSendData stack data session tasks) := by
  unfold sessionSendData
  rw [Post.of_emit_iff]
  exact sessionSendNext_call data (h.concat rfl) hsafe

theorem sessionSendDataLoop_call (data : SessionData) (h : Quietly start history)
    (input : Input) :
    (callPost start input.serverCrash).Of history
      (sessionSendDataLoop stack data exchange input) := by
  unfold sessionSendDataLoop
  apply exchangeLoop_call h
  · intro buffer hsafe
    apply Post.of_emit_iff.mpr
    exact sessionSendNext_call data (h.concat rfl) hsafe
  · intro hcrash
    exact deleteAndReturn_call h (by decide) (iff_of_true rfl hcrash)

theorem sessionFinish_call (h : Quietly start history) (hsafe : ¬ crash) :
    (callPost start crash).Of history (sessionFinish stack session tasks) := by
  unfold sessionFinish
  rw [Post.of_emit_iff]
  exact ⟨(h.concat rfl).concat rfl, hsafe⟩

theorem sessionFinishLoop_call (h : Quietly start history) (input : Input) :
    (callPost start input.serverCrash).Of history
      (sessionFinishLoop exchange input) := by
  unfold sessionFinishLoop
  apply exchangeLoop_call h
  · intro buffer hsafe
    exact return_call h (by decide) (iff_of_false (by decide) hsafe)
  · intro hcrash
    exact deleteAndReturn_call h (by decide) (iff_of_true rfl hcrash)

theorem callLoop_call (phase : Phase) (h : Quietly start history) (input : Input) :
    (callPost start input.serverCrash).Of history
      (callLoop stack data phase exchange input) := by
  cases phase with
  | handshake => exact sessionHandshakeLoop_call h input
  | data => exact sessionSendDataLoop_call data h input
  | finish => exact sessionFinishLoop_call h input

/-! ## What no event of a call affects holds on every way out of it -/

def Event.ofCall : Event → Bool
  | .called .sessionHandle => false
  | .socket => false
  | event => event.quiet

def KeptByCalls (kept : List Event → Prop) : Prop :=
  ∀ history event, Event.ofCall event → kept history → kept (history ++ [event])

def KeptByQuiet (kept : List Event → Prop) : Prop :=
  ∀ history event, Event.quiet event → kept history → kept (history ++ [event])

theorem Event.quiet_of_ofCall {event : Event} (h : event.ofCall) : event.quiet := by
  cases event with
  | socket => rfl
  | called function => rfl
  | _ => exact h

theorem KeptByQuiet.byCalls {kept : List Event → Prop} (hkept : KeptByQuiet kept) :
    KeptByCalls kept :=
  fun history event hcall => hkept history event (Event.quiet_of_ofCall hcall)

def steady {σ ρ : Type} (kept : List Event → Prop) : Post σ Event ρ where
  again := fun events _ => kept events
  done := fun events _ _ => kept events
  fault := kept

variable {kept : List Event → Prop}

theorem quietly_keptByQuiet (start : List Event) : KeptByQuiet (Quietly start) :=
  fun _ _ hquiet h => h.concat hquiet

theorem KeptByCalls.timeout (hkept : KeptByCalls kept) (h : kept history) (task : Nat)
    (junk : List Byte) : kept (history ++ sessionPacketTimeout session tasks task junk) := by
  unfold sessionPacketTimeout
  cases tasks.live.find? (·.id = task) with
  | none => rwa [List.append_nil]
  | some live => exact hkept history _ rfl h

theorem KeptByCalls.return (hkept : KeptByCalls kept) (h : kept history)
    (hfunction : function ≠ .sessionHandle) (value : Int) :
    (steady kept).Of history (exchange.return function value) := by
  apply hkept history _ _ h
  cases function <;> first | rfl | exact absurd rfl hfunction

theorem KeptByCalls.deleteAndReturn (hkept : KeptByCalls kept) (h : kept history)
    (hfunction : function ≠ .sessionHandle) (value : Int) :
    (steady kept).Of history (exchange.deleteAndReturn function value) := by
  apply Post.of_emit_iff.mpr
  exact hkept.return (hkept history (.deleteTask exchange.task) rfl h) hfunction value

theorem KeptByCalls.exchangeLoop (hkept : KeptByCalls kept) (h : kept history)
    {awaited : Session → List Byte → Bool}
    {done : Exchange → Answer → List Event × Exit Exchange Int} (input : Input)
    (hdone : ∀ exchange answer, (steady kept).Of history (done exchange answer)) :
    (steady kept).Of history (andThen (receiveLoop awaited exchange input) id done) := by
  apply exchangeLoop_of
  case hwait => exact fun _ _ => h
  case hresend => exact fun _ task junk => hkept.timeout h task junk
  case hanswered => exact fun _ _ buffer _ _ _ => hdone _ .answered
  case hcrash => exact fun _ => hdone exchange .serverCrash
  case hfault => exact fun _ => h

theorem KeptByCalls.learnNewPort (hkept : KeptByCalls kept) (h : kept history) :
    (steady kept).Of history (learnNewPort stack session tasks) := by
  have hcalled := hkept history (.called .learnNewPort) rfl h
  unfold Sender.learnNewPort
  rw [Post.of_emit_iff]
  cases buildPktHelloRequest session with
  | none => exact Post.of_fault_iff.mpr hcalled
  | some packet => exact hkept _ _ rfl hcalled

/-- On its answer `learn_new_port` may return any value. -/
theorem KeptByCalls.learnNewPortLoop (hkept : KeptByCalls kept) (h : kept history)
    (input : Input) :
    (steady kept).Of history (learnNewPortLoop stack exchange input) := by
  apply hkept.exchangeLoop h
  intro exchange answer
  cases answer with
  | answered => exact hkept.deleteAndReturn h (by decide) _
  | serverCrash => exact hkept.deleteAndReturn h (by decide) _

theorem KeptByCalls.sessionSendNext (hkept : KeptByCalls kept) (h : kept history)
    (data : SessionData) :
    (steady kept).Of history (sessionSendNext stack data exchange) := by
  unfold Sender.sessionSendNext
  split
  · exact hkept.return h (by decide) _
  · cases buildPktData exchange.session data (stack.bytes exchange.tasks.created) with
    | none => exact Post.of_fault_iff.mpr h
    | some packet => exact hkept _ _ rfl h

theorem KeptByCalls.callLoop (hkept : KeptByCalls kept) (h : kept history) (phase : Phase)
    (input : Input) : (steady kept).Of history (callLoop stack data phase exchange input) := by
  cases phase with
  | handshake =>
      apply hkept.exchangeLoop h
      intro exchange answer
      cases answer with
      | answered => exact hkept.deleteAndReturn h (by decide) _
      | serverCrash => exact hkept.deleteAndReturn h (by decide) _
  | data =>
      apply hkept.exchangeLoop h
      intro exchange answer
      cases answer with
      | answered =>
          apply Post.of_emit_iff.mpr
          exact hkept.sessionSendNext (hkept _ _ rfl h) data
      | serverCrash => exact hkept.deleteAndReturn h (by decide) _
  | finish =>
      apply hkept.exchangeLoop h
      intro exchange answer
      cases answer with
      | answered => exact hkept.return h (by decide) _
      | serverCrash => exact hkept.deleteAndReturn h (by decide) _

theorem KeptByCalls.sessionHandshake (hkept : KeptByCalls kept) (h : kept history) :
    (steady kept).Of history (sessionHandshake stack session tasks) := by
  unfold Sender.sessionHandshake
  rw [Post.of_emit_iff]
  exact hkept _ _ rfl (hkept _ _ rfl h)

theorem KeptByCalls.sessionSendData (hkept : KeptByCalls kept) (h : kept history)
    (data : SessionData) :
    (steady kept).Of history (sessionSendData stack data session tasks) := by
  unfold Sender.sessionSendData
  rw [Post.of_emit_iff]
  exact hkept.sessionSendNext (hkept _ _ rfl h) data

theorem KeptByCalls.sessionFinish (hkept : KeptByCalls kept) (h : kept history) :
    (steady kept).Of history (sessionFinish stack session tasks) := by
  unfold Sender.sessionFinish
  rw [Post.of_emit_iff]
  exact hkept _ _ rfl (hkept _ _ rfl h)

def steadyContract (kept : List Event → Prop) : Contract where
  waiting := fun _ events _ => kept events
  returned := fun _ events _ _ => kept events
  handled := fun events _ _ => kept events
  fault := kept

theorem steadyContract_chained (hkept : KeptByCalls kept)
    (hreturned : ∀ history value, kept history →
      kept (history ++ [.returned .sessionHandle value])) :
    (steadyContract kept).Chained stack data where
  sendData := fun _ _ _ h _ => hkept.sessionSendData h data
  finish := fun _ _ _ h _ => hkept.sessionFinish h
  failed := fun _ history _ h => hreturned history (-1) h
  handled := fun history _ _ h _ => hreturned history 0 h

/-- What quiet events leave alone is kept while a port is learned. -/
theorem learnNewPort_kept {kept : List Event → Prop}
    (hkept : ∀ later, Quietly history later → kept later) :
    (Post.mk (fun events _ => kept events) (fun _ _ _ => False) (fun _ => True)).Of
      (history ++ [.socket]) (learnNewPort stack session tasks) := by
  have hsocket : Quietly history (history ++ [.socket]) :=
    (Quietly.refl history).concat rfl
  apply ((quietly_keptByQuiet history).byCalls.learnNewPort hsocket).weaken
  · exact fun events _ hquiet => hkept events hquiet
  · exact fun _ _ value => nomatch value
  · exact fun _ _ => trivial

theorem learnNewPortLoop_kept {kept : List Event → Prop}
    (hkept : ∀ later, Quietly history later → kept later) (input : Input) :
    (Post.mk (fun events _ => kept events) (fun events _ _ => kept events)
        (fun _ => True)).Of history (learnNewPortLoop stack exchange input) := by
  apply ((quietly_keptByQuiet history).byCalls.learnNewPortLoop (Quietly.refl history) input).weaken
  · exact fun events _ hquiet => hkept events hquiet
  · exact fun events _ _ hquiet => hkept events hquiet
  · exact fun _ _ => trivial

def quietContract (start : List Event) (crash : Prop) : Contract where
  waiting := fun _ events _ => Quietly start events ∧ ¬ crash
  returned := fun _ events _ value => Quietly start events ∧ (value = -1 ↔ crash)
  handled := fun events _ value =>
    (∃ before, Quietly start before ∧
      events = before ++ [.returned .sessionHandle value]) ∧
    (crash ∧ value = -1 ∨ ¬ crash ∧ value = 0)
  fault := fun _ => ¬ crash

theorem quietContract_chained : (quietContract start crash).Chained stack data where
  sendData := fun _ _ _ hreturned hret =>
    sessionSendData_call data hreturned.1 (fun hcrash => hret (hreturned.2.mpr hcrash))
  finish := fun _ _ _ hreturned hret =>
    sessionFinish_call hreturned.1 (fun hcrash => hret (hreturned.2.mpr hcrash))
  failed := fun _ history _ hreturned =>
    ⟨⟨history, hreturned.1, rfl⟩, .inl ⟨hreturned.2.mp rfl, rfl⟩⟩
  handled := fun history _ _ hreturned hret =>
    ⟨⟨history, hreturned.1, rfl⟩, .inr ⟨fun hcrash => hret (hreturned.2.mpr hcrash), rfl⟩⟩

theorem sessionHandle_quiet (h : Quietly start history) (hsafe : ¬ crash) :
    (quietContract start crash).handle.Of history
      (sessionHandle stack data session tasks) :=
  quietContract_chained.sessionHandle (sessionHandshake_call (h.concat rfl) hsafe)

theorem sessionHandleLoop_quiet {handle : Handle} (h : Quietly start history)
    (input : Input) :
    (quietContract start input.serverCrash).handle.Of history
      (sessionHandleLoop stack data handle input) :=
  quietContract_chained.sessionHandleLoop (callLoop_call handle.phase h input)

end BBCodeBase.Sender
