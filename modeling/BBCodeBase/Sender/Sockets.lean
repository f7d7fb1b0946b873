import BBCodeBase.Sender.Quiet
import BBCodeBase.Sender.Receives

/-!
# The sockets of a run

Every attempt to learn a port begins with `session_build_parameters`, which has
`create_connection` open another socket and forgets the one before.
-/

namespace BBCodeBase.Sender

open Reactive

variable {stack : Stack} {data : SessionData} {session : Session} {tasks : Tasks}
  {exchange : Exchange} {history : List Event} {hostName : List Byte} {input : Input}

/-- The sockets of `create_connection` that are open: the program closes none of them. -/
def openSockets (history : List Event) : Nat := history.count .socket

theorem openSockets_concat {event : Event} (h : event ≠ .socket) :
    openSockets (history ++ [event]) = openSockets history := by
  simp [openSockets, List.count_append, h]

theorem openSockets_append_socket (events : List Event) :
    openSockets (history ++ [.socket] ++ events) =
      openSockets history + 1 + openSockets events := by
  simp [openSockets, List.count_append]
  omega

/-! ## One socket -/

def OneSocket (history : List Event) : Prop := openSockets history = 1

theorem OneSocket.concat (h : OneSocket history) {event : Event} (hother : event ≠ .socket) :
    OneSocket (history ++ [event]) :=
  (openSockets_concat hother).trans h

theorem oneSocket_keptByCalls : KeptByCalls OneSocket := by
  intro history event hcall h
  apply h.concat
  rintro rfl
  cases hcall

theorem oneSocket_chained : (steadyContract OneSocket).Chained stack data :=
  steadyContract_chained oneSocket_keptByCalls fun _ _ h => h.concat (by simp)

theorem OneSocket.line (h : OneSocket history) (line : Line) :
    OneSocket (history ++ line.events) := by
  unfold Line.events
  split
  · rwa [List.append_nil]
  · exact h.concat (by simp)

abbrev socketPost : Post Transfer Event Empty :=
  Post.keeping (fun events _ => OneSocket events) fun events _ => openSockets events ≤ 1

theorem OneSocket.handled {pass : List Event × Exit Handle Int}
    (hpass : (steadyContract OneSocket).handle.Of history pass) :
    socketPost.Of history
      (andThen pass (Transfer.handling · data) (afterHandle data)) := by
  rw [Post.of_andThen_iff]
  apply hpass.weaken
  · exact fun _ _ h => h
  · intro events handle value h
    have hreading : OneSocket events := h
    change socketPost.Of events (afterHandle data handle value)
    exact Post.of_again_iff.mpr hreading
  · exact fun _ h => Nat.le_of_eq h

theorem OneSocket.sessionSendBatch (h : OneSocket history) (length : Nat) :
    socketPost.Of history (sessionSendBatch stack data session tasks length) := by
  unfold Sender.sessionSendBatch
  split
  · exact Post.of_again_iff.mpr h
  · rw [Post.of_emit_iff]
    apply OneSocket.handled
    apply oneSocket_chained.sessionHandle
    apply oneSocket_keptByCalls.sessionHandshake
    exact (h.concat (by simp)).concat (by simp)

theorem OneSocket.sessionReadLine (h : OneSocket history) (numBytes : Nat) (line : Line) :
    socketPost.Of history (sessionReadLine stack data session tasks numBytes line) := by
  have hfault := Nat.le_of_eq h
  unfold Sender.sessionReadLine
  cases storeLine data numBytes line with
  | none => exact Post.of_fault_iff.mpr hfault
  | some data =>
      simp only
      rw [Post.of_emit_iff]
      cases strlen data with
      | none => exact Post.of_fault_iff.mpr (Nat.le_of_eq (h.line line))
      | some length =>
          simp only
          split
          · exact Post.of_again_iff.mpr (h.line line)
          · exact (h.line line).sessionSendBatch length

theorem OneSocket.sessionHandleLoop (h : OneSocket history) (handle : Handle)
    (input : Input) :
    socketPost.Of history
      (andThen (sessionHandleLoop stack data handle input) (Transfer.handling · data)
        (afterHandle data)) := by
  apply OneSocket.handled
  apply oneSocket_chained.sessionHandleLoop
  exact oneSocket_keptByCalls.callLoop h handle.phase input

/-! ## A socket more for every failed attempt -/

def Transfer.LearnFails (stack : Stack) (transfer : Transfer) (input : Input) : Prop :=
  ∃ exchange, transfer = .learning exchange ∧
    (input.serverCrash ∨ ∃ bytes after, input = .recv (.datagram bytes) ∧
      Accepts .learnNewPort exchange after bytes ∧
      stack.learned exchange.tasks.created = -1)

/-- The value that `learn_new_port` returns tells a failed attempt. -/
theorem learnNewPortLoop_returns (h : OneSocket history) :
    (Post.mk (fun events _ => OneSocket events)
      (fun events _ value => OneSocket events ∧
        (value = -1 ↔ (Transfer.learning exchange).LearnFails stack input))
      (fun events => OneSocket events)).Of history
        (learnNewPortLoop stack exchange input) := by
  apply exchangeLoop_of
  case hwait => exact fun _ _ => h
  case hresend => exact fun _ task junk => oneSocket_keptByCalls.timeout h task junk
  case hanswered =>
      intro hsafe bytes buffer hinput hstored hawaited
      have haccepts : Accepts .learnNewPort exchange { exchange with buffer := buffer }
          bytes := accepts_iff.mpr ⟨buffer, hstored, hawaited, rfl⟩
      apply deleteAndReturn_of
      refine ⟨(h.concat (by simp)).concat (by simp), ?_, ?_⟩
      · exact fun hvalue => ⟨exchange, rfl, .inr ⟨bytes, _, hinput, haccepts, hvalue⟩⟩
      · rintro ⟨_, heq, hcrash | ⟨_, _, _, _, hvalue⟩⟩
        · exact absurd hcrash hsafe
        · cases heq
          exact hvalue
  case hcrash =>
      intro hcrash
      apply deleteAndReturn_of
      refine ⟨(h.concat (by simp)).concat (by simp), iff_of_true rfl ?_⟩
      exact ⟨exchange, rfl, .inl hcrash⟩
  case hfault => exact fun _ => h

theorem sessionConnect_socket (h : openSockets history = 0) :
    socketPost.Of history (sessionConnect stack hostName session tasks) := by
  have hsocket : OneSocket (history ++ [.socket]) := by
    have hcount := @openSockets_append_socket history []
    rw [List.append_nil, h] at hcount
    exact hcount
  unfold sessionConnect sessionBuildParameters
  rw [Post.of_emit_iff, Post.of_andThen_iff]
  apply (oneSocket_keptByCalls.learnNewPort hsocket).weaken
  · exact fun _ _ hone => hone
  · exact fun _ _ value => nomatch value
  · exact fun _ hone => Nat.le_of_eq hone

theorem sessionTransferLoop_socket {transfer : Transfer} (h : OneSocket history)
    (hlearns : ¬ transfer.LearnFails stack input) :
    socketPost.Of history (sessionTransferLoop stack hostName transfer input) := by
  unfold sessionTransferLoop
  cases transfer with
  | learning exchange =>
      simp only
      rw [Post.of_andThen_iff]
      apply (learnNewPortLoop_returns h).weaken
      · exact fun _ _ hone => hone
      · rintro events later value ⟨hone, hvalue⟩
        change socketPost.Of events (afterLearn stack hostName later value)
        rw [afterLearn, if_neg (fun hfailed => hlearns (hvalue.mp hfailed))]
        exact Post.of_again_iff.mpr hone
      · exact fun _ hone => Nat.le_of_eq hone
  | reading session tasks data numBytes =>
      cases input with
      | recv result => exact Post.of_again_iff.mpr h
      | fgets line => exact h.sessionReadLine numBytes line
      | wakeUp task junk => exact oneSocket_keptByCalls.timeout h task junk
  | handling handle data => exact h.sessionHandleLoop handle input

theorem learnNewPortLoop_fails
    (hfails : (Transfer.learning exchange).LearnFails stack input) :
    ∃ events later, learnNewPortLoop stack exchange input = (events, .done later (-1)) := by
  obtain ⟨_, heq, hcause⟩ := hfails
  cases heq
  rcases hcause with hcrash | ⟨bytes, after, rfl, haccepts, hvalue⟩
  · obtain ⟨errno, rfl, hwireless⟩ : ∃ errno, input = .recv (.failed errno) ∧
        checkWirelessConnectivity errno = false := by
      cases input with
      | recv result =>
          cases result with
          | datagram bytes => cases hcrash
          | failed errno => exact ⟨errno, rfl, by simpa [Input.serverCrash] using hcrash⟩
      | fgets line => cases hcrash
      | wakeUp task junk => cases hcrash
    simp [learnNewPortLoop, receiveLoop, hwireless, andThen, emit,
      Exchange.deleteAndReturn, Exchange.return]
  · obtain ⟨events, later, hpass, -⟩ := @learning_accepts exchange bytes stack _ haccepts
    rw [hvalue] at hpass
    exact ⟨events, later, hpass⟩

/-- A failed attempt leads to another socket in the same pass. -/
theorem sessionTransferLoop_leaks {transfer : Transfer} (h : OneSocket history)
    (hfails : transfer.LearnFails stack input) :
    1 < openSockets
      (history ++ (sessionTransferLoop stack hostName transfer input).1) := by
  obtain ⟨exchange, rfl, hcause⟩ := hfails
  have hreturns := @learnNewPortLoop_returns stack exchange history input h
  obtain ⟨events, later, hpass⟩ := learnNewPortLoop_fails ⟨exchange, rfl, hcause⟩
  rw [hpass] at hreturns
  have hone : openSockets (history ++ events) = 1 := hreturns.1
  have hloop : sessionTransferLoop stack hostName (.learning exchange) input =
      emit events (sessionConnect stack hostName later.session later.tasks) := by
    simp [sessionTransferLoop, hpass, andThen, afterLearn]
  have hsocket : ∃ rest, (sessionConnect stack hostName later.session later.tasks).1 =
      .socket :: rest := ⟨_, rfl⟩
  obtain ⟨rest, hrest⟩ := hsocket
  have hcount := @openSockets_append_socket (history ++ events) rest
  rw [hone] at hcount
  rw [hloop, emit, hrest, ← List.append_assoc, ← List.singleton_append, ← List.append_assoc,
    hcount]
  omega

/--
There is never more than one socket exactly in the runs in which no attempt to
learn a port fails.
-/
theorem one_socket_iff (stack : Stack) (hostName : List Byte) (session : Session)
    (inputs : List Input) :
    (∀ first, first <+: inputs →
        openSockets (sessionTransfer stack hostName session first).1 ≤ 1) ↔
      AlongFrom (sessionConnect stack hostName session ⟨[], 0⟩)
        (sessionTransferLoop stack hostName)
        (fun transfer input => ¬ transfer.LearnFails stack input) inputs := by
  have hdecides : Decides (sessionTransferLoop stack hostName) (fun _ => True)
      (fun events _ => OneSocket events)
      (fun transfer input => ¬ transfer.LearnFails stack input)
      (fun events _ => openSockets events ≤ 1) := by
    constructor
    case holds => exact fun _ _ hone => Nat.le_of_eq hone
    case keeps =>
        exact fun _ _ _ _ hone hlearns => sessionTransferLoop_socket hone hlearns
    case breaks =>
        intro history transfer input _ hone hfails
        exact Nat.not_le_of_lt (sessionTransferLoop_leaks hone (not_not.mp hfails))
  exact hdecides.throughout_iff (sessionConnect_socket rfl) fun _ _ => trivial

/-- The connection is refused once. -/
theorem one_socket_refused : ¬ ∀ (stack : Stack) (hostName : List Byte)
    (session : Session) (inputs first : List Input), first <+: inputs →
    openSockets (sessionTransfer stack hostName session first).1 ≤ 1 := by
  intro hone
  have hsecond := hone zeroStack [0x68#8] zeroSession [.recv (.failed 111)]
    [.recv (.failed 111)] List.prefix_rfl
  exact absurd hsecond (by decide)

end BBCodeBase.Sender
