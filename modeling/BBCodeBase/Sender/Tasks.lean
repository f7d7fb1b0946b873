import BBCodeBase.Sender.Contract

/-!
# Lifetimes of the retransmission tasks

The events of a run are watched for the rules that tasks obey: one live task at
most, each deleted once, none left behind by the call that created it, and no
packet sent again outside that call.  The rules are kept exactly as long as
`session_finish` gets no answer: on an answer it returns without deleting its
task.
-/

namespace BBCodeBase.Sender

open Reactive

variable (stack : Stack) {session : Session} {tasks : Tasks} {exchange : Exchange}
  {history : List Event}

/-! ## The rules -/

/-- The tasks not yet deleted, and those created since the last call began. -/
structure Watch where
  live : List Nat
  current : List Nat
  deriving DecidableEq, Repr

/-- The next event, unless it breaks a rule. -/
def Watch.next (watch : Watch) : Event → Option Watch
  | .called _ => some { watch with current := [] }
  | .send task _ _ =>
      let live := watch.live ++ [task]
      if live.length ≤ 1 then some ⟨live, watch.current ++ [task]⟩ else none
  | .resend task _ _ =>
      if task ∈ watch.live ∧ task ∈ watch.current then some watch else none
  | .deleteTask task =>
      if task ∈ watch.live then some { watch with live := watch.live.erase task }
      else none
  | .returned .sessionHandle _ => some watch
  | .returned _ _ =>
      if ∀ task ∈ watch.current, task ∉ watch.live then some watch else none
  | _ => some watch

def watch (history : List Event) : Option Watch :=
  history.foldlM Watch.next ⟨[], []⟩

def Clean (history : List Event) : Prop := (watch history).isSome

instance : Decidable (Clean history) := inferInstanceAs (Decidable (_ = true))

theorem watch_append (events : List Event) :
    watch (history ++ events) = (watch history).bind (events.foldlM Watch.next ·) := by
  simp only [watch, List.foldlM_append]
  rfl

theorem watch_concat (event : Event) :
    watch (history ++ [event]) = (watch history).bind (Watch.next · event) := by
  rw [watch_append]
  cases watch history with
  | none => rfl
  | some watched => simp

/-! ## Between calls and while a call receives -/

def Idle (history : List Event) (tasks : Tasks) : Prop :=
  (∃ current, watch history = some ⟨[], current⟩) ∧ tasks.live = []

def Sending (history : List Event) (exchange : Exchange) : Prop :=
  (∃ current, watch history = some ⟨[exchange.task], current⟩ ∧
    exchange.task ∈ current) ∧
  ∃ packet, exchange.tasks.live = [⟨exchange.task, packet, true⟩]

theorem Idle.clean (h : Idle history tasks) : Clean history := by
  obtain ⟨⟨current, hwatch⟩, _⟩ := h
  simp [Clean, hwatch]

theorem Sending.clean (h : Sending history exchange) : Clean history := by
  obtain ⟨⟨current, hwatch, _⟩, _⟩ := h
  simp [Clean, hwatch]

/-- With no task live an event cannot break a rule unless it is about a task. -/
theorem Idle.concat (h : Idle history tasks) {event : Event}
    (hevent : ∀ current, ∃ next, Watch.next ⟨[], current⟩ event = some ⟨[], next⟩) :
    Idle (history ++ [event]) tasks := by
  obtain ⟨⟨current, hwatch⟩, hlive⟩ := h
  constructor
  · rw [watch_concat, hwatch]
    exact hevent current
  · exact hlive

theorem Idle.called (h : Idle history tasks) (function : Function) :
    Idle (history ++ [.called function]) tasks :=
  h.concat fun _ => ⟨[], rfl⟩

theorem Idle.returned (h : Idle history tasks) (function : Function) (value : Int) :
    Idle (history ++ [.returned function value]) tasks := by
  apply h.concat
  intro current
  exact ⟨current, by cases function <;> simp [Watch.next]⟩

theorem Idle.leaveFrame (h : Idle history tasks) : Idle history tasks.leaveFrame := by
  constructor
  · exact h.1
  · simp [Tasks.leaveFrame, h.2]

theorem Idle.socket (h : Idle history tasks) : Idle (history ++ [.socket]) tasks :=
  h.concat fun current => ⟨current, rfl⟩

theorem Idle.stored (h : Idle history tasks) (line : Line) :
    Idle (history ++ line.events) tasks := by
  unfold Line.events
  split
  · rwa [List.append_nil]
  · exact h.concat fun current => ⟨current, rfl⟩

theorem Idle.batch (h : Idle history tasks) (bytes : List Byte) :
    Idle (history ++ [.batch bytes]) tasks :=
  h.concat fun current => ⟨current, rfl⟩

theorem Idle.send (h : Idle history tasks) (session later : Session)
    (packet buffer : List Byte) :
    Sending (history ++ (sessionSendPacket session tasks packet).1)
      ⟨later, (sessionSendPacket session tasks packet).2, tasks.created, buffer⟩ := by
  obtain ⟨⟨current, hwatch⟩, hlive⟩ := h
  constructor
  · refine ⟨current ++ [tasks.created], ?_, by simp⟩
    simp [sessionSendPacket, watch_concat, hwatch, Watch.next]
  · exact ⟨packet, by simp [sessionSendPacket, hlive]⟩

theorem Idle.timeout (h : Idle history tasks) (task : Nat) (junk : List Byte) :
    Idle (history ++ sessionPacketTimeout session tasks task junk) tasks := by
  simpa [sessionPacketTimeout, h.2] using h

theorem Sending.timeout (h : Sending history exchange) (task : Nat) (junk : List Byte) :
    Sending (history ++ sessionPacketTimeout exchange.session exchange.tasks task junk)
      exchange := by
  obtain ⟨⟨current, hwatch, hcurrent⟩, packet, hlive⟩ := h
  constructor
  · refine ⟨current, ?_, hcurrent⟩
    unfold sessionPacketTimeout
    by_cases htask : exchange.task = task
    · subst htask
      simp [hlive, watch_concat, hwatch, Watch.next, hcurrent]
    · simp [hlive, htask, hwatch]
  · exact ⟨packet, hlive⟩

theorem Sending.delete (h : Sending history exchange) :
    Idle (history ++ exchange.deleteTask.1) exchange.deleteTask.2.tasks := by
  obtain ⟨⟨current, hwatch, hcurrent⟩, packet, hlive⟩ := h
  constructor
  · refine ⟨current, ?_⟩
    simp [Exchange.deleteTask, deleteTask, watch_concat, hwatch, Watch.next]
  · simp [Exchange.deleteTask, deleteTask, hlive]

theorem Sending.not_clean_returned (h : Sending history exchange) {function : Function}
    (hfunction : function ≠ .sessionHandle) (value : Int) (events : List Event) :
    ¬ Clean (history ++ .returned function value :: events) := by
  obtain ⟨⟨current, hwatch, hcurrent⟩, packet, hlive⟩ := h
  have hnone : watch (history ++ [.returned function value]) = none := by
    cases function <;> simp_all [watch_concat, Watch.next]
  have hsplit : history ++ Event.returned function value :: events =
      (history ++ [.returned function value]) ++ events := by simp
  rw [hsplit, Clean, watch_append, hnone]
  simp

/-! ## The exchange functions -/

def exchangePost : Post Exchange Event Int where
  again := Sending
  done := fun events exchange _ => Idle events exchange.tasks
  fault := Clean

theorem Idle.return (h : Idle history exchange.tasks) (function : Function)
    (value : Int) : exchangePost.Of history (exchange.return function value) :=
  (h.returned function value).leaveFrame

theorem Sending.deleteAndReturn (h : Sending history exchange) (function : Function)
    (value : Int) :
    exchangePost.Of history (exchange.deleteAndReturn function value) :=
  Post.of_emit_iff.mpr (h.delete.return function value)

/-- While a call receives, only what its answer leads to has to be shown. -/
theorem exchangeLoop_tasks {awaited : Session → List Byte → Bool}
    {done : Exchange → Answer → List Event × Exit Exchange Int} {input : Input}
    (h : Sending history exchange)
    (hanswered : ∀ bytes buffer, input = .recv (.datagram bytes) →
      transportRecvPacket exchange.buffer bytes = some buffer →
      awaited exchange.session buffer →
      exchangePost.Of history (done { exchange with buffer := buffer } .answered))
    (hcrash : exchangePost.Of history (done exchange .serverCrash)) :
    exchangePost.Of history (andThen (receiveLoop awaited exchange input) id done) := by
  apply exchangeLoop_of
  case hwait => exact fun _ _ => h
  case hresend => exact fun _ => h.timeout
  case hanswered => exact fun _ => hanswered
  case hcrash => exact fun _ => hcrash
  case hfault => exact fun _ => h.clean

theorem learnNewPort_tasks (h : Idle history tasks) :
    (Post.mk Sending (fun _ _ _ => False) Clean).Of history
      (learnNewPort stack session tasks) := by
  have hcalled := h.called .learnNewPort
  unfold learnNewPort
  rw [Post.of_emit_iff]
  cases buildPktHelloRequest session with
  | none => exact Post.of_fault_iff.mpr hcalled.clean
  | some packet => exact hcalled.send session session packet _

theorem learnNewPortLoop_tasks (h : Sending history exchange) (input : Input) :
    exchangePost.Of history (learnNewPortLoop stack exchange input) := by
  unfold learnNewPortLoop
  apply exchangeLoop_tasks h
  · intro bytes buffer _ _ _
    exact Sending.deleteAndReturn h _ _
  · exact h.deleteAndReturn _ _

theorem sessionHandshake_tasks (h : Idle history tasks) :
    exchangePost.Of history (sessionHandshake stack session tasks) := by
  unfold sessionHandshake
  rw [Post.of_emit_iff]
  exact (h.called .sessionHandshake).send session session _ _

theorem sessionHandshakeLoop_tasks (h : Sending history exchange) (input : Input) :
    exchangePost.Of history (sessionHandshakeLoop exchange input) := by
  unfold sessionHandshakeLoop
  apply exchangeLoop_tasks h
  · intro bytes buffer _ _ _
    exact Sending.deleteAndReturn h _ _
  · exact h.deleteAndReturn _ _

theorem sessionSendNext_tasks (data : SessionData) (h : Idle history exchange.tasks) :
    exchangePost.Of history (sessionSendNext stack data exchange) := by
  unfold sessionSendNext
  split
  · exact h.return .sessionSendData 0
  · cases buildPktData exchange.session data (stack.bytes exchange.tasks.created) with
    | none => exact Post.of_fault_iff.mpr h.clean
    | some packet => exact h.send exchange.session exchange.session _ exchange.buffer

theorem sessionSendData_tasks (data : SessionData) (h : Idle history tasks) :
    exchangePost.Of history (sessionSendData stack data session tasks) := by
  unfold sessionSendData
  rw [Post.of_emit_iff]
  exact sessionSendNext_tasks stack data (h.called .sessionSendData)

theorem sessionSendDataLoop_tasks (data : SessionData) (h : Sending history exchange)
    (input : Input) :
    exchangePost.Of history (sessionSendDataLoop stack data exchange input) := by
  unfold sessionSendDataLoop
  apply exchangeLoop_tasks h
  · intro bytes buffer _ _ _
    apply Post.of_emit_iff.mpr
    apply sessionSendNext_tasks
    exact Sending.delete h
  · exact h.deleteAndReturn _ _

theorem sessionFinish_tasks (h : Idle history tasks) :
    exchangePost.Of history (sessionFinish stack session tasks) := by
  unfold sessionFinish
  rw [Post.of_emit_iff]
  exact (h.called .sessionFinish).send session session _ _

def Exchange.FinishAnswered (exchange : Exchange) (input : Input) : Prop :=
  ∃ bytes buffer, input = .recv (.datagram bytes) ∧
    transportRecvPacket exchange.buffer bytes = some buffer ∧
    isFinishAck exchange.session buffer

theorem sessionFinishLoop_tasks (h : Sending history exchange) {input : Input}
    (hunanswered : ¬ exchange.FinishAnswered input) :
    exchangePost.Of history (sessionFinishLoop exchange input) := by
  unfold sessionFinishLoop
  apply exchangeLoop_tasks h
  · intro bytes buffer hinput hstored hack
    exact absurd ⟨bytes, buffer, hinput, hstored, hack⟩ hunanswered
  · exact h.deleteAndReturn _ _

theorem sessionFinishLoop_answered {input : Input}
    (hanswered : exchange.FinishAnswered input) :
    ∃ last, sessionFinishLoop exchange input =
      ([.returned .sessionFinish 1], .done last 1) := by
  obtain ⟨bytes, buffer, rfl, hstored, hack⟩ := hanswered
  have hack' : isFinishAck { exchange with buffer := buffer }.session buffer = true :=
    hack
  simp only [sessionFinishLoop, receiveLoop, hstored, hack', andThen]
  exact ⟨_, rfl⟩

/-! ## `session_handle` and `session_transfer` -/

def tasksContract : Contract where
  waiting := fun _ => Sending
  returned := fun _ events exchange _ => Idle events exchange.tasks
  handled := fun events exchange _ => Idle events exchange.tasks
  fault := Clean

theorem tasksContract_chained (data : SessionData) : tasksContract.Chained stack data where
  sendData := fun _ _ _ hidle _ => sessionSendData_tasks stack data hidle
  finish := fun _ _ _ hidle _ => sessionFinish_tasks stack hidle
  failed := fun _ _ _ hidle => hidle.returned .sessionHandle (-1)
  handled := fun _ _ _ hidle _ => hidle.returned .sessionHandle 0

theorem sessionHandle_tasks (data : SessionData) (h : Idle history tasks) :
    tasksContract.handle.Of history (sessionHandle stack data session tasks) :=
  (tasksContract_chained stack data).sessionHandle
    (sessionHandshake_tasks stack (h.called .sessionHandle))

def Handle.FinishAnswered (handle : Handle) (input : Input) : Prop :=
  handle.phase = .finish ∧ handle.exchange.FinishAnswered input

theorem sessionHandleLoop_tasks (data : SessionData) {handle : Handle} {input : Input}
    (h : Sending history handle.exchange) (hunanswered : ¬ handle.FinishAnswered input) :
    tasksContract.handle.Of history (sessionHandleLoop stack data handle input) := by
  apply (tasksContract_chained stack data).sessionHandleLoop
  cases hphase : handle.phase with
  | handshake => exact sessionHandshakeLoop_tasks h input
  | data => exact sessionSendDataLoop_tasks stack data h input
  | finish => exact sessionFinishLoop_tasks h (fun hack => hunanswered ⟨hphase, hack⟩)

def tasksInOrder : TransferContract where
  learning := Sending
  reading := fun _ => Idle
  handling := fun _ events handle => Sending events handle.exchange
  fault := Clean

theorem tasksInOrder_kept : tasksInOrder.Kept stack (fun _ => True)
    (fun _ handle input => ¬ handle.FinishAnswered input) where
  connect := fun _ _ _ hidle => learnNewPort_tasks stack hidle.socket
  learn := fun _ _ input hsending => learnNewPortLoop_tasks stack hsending input
  line := fun _ _ _ line _ hidle => hidle.stored line
  timeout := fun _ _ _ _ task junk hidle => hidle.timeout task junk
  start := fun text _ _ _ data _ _ _ hidle =>
    sessionHandle_tasks stack data (hidle.batch text)
  handle := fun _ _ _ data _ hunanswered _ _ hsending =>
    sessionHandleLoop_tasks stack data hsending hunanswered

theorem tasksInOrder_clean {transfer : Transfer}
    (h : tasksInOrder.Holds history transfer) : Clean history := by
  cases transfer with
  | learning exchange => exact Sending.clean h
  | reading session tasks data numBytes =>
      have ⟨_, _, _, _, hidle⟩ := h
      exact hidle.clean
  | handling handle data =>
      have ⟨_, _, _, _, hsending⟩ := h
      exact hsending.clean

theorem finishAnswered_not_clean (hostName : List Byte) {handle : Handle}
    {data : SessionData} {input : Input} (h : Sending history handle.exchange)
    (hanswered : handle.FinishAnswered input) :
    ¬ Clean (history ++
      (sessionTransferLoop stack hostName (.handling handle data) input).1) := by
  obtain ⟨hphase, hack⟩ := hanswered
  obtain ⟨last, hfinish⟩ := sessionFinishLoop_answered hack
  simp only [sessionTransferLoop, sessionHandleLoop, hphase, hfinish, andThen]
  exact h.not_clean_returned (by decide) _ _

/--
In every run the tasks keep the rules at every moment if and only if
`session_finish` never gets its answer.
-/
theorem tasks_end_iff (hostName : List Byte) (session : Session) (inputs : List Input) :
    (∀ first, first <+: inputs →
        Clean (sessionTransfer stack hostName session first).1) ↔
      AlongFrom (sessionConnect stack hostName session ⟨[], 0⟩)
        (sessionTransferLoop stack hostName)
        (Transfer.Meets fun handle input => ¬ handle.FinishAnswered input) inputs := by
  apply (tasksInOrder_kept stack).throughout_iff (fun events _ => Clean events)
  · exact fun _ _ h => tasksInOrder_clean h
  · exact fun _ hclean => hclean
  · intro history handle data input h hanswered
    have ⟨_, _, _, _, hsending⟩ := h
    exact finishAnswered_not_clean stack hostName hsending (not_not.mp hanswered)
  · constructor
    · exact ⟨[], rfl⟩
    · rfl
  · exact fun _ _ => trivial

/-- The first batch is handled and all its exchanges are answered. -/
theorem not_tasks_end :
    ¬ Clean (sessionTransfer zeroStack [0x68#8] zeroSession
      (Input.firstBatch ++
        [.packet .handshakeAck (le16 1#16 ++ List.replicate 10 0#8),
          .packet .dataAck (le16 1#16), .packet .finishAck (le16 5000#16)])).1 := by
  decide +kernel

end BBCodeBase.Sender
