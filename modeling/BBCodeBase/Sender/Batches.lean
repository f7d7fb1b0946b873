import BBCodeBase.Sender.Quiet

/-!
# What becomes of the bytes read from standard input

A ledger over the events of a run: the bytes read, and the bytes of the batches
for which `session_handle` returned 0.  Whatever is read and not delivered is
still held in `session_data`, as long as the server does not crash while a batch
is handled; after a crash `session_transfer` clears the buffer all the same.
-/

namespace BBCodeBase.Sender

open Reactive

variable (stack : Stack) {session : Session} {tasks : Tasks} {exchange : Exchange}
  {history : List Event}

/-! ## The ledger -/

structure Ledger where
  consumed : List Byte
  delivered : List Byte
  batch : List Byte
  deriving DecidableEq, Repr

def Ledger.next (ledger : Ledger) : Event → Ledger
  | .stored chars => { ledger with consumed := ledger.consumed ++ chars }
  | .batch bytes => { ledger with batch := bytes }
  | .returned .sessionHandle value =>
      if value = 0 then { ledger with delivered := ledger.delivered ++ ledger.batch }
      else ledger
  | _ => ledger

def ledger (history : List Event) : Ledger := history.foldl Ledger.next ⟨[], [], []⟩

theorem ledger_append (events : List Event) :
    ledger (history ++ events) = events.foldl Ledger.next (ledger history) :=
  List.foldl_append

theorem Ledger.next_quiet (ledger : Ledger) {event : Event} (hquiet : event.quiet) :
    ledger.next event = ledger := by
  cases event with
  | returned function value => cases function <;> first | rfl | cases hquiet
  | stored chars => cases hquiet
  | batch bytes => cases hquiet
  | _ => rfl

theorem ledger_quietly {start : List Event} (h : Quietly start history) :
    ledger history = ledger start :=
  h.foldl_eq id (fun ledger _ hquiet => ledger.next_quiet hquiet) _

theorem ledger_stored (line : Line) :
    ledger (history ++ line.events) =
      { ledger history with
        consumed := (ledger history).consumed ++ line.chars } := by
  rw [ledger_append]
  unfold Line.events
  split
  case isTrue hnone => simp [hnone]
  case isFalse => rfl

/-! ## Where the bytes are -/

def Transfer.held : Transfer → List Byte
  | .learning _ => []
  | .reading _ _ data _ => sessionText data
  | .handling _ data => sessionText data

/-- Whatever was read is delivered or held, where the run waits. -/
def NothingLost (history : List Event) : Exit Transfer Empty → Prop
  | .again transfer =>
      (ledger history).consumed = (ledger history).delivered ++ transfer.held
  | _ => True

def Balanced (text : List Byte) (history : List Event) : Prop :=
  (ledger history).consumed = (ledger history).delivered ++ text

def balanced : TransferContract where
  learning := fun events _ => Balanced [] events
  reading := fun text events _ => Balanced text events
  handling := fun text events _ => (ledger events).batch = text ∧ Balanced text events
  fault := fun _ => True

variable {text : List Byte}

theorem Balanced.quietly {start : List Event} (h : Balanced text start)
    (hquiet : Quietly start history) : Balanced text history := by
  unfold Balanced
  rw [ledger_quietly hquiet]
  exact h

theorem Balanced.delivered (h : Balanced text history)
    (hbatch : (ledger history).batch = text) :
    Balanced [] (history ++ [.returned .sessionHandle 0]) := by
  unfold Balanced
  rw [ledger_append, List.append_nil]
  exact h.trans (congrArg _ hbatch.symm)

def Input.nulFree : Input → Prop
  | .fgets line => 0#8 ∉ line.chars
  | _ => True

theorem Line.text_eq_chars {line : Line} (h : 0#8 ∉ line.chars) :
    line.text = line.chars := by
  rw [Line.text, List.takeWhile_eq_self_iff]
  intro char hchar
  simp only [ne_eq, decide_eq_true_eq]
  exact fun heq => h (heq ▸ hchar)

theorem Balanced.line (h : Balanced text history) {line : Line}
    (hline : 0#8 ∉ line.chars) :
    Balanced (text ++ line.text) (history ++ line.events) := by
  unfold Balanced
  rw [ledger_stored, Line.text_eq_chars hline, ← List.append_assoc, ← h]

theorem balanced_batch {start : List Event} (hbatch : (ledger start).batch = text)
    (h : Balanced text start) {crash : Prop} (hsafe : ¬ crash)
    {pass : List Event × Exit Handle Int}
    (hpass : (quietContract start crash).handle.Of history pass) :
    (balanced.batch text).Of history pass := by
  apply hpass.weaken
  · intro events handle hwaiting
    constructor
    · rw [ledger_quietly hwaiting.1, hbatch]
    · exact h.quietly hwaiting.1
  · intro events handle ret hhandled
    have ⟨⟨before, hquiet, hevents⟩, hvalue⟩ := hhandled
    cases hvalue with
    | inl hfailed => exact absurd hfailed.1 hsafe
    | inr hdone =>
        rw [hevents, hdone.2]
        apply (h.quietly hquiet).delivered
        rw [ledger_quietly hquiet, hbatch]
  · exact fun _ _ => trivial

theorem balanced_kept :
    balanced.Kept stack Input.nulFree (fun _ _ input => ¬ input.serverCrash) where
  connect := fun _ _ _ h => learnNewPort_kept fun _ hquiet => h.quietly hquiet
  learn := fun _ _ input h =>
    learnNewPortLoop_kept (fun _ hquiet => h.quietly hquiet) input
  line := fun _ _ _ _ hline h => h.line hline
  timeout := fun _ history _ _ task junk h =>
    h.quietly ((Quietly.refl history).timeout task junk)
  start := by
    intro text history session tasks data _ _ _ h
    have hledger : ledger (history ++ [.batch text]) =
        { ledger history with batch := text } := by
      rw [ledger_append]
      rfl
    apply balanced_batch _ _ id (sessionHandle_quiet (Quietly.refl _) id)
    · rw [hledger]
    · unfold Balanced
      rw [hledger]
      exact h
  handle := by
    intro text history handle data input hsafe _ _ h
    exact balanced_batch h.1 h.2 hsafe
      (sessionHandleLoop_quiet (Quietly.refl history) input)

theorem balanced_nothingLost {transfer : Transfer} (h : balanced.Holds history transfer) :
    NothingLost history (.again transfer) := by
  cases transfer with
  | learning exchange => exact h
  | reading session tasks data numBytes =>
      have ⟨text, htext, _, _, hbalanced⟩ := h
      rw [NothingLost, Transfer.held, htext.sessionText_eq]
      exact hbalanced
  | handling handle data =>
      have ⟨text, htext, _, _, _, hbalanced⟩ := h
      rw [NothingLost, Transfer.held, htext.sessionText_eq]
      exact hbalanced

theorem afterHandle_held (data : SessionData) (handle : Handle) (ret : Int) :
    ∃ cleared, afterHandle data handle ret = ([], .again cleared) ∧ cleared.held = [] := by
  refine ⟨_, rfl, ?_⟩
  rw [fill_eq_zeroData]
  exact holdsText_zeroData.sessionText_eq

theorem serverCrash_lost (hostName : List Byte) {handle : Handle} {data : SessionData}
    {input : Input} (h : balanced.Holds history (.handling handle data))
    (hcrash : input.serverCrash) :
    ¬ NothingLost
      (history ++ (sessionTransferLoop stack hostName (.handling handle data) input).1)
      (sessionTransferLoop stack hostName (.handling handle data) input).2 := by
  have ⟨text, _, hne, _, _, hbalanced⟩ := h
  have hpass : (quietContract history input.serverCrash).handle.Of history
      (sessionHandleLoop stack data handle input) :=
    sessionHandleLoop_quiet (Quietly.refl history) input
  simp only [sessionTransferLoop]
  cases hhandle : sessionHandleLoop stack data handle input with
  | mk events exit =>
      rw [hhandle] at hpass
      cases exit with
      | again handle => exact absurd hcrash hpass.2
      | fault => exact absurd hcrash hpass
      | done handle value =>
          have ⟨⟨before, hquiet, hevents⟩, hvalue⟩ := hpass
          have ⟨cleared, hcleared, hheld⟩ := afterHandle_held data handle value
          cases hvalue with
          | inr hsafe => exact absurd hcrash hsafe.1
          | inl hfailed =>
              have hledger : ledger (history ++ events) = ledger history := by
                rw [hevents, hfailed.2, ledger_append, ledger_quietly hquiet]
                rfl
              simp only [andThen, emit, hcleared, List.append_nil]
              intro hequal
              rw [NothingLost, hledger, hheld, hbalanced, List.append_nil] at hequal
              exact hne (List.append_right_eq_self.mp hequal)

/--
In a run over NUL-free lines nothing is ever lost if and only if the server
never crashes while a batch is handled.
-/
theorem nothing_lost_iff (hostName : List Byte) (session : Session) (inputs : List Input)
    (hinputs : ∀ input ∈ inputs, input.nulFree) :
    (∀ first, first <+: inputs →
        NothingLost (sessionTransfer stack hostName session first).1
          (sessionTransfer stack hostName session first).2) ↔
      AlongFrom (sessionConnect stack hostName session ⟨[], 0⟩)
        (sessionTransferLoop stack hostName)
        (Transfer.Meets fun _ input => ¬ input.serverCrash) inputs := by
  apply (balanced_kept stack).throughout_iff NothingLost
  · exact fun _ _ h => balanced_nothingLost h
  · exact fun _ _ => trivial
  · exact fun _ _ _ _ h hcrash => serverCrash_lost stack hostName h (not_not.mp hcrash)
  · rfl
  · exact hinputs

theorem nothing_lost_iff_firstBatch :
    (∀ first, first <+: Input.firstBatch →
        NothingLost (sessionTransfer zeroStack [0x68#8] zeroSession first).1
          (sessionTransfer zeroStack [0x68#8] zeroSession first).2) ↔
      AlongFrom (sessionConnect zeroStack [0x68#8] zeroSession ⟨[], 0⟩)
        (sessionTransferLoop zeroStack [0x68#8])
        (Transfer.Meets fun _ input => ¬ input.serverCrash) Input.firstBatch :=
  nothing_lost_iff zeroStack [0x68#8] zeroSession Input.firstBatch
    (by simp [Input.firstBatch, Input.packet, Input.nulFree])

/-- The server crashes in the handshake of the first batch. -/
theorem not_nothing_lost :
    ¬ NothingLost
      (sessionTransfer zeroStack [0x68#8] zeroSession
        (Input.firstBatch ++ [.recv (.failed 111)])).1
      (sessionTransfer zeroStack [0x68#8] zeroSession
        (Input.firstBatch ++ [.recv (.failed 111)])).2 := by
  change ¬ (_ = _ ++ _)
  decide +kernel

end BBCodeBase.Sender
