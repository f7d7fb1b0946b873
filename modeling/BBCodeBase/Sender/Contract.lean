import BBCodeBase.Sender.Transfer

/-!
# Contracts of `session_handle` and `session_transfer`

A contract says what holds while a call receives, when it returns, and while
standard input is read.  Given that each part keeps it, so do the functions that
are made of them: the tests on return values, the text in `session_data` and the
bounds of the array are dealt with here once.
-/

namespace BBCodeBase.Sender

open Reactive

variable {stack : Stack} {data : SessionData} {session : Session} {tasks : Tasks}
  {exchange : Exchange} {history : List Event} {input : Input}

/-! ## `session_handle` -/

/--
What holds while one of the three calls receives, when it returns, and when
`session_handle` itself returns.
-/
structure Contract where
  waiting : Phase → List Event → Exchange → Prop
  returned : Phase → List Event → Exchange → Int → Prop
  handled : List Event → Exchange → Int → Prop
  fault : List Event → Prop

def Contract.call (contract : Contract) (phase : Phase) : Post Exchange Event Int where
  again := contract.waiting phase
  done := contract.returned phase
  fault := contract.fault

def Contract.handle (contract : Contract) : Post Handle Event Int where
  again := fun events handle => contract.waiting handle.phase events handle.exchange
  done := fun events handle => contract.handled events handle.exchange
  fault := contract.fault

structure Contract.Chained (contract : Contract) (stack : Stack) (data : SessionData) :
    Prop where
  sendData : ∀ history exchange ret, contract.returned .handshake history exchange ret →
    ret ≠ -1 → (contract.call .data).Of history
      (sessionSendData stack data exchange.session exchange.tasks)
  finish : ∀ history exchange ret, contract.returned .data history exchange ret →
    ret ≠ -1 → (contract.call .finish).Of history
      (sessionFinish stack exchange.session exchange.tasks)
  failed : ∀ phase history exchange, contract.returned phase history exchange (-1) →
    contract.handled (history ++ [.returned .sessionHandle (-1)]) exchange (-1)
  handled : ∀ history exchange ret, contract.returned .finish history exchange ret →
    ret ≠ -1 → contract.handled (history ++ [.returned .sessionHandle 0]) exchange 0

variable {contract : Contract}

theorem Contract.Chained.afterFinish (h : contract.Chained stack data) {ret : Int}
    (hreturned : contract.returned .finish history exchange ret) :
    contract.handle.Of history (afterFinish exchange ret) := by
  unfold Sender.afterFinish
  split
  case isTrue hret => exact h.failed .finish history exchange (hret ▸ hreturned)
  case isFalse hret => exact h.handled history exchange ret hreturned hret

theorem Contract.Chained.afterSendData (h : contract.Chained stack data) {ret : Int}
    (hreturned : contract.returned .data history exchange ret) :
    contract.handle.Of history (afterSendData stack exchange ret) := by
  unfold Sender.afterSendData
  split
  case isTrue hret => exact h.failed .data history exchange (hret ▸ hreturned)
  case isFalse hret =>
      rw [Post.of_andThen_iff]
      apply (h.finish history exchange ret hreturned hret).weaken
      · exact fun _ _ hwaiting => hwaiting
      · exact fun _ _ _ hfinished => h.afterFinish hfinished
      · exact fun _ hfault => hfault

theorem Contract.Chained.afterHandshake (h : contract.Chained stack data) {ret : Int}
    (hreturned : contract.returned .handshake history exchange ret) :
    contract.handle.Of history (afterHandshake stack data exchange ret) := by
  unfold Sender.afterHandshake
  split
  case isTrue hret => exact h.failed .handshake history exchange (hret ▸ hreturned)
  case isFalse hret =>
      rw [Post.of_andThen_iff]
      apply (h.sendData history exchange ret hreturned hret).weaken
      · exact fun _ _ hwaiting => hwaiting
      · exact fun _ _ _ hsent => h.afterSendData hsent
      · exact fun _ hfault => hfault

theorem Contract.Chained.sessionHandle (h : contract.Chained stack data)
    (hstart : (contract.call .handshake).Of (history ++ [.called .sessionHandle])
      (sessionHandshake stack session tasks)) :
    contract.handle.Of history (sessionHandle stack data session tasks) := by
  unfold Sender.sessionHandle
  rw [Post.of_emit_iff, Post.of_andThen_iff]
  apply hstart.weaken
  · exact fun _ _ hwaiting => hwaiting
  · exact fun _ _ _ hreturned => h.afterHandshake hreturned
  · exact fun _ hfault => hfault

def callLoop (stack : Stack) (data : SessionData) : Phase → Body Exchange Input Event Int
  | .handshake => sessionHandshakeLoop
  | .data => sessionSendDataLoop stack data
  | .finish => sessionFinishLoop

theorem Contract.Chained.sessionHandleLoop {handle : Handle}
    (h : contract.Chained stack data)
    (hcall : (contract.call handle.phase).Of history
      (callLoop stack data handle.phase handle.exchange input)) :
    contract.handle.Of history (sessionHandleLoop stack data handle input) := by
  unfold Sender.sessionHandleLoop
  cases hphase : handle.phase with
  | handshake =>
      rw [hphase] at hcall
      simp only
      rw [Post.of_andThen_iff]
      apply hcall.weaken
      · exact fun _ _ hwaiting => hwaiting
      · exact fun _ _ _ hreturned => h.afterHandshake hreturned
      · exact fun _ hfault => hfault
  | data =>
      rw [hphase] at hcall
      simp only
      rw [Post.of_andThen_iff]
      apply hcall.weaken
      · exact fun _ _ hwaiting => hwaiting
      · exact fun _ _ _ hreturned => h.afterSendData hreturned
      · exact fun _ hfault => hfault
  | finish =>
      rw [hphase] at hcall
      simp only
      rw [Post.of_andThen_iff]
      apply hcall.weaken
      · exact fun _ _ hwaiting => hwaiting
      · exact fun _ _ _ hreturned => h.afterFinish hreturned
      · exact fun _ hfault => hfault

/-! ## `session_transfer` -/

/--
What holds while a port is learned, while `session_data` holds a text and more is
read, and while that text is handled as a batch.
-/
structure TransferContract where
  learning : List Event → Exchange → Prop
  reading : List Byte → List Event → Tasks → Prop
  handling : List Byte → List Event → Handle → Prop
  fault : List Event → Prop

def TransferContract.Holds (contract : TransferContract) (history : List Event) :
    Transfer → Prop
  | .learning exchange => contract.learning history exchange
  | .reading _ tasks data numBytes =>
      ∃ text, HoldsText data text ∧ numBytes = text.length ∧
        text.length < sessionSize ∧ contract.reading text history tasks
  | .handling handle data =>
      ∃ text, HoldsText data text ∧ text ≠ [] ∧
        text.length < sessionSize + maxRecordSize ∧
        contract.handling text history handle

def TransferContract.transfer (contract : TransferContract) :
    Post Transfer Event Empty where
  again := contract.Holds
  done := fun _ _ _ => True
  fault := contract.fault

def TransferContract.learn (contract : TransferContract) : Post Exchange Event Int where
  again := contract.learning
  done := fun events exchange _ => contract.reading [] events exchange.tasks
  fault := contract.fault

def TransferContract.batch (contract : TransferContract) (text : List Byte) :
    Post Handle Event Int where
  again := contract.handling text
  done := fun events handle _ => contract.reading [] events handle.exchange.tasks
  fault := contract.fault

structure TransferContract.Kept (contract : TransferContract) (stack : Stack)
    (allowed : Input → Prop) (condition : List Event → Handle → Input → Prop) :
    Prop where
  connect : ∀ history session tasks, contract.reading [] history tasks →
    (Post.mk contract.learning (fun _ _ _ => False) contract.fault).Of
      (history ++ [.socket]) (learnNewPort stack session tasks)
  learn : ∀ history exchange input, contract.learning history exchange →
    contract.learn.Of history (learnNewPortLoop stack exchange input)
  line : ∀ text history tasks line, allowed (.fgets line) →
    contract.reading text history tasks →
    contract.reading (text ++ line.text) (history ++ line.events) tasks
  timeout : ∀ text history session tasks task junk,
    contract.reading text history tasks →
    contract.reading text (history ++ sessionPacketTimeout session tasks task junk) tasks
  start : ∀ text history (session : Session) tasks data, HoldsText data text →
    text ≠ [] → text.length < sessionSize + maxRecordSize →
    contract.reading text history tasks →
    (contract.batch text).Of (history ++ [.batch text])
      (sessionHandle stack data (session.forBatch stack text.length) tasks)
  handle : ∀ text history handle data input, condition history handle input →
    HoldsText data text → text.length < sessionSize + maxRecordSize →
    contract.handling text history handle →
    (contract.batch text).Of history (sessionHandleLoop stack data handle input)

variable {outer : TransferContract} {allowed : Input → Prop}
  {condition : List Event → Handle → Input → Prop} {hostName : List Byte}
  {text : List Byte}

theorem TransferContract.Kept.sessionConnect (h : outer.Kept stack allowed condition)
    (hreading : outer.reading [] history tasks) :
    outer.transfer.Of history (sessionConnect stack hostName session tasks) := by
  unfold Sender.sessionConnect sessionBuildParameters
  rw [Post.of_emit_iff, Post.of_andThen_iff]
  apply (h.connect history _ tasks hreading).weaken
  · exact fun _ _ hlearning => hlearning
  · exact fun _ _ _ hfalse => hfalse.elim
  · exact fun _ hfault => hfault

theorem TransferContract.Kept.afterLearn (h : outer.Kept stack allowed condition)
    (hreading : outer.reading [] history exchange.tasks) (ret : Int) :
    outer.transfer.Of history (afterLearn stack hostName exchange ret) := by
  unfold Sender.afterLearn
  split
  · exact h.sessionConnect hreading
  · apply Post.of_again_iff.mpr
    exact ⟨[], holdsText_zeroData, rfl, by decide, hreading⟩

theorem TransferContract.Kept.afterHandle {handle : Handle}
    (hreading : outer.reading [] history handle.exchange.tasks) (ret : Int) :
    outer.transfer.Of history (afterHandle data handle ret) := by
  apply Post.of_again_iff.mpr
  rw [fill_eq_zeroData]
  exact ⟨[], holdsText_zeroData, rfl, by decide, hreading⟩

theorem TransferContract.Kept.handling (htext : HoldsText data text) (hne : text ≠ [])
    (hlength : text.length < sessionSize + maxRecordSize)
    {pass : List Event × Exit Handle Int} (hpass : (outer.batch text).Of history pass) :
    outer.transfer.Of history
      (andThen pass (Transfer.handling · data) (Sender.afterHandle data)) := by
  rw [Post.of_andThen_iff]
  apply hpass.weaken
  · exact fun _ _ hhandling => ⟨text, htext, hne, hlength, hhandling⟩
  · exact fun _ _ ret hreading => afterHandle hreading ret
  · exact fun _ hfault => hfault

theorem TransferContract.Kept.sessionSendBatch (h : outer.Kept stack allowed condition)
    (htext : HoldsText data text) (hlength : text.length < sessionSize + maxRecordSize)
    (hreading : outer.reading text history tasks) :
    outer.transfer.Of history
      (sessionSendBatch stack data session tasks text.length) := by
  unfold Sender.sessionSendBatch
  split
  case isTrue hempty =>
      apply Post.of_again_iff.mpr
      exact ⟨text, htext, hempty.symm, by rw [hempty]; decide, hreading⟩
  case isFalse hnonempty =>
      have hne : text ≠ [] := by
        rintro rfl
        exact hnonempty rfl
      rw [Post.of_emit_iff, htext.slice?]
      exact handling htext hne hlength
        (h.start text history session tasks data htext hne hlength hreading)

theorem TransferContract.Kept.sessionReadLine (h : outer.Kept stack allowed condition)
    (htext : HoldsText data text) (hroom : text.length < sessionSize) {line : Line}
    (hline : allowed (.fgets line)) (hreading : outer.reading text history tasks) :
    outer.transfer.Of history
      (sessionReadLine stack data session tasks text.length line) := by
  have ⟨next, hstore, hnext⟩ := htext.storeLine hroom line
  have hlonger := h.line text history tasks line hline hreading
  simp only [Sender.sessionReadLine, hstore, hnext.strlen]
  rw [Post.of_emit_iff]
  split
  case isTrue hmore =>
      apply Post.of_again_iff.mpr
      exact ⟨text ++ line.text, hnext, rfl, hmore.2, hlonger⟩
  case isFalse =>
      apply h.sessionSendBatch hnext _ hlonger
      have htextLength := line.length_text_le
      have hfits := line.fits
      rw [List.length_append]
      omega

def Transfer.Meets (condition : Handle → Input → Prop) (transfer : Transfer)
    (input : Input) : Prop :=
  match transfer with
  | .handling handle _ => condition handle input
  | _ => True

theorem TransferContract.Kept.sessionTransferLoop
    (h : outer.Kept stack allowed condition) {transfer : Transfer}
    (hholds : outer.Holds history transfer) (hallowed : allowed input)
    (hmeets : transfer.Meets (condition history) input) :
    outer.transfer.Of history (sessionTransferLoop stack hostName transfer input) := by
  unfold Sender.sessionTransferLoop
  cases transfer with
  | learning exchange =>
      simp only
      rw [Post.of_andThen_iff]
      apply (h.learn history exchange input hholds).weaken
      · exact fun _ _ hlearning => hlearning
      · exact fun _ _ ret hreading => h.afterLearn hreading ret
      · exact fun _ hfault => hfault
  | reading session tasks data numBytes =>
      have ⟨text, htext, hnumBytes, hroom, hreading⟩ := hholds
      cases input with
      | recv result => exact Post.of_again_iff.mpr hholds
      | fgets line =>
          simp only
          rw [hnumBytes]
          exact h.sessionReadLine htext hroom hallowed hreading
      | wakeUp task junk =>
          exact ⟨text, htext, hnumBytes, hroom,
            h.timeout text history session tasks task junk hreading⟩
  | handling handle data =>
      have ⟨text, htext, hne, hlength, hhandling⟩ := hholds
      exact handling htext hne hlength
        (h.handle text history handle data input hmeets htext hlength hhandling)

/--
A property that the contract implies, and that a pass against the condition
breaks, holds throughout exactly the runs that meet the condition.
-/
theorem TransferContract.Kept.throughout_iff {condition : Handle → Input → Prop}
    (h : outer.Kept stack allowed fun _ => condition)
    (property : List Event → Exit Transfer Empty → Prop)
    (hholds : ∀ history transfer, outer.Holds history transfer →
      property history (.again transfer))
    (hfault : ∀ history, outer.fault history → property history .fault)
    (hbreaks : ∀ history handle data input,
      outer.Holds history (.handling handle data) → ¬ condition handle input →
      ¬ property
        (history ++
          (Sender.sessionTransferLoop stack hostName (.handling handle data) input).1)
        (Sender.sessionTransferLoop stack hostName (.handling handle data) input).2)
    (hstart : outer.reading [] [] ⟨[], 0⟩) {inputs : List Input}
    (hallowed : ∀ input ∈ inputs, allowed input) :
    (∀ first, first <+: inputs →
        property (sessionTransfer stack hostName session first).1
          (sessionTransfer stack hostName session first).2) ↔
      AlongFrom (Sender.sessionConnect stack hostName session ⟨[], 0⟩)
        (Sender.sessionTransferLoop stack hostName) (Transfer.Meets condition)
        inputs := by
  have hkeeping : ∀ history pass, outer.transfer.Of history pass →
      (Post.keeping outer.Holds property).Of history pass := by
    intro history pass hpass
    apply hpass.weaken
    · exact fun _ _ hheld => hheld
    · exact fun _ _ value _ => nomatch value
    · exact hfault
  have hdecides : Decides (Sender.sessionTransferLoop stack hostName) allowed
      outer.Holds (Transfer.Meets condition) property := by
    constructor
    case holds => exact hholds
    case keeps =>
        intro history transfer input hinput hheld hmeets
        exact hkeeping _ _ (h.sessionTransferLoop hheld hinput hmeets)
    case breaks =>
        intro history transfer input _ hheld hnot
        cases transfer with
        | handling handle data => exact hbreaks history handle data input hheld hnot
        | learning exchange => exact absurd trivial hnot
        | reading session tasks data numBytes => exact absurd trivial hnot
  exact hdecides.throughout_iff (hkeeping _ _ (h.sessionConnect hstart)) hallowed

/-- Conditions that agree wherever the contract holds are met by the same runs. -/
theorem TransferContract.Kept.alongFrom_iff {first second : Transfer → Input → Prop}
    (h : outer.Kept stack (fun _ => True) fun _ _ _ => True)
    (hiff : ∀ history transfer input, outer.Holds history transfer →
      (first transfer input ↔ second transfer input))
    (hstart : outer.reading [] [] ⟨[], 0⟩) (inputs : List Input) :
    AlongFrom (Sender.sessionConnect stack hostName session ⟨[], 0⟩)
        (Sender.sessionTransferLoop stack hostName) first inputs ↔
      AlongFrom (Sender.sessionConnect stack hostName session ⟨[], 0⟩)
        (Sender.sessionTransferLoop stack hostName) second inputs := by
  have hconnect := @TransferContract.Kept.sessionConnect
    stack session ⟨[], 0⟩ [] outer _ _ hostName h hstart
  refine forall_congr' fun events => forall_congr' fun transfer => ?_
  refine forall_congr' fun hreached => ?_
  rw [hreached] at hconnect
  apply @along_iff _ _ _ _ _ fun transfer => ∃ history, outer.Holds history transfer
  · rintro transfer input events next ⟨history, hholds⟩ hbody
    have hpass := @TransferContract.Kept.sessionTransferLoop
      stack history input outer _ _ hostName h transfer hholds trivial
      (by cases transfer <;> exact trivial)
    rw [hbody] at hpass
    exact ⟨_, hpass⟩
  · rintro transfer input ⟨history, hholds⟩
    exact hiff history transfer input hholds
  · exact ⟨_, hconnect⟩

end BBCodeBase.Sender
