import BBCodeBase.Sender.Frames
import BBCodeBase.Sender.Quiet

/-!
# The datagrams of a run

A fold over the events of a run: the datagrams sent, each with the number of the
batch it belongs to, which neither side can see, and the batches for which
`session_handle` returned 0.
-/

namespace BBCodeBase.Sender

variable {history : List Event}

structure Datagram where
  batch : Nat
  packet : List Byte
  deriving DecidableEq, Repr

/--
The number and the content of the batch that is sent, all the datagrams, the
DATA packets among their first transmissions, and the batches for which
`session_handle` returned 0.
-/
structure Traffic where
  batch : Nat
  content : List Byte
  datagrams : List Datagram
  frames : List Datagram
  completed : List (Nat × List Byte)
  deriving DecidableEq, Repr

def Traffic.next (traffic : Traffic) : Event → Traffic
  | .batch bytes => { traffic with batch := traffic.batch + 1, content := bytes }
  | .send _ _ packet =>
      let datagram := ⟨traffic.batch, packet⟩
      { traffic with
        datagrams := traffic.datagrams ++ [datagram]
        frames :=
          if packetType packet = PacketType.data.code then traffic.frames ++ [datagram]
          else traffic.frames }
  | .resend _ _ packet =>
      { traffic with datagrams := traffic.datagrams ++ [⟨traffic.batch, packet⟩] }
  | .returned .sessionHandle value =>
      if value = 0 then
        { traffic with
          completed := traffic.completed ++ [(traffic.batch, traffic.content)] }
      else traffic
  | _ => traffic

def traffic (history : List Event) : Traffic :=
  history.foldl Traffic.next ⟨0, [], [], [], []⟩

theorem traffic_append (events : List Event) :
    traffic (history ++ events) = events.foldl Traffic.next (traffic history) :=
  List.foldl_append

theorem traffic_concat (event : Event) :
    traffic (history ++ [event]) = (traffic history).next event := by
  rw [traffic_append]
  rfl

/-- Only a DATA packet that is sent for the first time is a new frame. -/
theorem Traffic.frames_next (traffic : Traffic) (event : Event) :
    (traffic.next event).frames = traffic.frames ∨
      ∃ packet, sentPackets [event] = [packet] ∧
        packetType packet = PacketType.data.code ∧
        (traffic.next event).frames = traffic.frames ++ [⟨traffic.batch, packet⟩] := by
  cases event with
  | send task port packet =>
      simp only [Traffic.next]
      split
      case isTrue hdata => exact .inr ⟨packet, rfl, hdata, rfl⟩
      case isFalse => exact .inl rfl
  | returned function value =>
      cases function with
      | sessionHandle =>
          simp only [Traffic.next]
          split <;> exact .inl rfl
      | _ => exact .inl rfl
  | _ => exact .inl rfl

theorem Traffic.batch_le_next (traffic : Traffic) (event : Event) :
    traffic.batch ≤ (traffic.next event).batch := by
  cases event with
  | batch bytes => exact Nat.le_succ _
  | returned function value =>
      cases function with
      | sessionHandle =>
          simp only [Traffic.next]
          split <;> exact Nat.le_refl _
      | _ => exact Nat.le_refl _
  | _ => exact Nat.le_refl _

theorem frames_subset_append (events : List Event) :
    (traffic history).frames ⊆ (traffic (history ++ events)).frames := by
  induction events using List.reverseRecOn with
  | nil => rw [List.append_nil]; exact List.Subset.refl _
  | append_singleton events event ih =>
      rw [← List.append_assoc, traffic_concat]
      cases (traffic (history ++ events)).frames_next event with
      | inl hsame => rwa [hsame]
      | inr hnew =>
          obtain ⟨packet, _, _, hframes⟩ := hnew
          rw [hframes]
          exact List.Subset.trans ih (List.subset_append_left _ _)

theorem frames_batch_le (history : List Event) :
    ∀ datagram ∈ (traffic history).frames, datagram.batch ≤ (traffic history).batch := by
  induction history using List.reverseRecOn with
  | nil => intro datagram hmem; exact absurd hmem List.not_mem_nil
  | append_singleton history event ih =>
      intro datagram hmem
      rw [traffic_concat] at hmem ⊢
      apply Nat.le_trans _ ((traffic history).batch_le_next event)
      cases (traffic history).frames_next event with
      | inl hsame =>
          rw [hsame] at hmem
          exact ih datagram hmem
      | inr hnew =>
          obtain ⟨packet, _, _, hframes⟩ := hnew
          rw [hframes] at hmem
          cases List.mem_append.mp hmem with
          | inl hold => exact ih datagram hold
          | inr hlast => rw [List.mem_singleton.mp hlast]

theorem frames_append_cases {datagram : Datagram} (events : List Event)
    (h : datagram ∈ (traffic (history ++ events)).frames) :
    datagram ∈ (traffic history).frames ∨
      datagram.packet ∈ sentPackets events ∧
        packetType datagram.packet = PacketType.data.code := by
  induction events using List.reverseRecOn with
  | nil =>
      rw [List.append_nil] at h
      exact .inl h
  | append_singleton events event ih =>
      have hearlier : datagram ∈ (traffic (history ++ events)).frames →
          datagram ∈ (traffic history).frames ∨
            datagram.packet ∈ sentPackets (events ++ [event]) ∧
              packetType datagram.packet = PacketType.data.code := by
        intro hmem
        rw [sentPackets_append]
        cases ih hmem with
        | inl hold => exact .inl hold
        | inr hnew => exact .inr ⟨List.mem_append_left _ hnew.1, hnew.2⟩
      rw [← List.append_assoc, traffic_concat] at h
      cases (traffic (history ++ events)).frames_next event with
      | inl hsame =>
          rw [hsame] at h
          exact hearlier h
      | inr hnew =>
          obtain ⟨packet, hsent, hdata, hframes⟩ := hnew
          rw [hframes] at h
          cases List.mem_append.mp h with
          | inl hold => exact hearlier hold
          | inr hlast =>
              rw [List.mem_singleton.mp hlast, sentPackets_append, hsent]
              exact .inr ⟨List.mem_append_right _ List.mem_cons_self, hdata⟩

structure SameBatch (before after : Traffic) : Prop where
  batch : after.batch = before.batch
  content : after.content = before.content
  completed : after.completed = before.completed

theorem Traffic.sameBatch_next (traffic : Traffic) {event : Event}
    (hquiet : event.quiet) : SameBatch traffic (traffic.next event) := by
  cases event with
  | returned function value =>
      cases function with
      | sessionHandle => cases hquiet
      | _ => exact ⟨rfl, rfl, rfl⟩
  | stored chars => cases hquiet
  | batch bytes => cases hquiet
  | _ => exact ⟨rfl, rfl, rfl⟩

theorem sameBatch_quietly {start : List Event} (h : Quietly start history) :
    SameBatch (traffic start) (traffic history) where
  batch := h.foldl_eq Traffic.batch
    (fun traffic _ hquiet => (traffic.sameBatch_next hquiet).batch) _
  content := h.foldl_eq Traffic.content
    (fun traffic _ hquiet => (traffic.sameBatch_next hquiet).content) _
  completed := h.foldl_eq Traffic.completed
    (fun traffic _ hquiet => (traffic.sameBatch_next hquiet).completed) _

end BBCodeBase.Sender
