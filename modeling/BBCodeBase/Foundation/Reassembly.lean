import BBCodeBase.Foundation.Fragments

/-!
# Reassembling announced fragments

A reader of messages: an announcement says how many fragments a text has, and
the fragments follow by their numbers.  A fragment with any other number than
the next is ignored.  A message read twice in a row is as good as read once, so
a sender may repeat the last message as often as it likes.
-/

namespace Reassembly

open Fragments

variable {α : Type}

inductive Message (α : Type) where
  | announce (count : Nat)
  | chunk (index : Nat) (content : List α)
  | other
  deriving DecidableEq, Repr

/-- The text announced last as far as it has come, and the texts that came whole. -/
structure Reader (α : Type) where
  expected : Nat
  next : Nat
  text : List α
  files : List (List α)
  deriving DecidableEq, Repr

def Reader.start : Reader α := ⟨0, 0, [], []⟩

def Reader.read (reader : Reader α) : Message α → Reader α
  | .announce count => { reader with expected := count, next := 0, text := [] }
  | .chunk index content =>
      if index = reader.next ∧ index < reader.expected then
        let text := reader.text ++ content
        { reader with
          next := index + 1
          text := text
          files :=
            if index + 1 = reader.expected then reader.files ++ [text] else reader.files }
      else reader
  | .other => reader

def readAll (messages : List (Message α)) : Reader α :=
  messages.foldl Reader.read .start

theorem readAll_append (first rest : List (Message α)) :
    readAll (first ++ rest) = rest.foldl Reader.read (readAll first) :=
  List.foldl_append

theorem readAll_concat (messages : List (Message α)) (message : Message α) :
    readAll (messages ++ [message]) = (readAll messages).read message :=
  readAll_append _ _

/-! ## Repetitions -/

theorem Reader.read_read (reader : Reader α) (message : Message α) :
    (reader.read message).read message = reader.read message := by
  cases message with
  | announce count => rfl
  | chunk index content =>
      by_cases hnext : index = reader.next ∧ index < reader.expected
      · simp only [Reader.read, if_pos hnext]
        exact if_neg fun hagain => absurd hagain.1 (Nat.ne_of_lt (Nat.lt_succ_self index))
      · simp only [Reader.read, if_neg hnext]
  | other => rfl

/--
The messages on the wire are those that are sent, each of them possibly more than
once before the next one, and others that mean nothing.
-/
inductive Repeats : List (Message α) → List (Message α) → Prop
  | start : Repeats [] []
  | next {sent wire : List (Message α)} (message : Message α) :
      Repeats sent wire → Repeats (sent ++ [message]) (wire ++ [message])
  | again {sent wire : List (Message α)} {message : Message α} :
      Repeats (sent ++ [message]) wire →
      Repeats (sent ++ [message]) (wire ++ [message])
  | ignored {sent wire : List (Message α)} :
      Repeats sent wire → Repeats sent (wire ++ [.other])

theorem Repeats.readAll_eq {sent wire : List (Message α)} (h : Repeats sent wire) :
    readAll wire = readAll sent := by
  induction h with
  | start => rfl
  | next message _ ih => rw [readAll_concat, readAll_concat, ih]
  | again _ ih => rw [readAll_concat, ih, readAll_concat, Reader.read_read]
  | ignored _ ih => rw [readAll_concat, ih]; rfl

/-! ## The fragments of a text -/

variable {size : Nat} {text : List α} {base : List (List α)} {index : Nat}
  {reader : Reader α}

structure Reading (size : Nat) (text : List α) (base : List (List α)) (index : Nat)
    (reader : Reader α) : Prop where
  expected : reader.expected = text.length ⌈/⌉ size
  next : reader.next = index
  taken : reader.text = text.take (index * size)
  files : reader.files =
    if index = text.length ⌈/⌉ size then base ++ [text] else base

theorem Reading.announce (hsize : 0 < size) (htext : text ≠ [])
    (hbase : reader.files = base) :
    Reading size text base 0 (reader.read (.announce (text.length ⌈/⌉ size))) where
  expected := rfl
  next := rfl
  taken := by simp [Reader.read]
  files := by
    have hpos : 0 < text.length ⌈/⌉ size := by
      rw [lt_ceilDiv_iff hsize, Nat.zero_mul]
      exact List.length_pos_of_ne_nil htext
    rw [if_neg (Nat.ne_of_lt hpos)]
    exact hbase

theorem Reading.chunk (hsize : 0 < size) (h : Reading size text base index reader)
    (hindex : index < text.length ⌈/⌉ size) :
    Reading size text base (index + 1)
      (reader.read (.chunk index (fragment size text index))) := by
  have htake : reader.text ++ fragment size text index = text.take ((index + 1) * size) := by
    rw [h.taken, take_succ_mul]
  have htaken : index = reader.next ∧ index < reader.expected :=
    ⟨h.next.symm, by rwa [h.expected]⟩
  rw [Reader.read, if_pos htaken, htake, h.expected, h.files,
    if_neg (Nat.ne_of_lt hindex)]
  refine ⟨rfl, rfl, rfl, ?_⟩
  dsimp only
  split
  case isTrue hlast => rw [hlast, take_ceilDiv_mul hsize]
  case isFalse => rfl

theorem Reading.files_of_whole (h : Reading size text base (text.length ⌈/⌉ size) reader) :
    reader.files = base ++ [text] := by
  rw [h.files, if_pos rfl]

theorem Reading.files_cases (h : Reading size text base index reader) :
    reader.files = base ∨ reader.files = base ++ [text] := by
  rw [h.files]
  split
  · exact .inr rfl
  · exact .inl rfl

end Reassembly
