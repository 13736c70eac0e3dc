import Mathlib.Data.List.Rotate
import Mathlib.Data.Nat.Count
import Mathlib.Data.Stream.Init
import S2c.Network.MessageRw

namespace S2c

open Wire

inductive Failure where
  | io
  | drop
  deriving DecidableEq

/-- `failEvery` is what the closure gives, call after call, and `inspected` what the inspector saw. -/
structure S2CMessageReaderTestWrapper where
  inner : S2CMessageReaderImpl
  failures : List Failure
  readingCounter : ℕ
  failEvery : Stream' ℕ
  inspected : List S2cMessage

theorem S2CMessageReaderImpl.unread_lt {decode : Bytes → Except String S2cMessage} {r r' : S2CMessageReaderImpl}
    {reader reader' : Stream} {m : S2cMessage}
    (h : r.readNextMessage decode reader = some (.ok m, r', reader')) :
    reader'.unread.length < reader.unread.length := by
  unfold readNextMessage at h
  obtain ⟨⟨header, rest⟩, hheader, h⟩ := Option.bind_eq_some_iff.mp h
  cases header with
  | error taken => simp at h
  | ok header =>
    have hrest := Stream.unread_of_readExact hheader
    dsimp only at h
    split_ifs at h
    · obtain ⟨skipped, _, hskipped⟩ := Option.map_eq_some_iff.mp h
      simp at hskipped
    · obtain ⟨⟨payload, left⟩, hpayload, hleft⟩ := Option.map_eq_some_iff.mp h
      cases payload with
      | error taken => simp at hleft
      | ok payload =>
        have hread := Stream.unread_of_readExact hpayload
        simp only [Prod.mk.injEq] at hleft
        rw [← hleft.2.2]
        omega

namespace S2CMessageReaderTestWrapper

def new (inner : S2CMessageReaderImpl) (failures : List Failure) (failEvery : Stream' ℕ) :
    S2CMessageReaderTestWrapper :=
  ⟨inner, failures, 0, failEvery, []⟩

def ioFailure : NetworkError := .io "Other" "some msg"

def inspect (w : S2CMessageReaderTestWrapper) (inner : S2CMessageReaderImpl) (msg : S2cMessage) :
    S2CMessageReaderTestWrapper × Option Failure :=
  let readingCounter := w.readingCounter + 1
  let failEvery := w.failEvery.head
  let shouldFail := 0 < failEvery ∧ readingCounter % failEvery = 0
  let w := ⟨inner, w.failures, readingCounter, w.failEvery.tail, w.inspected ++ [msg]⟩
  if shouldFail then
    match w.failures with
    | failure :: failures => ({ w with failures := failures ++ [failure] }, some failure)
    | [] => (w, none)
  else (w, none)

def readNextMessage (decode : Bytes → Except String S2cMessage) (w : S2CMessageReaderTestWrapper) (reader : Stream) :
    Option (Except NetworkError S2cMessage × S2CMessageReaderTestWrapper × Stream) :=
  match _h : w.inner.readNextMessage decode reader with
  | none => none
  | some (.error err, inner, reader') => some (.error err, { w with inner := inner }, reader')
  | some (.ok msg, inner, reader') =>
    match w.inspect inner msg with
    | (w, none) => some (.ok msg, w, reader')
    | (w, some .io) => some (.error ioFailure, w, reader')
    | (w, some .drop) => readNextMessage decode w reader'
  termination_by reader.unread.length
  decreasing_by exact S2CMessageReaderImpl.unread_lt _h

def readMessages (decode : Bytes → Except String S2cMessage) : ℕ → S2CMessageReaderTestWrapper → Stream →
    Option (List (Except NetworkError S2cMessage) × S2CMessageReaderTestWrapper × Stream)
  | 0, w, reader => some ([], w, reader)
  | n + 1, w, reader =>
    (w.readNextMessage decode reader).bind (fun (re, w, reader) =>
      (readMessages decode n w reader).map (fun (res, w, reader) => (re :: res, w, reader)))

def Falls (failEvery : Stream' ℕ) (c : ℕ) : Prop := 0 < failEvery.get c ∧ (c + 1) % failEvery.get c = 0

instance (failEvery : Stream' ℕ) : DecidablePred (Falls failEvery) :=
  fun c => inferInstanceAs (Decidable (0 < failEvery.get c ∧ (c + 1) % failEvery.get c = 0))

def fate (failures : List Failure) (failEvery : Stream' ℕ) (c : ℕ) : Option Failure :=
  if Falls failEvery c then failures[Nat.count (Falls failEvery) c % failures.length]? else none

def schedule (failures : List Failure) (failEvery : Stream' ℕ) : ℕ → List (Except NetworkError S2cMessage) →
    List (Except NetworkError S2cMessage)
  | _, [] => []
  | c, .error err :: res => .error err :: schedule failures failEvery c res
  | c, .ok msg :: res =>
    match fate failures failEvery c with
    | none => .ok msg :: schedule failures failEvery (c + 1) res
    | some .io => .error ioFailure :: schedule failures failEvery (c + 1) res
    | some .drop => schedule failures failEvery (c + 1) res

structure Counted (failures : List Failure) (failEvery : Stream' ℕ) (c : ℕ)
    (w : S2CMessageReaderTestWrapper) : Prop where
  counter : w.readingCounter = c
  every : w.failEvery = failEvery.drop c
  failures : w.failures = failures.rotate (Nat.count (Falls failEvery) c)

variable {w : S2CMessageReaderTestWrapper} {failures : List Failure} {failEvery : Stream' ℕ} {c : ℕ}
  {inner : S2CMessageReaderImpl} {msg : S2cMessage} {decode : Bytes → Except String S2cMessage}
  {reader reader' : Stream}

theorem rotate_one_of_cons {α : Type} {a : α} {l k : List α} {i : ℕ} (h : l.rotate i = a :: k) :
    l.rotate (i + 1) = k ++ [a] ∧ l[i % l.length]? = some a := by
  have hne : l ≠ [] := by
    rintro rfl
    simp at h
  constructor
  · rw [← List.rotate_rotate, h, List.rotate_cons_succ, List.rotate_zero]
  · have hlt : i % l.length < l.length := Nat.mod_lt _ (List.length_pos_of_ne_nil hne)
    rw [← List.head?_rotate hlt, List.rotate_mod, h, List.head?_cons]

theorem counted_inspect (hw : Counted failures failEvery c w) (inner : S2CMessageReaderImpl) (msg : S2cMessage) :
    (w.inspect inner msg).2 = fate failures failEvery c ∧
      Counted failures failEvery (c + 1) (w.inspect inner msg).1 ∧
      (w.inspect inner msg).1.inner = inner ∧ (w.inspect inner msg).1.inspected = w.inspected ++ [msg] := by
  obtain ⟨hcounter, hevery, hfailures⟩ := hw
  have hhead : w.failEvery.head = failEvery.get c := by rw [hevery, Stream'.head_drop]
  have htail : w.failEvery.tail = failEvery.drop (c + 1) := by rw [hevery, Stream'.tail_drop']
  unfold inspect fate
  simp only [hcounter, hhead, htail]
  by_cases hfalls : Falls failEvery c
  · have hcount : Nat.count (Falls failEvery) (c + 1) = Nat.count (Falls failEvery) c + 1 := by
      rw [Nat.count_succ, if_pos hfalls]
    have hfail : 0 < failEvery.get c ∧ (c + 1) % failEvery.get c = 0 := hfalls
    rw [if_pos hfalls, if_pos hfail]
    cases hrotated : w.failures with
    | nil =>
      have hnil : failures = [] := by rwa [hfailures, List.rotate_eq_nil_iff] at hrotated
      subst hnil
      exact ⟨rfl, ⟨rfl, rfl, by simp⟩, rfl, rfl⟩
    | cons failure rest =>
      obtain ⟨hnext, hfirst⟩ := rotate_one_of_cons (hfailures.symm.trans hrotated)
      exact ⟨hfirst.symm, ⟨rfl, rfl, by rw [hcount, hnext]⟩, rfl, rfl⟩
  · have hcount : Nat.count (Falls failEvery) (c + 1) = Nat.count (Falls failEvery) c := by
      rw [Nat.count_succ, if_neg hfalls, Nat.add_zero]
    have hfail : ¬(0 < failEvery.get c ∧ (c + 1) % failEvery.get c = 0) := hfalls
    rw [if_neg hfalls, if_neg hfail]
    exact ⟨rfl, ⟨rfl, rfl, by rw [hcount, ← hfailures]⟩, rfl, rfl⟩

theorem readNextMessage_error {err : NetworkError}
    (h : w.inner.readNextMessage decode reader = some (.error err, inner, reader')) :
    w.readNextMessage decode reader = some (.error err, { w with inner := inner }, reader') := by
  rw [readNextMessage]
  split
  · rename_i hread
    cases h.symm.trans hread
  · rename_i hread
    cases h.symm.trans hread
    rfl
  · rename_i hread
    cases h.symm.trans hread

theorem readNextMessage_ok (h : w.inner.readNextMessage decode reader = some (.ok msg, inner, reader')) :
    w.readNextMessage decode reader =
      match w.inspect inner msg with
      | (w, none) => some (.ok msg, w, reader')
      | (w, some .io) => some (.error ioFailure, w, reader')
      | (w, some .drop) => w.readNextMessage decode reader' := by
  rw [readNextMessage]
  split
  · rename_i hread
    cases h.symm.trans hread
  · rename_i hread
    cases h.symm.trans hread
  · rename_i hread
    cases h.symm.trans hread
    rfl

theorem readMessages_answered {k : ℕ} {re : Except NetworkError S2cMessage} {w' : S2CMessageReaderTestWrapper}
    (h : w.readNextMessage decode reader = some (re, w', reader')) : w.readMessages decode (k + 1) reader =
      (w'.readMessages decode k reader').map (fun (res, w, reader) => (re :: res, w, reader)) := by
  rw [readMessages, h, Option.bind_some]

theorem readMessages_dropped {k : ℕ} {w' : S2CMessageReaderTestWrapper}
    (h : w.readNextMessage decode reader = w'.readNextMessage decode reader') :
    w.readMessages decode (k + 1) reader = w'.readMessages decode (k + 1) reader' := by
  rw [readMessages, h, readMessages]

theorem readMessages_schedule (hw : Counted failures failEvery c w) {payloads : List Bytes}
    (hlen : ∀ p ∈ payloads, p.length < 2 ^ 32) : ∃ w', w.readMessages decode
      ((schedule failures failEvery c
        (payloads.map (S2CMessageReaderImpl.reading decode w.inner.maxMessageSize))).length + 1)
      ⟨payloads.flatMap frame, true⟩ =
      some (schedule failures failEvery c
        (payloads.map (S2CMessageReaderImpl.reading decode w.inner.maxMessageSize)) ++
        [.error (unexpectedEof "unexpected end of file")], w', ⟨[], true⟩) ∧
      w'.inspected = w.inspected ++ (payloads.map
        (S2CMessageReaderImpl.reading decode w.inner.maxMessageSize)).filterMap Except.toOption := by
  induction payloads generalizing w c with
  | nil =>
    have hread : w.inner.readNextMessage decode ⟨[], true⟩ =
        some (.error (unexpectedEof "unexpected end of file"), w.inner, ⟨[], true⟩) := by
      simp [S2CMessageReaderImpl.readNextMessage, Stream.readExact_ended (n := 4)]
    refine ⟨w, ?_, by simp⟩
    rw [List.flatMap_nil, readMessages_answered (readNextMessage_error hread)]
    rfl
  | cons p payloads ih =>
    rw [List.forall_mem_cons] at hlen
    obtain ⟨inner, hread, hmax⟩ := S2CMessageReaderImpl.readNextMessage_frame decode w.inner hlen.1
      (payloads.flatMap frame) true
    rw [List.flatMap_cons, List.map_cons]
    cases hanswer : S2CMessageReaderImpl.reading decode w.inner.maxMessageSize p with
    | error err =>
      rw [hanswer] at hread
      have hkept : Counted failures failEvery c { w with inner := inner } := ⟨hw.counter, hw.every, hw.failures⟩
      obtain ⟨w', hrest, hinspected⟩ := ih hkept hlen.2
      simp only [hmax] at hrest hinspected
      refine ⟨w', ?_, hinspected⟩
      rw [schedule, List.length_cons, readMessages_answered (readNextMessage_error hread), hrest]
      rfl
    | ok msg =>
      rw [hanswer] at hread
      have hnext := readNextMessage_ok hread
      obtain ⟨hfate, hcounted, hinner, hseen⟩ := counted_inspect hw inner msg
      obtain ⟨w', hrest, hinspected⟩ := ih hcounted hlen.2
      rw [hinner, hmax] at hrest hinspected
      have hall : w'.inspected = w.inspected ++ (Except.ok msg ::
          payloads.map (S2CMessageReaderImpl.reading decode w.inner.maxMessageSize)).filterMap Except.toOption := by
        rw [hinspected, hseen, List.append_assoc]
        rfl
      refine ⟨w', ?_, hall⟩
      rw [schedule, ← hfate]
      cases hturn : w.inspect inner msg with
      | mk after failure =>
        rw [hturn] at hnext hrest
        cases failure with
        | none =>
          rw [List.length_cons, readMessages_answered hnext, hrest]
          rfl
        | some failure =>
          cases failure with
          | io =>
            rw [List.length_cons, readMessages_answered hnext, hrest]
            rfl
          | drop => rw [readMessages_dropped hnext, hrest]

/-- Over everything that was written, the wrapper gives the answers of its inner reader but for the
messages on which a failure falls, and takes the failures in a circle. -/
theorem wrapped_reads (decode : Bytes → Except String S2cMessage) (inner : S2CMessageReaderImpl)
    (failures : List Failure) (failEvery : Stream' ℕ) (writes : List (Bytes × ℕ))
    (hlen : ∀ p ∈ writes, p.1.length < 2 ^ 32) :
    ∃ w, (new inner failures failEvery).readMessages decode
      ((schedule failures failEvery 0 ((writes.map Prod.fst).map
        (S2CMessageReaderImpl.reading decode inner.maxMessageSize))).length + 1)
      ⟨(writePayloads BufWriter.new writes).flush.socket, true⟩ =
      some (schedule failures failEvery 0 ((writes.map Prod.fst).map
        (S2CMessageReaderImpl.reading decode inner.maxMessageSize)) ++
        [.error (unexpectedEof "unexpected end of file")], w, ⟨[], true⟩) ∧
      w.inspected = ((writes.map Prod.fst).map
        (S2CMessageReaderImpl.reading decode inner.maxMessageSize)).filterMap Except.toOption := by
  have hnew : Counted failures failEvery 0 (new inner failures failEvery) := ⟨rfl, rfl, by simp [new]⟩
  have hshort : ∀ p ∈ writes.map Prod.fst, p.length < 2 ^ 32 := by simpa using hlen
  rw [socket_writePayloads]
  exact readMessages_schedule hnew hshort

theorem wrapped_reads_sample : ∃ w, (new (.new 2) [.drop, .io] (Stream'.const 2)).readMessages
    (decodeMessage (fun _ => "failed to decode Protobuf message: invalid tag value: 0")) 4
    ⟨(writePayloads BufWriter.new [([0], 0), ([98, 0], 0), ([1, 2, 3], 0), ([], 0)]).flush.socket, true⟩ =
    some ([.error (.invalidProtobuf "failed to decode Protobuf message: invalid tag value: 0"),
      .ok ⟨"", none, some .slowDownError⟩, .error (.messageTooLarge 2 3),
      .error (unexpectedEof "unexpected end of file")], w, ⟨[], true⟩) ∧
    w.inspected = [⟨"", none, some .slowDownError⟩, ⟨"", none, none⟩] :=
  wrapped_reads _ (.new 2) [.drop, .io] (Stream'.const 2) [([0], 0), ([98, 0], 0), ([1, 2, 3], 0), ([], 0)]
    (by decide)

end S2CMessageReaderTestWrapper

end S2c
