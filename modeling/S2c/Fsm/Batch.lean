import Mathlib.Data.List.Forall2
import S2c.Fsm.Leader

namespace S2c

open Wire

def Batch.Keeps (batch : Batch) (acc : List StateRequest) : Prop :=
  List.Forall₂ (fun r entry => StateRequest.message.decode entry.body = some r) acc batch.entries

def flushBatch (acc : List StateRequest) : Option Batch := (acc.mapM batchEntry).map Batch.mk

theorem flushPayload_eq (acc : List StateRequest) :
    flushPayload acc = (flushBatch acc).bind Batch.message.encodeToVec := by
  unfold flushPayload flushBatch
  cases acc.mapM batchEntry <;> rfl

def paddedEntry (r : StateRequest) : BatchEntry where
  body := List.replicate (StateRequest.message.encode r).length 0 ++ StateRequest.message.encode r
  internal := false

structure Fits (acc : List StateRequest) : Prop where
  entries : ∀ r ∈ acc, 2 * (StateRequest.message.encode r).length ≤ Message.isizeMax
  batch : (Batch.message.encode ⟨acc.map paddedEntry⟩).length ≤ Message.isizeMax

theorem batchEntry_eq_some_iff (r : StateRequest) (entry : BatchEntry) : batchEntry r = some entry ↔
    2 * (StateRequest.message.encode r).length ≤ Message.isizeMax ∧ paddedEntry r = entry := by
  unfold batchEntry
  by_cases hfits : 2 * (StateRequest.message.encode r).length ≤ Message.isizeMax
  · simp [hfits, paddedEntry]
  · simp [hfits]

theorem mapM_batchEntry_eq_some_iff (acc : List StateRequest) (entries : List BatchEntry) :
    acc.mapM batchEntry = some entries ↔
      (∀ r ∈ acc, 2 * (StateRequest.message.encode r).length ≤ Message.isizeMax) ∧
        acc.map paddedEntry = entries := by
  induction acc generalizing entries with
  | nil => simp
  | cons r acc ih =>
    rw [List.mapM_cons, List.forall_mem_cons, List.map_cons]
    simp only [Option.bind_eq_bind, Option.bind_eq_some_iff, batchEntry_eq_some_iff, ih, Option.pure_def,
      Option.some.injEq]
    constructor
    · rintro ⟨_, ⟨hr, rfl⟩, _, ⟨hacc, rfl⟩, rfl⟩
      exact ⟨⟨hr, hacc⟩, rfl⟩
    · rintro ⟨⟨hr, hacc⟩, rfl⟩
      exact ⟨_, ⟨hr, rfl⟩, _, ⟨hacc, rfl⟩, rfl⟩

theorem flushPayload_ne_none_iff (acc : List StateRequest) : flushPayload acc ≠ none ↔ Fits acc := by
  unfold flushPayload
  constructor
  · intro h
    obtain ⟨payload, hpayload⟩ := Option.ne_none_iff_exists'.mp h
    obtain ⟨entries, hentries, hencode⟩ := Option.bind_eq_some_iff.mp hpayload
    obtain ⟨hfits, rfl⟩ := (mapM_batchEntry_eq_some_iff acc entries).mp hentries
    refine ⟨hfits, ?_⟩
    unfold Message.encodeToVec at hencode
    split at hencode
    · assumption
    · cases hencode
  · intro hfits
    rw [(mapM_batchEntry_eq_some_iff acc _).mpr ⟨hfits.entries, rfl⟩]
    simp [Message.encodeToVec, hfits.batch]

theorem decode_flushPayload {acc : List StateRequest} {payload : Bytes} (h : flushPayload acc = some payload) :
    Batch.message.decode payload = flushBatch acc := by
  rw [flushPayload_eq] at h
  obtain ⟨batch, hbatch, hencode⟩ := Option.bind_eq_some_iff.mp h
  rw [hbatch]
  exact Message.decode_encodeToVec hencode

theorem encode_eq_nil_iff (r : StateRequest) :
    StateRequest.message.encode r = [] ↔ r = StateRequest.message.empty := by
  constructor
  · exact Message.eq_empty_of_encode_nil
  · rintro rfl
    rfl

theorem decode_batchEntry (r : StateRequest) :
    (∃ entry, batchEntry r = some entry ∧ StateRequest.message.decode entry.body = some r) ↔
      r = StateRequest.message.empty := by
  constructor
  · rintro ⟨entry, hentry, hdecode⟩
    rw [← encode_eq_nil_iff]
    unfold batchEntry at hentry
    cases hencode : StateRequest.message.encode r with
    | nil => rfl
    | cons b bs =>
      -- the first byte of the body is one of the zeros in front of the encoding
      simp only [hencode] at hentry
      split_ifs at hentry
      cases hentry
      rw [List.length_cons, List.replicate_succ, List.cons_append, Message.decode_zero] at hdecode
      cases hdecode
  · rintro rfl
    exact ⟨⟨[], false⟩, rfl, rfl⟩

theorem mapM_forall₂ {α β : Type} (f : α → Option β) (P : α → β → Prop) (xs : List α) :
    (∃ ys, xs.mapM f = some ys ∧ List.Forall₂ P xs ys) ↔ ∀ x ∈ xs, ∃ y, f x = some y ∧ P x y := by
  induction xs with
  | nil => simp
  | cons x xs ih =>
    rw [List.forall_mem_cons, ← ih, List.mapM_cons]
    constructor
    · rintro ⟨ys, hys, hforall⟩
      obtain ⟨y, hy, hrest⟩ := Option.bind_eq_some_iff.mp hys
      obtain ⟨zs, hzs, hcons⟩ := Option.bind_eq_some_iff.mp hrest
      cases hcons
      cases hforall with
      | cons hP hforall => exact ⟨⟨y, hy, hP⟩, zs, hzs, hforall⟩
    · rintro ⟨⟨y, hy, hP⟩, ys, hys, hforall⟩
      exact ⟨y :: ys, by rw [hy, hys]; rfl, List.Forall₂.cons hP hforall⟩

theorem keeps_iff (acc : List StateRequest) :
    (∃ batch, flushBatch acc = some batch ∧ batch.Keeps acc) ↔ ∀ r ∈ acc, r = StateRequest.message.empty := by
  have hbatch : (∃ batch, flushBatch acc = some batch ∧ batch.Keeps acc) ↔
      ∃ entries, acc.mapM batchEntry = some entries ∧
        List.Forall₂ (fun r entry => StateRequest.message.decode entry.body = some r) acc entries := by
    constructor
    · rintro ⟨batch, hbatch, hkeeps⟩
      obtain ⟨entries, hentries, rfl⟩ := Option.map_eq_some_iff.mp hbatch
      exact ⟨entries, hentries, hkeeps⟩
    · rintro ⟨entries, hentries, hkeeps⟩
      exact ⟨⟨entries⟩, Option.map_eq_some_iff.mpr ⟨entries, hentries, rfl⟩, hkeeps⟩
  rw [hbatch, mapM_forall₂]
  simp only [decode_batchEntry]

theorem keeps_fails : ¬∃ batch, flushBatch [sampleRequest] = some batch ∧ batch.Keeps [sampleRequest] := by
  rintro ⟨batch, hbatch, hkeeps⟩
  cases hbatch
  cases hkeeps with
  | cons hdecode _ =>
    revert hdecode
    decide

end S2c
