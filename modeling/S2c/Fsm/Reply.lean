import Mathlib.Data.List.Forall2
import S2c.Fsm.Follower
import S2c.GroupServer.Router

namespace S2c

open Machine

def S2cMessage.asks (s2cMessage : S2cMessage) : Bool :=
  match s2cMessage.body with
  | some (.replicateRequest _) => true
  | some (.stateRequest _) => true
  | some (.follow _) => true
  | _ => false

structure S2cMessageEnvelope.AnsweredBy (msg reply : S2cMessageEnvelope) : Prop where
  correlationId : reply.s2cMessage.correlationId = msg.s2cMessage.correlationId
  nodeIdentity : reply.nodeIdentity = msg.nodeIdentity

structure ReplyRun where
  fsm : FSM
  asked : List S2cMessageEnvelope
  sent : List S2cMessageEnvelope

namespace FollowerInput

def asked : FollowerInput → List S2cMessageEnvelope
  | .received msg => if msg.s2cMessage.asks then [msg] else []
  | _ => []

end FollowerInput

namespace ReplyRun

def start (f : FSM) : ReplyRun := ⟨f, [], []⟩

def step (s : ReplyRun) (input : FollowerInput) : Option ReplyRun :=
  match s.fsm.followerTurn input with
  | .again f response => some ⟨f, s.asked ++ input.asked, s.sent ++ response.toList⟩
  | .returned _ => none

def Replied (s : ReplyRun) : Prop := List.Forall₂ S2cMessageEnvelope.AnsweredBy s.asked s.sent

variable {s t : ReplyRun} {input : FollowerInput}

theorem followerReceived_reply (f : FSM) (msg : S2cMessage) :
    (msg.asks = true ∧ ∃ response, (f.followerReceived msg).2 = some response ∧
      response.correlationId = msg.correlationId) ∨
    (msg.asks = false ∧ (f.followerReceived msg).2 = none) := by
  cases hbody : msg.body with
  | none => exact Or.inr (by simp [S2cMessage.asks, FSM.followerReceived, hbody])
  | some body =>
    cases body with
    | replicateRequest r => exact Or.inl (by simp [S2cMessage.asks, FSM.followerReceived, hbody])
    | stateRequest r => exact Or.inl (by simp [S2cMessage.asks, FSM.followerReceived, hbody])
    | follow r => exact Or.inl (by simp [S2cMessage.asks, FSM.followerReceived, hbody])
    | _ => exact Or.inr (by simp [S2cMessage.asks, FSM.followerReceived, hbody])

inductive Replies (s : ReplyRun) : FollowerInput → ReplyRun → Prop where
  | quiet (input : FollowerInput) (f : FSM) (hasked : input.asked = [])
      (hidentity : f.nodeIdentity = s.fsm.nodeIdentity) : Replies s input { s with fsm := f }
  | replied (msg : S2cMessageEnvelope) (f : FSM) (response : S2cMessage) (hasks : msg.s2cMessage.asks = true)
      (hcorrelation : response.correlationId = msg.s2cMessage.correlationId)
      (hidentity : f.nodeIdentity = s.fsm.nodeIdentity) :
      Replies s (.received msg) ⟨f, s.asked ++ [msg], s.sent ++ [⟨response, s.fsm.nodeIdentity⟩]⟩

theorem replies (h : step s input = some t) : Replies s input t := by
  cases input with
  | timedOut =>
    simp only [step, FSM.followerTurn] at h
    split_ifs at h
    simp only [FollowerInput.asked, List.append_nil, Option.toList_none, Option.some.injEq] at h
    cases h
    exact .quiet _ _ rfl rfl
  | received msg =>
    obtain ⟨missedHeartbeats, syncQueue, hkeeps⟩ := s.fsm.followerReceived_keeps msg.s2cMessage
    have hidentity : (s.fsm.followerReceived msg.s2cMessage).1.nodeIdentity = s.fsm.nodeIdentity := by rw [hkeeps]
    have hstep : s.step (.received msg) = some ⟨(s.fsm.followerReceived msg.s2cMessage).1,
        s.asked ++ (FollowerInput.received msg).asked,
        s.sent ++ ((s.fsm.followerReceived msg.s2cMessage).2.map
          (fun s2cMessage => ⟨s2cMessage, s.fsm.nodeIdentity⟩)).toList⟩ := rfl
    rcases followerReceived_reply s.fsm msg.s2cMessage with ⟨hasks, response, hresponse, hcorrelation⟩ | ⟨hasks, hnone⟩
    · have hasked : (FollowerInput.received msg).asked = [msg] := if_pos hasks
      rw [hstep, hasked, hresponse] at h
      cases h
      exact .replied msg _ response hasks hcorrelation hidentity
    · have hasked : (FollowerInput.received msg).asked = [] := if_neg (by simp [hasks])
      rw [hstep, hasked, hnone] at h
      simp only [List.append_nil, Option.map_none, Option.toList_none, Option.some.injEq] at h
      cases h
      exact .quiet _ _ hasked hidentity
  | closed => cases h

theorem forall₂_concat {α β : Type} {R : α → β → Prop} {as : List α} {bs : List β} {a : α} {b : β}
    (h : List.Forall₂ R as bs) : List.Forall₂ R (as ++ [a]) (bs ++ [b]) ↔ R a b := by
  constructor
  · intro hconcat
    have hlast := List.forall₂_drop_append (as ++ [a]) bs [b] hconcat
    rw [← h.length_eq, List.drop_left] at hlast
    cases hlast with
    | cons hab _ => exact hab
  · intro hab
    exact List.rel_append h (List.Forall₂.cons hab List.Forall₂.nil)

theorem replied_iff (f : FSM) (inputs : List FollowerInput) :
    Always step Replied (start f) inputs ↔
      Along step (fun _ input => ∀ msg ∈ input.asked, msg.nodeIdentity = f.nodeIdentity) (start f) inputs := by
  have hstart : (start f).Replied := List.Forall₂.nil
  apply always_iff_along (J := fun s : ReplyRun => s.fsm.nodeIdentity = f.nodeIdentity) _ _ rfl hstart
  · intro s input t hs _ h
    cases replies h with
    | quiet input g _ hidentity => exact hidentity.trans hs
    | replied msg g response _ _ hidentity => exact hidentity.trans hs
  · intro s input t hs hreplied h
    cases replies h with
    | quiet input g hasked _ =>
      rw [hasked]
      exact iff_of_true hreplied (by simp)
    | replied msg g response hasks hcorrelation _ =>
      rw [Replied, forall₂_concat hreplied, FollowerInput.asked, if_pos hasks]
      simp only [List.mem_singleton, forall_eq]
      constructor
      · intro hanswered
        exact hanswered.nodeIdentity.symm.trans hs
      · intro hidentity
        exact ⟨hcorrelation, hs.trans hidentity.symm⟩

theorem route_misaddressed (router : Router) {msg reply : S2cMessageEnvelope}
    (h : reply.nodeIdentity ≠ msg.nodeIdentity) :
    (router.route reply).channels msg.nodeIdentity = router.channels msg.nodeIdentity := by
  unfold Router.route
  dsimp only
  split_ifs
  · exact Function.update_of_ne (Ne.symm h) _ _
  · rfl
  · rfl

theorem replied_fails : ¬Always step Replied (start sampleNode)
    [.received ⟨⟨"c1", some (.replicateRequest ⟨none, 1, "g", none⟩), none⟩, ⟨"n2", "h2", 1, "a"⟩⟩] := by
  intro h
  have hreplied := h _ (List.prefix_refl _) _ rfl
  cases hreplied with
  | cons hanswered _ => exact absurd hanswered.nodeIdentity (by decide)

end ReplyRun

end S2c
