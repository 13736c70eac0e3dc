import S2c.Cluster.Node
import S2c.Machine

namespace S2c

open Wire Loop Machine

structure Cluster (ι : Type) where
  group : String
  encoding : PathEncoding
  s2cOptions : ι → S2cOptions
  logOptions : ι → S2cOptions
  identity : ι → NodeIdentity
  distinct : Function.Injective identity

/-- `answers` are what the store has answered to the nodes' requests to put and they have not received
yet; `adrift` are the requests that may be carried out although nobody waits for them any more. -/
structure ClusterState (ι : Type) where
  nodes : ι → Node
  store : ObjectStore
  answers : ι → Option (Except Error Unit)
  adrift : List (Path × Bytes)

/-- A request whose connection is `lost` fails for the node, and may still reach the store. -/
inductive ClusterEvent (ι : Type) where
  | input (i : ι) (input : NodeInput)
  | put (i : ι) (fate : Fate)
  | lost (i : ι) (store source : String)
  | answered (i : ι)
  | crash (i : ι)
  | land (request : Path × Bytes)

namespace ClusterState

variable {ι : Type}

def unanswered (s : ClusterState ι) (i : ι) : Option (Path × Bytes) :=
  if (s.answers i).isSome then none else (s.nodes i).request

def received (s : ClusterState ι) (i : ι) : Node :=
  match s.answers i with
  | some answer => (s.nodes i).answered answer
  | none => s.nodes i

variable {s : ClusterState ι} {i : ι}

theorem request_of_unanswered {request : Path × Bytes} (h : s.unanswered i = some request) :
    s.answers i = none ∧ (s.nodes i).request = some request := by
  unfold unanswered at h
  split_ifs at h with hanswered
  exact ⟨by simpa using hanswered, h⟩

theorem unanswered_of_none (h : s.answers i = none) : s.unanswered i = (s.nodes i).request := by
  simp [unanswered, h]

theorem putting_of_request {request : Path × Bytes} (h : (s.nodes i).request = some request) :
    (s.nodes i).putting ≠ none := by
  intro hnone
  simp [Node.request, hnone] at h

end ClusterState

namespace Cluster

variable {ι : Type} (C : Cluster ι)

def log (i : ι) : S2cLog := ⟨C.encoding, C.group, C.logOptions i⟩

def fresh (i : ι) : Node := ⟨FSM.new C.group (C.s2cOptions i) (C.identity i) (C.log i), .dispatch⟩

def entryPath (index : UInt64) : Path :=
  C.encoding.path ((KeysResolver.new C.group).logEntry (KeysResolver.invert index))

def entries (store : ObjectStore) : UInt64 → Option Bytes := fun index => store[C.entryPath index]?

/-- Only puts reach the store; a node that crashed starts again from `FSM::new`. -/
def step [DecidableEq ι] (s : ClusterState ι) : ClusterEvent ι → Option (ClusterState ι)
  | .input i input => ((s.nodes i).input input).map (fun n =>
      { s with nodes := Function.update s.nodes i n })
  | .put i fate => (s.unanswered i).map (fun (p, payload) =>
      let (store, answer) := s.store.putOpts p payload fate
      { s with store := store, answers := Function.update s.answers i (some answer) })
  | .lost i store source => (s.unanswered i).map (fun request =>
      { s with
        answers := Function.update s.answers i (some (.error (.generic store source)))
        adrift := request :: s.adrift })
  | .answered i => (s.answers i).map (fun answer =>
      { s with
        nodes := Function.update s.nodes i ((s.nodes i).answered answer)
        answers := Function.update s.answers i none })
  | .crash i => some
      { s with
        nodes := Function.update s.nodes i (C.fresh i)
        answers := Function.update s.answers i none
        adrift := (s.unanswered i).toList ++ s.adrift }
  | .land (p, payload) =>
    if (p, payload) ∈ s.adrift then some
      { s with store := (s.store.putOpts p payload .served).1, adrift := s.adrift.erase (p, payload) }
    else none

def Starts (s : ClusterState ι) : Prop :=
  (∀ i, s.nodes i = C.fresh i) ∧ (∀ index, C.entries s.store index = none) ∧ s.adrift = [] ∧
    ∀ i, s.answers i = none

def firstLeader (i : ι) : LeaderState := ⟨1, 1, some (C.identity i), []⟩

def Harmless (store : ObjectStore) (request : Path × Bytes) : Prop :=
  request.1 = C.entryPath 1 ∧ ((∃ i, parseLeaderState request.2 = some (C.firstLeader i)) ∨
    C.entries store 1 ≠ none)

def FirstOnly (store : ObjectStore) : Prop :=
  ∀ index payload, C.entries store index = some payload →
    index = 1 ∧ ∃ i, parseLeaderState payload = some (C.firstLeader i)

def FirstOf (store : ObjectStore) (i : ι) : Prop :=
  ∃ payload, C.entries store 1 = some payload ∧ parseLeaderState payload = some (C.firstLeader i)

structure Safe (s : ClusterState ι) : Prop where
  sound : ∀ i, (s.nodes i).Sound (C.identity i) (C.log i)
  entry : C.FirstOnly s.store
  leader : ∀ i, (s.nodes i).fsm.state = .leader → C.FirstOf s.store i
  answered : ∀ i, s.answers i = some (.ok ()) → C.FirstOf s.store i
  waiting : ∀ i, s.answers i ≠ none → (s.nodes i).putting ≠ none
  adrift : ∀ request ∈ s.adrift, C.Harmless s.store request

variable {C} {s t : ClusterState ι}

theorem entries_putOpts (store : ObjectStore) (index : UInt64) (payload : Bytes) (fate : Fate) :
    C.entries (store.putOpts (C.entryPath index) payload fate).1 = C.entries store ∨
    C.entries (store.putOpts (C.entryPath index) payload fate).1 =
      WriteOnce.create (C.entries store) index payload :=
  -- the options play no part in where an entry is
  S2cLog.entries_putOpts ⟨C.encoding, C.group, S2cOptions.default⟩ index payload store fate

theorem extends_putOpts (store : ObjectStore) (p : Path) (payload : Bytes) (fate : Fate) :
    WriteOnce.Extends (C.entries store) (C.entries (store.putOpts p payload fate).1) :=
  fun _ _ h => ObjectStore.getElem?_putOpts h p payload fate

theorem sound_fresh (i : ι) : (C.fresh i).Sound (C.identity i) (C.log i) := Node.sound_new _ _ _ _

theorem FirstOf.putOpts {store : ObjectStore} {i : ι} (h : C.FirstOf store i) (p : Path) (payload : Bytes)
    (fate : Fate) : C.FirstOf (store.putOpts p payload fate).1 i := by
  obtain ⟨payload', hentry, hparse⟩ := h
  exact ⟨payload', extends_putOpts store p payload fate 1 payload' hentry, hparse⟩

theorem safe_starts (h : C.Starts s) : C.Safe s := by
  obtain ⟨hnodes, hempty, hadrift, hanswers⟩ := h
  constructor
  · intro i
    rw [hnodes i]
    exact sound_fresh i
  · intro index payload hentry
    rw [hempty] at hentry
    cases hentry
  · intro i hleader
    rw [hnodes i] at hleader
    cases hleader
  · intro i hok
    cases (hanswers i).symm.trans hok
  · intro i hwaits
    exact absurd (hanswers i) hwaits
  · simp [hadrift]

theorem Safe.request (h : C.Safe s) {i : ι} {p : Path} {payload : Bytes}
    (hrequest : (s.nodes i).request = some (p, payload)) : p = C.entryPath 1 ∧
      (parseLeaderState payload = some (C.firstLeader i) ∨ C.entries s.store 1 ≠ none) := by
  have hsound := h.sound i
  obtain ⟨⟨index, payload⟩, hput, hpath⟩ := Option.map_eq_some_iff.mp hrequest
  cases hpath
  rw [hsound.placed.s2cLog]
  unfold Node.putting at hput
  split at hput
  · rename_i backoff a as hstage
    cases hput
    have hf : (s.nodes i).fsm.state = .notJoined := hsound.state_of hstage rfl
    have ha := hsound.attempting _ _ _ hstage
    obtain ⟨hindex, hepoch⟩ := hsound.placed.attempt (by simp [hf]) ha
    rw [hindex]
    refine ⟨rfl, Or.inl ?_⟩
    rw [parseLeaderState_attempt ha, hindex, hepoch, hsound.placed.nodeIdentity]
    rfl
  · rename_i acc payload' appending hstage
    cases hput
    have hf : (s.nodes i).fsm.state = .leader := hsound.state_of hstage rfl
    obtain ⟨payload, hentry, _⟩ := h.leader i hf
    rw [(hsound.placed.leader hf).1]
    exact ⟨rfl, Or.inr (by simp [hentry])⟩
  · cases hput

theorem Safe.harmless (h : C.Safe s) {i : ι} {request : Path × Bytes}
    (hrequest : (s.nodes i).request = some request) : C.Harmless s.store request := by
  obtain ⟨hpath, hpayload⟩ := h.request hrequest
  exact ⟨hpath, hpayload.imp_left (fun hparse => ⟨i, hparse⟩)⟩

theorem Harmless.mono {store store' : ObjectStore} {request : Path × Bytes}
    (h : C.Harmless store request) (hextends : WriteOnce.Extends (C.entries store) (C.entries store')) :
    C.Harmless store' request := by
  refine ⟨h.1, h.2.imp_right ?_⟩
  intro htaken
  obtain ⟨payload, hentry⟩ := Option.ne_none_iff_exists'.mp htaken
  rw [hextends 1 payload hentry]
  simp

theorem FirstOnly.putOpts {store : ObjectStore} (h : C.FirstOnly store) {p : Path} {payload : Bytes}
    (hrequest : C.Harmless store (p, payload)) (fate : Fate) :
    C.FirstOnly (store.putOpts p payload fate).1 := by
  obtain ⟨rfl, hpayload⟩ := hrequest
  intro index payload' hentry
  rcases entries_putOpts store 1 payload fate with hsame | hcreate
  · rw [hsame] at hentry
    exact h index payload' hentry
  · rw [hcreate] at hentry
    by_cases hindex : index = 1
    · subst hindex
      refine ⟨rfl, ?_⟩
      cases hold : C.entries store 1 with
      | none =>
        rw [WriteOnce.create_free payload hold] at hentry
        obtain rfl := Option.some.inj hentry
        exact hpayload.resolve_right (by simp [hold])
      | some old =>
        rw [WriteOnce.create_taken payload hold] at hentry
        exact (h 1 payload' hentry).2
    · rw [WriteOnce.create_ne payload hindex] at hentry
      exact h index payload' hentry

theorem Safe.putOpts (h : C.Safe s) {p : Path} {payload : Bytes}
    (hrequest : C.Harmless s.store (p, payload)) (fate : Fate) :
    C.Safe { s with store := (s.store.putOpts p payload fate).1 } := by
  constructor
  · exact h.sound
  · exact h.entry.putOpts hrequest fate
  · intro i hleader
    exact (h.leader i hleader).putOpts p payload fate
  · intro i hok
    exact (h.answered i hok).putOpts p payload fate
  · exact h.waiting
  · intro request hmem
    exact (h.adrift request hmem).mono (extends_putOpts s.store p payload fate)

theorem Safe.adrift_cons (h : C.Safe s) {request : Path × Bytes} (hrequest : C.Harmless s.store request) :
    C.Safe { s with adrift := request :: s.adrift } :=
  ⟨h.sound, h.entry, h.leader, h.answered, h.waiting, List.forall_mem_cons.mpr ⟨hrequest, h.adrift⟩⟩

theorem Safe.free_of_ok (h : C.Safe s) {i : ι} {p : Path} {payload : Bytes} {fate : Fate}
    (hrequest : (s.nodes i).request = some (p, payload)) (hok : (s.store.putOpts p payload fate).2 = .ok ()) :
    C.entries s.store 1 = none := by
  obtain ⟨rfl, _⟩ := h.request hrequest
  exact (S2cLog.putOpts_ok (C.log i) 1 payload (Prod.ext rfl hok)).1

theorem Safe.firstOf (h : C.Safe s) {i : ι} {p : Path} {payload : Bytes} {fate : Fate}
    (hrequest : (s.nodes i).request = some (p, payload)) (hok : (s.store.putOpts p payload fate).2 = .ok ()) :
    C.FirstOf (s.store.putOpts p payload fate).1 i := by
  have hfree := h.free_of_ok hrequest hok
  obtain ⟨rfl, hpayload⟩ := h.request hrequest
  obtain ⟨_, hcreate⟩ := S2cLog.putOpts_ok (C.log i) 1 payload (Prod.ext rfl hok)
  refine ⟨payload, ?_, hpayload.resolve_right (by simp [hfree])⟩
  exact (congrFun hcreate 1).trans (WriteOnce.create_free payload hfree)

variable [DecidableEq ι]

theorem Safe.update (h : C.Safe s) {i : ι} {n : Node} (hn : n.Sound (C.identity i) (C.log i))
    (hleader : n.fsm.state = .leader → C.FirstOf s.store i)
    (hwaiting : s.answers i ≠ none → n.putting ≠ none) :
    C.Safe { s with nodes := Function.update s.nodes i n } := by
  refine ⟨?_, h.entry, ?_, h.answered, ?_, h.adrift⟩
  · rw [Function.forall_update_iff s.nodes (fun j n => n.Sound (C.identity j) (C.log j))]
    exact ⟨hn, fun j _ => h.sound j⟩
  · rw [Function.forall_update_iff s.nodes (fun j n => n.fsm.state = .leader → C.FirstOf s.store j)]
    exact ⟨hleader, fun j _ => h.leader j⟩
  · rw [Function.forall_update_iff s.nodes (fun j n => s.answers j ≠ none → n.putting ≠ none)]
    exact ⟨hwaiting, fun j _ => h.waiting j⟩

theorem Safe.answer (h : C.Safe s) {i : ι} {answer : Option (Except Error Unit)}
    (hok : answer = some (.ok ()) → C.FirstOf s.store i)
    (hwaiting : answer ≠ none → (s.nodes i).putting ≠ none) :
    C.Safe { s with answers := Function.update s.answers i answer } := by
  refine ⟨h.sound, h.entry, h.leader, ?_, ?_, h.adrift⟩
  · rw [Function.forall_update_iff s.answers (fun j answer => answer = some (.ok ()) → C.FirstOf s.store j)]
    exact ⟨hok, fun j _ => h.answered j⟩
  · rw [Function.forall_update_iff s.answers (fun j answer => answer ≠ none → (s.nodes j).putting ≠ none)]
    exact ⟨hwaiting, fun j _ => h.waiting j⟩

theorem safe_step {e : ClusterEvent ι} (h : C.Safe s) (hstep : C.step s e = some t) : C.Safe t := by
  cases e with
  | input i input =>
    obtain ⟨n, hn, rfl⟩ := Option.map_eq_some_iff.mp hstep
    apply h.update (Node.sound_input (h.sound i) hn)
    · intro hleader
      exact h.leader i (Node.leader_of_input (h.sound i) hn hleader)
    · intro hwaits
      exact absurd (Node.putting_of_input hn) (h.waiting i hwaits)
  | put i fate =>
    obtain ⟨⟨p, payload⟩, hunanswered, rfl⟩ := Option.map_eq_some_iff.mp hstep
    obtain ⟨_, hrequest⟩ := ClusterState.request_of_unanswered hunanswered
    apply (h.putOpts (h.harmless hrequest) fate).answer
    · intro hok
      exact h.firstOf hrequest (Option.some.inj hok)
    · intro _
      exact ClusterState.putting_of_request hrequest
  | lost i store source =>
    obtain ⟨request, hunanswered, rfl⟩ := Option.map_eq_some_iff.mp hstep
    obtain ⟨_, hrequest⟩ := ClusterState.request_of_unanswered hunanswered
    apply (h.adrift_cons (h.harmless hrequest)).answer
    · intro hok
      cases hok
    · intro _
      exact ClusterState.putting_of_request hrequest
  | answered i =>
    obtain ⟨answer, hanswer, rfl⟩ := Option.map_eq_some_iff.mp hstep
    have hsafe : C.Safe { s with answers := Function.update s.answers i none } :=
      h.answer (by simp) (by simp)
    apply hsafe.update (Node.sound_answered (h.sound i) answer)
    · intro hleader
      rcases Node.leader_of_answered hleader with hwas | ⟨_, _, _, _, rfl⟩
      · exact h.leader i hwas
      · exact h.answered i hanswer
    · simp
  | crash i =>
    cases hstep
    have hsafe : C.Safe { s with adrift := (s.unanswered i).toList ++ s.adrift } := by
      refine ⟨h.sound, h.entry, h.leader, h.answered, h.waiting, ?_⟩
      intro request hmem
      rcases List.mem_append.mp hmem with hmem | hmem
      · exact h.harmless (ClusterState.request_of_unanswered (Option.mem_toList.mp hmem)).2
      · exact h.adrift request hmem
    have hforgotten : C.Safe { s with
        answers := Function.update s.answers i none, adrift := (s.unanswered i).toList ++ s.adrift } :=
      hsafe.answer (by simp) (by simp)
    apply hforgotten.update (sound_fresh i)
    · intro hleader
      cases hleader
    · simp
  | land request =>
    obtain ⟨p, payload⟩ := request
    simp only [step] at hstep
    split_ifs at hstep with hmem
    cases hstep
    have hsafe := h.putOpts (h.adrift _ hmem) .served
    refine ⟨hsafe.sound, hsafe.entry, hsafe.leader, hsafe.answered, hsafe.waiting, ?_⟩
    intro request hrequest
    exact hsafe.adrift request (List.mem_of_mem_erase hrequest)

theorem safe_of_reachable (hs : C.Starts s) (h : Reachable C.step s t) : C.Safe t :=
  Machine.invariant (fun _ _ _ hsafe hstep => safe_step hsafe hstep) (safe_starts hs) h

end Cluster

end S2c
