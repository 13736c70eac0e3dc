import Mathlib.Data.List.Forall2
import S2c.Network.Answers

namespace S2c

open Machine Wire

namespace Wire.BufWriter

theorem writeAll_small {w : BufWriter} {bs : Bytes} (hlarge : bs.length < capacity)
    (hsmall : w.buf.length + bs.length ≤ capacity) (kept : ℕ) : w.writeAll bs kept = ⟨w.socket, w.buf ++ bs⟩ := by
  rw [writeAll, if_neg (Nat.not_le_of_lt hlarge), if_neg (Nat.not_lt_of_le hsmall)]

end Wire.BufWriter

theorem length_frame (payload : Bytes) : (frame payload).length = 4 + payload.length := by
  simp [frame]

theorem writeBytes_small {w : BufWriter} {payload : Bytes}
    (hsmall : w.buf.length + (frame payload).length ≤ BufWriter.capacity) (kept : ℕ) :
    writeBytes w payload kept = ⟨w.socket, w.buf ++ frame payload⟩ := by
  rw [length_frame, ← Nat.add_assoc] at hsmall
  let header : Bytes := putFixed 4 (UInt32.ofNat payload.length).toNat
  have hlen : header.length = 4 := length_putFixed _ _
  have hheader : w.writeAll header 0 = ⟨w.socket, w.buf ++ header⟩ :=
    BufWriter.writeAll_small (by rw [hlen]; decide) (by omega) 0
  have hpayload : BufWriter.writeAll ⟨w.socket, w.buf ++ header⟩ payload kept =
      ⟨w.socket, w.buf ++ header ++ payload⟩ := by
    apply BufWriter.writeAll_small
    · omega
    · rw [List.length_append, hlen]
      exact hsmall
  rw [writeBytes, hheader, hpayload, List.append_assoc, frame]

namespace S2cClient

variable {κ : Type} {ident : κ → String} {c t : S2cClient ident}

def Greeted (c : S2cClient ident) : Prop :=
  c.clientState = .ready ∨ ∃ n k, c.rwLock = .connect n k .storingReady

variable [DecidableEq κ] {e : ClientEvent κ}

end S2cClient

structure SessionRun {κ : Type} (ident : κ → String) where
  session : Session ident
  written : List (List κ)

namespace SessionRun

variable {κ : Type} {ident : κ → String}

def start (ident : κ → String) (maxPendingReqs : ℕ) (groupServers : GroupServers) : SessionRun ident :=
  ⟨Peers.start ident maxPendingReqs groupServers, []⟩

def record (r : SessionRun ident) : SessionEvent κ → List (List κ)
  | .client (.connecting (.opened (.ok _))) => [] :: r.written
  | .clientWritten _ =>
    match r.session.client.drainOut, r.written with
    | .writing k, ks :: written => (ks ++ [k]) :: written
    | _, written => written
  | _ => r.written

def step [DecidableEq κ] (p : Peers κ) (r : SessionRun ident) (e : SessionEvent κ) : Option (SessionRun ident) :=
  (p.step r.session e).map (fun session => ⟨session, r.record e⟩)

end SessionRun

namespace Peers

variable {κ : Type} {ident : κ → String}

def Loud (p : Peers κ) (ident : κ → String) (written : List (List κ)) : Prop :=
  ∃ ks ∈ written, BufWriter.capacity < ((ks.map (p.payload ident)).flatMap frame).length

/-- As long as it all fits into the buffer, the server has seen nothing of the connection. -/
def Unheard (p : Peers κ) (ident : κ → String) (c : Connection) (ks : List κ) : Prop :=
  ((ks.map (p.payload ident)).flatMap frame).length ≤ BufWriter.capacity →
    c.clientWriter = ⟨[], (ks.map (p.payload ident)).flatMap frame⟩ ∧ c.serverWriter = .new ∧
      (c.handler = .reading ∨ c.handler = .ended)

variable {p : Peers κ} {c c' : Connection} {ks : List κ} {k : κ} {groupServers groupServers' : GroupServers}

theorem frames_snoc (p : Peers κ) (ident : κ → String) (ks : List κ) (k : κ) :
    ((ks ++ [k]).map (p.payload ident)).flatMap frame =
      (ks.map (p.payload ident)).flatMap frame ++ frame (p.payload ident k) := by
  simp

theorem Unheard.written (h : p.Unheard ident c ks) (kept : ℕ) :
    p.Unheard ident { c with clientWriter := writeBytes c.clientWriter (p.payload ident k) kept } (ks ++ [k]) := by
  intro hsmall
  rw [frames_snoc] at hsmall
  rw [frames_snoc]
  rw [List.length_append] at hsmall
  obtain ⟨hwriter, hserver, hhandler⟩ := h (Nat.le_trans (Nat.le_add_right _ _) hsmall)
  refine ⟨?_, hserver, hhandler⟩
  dsimp only
  rw [hwriter]
  exact writeBytes_small hsmall kept

theorem readNextMessage_nil (decode : Bytes → Except String S2cMessage) (r : S2CMessageReaderImpl) :
    r.readNextMessage decode ⟨[], false⟩ = none := by
  rw [S2CMessageReaderImpl.readNextMessage, Stream.readExact_open]
  rfl

theorem Unheard.handled {e : HandlerEvent} (hc : p.Unheard ident c ks)
    (h : p.handleClient groupServers c e = some (c', groupServers')) : p.Unheard ident c' ks := by
  intro hsmall
  obtain ⟨hwriter, hserver, hhandler⟩ := hc hsmall
  unfold handleClient at h
  split at h
  · rw [hwriter, readNextMessage_nil] at h
    cases h
  · rename_i hreplying
    rcases hhandler with hreading | hended
    · cases hreading.symm.trans hreplying
    · cases hended.symm.trans hreplying
  · rename_i hlooking
    rcases hhandler with hreading | hended
    · cases hreading.symm.trans hlooking
    · cases hended.symm.trans hlooking
  · cases h
    exact ⟨hwriter, hserver, Or.inr rfl⟩
  · cases h

theorem Loud.opened {written : List (List κ)} (h : p.Loud ident written) : p.Loud ident ([] :: written) := by
  obtain ⟨ks, hks, hlarge⟩ := h
  exact ⟨ks, List.mem_cons_of_mem _ hks, hlarge⟩

theorem Loud.written {written : List (List κ)} (h : p.Loud ident (ks :: written)) (k : κ) :
    p.Loud ident ((ks ++ [k]) :: written) := by
  obtain ⟨ks', hks, hlarge⟩ := h
  rcases List.mem_cons.mp hks with rfl | hmem
  · refine ⟨ks' ++ [k], List.mem_cons_self, ?_⟩
    rw [frames_snoc, List.length_append]
    exact Nat.lt_of_lt_of_le hlarge (Nat.le_add_right _ _)
  · exact ⟨ks', List.mem_cons_of_mem _ hmem, hlarge⟩

variable [DecidableEq κ] {r r' : SessionRun ident}

end Peers

end S2c
