import S2c.Wire.Varint

namespace S2c.Wire

def putFixed : ℕ → ℕ → Bytes
  | 0, _ => []
  | n + 1, v => putFixed n (v / 256) ++ [UInt8.ofNat (v % 256)]

def fixed (bs : Bytes) : ℕ := bs.foldl (fun v b => 256 * v + b.toNat) 0

@[simp] theorem length_putFixed (n v : ℕ) : (putFixed n v).length = n := by
  induction n generalizing v with
  | zero => rfl
  | succ n ih => simp [putFixed, ih]

theorem fixed_putFixed (n v : ℕ) (hv : v < 256 ^ n) : fixed (putFixed n v) = v := by
  induction n generalizing v with
  | zero =>
    have hzero : v = 0 := by simpa using hv
    simp [hzero, putFixed, fixed]
  | succ n ih =>
    have hnext : v / 256 < 256 ^ n := by
      rw [Nat.pow_succ] at hv
      exact (Nat.div_lt_iff_lt_mul (by omega)).mpr hv
    have hbyte : (UInt8.ofNat (v % 256)).toNat = v % 256 := byte_toNat (Nat.mod_lt _ (by omega))
    have hhigh := ih _ hnext
    simp only [fixed] at hhigh
    simp only [fixed, putFixed, List.foldl_append, hhigh, List.foldl_cons, List.foldl_nil, hbyte]
    omega

/-- A socket's bytes on their way: the sender appends, the receiver takes from the front, and after
`ended` nothing more comes. -/
structure Stream where
  unread : Bytes
  ended : Bool
  deriving DecidableEq

namespace Stream

/-- `none` while the bytes are still to come. At an early end the bytes that were left are lost. -/
def readExact (s : Stream) (n : ℕ) : Option (Except Bytes Bytes × Stream) :=
  if n ≤ s.unread.length then some (.ok (s.unread.take n), { s with unread := s.unread.drop n })
  else if s.ended then some (.error s.unread, { s with unread := [] })
  else none

def skip (s : Stream) (n : ℕ) : Option Stream :=
  if n ≤ s.unread.length ∨ s.ended then some { s with unread := s.unread.drop n } else none

theorem readExact_append (bs rest : Bytes) (ended : Bool) :
    readExact ⟨bs ++ rest, ended⟩ bs.length = some (.ok bs, ⟨rest, ended⟩) := by
  simp [readExact]

theorem skip_append (bs rest : Bytes) (ended : Bool) :
    skip ⟨bs ++ rest, ended⟩ bs.length = some ⟨rest, ended⟩ := by
  simp [skip]

theorem readExact_open (bs : Bytes) (n : ℕ) :
    readExact ⟨bs, false⟩ n = if n ≤ bs.length then some (.ok (bs.take n), ⟨bs.drop n, false⟩) else none := by
  unfold readExact
  split_ifs <;> simp_all

theorem skip_open (bs : Bytes) (n : ℕ) :
    skip ⟨bs, false⟩ n = if n ≤ bs.length then some ⟨bs.drop n, false⟩ else none := by
  simp [skip]

theorem readExact_extend {bs : Bytes} {n : ℕ} (hn : n ≤ bs.length) (more : Bytes) (ended : Bool) :
    readExact ⟨bs ++ more, ended⟩ n = some (.ok (bs.take n), ⟨bs.drop n ++ more, ended⟩) := by
  rw [readExact, if_pos (by simp; omega), List.take_append_of_le_length hn, List.drop_append_of_le_length hn]

theorem skip_extend {bs : Bytes} {n : ℕ} (hn : n ≤ bs.length) (more : Bytes) (ended : Bool) :
    skip ⟨bs ++ more, ended⟩ n = some ⟨bs.drop n ++ more, ended⟩ := by
  rw [skip, if_pos (Or.inl (by simp; omega)), List.drop_append_of_le_length hn]

theorem readExact_ended {n : ℕ} (hn : 0 < n) : readExact ⟨[], true⟩ n = some (.error [], ⟨[], true⟩) := by
  simp [readExact, Nat.ne_of_gt hn]

theorem unread_of_readExact {s t : Stream} {n : ℕ} {bs : Bytes} (h : s.readExact n = some (.ok bs, t)) :
    t.unread.length + n = s.unread.length := by
  unfold readExact at h
  split_ifs at h with hn
  · cases h
    rw [List.length_drop]
    omega
  · cases h

end Stream

structure BufWriter where
  socket : Bytes
  buf : Bytes
  deriving DecidableEq

namespace BufWriter

def capacity : ℕ := 8192

def new : BufWriter := ⟨[], []⟩

def flush (w : BufWriter) : BufWriter := ⟨w.socket ++ w.buf, []⟩

def written (w : BufWriter) : Bytes := w.socket ++ w.buf

/-- `kept` is what the socket's last partial write leaves over when the bytes go past the buffer;
less than a buffer's capacity of it. -/
def writeAll (w : BufWriter) (bs : Bytes) (kept : ℕ) : BufWriter :=
  if capacity ≤ bs.length then
    -- the buffer is empty by then: it was flushed, or held nothing
    let passed := bs.length - min kept (capacity - 1)
    ⟨w.written ++ bs.take passed, bs.drop passed⟩
  else if capacity < w.buf.length + bs.length then ⟨w.written, bs⟩
  else ⟨w.socket, w.buf ++ bs⟩

@[simp] theorem socket_flush (w : BufWriter) : w.flush.socket = w.written := rfl

theorem written_writeAll (w : BufWriter) (bs : Bytes) (kept : ℕ) :
    (w.writeAll bs kept).written = w.written ++ bs := by
  unfold writeAll
  split_ifs <;> simp [written]

theorem writeAll_large {w : BufWriter} {bs : Bytes} (hlarge : capacity ≤ bs.length) :
    w.writeAll bs 0 = ⟨w.written ++ bs, []⟩ := by
  simp [writeAll, hlarge]

end BufWriter

end S2c.Wire
