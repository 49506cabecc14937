import RtProxy.Mux.Queue

/-!
The receive buffer of one stream (`StreamShared` in `mux.rs`).

The buffer is a queue of chunks with a read offset into the first one.  Its
`buffered` counter is the number of unread bytes, and the record carries that as
a field, so that the subtraction in `pollRead` is exact wherever the buffer is
used.
-/

namespace RtProxy
namespace Mux

structure StreamState where
  id : UInt32
  chunks : List Bytes
  head : Nat
  buffered : Nat
  fin : Bool
  dead : Bool
  readWaker : Option Waker
  head_le : head ≤ (chunks.headD []).length
  buffered_eq : buffered + head = chunks.flatten.length

namespace StreamState

def new (id : UInt32) : StreamState :=
  { id := id, chunks := [], head := 0, buffered := 0, fin := false, dead := false
    readWaker := none, head_le := Nat.le_refl 0, buffered_eq := rfl }

/-- The unread bytes, in order. -/
def content (st : StreamState) : Bytes := st.chunks.flatten.drop st.head

/-- The offset may also sit in a chunk that was the only one and is followed by
a new one. -/
theorem headD_append_le {cs : List Bytes} {n : Nat} (h : n ≤ (cs.headD []).length)
    (d : Bytes) : n ≤ ((cs ++ [d]).headD []).length := by
  cases cs with
  | nil =>
    have : n = 0 := by simpa using h
    simp [this]
  | cons c cs => simpa using h

def pushBytes (st : StreamState) (data : Bytes) : StreamState :=
  { st with
    buffered := st.buffered + data.length
    chunks := st.chunks ++ [data]
    readWaker := none
    head_le := headD_append_le st.head_le data
    buffered_eq := by
      have h := st.buffered_eq
      simp only [List.flatten_append, List.flatten_singleton, List.length_append]
      omega }

def setFin (st : StreamState) : StreamState := { st with fin := true, readWaker := none }

def setDead (st : StreamState) : StreamState := { st with dead := true, readWaker := none }

/-- Discards the queued bytes; the number of tokens to refund is the `buffered`
of the state before. -/
def recycle (st : StreamState) : StreamState × Nat :=
  ({ st with
    chunks := [], head := 0, buffered := 0, head_le := Nat.le_refl 0, buffered_eq := rfl },
    st.buffered)

/-- The copy loop of `poll_read`: fills a buffer with `cap` bytes remaining from
the chunks, the first of them from offset `head` on.  Returns the bytes copied,
the chunks left and the new offset.  A chunk that is not finished has filled the
buffer, so the loop ends there. -/
def copyChunks : List Bytes → Nat → Nat → Bytes × List Bytes × Nat
  | [], head, _ => ([], [], head)
  | front :: rest, head, cap =>
    if cap = 0 then ([], front :: rest, head)
    else
      let avail := front.drop head
      let n := min avail.length cap
      if head + n = front.length then
        let (out, chunks, head') := copyChunks rest 0 (cap - n)
        (avail.take n ++ out, chunks, head')
      else (avail.take n, front :: rest, head + n)

/-- The copy loop takes a prefix of the unread bytes and leaves the rest unread,
with the offset inside the first chunk left. -/
theorem copyChunks_spec (cs : List Bytes) (head cap : Nat)
    (hhead : head ≤ (cs.headD []).length) :
    cs.flatten.drop head = (copyChunks cs head cap).1
        ++ (copyChunks cs head cap).2.1.flatten.drop (copyChunks cs head cap).2.2
      ∧ (copyChunks cs head cap).2.2 ≤ ((copyChunks cs head cap).2.1.headD []).length := by
  induction cs generalizing head cap with
  | nil =>
    have h0 : head = 0 := by simpa using hhead
    simp [copyChunks, h0]
  | cons front rest ih =>
    have hle : head ≤ front.length := by simpa using hhead
    rw [copyChunks]
    by_cases hcap : cap = 0
    · simp [hcap, hle]
    · simp only [hcap, if_false]
      by_cases hdone : head + min (front.drop head).length cap = front.length
      · have htake : (front.drop head).take (min (front.drop head).length cap)
            = front.drop head := by
          rw [List.length_drop] at hdone ⊢
          exact List.take_of_length_le (by rw [List.length_drop]; omega)
        obtain ⟨hsplit, hhead'⟩ := ih 0 (cap - min (front.drop head).length cap) (Nat.zero_le _)
        rw [List.drop_zero] at hsplit
        simp only [hdone, if_true, htake]
        refine ⟨?_, hhead'⟩
        rw [List.flatten_cons, List.drop_append_of_le_length hle, List.append_assoc, ← hsplit]
      · simp only [hdone, if_false]
        rw [List.length_drop] at hdone ⊢
        have hlt : head + min (front.length - head) cap ≤ front.length := by omega
        refine ⟨?_, by simpa using hlt⟩
        rw [List.flatten_cons, List.drop_append_of_le_length hle,
          List.drop_append_of_le_length hlt, ← List.append_assoc, ← List.drop_drop,
          List.take_append_drop]

/-- The copy loop stops only at a full buffer or at the end of the chunks. -/
theorem length_copyChunks (cs : List Bytes) (head cap : Nat)
    (hhead : head ≤ (cs.headD []).length) :
    (copyChunks cs head cap).1.length = min cap (cs.flatten.length - head) := by
  induction cs generalizing head cap with
  | nil => simp [copyChunks]
  | cons front rest ih =>
    have hle : head ≤ front.length := by simpa using hhead
    rw [copyChunks]
    by_cases hcap : cap = 0
    · simp [hcap]
    · simp only [hcap, if_false]
      by_cases hdone : head + min (front.drop head).length cap = front.length
      · simp only [hdone, if_true, List.length_append, List.length_take, List.flatten_cons,
          ih 0 (cap - min (front.drop head).length cap) (Nat.zero_le _)]
        rw [List.length_drop] at hdone ⊢
        omega
      · simp only [hdone, if_false, List.length_take, List.flatten_cons, List.length_append]
        rw [List.length_drop] at hdone ⊢
        omega

/-- Taking the copied bytes off the counter keeps it equal to the unread bytes. -/
theorem buffered_copyChunks {cs : List Bytes} {head buffered : Nat}
    (hhead : head ≤ (cs.headD []).length) (h : buffered + head = cs.flatten.length) (cap : Nat) :
    buffered - (copyChunks cs head cap).1.length + (copyChunks cs head cap).2.2
      = (copyChunks cs head cap).2.1.flatten.length := by
  obtain ⟨hsplit, hhead'⟩ := copyChunks_spec cs head cap hhead
  have hflat : ∀ l : List Bytes, (l.headD []).length ≤ l.flatten.length := by
    intro l
    cases l <;> simp
  have hle := Nat.le_trans hhead' (hflat _)
  have hlen := congrArg List.length hsplit
  simp only [List.length_append, List.length_drop] at hlen
  omega

/-- What the critical section of `poll_read` decides on a non-empty buffer. -/
inductive ReadOut
  | data (bytes : Bytes)
  | eof
  | err
  | pending
deriving Repr, DecidableEq

/-- The critical section of `poll_read` for a buffer with `cap` bytes remaining;
`sessionClosed` is what `session.is_closed()` returns inside it.  FIN wins over
session death, so a half-closed stream still reports a clean end of file. -/
def pollRead (st : StreamState) (sessionClosed : Bool) (cap : Nat) (cx : Waker) :
    StreamState × ReadOut :=
  let r := copyChunks st.chunks st.head cap
  let st' : StreamState :=
    { st with
      chunks := r.2.1
      head := r.2.2
      buffered := st.buffered - r.1.length
      head_le := (copyChunks_spec st.chunks st.head cap st.head_le).2
      buffered_eq := buffered_copyChunks st.head_le st.buffered_eq cap }
  if r.1.length > 0 then (st', .data r.1)
  else if st.fin then (st', .eof)
  else if st.dead || sessionClosed then (st', .err)
  else ({ st' with readWaker := some cx }, .pending)

/-! ## What each section does to the unread bytes -/

theorem length_content (st : StreamState) : st.content.length = st.buffered := by
  have h := st.buffered_eq
  rw [content, List.length_drop]
  omega

theorem head_le_flatten (st : StreamState) : st.head ≤ st.chunks.flatten.length := by
  have h := st.buffered_eq
  omega

@[simp] theorem content_new (id : UInt32) : (new id).content = [] := rfl

@[simp] theorem content_pushBytes (st : StreamState) (d : Bytes) :
    (st.pushBytes d).content = st.content ++ d := by
  simp only [content, pushBytes, List.flatten_append, List.flatten_singleton]
  exact List.drop_append_of_le_length st.head_le_flatten

@[simp] theorem content_setFin (st : StreamState) : st.setFin.content = st.content := rfl

@[simp] theorem content_setDead (st : StreamState) : st.setDead.content = st.content := rfl

/-- The bytes a `pollRead` returns. -/
def ReadOut.bytes : ReadOut → Bytes
  | .data bs => bs
  | _ => []

/-- A read takes its bytes from the front of the unread ones; it changes neither
the id nor the two flags. -/
theorem pollRead_spec (st : StreamState) (closed : Bool) (cap : Nat) (cx : Waker) :
    st.content = (st.pollRead closed cap cx).2.bytes ++ (st.pollRead closed cap cx).1.content
      ∧ (st.pollRead closed cap cx).1.id = st.id
      ∧ (st.pollRead closed cap cx).1.fin = st.fin := by
  have hsplit := (copyChunks_spec st.chunks st.head cap st.head_le).1
  unfold pollRead
  by_cases hpos : (copyChunks st.chunks st.head cap).1.length > 0
  · rw [if_pos hpos]
    exact ⟨hsplit, rfl, rfl⟩
  · have hnil : (copyChunks st.chunks st.head cap).1 = [] := by
      simpa using hpos
    rw [hnil] at hsplit
    rw [if_neg hpos]
    split_ifs <;> exact ⟨hsplit, rfl, rfl⟩

/-- End of file is reported into a non-empty buffer only when every byte has
been read and the peer's FIN was seen. -/
theorem pollRead_eof {st : StreamState} {closed : Bool} {cap : Nat} {cx : Waker}
    (hcap : 0 < cap) (h : (st.pollRead closed cap cx).2 = .eof) :
    st.fin = true ∧ st.content = [] := by
  have hlen := length_copyChunks st.chunks st.head cap st.head_le
  unfold pollRead at h
  by_cases hpos : (copyChunks st.chunks st.head cap).1.length > 0
  · simp [hpos] at h
  · simp only [hpos, if_false] at h
    split_ifs at h with hfin hdead
    refine ⟨hfin, ?_⟩
    rw [← List.length_eq_zero_iff, content, List.length_drop]
    omega

/-- The `buffered` counter falls by exactly what the read returned. -/
theorem buffered_pollRead (st : StreamState) (closed : Bool) (cap : Nat) (cx : Waker) :
    (st.pollRead closed cap cx).1.buffered + (st.pollRead closed cap cx).2.bytes.length
      = st.buffered := by
  have h := congrArg List.length (st.pollRead_spec closed cap cx).1
  rw [List.length_append, length_content, length_content] at h
  omega

end StreamState

end Mux
end RtProxy
