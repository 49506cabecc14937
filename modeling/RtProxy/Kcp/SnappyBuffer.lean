import RtProxy.Kcp.SnappyFrames

/-!
How long the output buffer of a snappy stream gets.

`poll_write` measures the bytes that are still to be sent, but the bytes that have been
sent stay in front of them until the buffer is empty.  So a transport that is always a
byte behind makes the buffer grow with every call, as `out_grows` shows.
-/

namespace RtProxy
namespace Kcp
namespace SnappyStream

open ByteStream

/-- What the guard lets stand, the identifier, and the longest chunk with its header. -/
def OUT_LIMIT : Nat := 4 * SNAPPY_MAX_BLOCK + SNAPPY_MAGIC.length + (4 + SNAPPY_MAX_CHUNK)

/-- The output buffers that a call of `poll_write` goes through. -/
def buffers (snap : Snap) (buf : Bytes) (c : SnappyStream) : List Cursor :=
  if buf = [] then [c.out]
  else
    match c.pollDrain with
    | (.ready (.error _), c') => [c.out, c'.out]
    | (_, c') =>
      if c'.out.data.length - c'.out.pos > 4 * SNAPPY_MAX_BLOCK then [c.out, c'.out]
      else
        let queued := c'.queue snap (buf.take (min buf.length SNAPPY_MAX_BLOCK))
        [c.out, c'.out, queued.out, queued.pollDrain.2.out]

/-- The stream after some calls of `poll_write`. -/
def writes (snap : Snap) : List Bytes → SnappyStream → SnappyStream
  | [], c => c
  | buf :: bufs, c => writes snap bufs (c.pollWrite snap buf).2

/-- The output buffers of a run. -/
def allBuffers (snap : Snap) : List Bytes → SnappyStream → List Cursor
  | [], c => [c.out]
  | buf :: bufs, c => c.buffers snap buf ++ allBuffers snap bufs (c.pollWrite snap buf).2

/-- If the guard of the next call lets it through, then the bytes sent already, which are
still in the buffer, do not change that. -/
def Guarded (c : SnappyStream) : Prop :=
  c.pollDrain.2.out.data.length - c.pollDrain.2.out.pos ≤ 4 * SNAPPY_MAX_BLOCK →
    c.pollDrain.2.out.data.length ≤ 4 * SNAPPY_MAX_BLOCK

/-- Every call of a run is guarded so. -/
def AllGuarded (snap : Snap) : List Bytes → SnappyStream → Prop
  | [], _ => True
  | buf :: bufs, c => (buf ≠ [] → c.Guarded) ∧ AllGuarded snap bufs (c.pollWrite snap buf).2

/-! ## One call -/

theorem length_pollDrain_le (c : SnappyStream) :
    c.pollDrain.2.out.data.length ≤ c.out.data.length := by
  have hdata := flush_data c.out c.inner.outbound
  show (drainOut stoppedErr c.out c.inner.outbound).2.1.data.length ≤ _
  rw [drainOut_snd]
  rcases hdata with h | h
  · rw [h]
  · rw [h]
    exact Nat.zero_le _

/-- A call adds at most the identifier and one chunk. -/
theorem length_queue_le (snap : Snap) {src : Bytes} (h : Fits src) (c : SnappyStream) :
    (c.queue snap src).out.data.length
      ≤ c.out.data.length + SNAPPY_MAGIC.length + (4 + SNAPPY_MAX_CHUNK) := by
  have hchunk : (encodeChunk snap src).length ≤ 4 + SNAPPY_MAX_CHUNK := by
    have hbody := length_chunkBody_le snap src
    rw [Fits] at h
    rw [length_encodeChunk, SNAPPY_MAX_CHUNK]
    omega
  show ((if c.wroteMagic then c.out else c.out.append SNAPPY_MAGIC).data ++ _).length ≤ _
  rw [List.length_append]
  split_ifs
  · omega
  · show (c.out.data ++ SNAPPY_MAGIC).length + _ ≤ _
    rw [List.length_append]
    omega

theorem pollWrite_mem_buffers (snap : Snap) (buf : Bytes) (c : SnappyStream) :
    (c.pollWrite snap buf).2.out ∈ c.buffers snap buf := by
  unfold pollWrite buffers
  split_ifs
  · exact List.mem_cons_self
  · rcases c.pollDrain with ⟨a, c'⟩
    match a with
    | .ready (.error e) => exact List.mem_cons_of_mem _ List.mem_cons_self
    | .pending | .ready (.ok ()) =>
      dsimp only
      split_ifs
      · exact List.mem_cons_of_mem _ List.mem_cons_self
      · exact List.mem_of_getElem? (i := 3) rfl

theorem buffers_bounded (snap : Snap) {buf : Bytes} {c : SnappyStream}
    (h : c.out.data.length ≤ OUT_LIMIT) (hguarded : buf ≠ [] → c.Guarded) :
    ∀ out ∈ c.buffers snap buf, out.data.length ≤ OUT_LIMIT := by
  have hdrain := c.length_pollDrain_le
  unfold buffers
  split_ifs with hnil
  · intro out hout
    rw [List.mem_singleton.mp hout]
    exact h
  · have hshort := hguarded hnil
    rw [Guarded] at hshort
    revert hdrain hshort
    rcases c.pollDrain with ⟨a, c'⟩
    intro hdrain hshort
    have htwo : ∀ out ∈ [c.out, c'.out], out.data.length ≤ OUT_LIMIT := by
      intro out hout
      rcases List.mem_pair.mp hout with rfl | rfl
      · exact h
      · exact Nat.le_trans hdrain h
    match a with
    | .ready (.error e) => exact htwo
    | .pending | .ready (.ok ()) =>
      dsimp only
      split_ifs with hfull
      · exact htwo
      · have hfits : Fits (buf.take (min buf.length SNAPPY_MAX_BLOCK)) := by
          rw [Fits, List.length_take]
          omega
        have hqueue := length_queue_le snap hfits c'
        have hlast := length_pollDrain_le (c'.queue snap (buf.take (min buf.length SNAPPY_MAX_BLOCK)))
        have hlen := hshort (Nat.not_lt.mp hfull)
        have hlimit : (c'.queue snap (buf.take (min buf.length SNAPPY_MAX_BLOCK))).out.data.length
            ≤ OUT_LIMIT := by
          rw [OUT_LIMIT]
          dsimp only at hlen
          omega
        intro out hout
        rcases List.mem_cons.mp hout with rfl | hout
        · exact h
        rcases List.mem_cons.mp hout with rfl | hout
        · exact Nat.le_trans hdrain h
        rcases List.mem_pair.mp hout with rfl | rfl
        · exact hlimit
        · exact Nat.le_trans hlast hlimit

/-- A short buffer does not grow by draining it. -/
theorem guarded_of_short {c : SnappyStream} (h : c.out.data.length ≤ 4 * SNAPPY_MAX_BLOCK) :
    c.Guarded :=
  fun _ => Nat.le_trans c.length_pollDrain_le h

/-! ## A run -/

/-- The buffer keeps to its limit in every run in which the length of the whole buffer
would have stopped no call that the guard lets through. -/
theorem out_bounded (snap : Snap) (inner : Transport) (bufs : List Bytes)
    (h : AllGuarded snap bufs (new inner)) :
    ∀ out ∈ allBuffers snap bufs (new inner), out.data.length ≤ OUT_LIMIT := by
  have hrun : ∀ (bufs : List Bytes) (c : SnappyStream), c.out.data.length ≤ OUT_LIMIT →
      AllGuarded snap bufs c → ∀ out ∈ allBuffers snap bufs c, out.data.length ≤ OUT_LIMIT := by
    intro bufs
    induction bufs with
    | nil =>
      intro c hc _ out hout
      rw [List.mem_singleton.mp hout]
      exact hc
    | cons buf bufs ih =>
      intro c hc hguarded out hout
      have hcall := buffers_bounded snap hc hguarded.1
      rcases List.mem_append.mp hout with hout | hout
      · exact hcall out hout
      · exact ih _ (hcall _ (c.pollWrite_mem_buffers snap buf)) hguarded.2 out hout
  exact hrun bufs (new inner) (Nat.zero_le _) h

/-! ## A transport that is a byte behind -/

/-- What the transport answers in `n` calls after the first: it takes all the bytes of a
chunk but one, and that one in the next call. -/
def behind : Nat → List (Grant IoError)
  | 0 => []
  | n + 1 => .pending :: .accept 9 :: .pending :: behind n

/-- A stream with one byte left to send. -/
structure Trailing (len : Nat) (grants : List (Grant IoError)) (c : SnappyStream) : Prop where
  wroteMagic : c.wroteMagic = true
  length : c.out.data.length = len
  pos : c.out.pos + 1 = len
  grants : c.inner.outbound.grants = grants

theorem flush_pending {c : Cursor} {dst : Outbound IoError} {gs : List (Grant IoError)}
    (hlt : c.pos < c.data.length) (hg : dst.grants = .pending :: gs) :
    flush c dst = (.pending, c, ⟨gs, dst.sent⟩) := by
  obtain ⟨grants, sent⟩ := dst
  cases hg
  rw [flush, if_pos hlt]
  rfl

theorem flush_short {c : Cursor} {dst : Outbound IoError} {k : Nat} {gs : List (Grant IoError)}
    (hlt : c.pos + (k + 1) < c.data.length) (hg : dst.grants = .accept (k + 1) :: .pending :: gs) :
    flush c dst = (.pending, ⟨c.data, c.pos + (k + 1), Nat.le_of_lt hlt⟩,
      ⟨gs, dst.sent ++ c.rest.take (k + 1)⟩) := by
  have hrest := c.length_rest
  have hadv : c.advance (k + 1) = ⟨c.data, c.pos + (k + 1), Nat.le_of_lt hlt⟩ := dif_pos hlt
  have hmin : min (k + 1) c.rest.length = k + 1 := by omega
  obtain ⟨grants, sent⟩ := dst
  cases hg
  rw [flush, if_pos (by omega)]
  simp only [Outbound.write, hmin, hadv]
  exact flush_pending hlt rfl

theorem length_encode_zero : (encodeChunk literalSnap [0]).length = 9 := by
  rw [length_encodeChunk]
  rfl

/-- The transport takes all of a buffer but its last byte. -/
theorem trailing_pollDrain (c : SnappyStream) (k : Nat) (gs : List (Grant IoError))
    (hmagic : c.wroteMagic = true) (hlen : c.out.pos + (k + 1) + 1 = c.out.data.length)
    (hg : c.inner.outbound.grants = .accept (k + 1) :: .pending :: gs) :
    c.pollDrain.2.Trailing c.out.data.length gs := by
  have hdrain := flush_short (show c.out.pos + (k + 1) < c.out.data.length by omega) hg
  rw [pollDrain, drainOut, hdrain]
  exact ⟨hmagic, rfl, hlen, rfl⟩

theorem Trailing.pollWrite {len : Nat} {gs : List (Grant IoError)} {c : SnappyStream}
    (h : c.Trailing len (.pending :: .accept 9 :: .pending :: gs)) :
    (c.pollWrite literalSnap [0]).2.Trailing (len + 9) gs := by
  have hpos := h.pos
  have hlen := h.length
  have hlt : c.out.pos < c.out.data.length := by omega
  have hdrain : c.pollDrain = (.pending, { c with
      inner := { c.inner with outbound := ⟨.accept 9 :: .pending :: gs, c.inner.outbound.sent⟩ } }) := by
    rw [pollDrain, drainOut, flush_pending hlt h.grants]
  have hguard : ¬ c.out.data.length - c.out.pos > 4 * SNAPPY_MAX_BLOCK := by
    rw [SNAPPY_MAX_BLOCK]
    omega
  rw [SnappyStream.pollWrite, if_neg (List.cons_ne_nil 0 []), hdrain]
  dsimp only
  rw [if_neg hguard]
  have hout : (c.out.append (encodeChunk literalSnap [0])).data.length = len + 9 := by
    show (c.out.data ++ _).length = _
    rw [List.length_append, length_encode_zero, hlen]
  have hqueue : (SnappyStream.queue literalSnap [0] { c with
      inner := { c.inner with
        outbound := ⟨.accept 9 :: .pending :: gs, c.inner.outbound.sent⟩ } }).out
      = c.out.append (encodeChunk literalSnap [0]) := by
    rw [queue, if_pos h.wroteMagic]
  have hnext := trailing_pollDrain (SnappyStream.queue literalSnap [0] { c with
    inner := { c.inner with
      outbound := ⟨.accept 9 :: .pending :: gs, c.inner.outbound.sent⟩ } }) 8 gs
  rw [hqueue, hout] at hnext
  refine hnext rfl ?_ rfl
  show c.out.pos + 9 + 1 = len + 9
  omega

theorem trailing_new (n : Nat) :
    ((new (.new ⟨[], false⟩ (.accept 18 :: .pending :: behind n))).pollWrite literalSnap [0]).2.Trailing
      19 (behind n) := by
  have hempty : ¬ Cursor.empty.pos < Cursor.empty.data.length := Nat.lt_irrefl 0
  have hflush (dst : Outbound IoError) : flush .empty dst = (.done, .empty, dst) := by
    rw [flush, if_neg hempty]
  have hdrain : (new (.new ⟨[], false⟩ (.accept 18 :: .pending :: behind n))).pollDrain
      = (.ready (.ok ()), new (.new ⟨[], false⟩ (.accept 18 :: .pending :: behind n))) := by
    rw [pollDrain, new, drainOut, hflush]
  have hguard : ¬ Cursor.empty.data.length - Cursor.empty.pos > 4 * SNAPPY_MAX_BLOCK :=
    Nat.not_lt_zero _
  rw [SnappyStream.pollWrite, if_neg (List.cons_ne_nil 0 []), hdrain]
  dsimp only
  rw [new, if_neg hguard]
  have hout : ((Cursor.empty.append SNAPPY_MAGIC).append (encodeChunk literalSnap [0])).data.length
      = 19 := by
    show (([] ++ SNAPPY_MAGIC) ++ _).length = _
    rw [List.length_append, length_encode_zero]
    rfl
  have hnext := trailing_pollDrain (queue literalSnap [0]
    (new (.new ⟨[], false⟩ (.accept 18 :: .pending :: behind n)))) 17 (behind n) rfl
  exact hout ▸ hnext hout.symm rfl

/-- Every call makes the buffer longer. -/
theorem trailing_writes (n : Nat) {len : Nat} {c : SnappyStream} (h : c.Trailing len (behind n)) :
    (c.writes literalSnap (List.replicate n [0])).Trailing (len + 9 * n) [] := by
  induction n generalizing len c with
  | zero => exact h
  | succ n ih =>
    have hrest := ih h.pollWrite
    rw [Nat.add_assoc] at hrest
    rw [List.replicate_succ, Nat.mul_succ, Nat.add_comm (9 * n)]
    exact hrest

/-- Two calls, a byte behind. -/
theorem out_bounded_trailing :
    ((allBuffers literalSnap [[0], [0]]
      (new (.new ⟨[], false⟩ (.accept 18 :: .pending :: behind 1)))).all
        fun out => decide (out.data.length ≤ OUT_LIMIT)) = true := by
  refine List.all_eq_true.mpr fun out hout => decide_eq_true ?_
  exact out_bounded literalSnap (.new ⟨[], false⟩ (.accept 18 :: .pending :: behind 1)) [[0], [0]]
    ⟨fun _ => guarded_of_short (Nat.zero_le _),
      fun _ => guarded_of_short ((trailing_new 1).length.le.trans (by decide)), trivial⟩ out hout

/-- The buffer after `n` calls more with one byte each, to such a transport. -/
theorem out_grows (n : Nat) :
    ((new (.new ⟨[], false⟩ (.accept 18 :: .pending :: behind n))).writes literalSnap
      (List.replicate (n + 1) [0])).out.data.length = 19 + 9 * n :=
  (trailing_writes n (trailing_new n)).length

/-- 36411 bytes in as many calls. -/
theorem out_exceeds_limit :
    OUT_LIMIT < ((new (.new ⟨[], false⟩ (.accept 18 :: .pending :: behind 36410))).writes literalSnap
      (List.replicate 36411 [0])).out.data.length := by
  rw [out_grows 36410]
  decide

end SnappyStream
end Kcp
end RtProxy
