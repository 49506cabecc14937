import RtProxy.Lib.FrameReader
import RtProxy.Obfs.Draining
import RtProxy.Sni.Cuts

/-!
Records that are read back (`obfs_transport.rs`).

A reader that waits for the opening reply passes over handshake records up to the change of
the cipher, and takes every record behind it for payload, whatever its type.
-/

namespace RtProxy
namespace Obfs

open ByteStream

/-! ## One record -/

namespace ObfsTlsStream

/-- What the reader finds at the front of the bytes it has. -/
def nextRecord (expectServerReply : Bool) (raw : Bytes) : Next Bool IoError Bytes :=
  match takeRecord raw with
  | .error e => .fail e
  | .ok none => .more
  | .ok (some (kind, payload, rest)) =>
    if expectServerReply ∧ kind = REC_CHANGE_CIPHER_SPEC then .unit false [] rest
    else if expectServerReply ∧ kind = REC_HANDSHAKE then .unit true [] rest
    else .unit false payload rest

/-- The length that the header of a record gives. -/
def bodyLen (raw : Bytes) : Nat := Bytes.beNat ((raw.drop 3).take 2)

theorem takeRecord_eq (raw : Bytes) : takeRecord raw =
    if raw.length < REC_HEADER_LEN then .ok none
    else if bodyLen raw > MAX_TLS_DATA_LEN + 2048 then .error oversizedErr
    else if raw.length < REC_HEADER_LEN + bodyLen raw then .ok none
    else .ok (some (raw.getD 0 0, (raw.drop REC_HEADER_LEN).take (bodyLen raw),
      raw.drop (REC_HEADER_LEN + bodyLen raw))) := rfl

theorem bodyLen_append {raw : Bytes} (h : ¬ raw.length < REC_HEADER_LEN) (more : Bytes) :
    bodyLen (raw ++ more) = bodyLen raw := by
  simp only [REC_HEADER_LEN] at h
  unfold bodyLen
  rw [List.drop_append_of_le_length (by omega),
    List.take_append_of_le_length (by rw [List.length_drop]; omega)]

/-- More bytes do not change a record, nor that one is oversized. -/
theorem takeRecord_append {raw : Bytes} (h : takeRecord raw ≠ .ok none) (more : Bytes) :
    takeRecord (raw ++ more) =
      (takeRecord raw).map (·.map fun r => (r.1, r.2.1, r.2.2 ++ more)) := by
  rw [takeRecord_eq] at h ⊢
  rw [takeRecord_eq]
  have hlong : raw.length ≤ (raw ++ more).length := by simp
  by_cases hlen : raw.length < REC_HEADER_LEN
  · simp [hlen] at h
  rw [if_neg hlen] at h ⊢
  rw [if_neg (by omega), bodyLen_append hlen]
  by_cases hbig : bodyLen raw > MAX_TLS_DATA_LEN + 2048
  · rw [if_pos hbig, if_pos hbig]
    rfl
  rw [if_neg hbig] at h ⊢
  by_cases hshort : raw.length < REC_HEADER_LEN + bodyLen raw
  · simp [hshort] at h
  have hfirst : (raw ++ more).getD 0 0 = raw.getD 0 0 := by
    cases raw with
    | nil => exact absurd (Nat.zero_lt_succ 4) hlen
    | cons b bs => rfl
  rw [if_neg hbig, if_neg hshort, if_neg (by omega), hfirst,
    List.drop_append_of_le_length (by omega), List.drop_append_of_le_length (by omega),
    List.take_append_of_le_length (by rw [List.length_drop]; omega)]
  rfl

theorem nextRecord_more {raw : Bytes} (h : takeRecord raw = .ok none) (s : Bool) :
    nextRecord s raw = .more := by
  rw [nextRecord, h]

theorem nextRecord_shrinks {s s' : Bool} {bs out rest : Bytes}
    (h : nextRecord s bs = .unit s' out rest) : rest.length < bs.length := by
  unfold nextRecord at h
  split at h
  · cases h
  · cases h
  · rename_i hrec
    have hlen := length_takeRecord hrec
    split_ifs at h
    all_goals
      cases h
      exact hlen

theorem nextRecord_unit_append {s s' : Bool} {bs out rest : Bytes}
    (h : nextRecord s bs = .unit s' out rest) (more : Bytes) :
    nextRecord s (bs ++ more) = .unit s' out (rest ++ more) := by
  unfold nextRecord at h ⊢
  split at h
  · cases h
  · cases h
  · rename_i hrec
    rw [takeRecord_append (by rw [hrec]; simp), hrec]
    simp only [Except.map, Option.map]
    split_ifs at h ⊢
    all_goals
      cases h
      rfl

theorem nextRecord_fail_append {s : Bool} {bs : Bytes} {e : IoError}
    (h : nextRecord s bs = .fail e) (more : Bytes) : nextRecord s (bs ++ more) = .fail e := by
  unfold nextRecord at h ⊢
  split at h
  · rename_i hrec
    rw [takeRecord_append (by rw [hrec]; simp), hrec]
    exact h
  · cases h
  · split_ifs at h

def recordFraming : Framing Bool IoError Bytes where
  next := nextRecord
  shrinks := nextRecord_shrinks
  unit_append := nextRecord_unit_append
  fail_append := nextRecord_fail_append

/-! ## The reader -/

/-- What a poll for reading works on. -/
def reader (c : ObfsTlsStream) : FrameReader Bool :=
  { state := c.expectServerReply, raw := c.raw, ready := c.ready }

/-- The error for a transport that ends behind the given bytes. -/
def cutErr (raw : Bytes) : Option IoError := if raw = [] then none else some truncatedErr

/-- What a poll for reading leaves. -/
def withReader (c : ObfsTlsStream) (r : FrameReader Bool) (src : Inbound IoError) :
    ObfsTlsStream :=
  { c with
    expectServerReply := r.state
    raw := r.raw
    ready := r.ready
    inner := { c.inner with inbound := src } }

theorem onRecord_eq {c : ObfsTlsStream} {kind : UInt8} {payload rest : Bytes}
    (h : takeRecord c.raw = .ok (some (kind, payload, rest))) :
    ∃ s out, nextRecord c.expectServerReply c.raw = .unit s out rest ∧
      c.onRecord kind payload rest = c.withReader (c.reader.load s out rest) c.inner.inbound := by
  simp only [nextRecord, h, onRecord]
  split_ifs with hccs hhs hnil
  · exact ⟨_, _, rfl, rfl⟩
  · refine ⟨_, _, rfl, ?_⟩
    simp [withReader, reader, FrameReader.load, hhs.1]
  · refine ⟨_, _, rfl, ?_⟩
    simp [withReader, reader, FrameReader.load, hnil]
  · refine ⟨_, _, rfl, ?_⟩
    simp [withReader, FrameReader.load, hnil]

/-- `poll_read` cuts the transport into records. -/
theorem pollRead_eq (cap : Nat) (c : ObfsTlsStream) :
    c.pollRead cap =
      ((c.reader.poll recordFraming cutErr 8192 cap c.inner.inbound).1,
        c.withReader (c.reader.poll recordFraming cutErr 8192 cap c.inner.inbound).2.1
          (c.reader.poll recordFraming cutErr 8192 cap c.inner.inbound).2.2) := by
  fun_induction pollRead cap c with
  | case1 c hready =>
    rw [FrameReader.poll, if_pos (show c.reader.ready.pos < c.reader.ready.data.length from hready)]
    rfl
  | case2 c hready e he =>
    have hnext : recordFraming.next c.reader.state c.reader.raw = .fail e := by
      show nextRecord _ c.raw = _
      rw [nextRecord, he]
    rw [FrameReader.poll_fail hready hnext]
    rfl
  | case3 c hready kind payload raw hrec ih =>
    obtain ⟨s, out, hnext, honRecord⟩ := onRecord_eq hrec
    have hstep : c.reader.poll recordFraming cutErr 8192 cap c.inner.inbound =
        (c.reader.load s out raw).poll recordFraming cutErr 8192 cap c.inner.inbound :=
      FrameReader.poll_unit hready hnext
    rw [ih, hstep, honRecord]
    rfl
  | case4 c hready hrec src hread =>
    have hmore := nextRecord_more hrec c.expectServerReply
    rw [FrameReader.poll_more hready hmore, hread]
    rfl
  | case5 c hready hrec e src hread =>
    have hmore := nextRecord_more hrec c.expectServerReply
    rw [FrameReader.poll_more hready hmore, hread]
    rfl
  | case6 c hready hrec src hread =>
    have hmore := nextRecord_more hrec c.expectServerReply
    have hend : FrameReader.atEnd (cutErr c.reader.raw) =
        if c.raw = [] then .ready (.ok []) else .ready (.error truncatedErr) := by
      show FrameReader.atEnd (if c.raw = [] then none else some truncatedErr) = _
      split <;> rfl
    rw [FrameReader.poll_more hready hmore, hread]
    simp only [hend]
    rfl
  | case7 c hready hrec b bs src hread ih =>
    have hmore := nextRecord_more hrec c.expectServerReply
    have hstep : c.reader.poll recordFraming cutErr 8192 cap c.inner.inbound =
        FrameReader.poll recordFraming cutErr 8192 cap { c.reader with raw := c.raw ++ b :: bs } src := by
      rw [FrameReader.poll_more hready hmore, hread]
      rfl
    rw [ih, hstep]
    rfl

end ObfsTlsStream

/-! ## Records on the wire -/

/-- A record that fits the reader. -/
structure Record where
  kind : UInt8
  version : Bytes
  payload : Bytes
  version_length : version.length = 2
  le : payload.length ≤ MAX_TLS_DATA_LEN + 2048

def Record.encode (r : Record) : Bytes := record r.kind r.version r.payload

/-- The payload that the records carry for a reader. -/
def contents : Bool → List Record → Bytes
  | _, [] => []
  | expectServerReply, r :: rs =>
    if expectServerReply ∧ r.kind = REC_CHANGE_CIPHER_SPEC then contents false rs
    else if expectServerReply ∧ r.kind = REC_HANDSHAKE then contents true rs
    else r.payload ++ contents false rs

/-- The bytes end between two of the records. -/
def Between (rs : List Record) (p : Bytes) : Prop :=
  ∃ front, front <+: rs ∧ p = front.flatMap Record.encode

theorem contents_prefix (expect : Bool) {front rs : List Record} (h : front <+: rs) :
    contents expect front <+: contents expect rs := by
  obtain ⟨back, rfl⟩ := h
  induction front generalizing expect with
  | nil => exact List.nil_prefix
  | cons r front ih =>
    simp only [List.cons_append, contents]
    split_ifs
    · exact ih false
    · exact ih true
    · exact (List.prefix_append_right_inj _).mpr (ih false)

namespace Record

open ObfsTlsStream

variable (r : Record)

theorem length_encode : r.encode.length = REC_HEADER_LEN + r.payload.length :=
  length_record r.kind r.version_length

theorem encode_ne_nil : r.encode ≠ [] := List.cons_ne_nil _ _

/-- The parts of a record. -/
theorem encode_parts (bs : Bytes) : (r.encode ++ bs).getD 0 0 = r.kind ∧
    bodyLen (r.encode ++ bs) = r.payload.length ∧
    (r.encode ++ bs).drop REC_HEADER_LEN = r.payload ++ bs := by
  have hlen : r.payload.length < 256 ^ 2 := by
    have := r.le
    simp only [MAX_TLS_DATA_LEN] at this
    omega
  have hfront : (r.kind :: r.version).length = 3 := by rw [List.length_cons, r.version_length]
  have hfield : (Bytes.be 2 r.payload.length).length = 2 := Bytes.length_be _ _
  have hsplit : r.encode ++ bs =
      (r.kind :: r.version) ++ (Bytes.be 2 r.payload.length ++ (r.payload ++ bs)) := by
    simp [encode, record]
  refine ⟨by rw [hsplit]; rfl, ?_, ?_⟩
  · rw [bodyLen, hsplit, List.drop_left' hfront, List.take_left' hfield, Bytes.beNat_be hlen]
  · rw [hsplit, ← List.append_assoc, List.drop_left']
    rw [List.length_append, hfront, hfield, REC_HEADER_LEN]

theorem takeRecord_encode (bs : Bytes) :
    takeRecord (r.encode ++ bs) = .ok (some (r.kind, r.payload, bs)) := by
  obtain ⟨hkind, hbody, hdrop⟩ := r.encode_parts bs
  have hle := r.le
  have hlen : (r.encode ++ bs).length = REC_HEADER_LEN + r.payload.length + bs.length := by
    rw [List.length_append, length_encode]
  rw [takeRecord_eq, if_neg (by omega), hbody, if_neg (by omega), if_neg (by omega), hkind, hdrop,
    ← List.drop_drop, hdrop, List.take_left, List.drop_left]

/-- A part of a record waits for the rest. -/
theorem takeRecord_part {part : Bytes} (h : part <+: r.encode) (hne : part ≠ r.encode) :
    takeRecord part = .ok none := by
  have hlt := length_lt_of_isPrefix h hne
  have hle := r.le
  have hbody := (r.encode_parts []).2.1
  rw [List.append_nil] at hbody
  rw [length_encode] at hlt
  rw [takeRecord_eq]
  by_cases hshort : part.length < REC_HEADER_LEN
  · rw [if_pos hshort]
  · obtain ⟨rest, hrest⟩ := h
    rw [← hrest, bodyLen_append hshort] at hbody
    rw [if_neg hshort, hbody, if_neg (by omega), if_pos (by omega)]

end Record

namespace ObfsTlsStream

theorem reads_records (expect : Bool) (rs : List Record) (bs : Bytes) :
    ∃ outs t, recordFraming.Reads expect (rs.flatMap Record.encode ++ bs) outs t bs ∧
      outs.flatten = contents expect rs := by
  induction rs generalizing expect with
  | nil => exact ⟨[], expect, .refl, rfl⟩
  | cons r rs ih =>
    have hnext : nextRecord expect ((r :: rs).flatMap Record.encode ++ bs) =
        if expect ∧ r.kind = REC_CHANGE_CIPHER_SPEC then
          .unit false [] (rs.flatMap Record.encode ++ bs)
        else if expect ∧ r.kind = REC_HANDSHAKE then .unit true [] (rs.flatMap Record.encode ++ bs)
        else .unit false r.payload (rs.flatMap Record.encode ++ bs) := by
      rw [List.flatMap_cons, List.append_assoc, nextRecord, r.takeRecord_encode]
    rw [contents]
    split_ifs at hnext ⊢
    · obtain ⟨outs, t, hreads, hflat⟩ := ih false
      exact ⟨_, t, .unit hnext hreads, hflat⟩
    · obtain ⟨outs, t, hreads, hflat⟩ := ih true
      exact ⟨_, t, .unit hnext hreads, hflat⟩
    · obtain ⟨outs, t, hreads, hflat⟩ := ih false
      exact ⟨_, t, .unit hnext hreads, congrArg (r.payload ++ ·) hflat⟩

theorem nextRecord_nil (s : Bool) : nextRecord s [] = .more :=
  nextRecord_more rfl s

/-- Bytes that end behind a whole number of records leave none to be cut. -/
theorem eq_nil_of_between {expect t : Bool} {rs : List Record} {p left : Bytes} {outs : List Bytes}
    (hreads : recordFraming.Reads expect p outs t left) (hmore : nextRecord t left = .more)
    (h : Between rs p) : left = [] := by
  obtain ⟨front, -, rfl⟩ := h
  obtain ⟨outs', t', hreads', -⟩ := reads_records expect front []
  rw [List.append_nil] at hreads'
  exact (hreads.unique (Framing.stuck_of_more hmore) hreads'
    (Framing.stuck_of_more (nextRecord_nil t'))).2.2

theorem cutErr_eq_none {raw : Bytes} : cutErr raw = none ↔ raw = [] := by
  simp [cutErr]

/-- What a caller reads from the stream is what it reads from the records. -/
theorem drive_pollRead (caps : List Nat) (c : ObfsTlsStream) :
    (drive pollRead caps c).1 =
        (drive (fun cap s => FrameReader.poll recordFraming cutErr 8192 cap s.1 s.2) caps
          (c.reader, c.inner.inbound)).1 ∧
      (drive pollRead caps c).2.1 =
        (drive (fun cap s => FrameReader.poll recordFraming cutErr 8192 cap s.1 s.2) caps
          (c.reader, c.inner.inbound)).2.1 := by
  refine drive_part (fun c : ObfsTlsStream => (c.reader, c.inner.inbound)) (fun _ => True)
    (fun cap c _ => ?_) caps trivial
  rw [pollRead_eq]
  exact ⟨trivial, rfl, rfl⟩

/-- What a reader makes of the first bytes of some records. -/
theorem settled_records {c : ObfsTlsStream} {rs : List Record} (hraw : c.raw = [])
    (hu : ∀ e, .error e ∉ c.inner.inbound.arrivals)
    (hp : c.inner.inbound.content <+: rs.flatMap Record.encode) :
    ∃ front last, front <+: rs ∧ (c.inner.inbound.content = rs.flatMap Record.encode → front = rs) ∧
      (last = none ↔ Between rs c.inner.inbound.content) ∧
      (last = none ∨ last = some truncatedErr) ∧
      ∀ caps : List Nat, (∀ k ∈ caps, 0 < k) →
        FrameReader.Settled c.inner.inbound (c.ready.rest ++ contents c.expectServerReply front) last
          caps (drive pollRead caps c).1 (drive pollRead caps c).2.1 := by
  obtain ⟨front, back, part, rfl, hcontent, hpart⟩ := prefix_flatMap hp
  obtain ⟨outs, t, hreads, hflat⟩ := reads_records c.expectServerReply front part
  rw [← hcontent] at hreads
  have hmore : nextRecord t part = .more := by
    rcases hpart with rfl | ⟨r, rest, -, hpre, hne⟩
    · exact nextRecord_nil t
    · exact nextRecord_more (r.takeRecord_part hpre hne) t
  refine ⟨front, cutErr part, List.prefix_append _ _, fun hwhole => ?_, ?_, ?_, fun caps hcaps => ?_⟩
  · rw [hcontent, List.flatMap_append] at hwhole
    have heq : part = back.flatMap Record.encode := List.append_cancel_left hwhole
    cases back with
    | nil => exact (List.append_nil front).symm
    | cons r back =>
      rw [List.flatMap_cons] at heq
      have hlen := congrArg List.length heq
      rw [List.length_append] at hlen
      rcases hpart with rfl | ⟨r', rest, hback, hpre, hne⟩
      · exact absurd (List.append_eq_nil_iff.mp heq.symm).1 r.encode_ne_nil
      · cases hback
        have hlt := length_lt_of_isPrefix hpre hne
        omega
  · rw [cutErr_eq_none]
    constructor
    · rintro rfl
      exact ⟨front, List.prefix_append _ _, by rw [hcontent, List.append_nil]⟩
    · exact eq_nil_of_between hreads hmore
  · unfold cutErr
    split
    · exact .inl rfl
    · exact .inr rfl
  · obtain ⟨hlog, hout⟩ := drive_pollRead caps c
    have hreads' : recordFraming.Reads c.reader.state (c.reader.raw ++ c.inner.inbound.content) outs t
        part := by
      show recordFraming.Reads _ (c.raw ++ _) _ _ _
      rw [hraw]
      exact hreads
    rw [hlog, hout, ← hflat]
    exact FrameReader.settled (by decide) hu hreads' hmore hcaps

/-! ## Writing -/

/-- The types of the records behind the handshake. -/
def kinds (first : UInt8) : Nat → List UInt8
  | 0 => []
  | n + 1 => first :: List.replicate n REC_APP_DATA

theorem kinds_succ (first : UInt8) (n : Nat) :
    kinds first (n + 1) = kinds first n ++ [if n = 0 then first else REC_APP_DATA] := by
  cases n with
  | zero => rfl
  | succ n =>
    rw [kinds, kinds, List.replicate_succ', if_neg (Nat.succ_ne_zero n), List.cons_append]

/-- A stream that has put the records `rs` behind the bytes `head`. -/
structure Recorded (head : Bytes) (first : UInt8) (rs : List Record) (c : ObfsTlsStream) : Prop where
  bytes : c.produced = head ++ rs.flatMap Record.encode
  kinds : rs.map Record.kind = kinds first rs.length
  next : c.nextRecordType = if rs = [] then first else REC_APP_DATA
  willing : c.inner.outbound.Willing

/-- The record of a write. -/
def recordOf (kind : UInt8) (buf : Bytes) : Record where
  kind := kind
  version := [0x03, 0x03]
  payload := buf.take (min buf.length MAX_TLS_DATA_LEN)
  version_length := rfl
  le := by
    rw [List.length_take]
    omega

namespace Recorded

variable {head : Bytes} {first : UInt8} {rs : List Record} {c : ObfsTlsStream}

theorem flushOut (h : Recorded head first rs c) : Recorded head first rs c.flushOut.2 where
  bytes := c.produced_flushOut.trans h.bytes
  kinds := h.kinds
  next := h.next
  willing := willing_drainOut h.willing

theorem finish (h : Recorded head first rs c) : Recorded head first rs c.pollFinish.2 := by
  have hflush := h.flushOut
  unfold pollFinish
  revert hflush
  rcases c.flushOut with ⟨a, c'⟩
  intro hflush
  match a with
  | .pending | .ready (.error e) => exact hflush
  | .ready (.ok ()) =>
    refine ⟨?_, hflush.kinds, hflush.next, Sni.willing_finish hflush.willing⟩
    show c'.inner.outbound.finish.2.sent ++ c'.out.rest = _
    rw [Outbound.sent_finish]
    exact hflush.bytes

theorem queue (h : Recorded head first rs c) (hout : c.out = .empty) (buf : Bytes) :
    Recorded head first (rs ++ [recordOf c.nextRecordType buf]) (c.queue buf) where
  bytes := by
    have hbytes := h.bytes
    unfold produced at hbytes
    rw [hout, Cursor.rest_empty, List.append_nil] at hbytes
    show c.inner.outbound.sent ++ (recordOf c.nextRecordType buf).encode = _
    rw [hbytes, List.flatMap_append, List.flatMap_singleton, List.append_assoc]
  kinds := by
    have hnext := h.next
    simp only [List.map_append, List.map_cons, List.map_nil, List.length_append, List.length_cons,
      List.length_nil, h.kinds, kinds_succ, List.length_eq_zero_iff]
    rw [← hnext]
    rfl
  next := by
    rw [if_neg (by simp)]
    rfl
  willing := h.willing

/-- What the stream has accepted is the payload of its records. -/
def Carries (head : Bytes) (first : UInt8) (log : List Bytes) (c : ObfsTlsStream) : Prop :=
  ∃ rs, rs.map Record.payload = log ∧ Recorded head first rs c

theorem write (h : Recorded head first rs c) (buf : Bytes) :
    ByteWriter.Accepts (Carries head first) (rs.map Record.payload) buf (c.pollWrite buf) := by
  have hflush := h.flushOut
  have hcases : c.flushOut.1 = .ready (.ok ()) ∨ c.flushOut.1 = .pending := drainOut_willing h.willing
  have hempty : c.flushOut.1 = .ready (.ok ()) → c.flushOut.2.out = .empty := drainOut_empty
  unfold pollWrite
  revert hflush hcases hempty
  rcases c.flushOut with ⟨a, c'⟩
  rintro hflush (rfl | rfl) hempty
  · by_cases hnil : buf = []
    · simp only [if_pos hnil]
      exact ⟨rs, rfl, hflush⟩
    · simp only [if_neg hnil]
      have hpos : 0 < min buf.length MAX_TLS_DATA_LEN := by
        have := List.length_pos_iff.mpr hnil
        simp only [MAX_TLS_DATA_LEN]
        omega
      have hq := hflush.queue (hempty rfl) buf
      have hdone := hq.flushOut
      have hok : (c'.queue buf).flushOut.1 = .ready (.ok ()) ∨ (c'.queue buf).flushOut.1 = .pending :=
        drainOut_willing hq.willing
      have hlog : Carries head first
          (rs.map Record.payload ++ [buf.take (min buf.length MAX_TLS_DATA_LEN)])
          (c'.queue buf).flushOut.2 := ⟨_, by simp [recordOf], hdone⟩
      revert hok hlog
      rcases (c'.queue buf).flushOut with ⟨b, c''⟩
      rintro (rfl | rfl) hlog
      · exact .part rfl hpos hlog
      · exact .part rfl hpos hlog
  · exact ⟨rs, rfl, hflush⟩

end Recorded

/-- Over a transport that never fails, what is accepted stands in the records behind `head`. -/
theorem recorded_run {head : Bytes} {first : UInt8} {c : ObfsTlsStream}
    (h : Recorded head first [] c) (ops : List WriteOp) :
    Recorded.Carries head first (writer.run ops c).1 (writer.run ops c).2 := by
  refine ByteWriter.run_keeps (fun log s buf h => ?_) (fun log s h => ?_) (fun log s h => ?_) ops
    ⟨[], rfl, h⟩
  · obtain ⟨rs, rfl, h⟩ := h
    exact h.write buf
  all_goals
    obtain ⟨rs, hlog, h⟩ := h
    exact ⟨rs, hlog, h.finish⟩

/-- A flush that ends has handed over everything. -/
theorem sent_of_flushed {c : ObfsTlsStream} (h : c.pollFlush.1 = .ready (.ok ())) :
    c.pollFlush.2.inner.outbound.sent = c.produced := by
  have hp : c.flushOut.2.produced = c.produced := c.produced_flushOut
  have hempty : c.flushOut.1 = .ready (.ok ()) → c.flushOut.2.out = .empty := drainOut_empty
  unfold pollFlush pollFinish at h ⊢
  revert h hp hempty
  rcases c.flushOut with ⟨a, c'⟩
  match a with
  | .pending => exact fun h => by cases h
  | .ready (.error e) => exact fun h => by cases h
  | .ready (.ok ()) =>
    intro _ hp hempty
    rw [← hp, produced, hempty rfl, Cursor.rest_empty, List.append_nil]
    exact Outbound.sent_finish _

end ObfsTlsStream

end Obfs
end RtProxy
