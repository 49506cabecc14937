import RtProxy.Relay.Conn

/-!
Datagrams over a relay connection in UDP mode.

The bytes one end produces are its held-back header, if it has one, and a frame for
each datagram written.  The other end hands out exactly these datagrams, however the
bytes arrive and whatever buffers it reads into.  Where the stream is cut, the reader
reports a clean end between two frames, but also right after a length prefix, where
its buffer is empty as well.
-/

namespace RtProxy
namespace Relay

open ByteStream

/-- Which end writes. -/
inductive Role
  | client
  | server
deriving Repr, DecidableEq

namespace Role

/-- The header that goes out before the first frame. -/
def header : Role → Bytes
  | .client => []
  | .server => [RELAY_VERSION1, RELAY_STATUS_OK, 0x00, 0x00]

/-- The end that writes, on a transport that answers its writes with `grants`. -/
def conn (role : Role) (inner : Transport) : RelayConn :=
  match role with
  | .client => .client inner true
  | .server => .server inner true RELAY_STATUS_OK

def opposite : Role → Role
  | .client => .server
  | .server => .client

/-- Where the opposite end starts to read. -/
def start : Role → ReadState
  | .client => .length
  | .server => .response

end Role

def frame (d : Bytes) : Bytes := Bytes.be RELAY_DGRAM_LEN_SIZE d.length ++ d

/-- The bytes that carry the datagrams `ds`. -/
def stream (role : Role) (ds : List Bytes) : Bytes := role.header ++ ds.flatMap frame

/-- A datagram that can be framed. -/
def Fits (d : Bytes) : Prop := d ≠ [] ∧ d.length ≤ RELAY_MAX_DATAGRAM

/-! ## Writing -/

/-- A write in UDP mode queues a datagram that can be framed, or nothing. -/
theorem pollWrite_cases {c : RelayConn} (hu : c.udp = true) (buf : Bytes) :
    ((∀ n, (c.pollWrite buf).1 ≠ .ready (.ok (n + 1)))
        ∧ ((c.pollWrite buf).2 = c ∨ (c.pollWrite buf).2 = c.pollFlushOut.2))
      ∨ (Fits buf ∧ c.pollWrite buf = c.pollFlushOut.2.queue buf) := by
  unfold RelayConn.pollWrite
  by_cases hnil : buf = []
  · simp [hnil]
  by_cases hlong : c.udp = true ∧ buf.length > RELAY_MAX_DATAGRAM
  · simp [hnil, hlong]
  rw [if_neg hnil, if_neg hlong]
  rcases hf : c.pollFlushOut with ⟨a, c'⟩
  match a with
  | .pending | .ready (.error e) => simp
  | .ready (.ok ()) => exact .inr ⟨⟨hnil, by simpa [hu] using hlong⟩, rfl⟩

/-- A connection that has accepted the datagrams `ds` in UDP mode. -/
structure Framed (role : Role) (ds : List Bytes) (c : RelayConn) : Prop where
  udp : c.udp = true
  fits : ∀ d ∈ ds, Fits d
  bytes : (c.pendingHeader = role.header ∧ ds = [] ∧ c.produced = [])
    ∨ (c.pendingHeader = [] ∧ c.produced = stream role ds)

namespace Framed

variable {role : Role} {ds : List Bytes} {c : RelayConn}

/-- With the header queued, the bytes are those of the stream. -/
theorem stream (h : Framed role ds c) : c.produced ++ c.pendingHeader = stream role ds := by
  rcases h.bytes with ⟨hp, rfl, hb⟩ | ⟨hp, hb⟩
  · simp [hp, hb, Relay.stream]
  · simp [hp, hb]

theorem flushOut (h : Framed role ds c) : Framed role ds c.pollFlushOut.2 :=
  ⟨h.udp, h.fits, by simpa using h.bytes⟩

theorem finish (h : Framed role ds c) : Framed role ds c.pollFinish.2 := by
  obtain ⟨hb, hp, hu⟩ := c.pollFinish_spec
  exact ⟨hu.trans h.udp, h.fits, .inr ⟨hp, hb.trans h.stream⟩⟩

theorem queue (h : Framed role ds c) {buf : Bytes} (hfits : Fits buf) :
    Framed role (ds ++ [buf]) (c.queue buf).2 := by
  obtain ⟨-, hb, hp, hu⟩ := RelayConn.queue_udp h.udp buf
  refine ⟨hu, fun d hd => ?_, .inr ⟨hp, ?_⟩⟩
  · rcases List.mem_append.mp hd with hd | hd
    · exact h.fits d hd
    · rw [List.mem_singleton.mp hd]
      exact hfits
  · rw [hb, h.stream]
    simp [Relay.stream, frame, RELAY_DGRAM_LEN_SIZE]

theorem write (h : Framed role ds c) (buf : Bytes) :
    ByteWriter.Accepts (Framed role) ds buf (c.pollWrite buf) := by
  rcases pollWrite_cases h.udp buf with ⟨hrefused, hc | hc⟩ | ⟨hfits, hq⟩
  · exact .refused hrefused (by rwa [hc])
  · exact .refused hrefused (hc ▸ h.flushOut)
  · rw [hq]
    exact .whole (RelayConn.queue_udp h.flushOut.udp buf).1 hfits.1 (h.flushOut.queue hfits)

end Framed

/-- Whatever the transport does, the bytes produced carry the datagrams accepted. -/
theorem framed_run (role : Role) (inner : Transport) (hsent : inner.outbound.sent = [])
    (ops : List WriteOp) :
    Framed role (RelayConn.writer.run ops (role.conn inner)).1
      (RelayConn.writer.run ops (role.conn inner)).2 := by
  refine ByteWriter.run_keeps (fun _ _ buf h => h.write buf) (fun _ _ h => h.finish)
    (fun _ _ h => h.finish) ops ⟨?_, by simp, .inl ⟨?_, rfl, ?_⟩⟩
  all_goals cases role
  all_goals simp [Role.conn, RelayConn.client, RelayConn.server, RelayConn.produced, Role.header, hsent]

theorem produced_isPrefix {role : Role} {ds : List Bytes} {c : RelayConn} (h : Framed role ds c) :
    c.produced <+: stream role ds := by
  rw [← h.stream]
  exact List.prefix_append _ _

/-! ## Reading -/

/-- What the blocks of the datagrams put out. -/
def outputs (ds : List Bytes) : List Bytes := ds.flatMap fun d => [[], d]

theorem beNat_be {n : Nat} (h : n ≤ RELAY_MAX_DATAGRAM) :
    Bytes.beNat (Bytes.be RELAY_DGRAM_LEN_SIZE n) = n := by
  apply Bytes.beNat_be
  have : RELAY_MAX_DATAGRAM < 256 ^ RELAY_DGRAM_LEN_SIZE := by decide
  omega

/-- A length prefix is a block of its own. -/
theorem next_length {d : Bytes} (h : Fits d) (bs : Bytes) :
    (machine true).framing.next .length (Bytes.be RELAY_DGRAM_LEN_SIZE d.length ++ bs)
      = .unit (.payload d.length (List.length_pos_iff.mpr h.1)) [] bs := by
  refine Machine.next_whole rfl (Bytes.length_be _ _) ?_ bs
  have htake : (Bytes.be RELAY_DGRAM_LEN_SIZE d.length).take 2
      = Bytes.be RELAY_DGRAM_LEN_SIZE d.length :=
    List.take_of_length_le (Nat.le_of_eq (Bytes.length_be _ _))
  have hpos : 0 < d.length := List.length_pos_iff.mpr h.1
  simp only [machine, onBlock, htake, beNat_be h.2, hpos, dif_pos]

theorem next_payload {d : Bytes} (pos : 0 < d.length) (bs : Bytes) :
    (machine true).framing.next (.payload d.length pos) (d ++ bs) = .unit .length d bs :=
  Machine.next_whole rfl rfl rfl bs

theorem reads_frames {ds : List Bytes} (h : ∀ d ∈ ds, Fits d) (bs : Bytes) :
    (machine true).framing.Reads .length (ds.flatMap frame ++ bs) (outputs ds) .length bs := by
  induction ds with
  | nil => exact .refl
  | cons d ds ih =>
    have hd : Fits d := h d (by simp)
    rw [List.flatMap_cons, List.append_assoc, frame, List.append_assoc]
    refine .unit (next_length hd _) (.unit (next_payload _ _) ?_)
    exact ih fun d' hd' => h d' (List.mem_cons_of_mem _ hd')

/-- What is put out before the first datagram. -/
def preamble : Role → List Bytes
  | .client => []
  | .server => [[]]

theorem reads_header (role : Role) (bs : Bytes) :
    (machine true).framing.Reads role.start (role.header ++ bs) (preamble role) .length bs := by
  cases role with
  | client => exact .refl
  | server => exact .unit rfl .refl

theorem reads_stream (role : Role) {ds : List Bytes} (h : ∀ d ∈ ds, Fits d) (bs : Bytes) :
    (machine true).framing.Reads role.start (stream role ds ++ bs) (preamble role ++ outputs ds)
      .length bs := by
  rw [stream, List.append_assoc]
  exact (reads_header role _).trans (reads_frames h bs)

theorem filter_outputs (role : Role) {ds : List Bytes} (h : ∀ d ∈ ds, Fits d) :
    (preamble role ++ outputs ds).filter (· ≠ []) = ds := by
  have hpre : (preamble role).filter (· ≠ []) = [] := by cases role <;> rfl
  rw [List.filter_append, hpre, List.nil_append]
  induction ds with
  | nil => rfl
  | cons d ds ih =>
    have hd : d ≠ [] := (h d (by simp)).1
    have hds := ih fun d' hd' => h d' (List.mem_cons_of_mem _ hd')
    rw [outputs] at hds ⊢
    simpa [hd] using hds

/-! ## A stream that ends early -/

/-- The stream ends between two frames. -/
def Boundary (role : Role) (ds : List Bytes) (p : Bytes) : Prop :=
  ∃ front back, ds = front ++ back ∧ p = stream role front

/-- The stream ends right after a length prefix. -/
def AfterLength (role : Role) (ds : List Bytes) (p : Bytes) : Prop :=
  ∃ front d back, ds = front ++ d :: back
    ∧ p = stream role front ++ Bytes.be RELAY_DGRAM_LEN_SIZE d.length

/-- The datagrams whose frames have arrived whole. -/
def Arrived (role : Role) (ds : List Bytes) (p : Bytes) (front : List Bytes) : Prop :=
  ∃ back, ds = front ++ back ∧ (front = [] ∨ stream role front <+: p)
    ∧ ∀ d rest, back = d :: rest → ¬ stream role (front ++ [d]) <+: p

theorem stream_concat (role : Role) (front : List Bytes) (d : Bytes) :
    stream role (front ++ [d]) = stream role front ++ frame d := by
  simp [stream]

theorem length_frame (d : Bytes) : (frame d).length = RELAY_DGRAM_LEN_SIZE + d.length := by
  rw [frame, List.length_append, Bytes.length_be]

/-- Behind the frames of `front` there is a part of the next frame. -/
theorem arrived_of_part {role : Role} {front back : List Bytes} {part : Bytes}
    (hpart : part = [] ∨ ∃ d rest, back = d :: rest ∧ part <+: frame d ∧ part ≠ frame d) :
    Arrived role (front ++ back) (stream role front ++ part) front := by
  refine ⟨back, rfl, .inr (List.prefix_append _ _), fun d rest hback hpre => ?_⟩
  rw [stream_concat, List.prefix_append_right_inj] at hpre
  rcases hpart with rfl | ⟨d', rest', hback', hpart, hne⟩
  · have hlen := hpre.length_le
    rw [length_frame, List.length_nil, RELAY_DGRAM_LEN_SIZE] at hlen
    omega
  · rw [hback] at hback'
    cases hback'
    exact hne (hpart.eq_of_length_le hpre.length_le)

/-- Nothing has arrived behind a part of the header. -/
theorem arrived_of_header {role : Role} {ds : List Bytes} {p : Bytes} (hp : p <+: role.header) :
    Arrived role ds p [] := by
  refine ⟨ds, rfl, .inl rfl, fun d rest _ hpre => ?_⟩
  have hlen := hpre.length_le
  have hle := hp.length_le
  rw [stream_concat, List.length_append, length_frame, stream, List.length_append,
    RELAY_DGRAM_LEN_SIZE] at hlen
  omega

/-- Where the bytes `p` leave the reader: what was put out, its state and its buffer. -/
inductive Left (role : Role) (ds : List Bytes) (p : Bytes) : List Bytes → ReadState → Bytes → Prop
  | header (hp : p <+: role.header) (hne : p ≠ role.header) : Left role ds p [] .response p
  | boundary {front back : List Bytes} (hds : ds = front ++ back) (hp : p = stream role front) :
      Left role ds p (preamble role ++ outputs front) .length []
  | afterLength {front back : List Bytes} {d : Bytes} (hds : ds = front ++ d :: back)
      (hp : p = stream role front ++ Bytes.be RELAY_DGRAM_LEN_SIZE d.length) (pos : 0 < d.length) :
      Left role ds p (preamble role ++ outputs front ++ [[]]) (.payload d.length pos) []
  | inLength {front back : List Bytes} {left : Bytes} (hds : ds = front ++ back) (hne : left ≠ []) :
      Left role ds p (preamble role ++ outputs front) .length left
  | inPayload {front back : List Bytes} {left : Bytes} {n : Nat} (hds : ds = front ++ back)
      (pos : 0 < n) (hne : left ≠ []) :
      Left role ds p (preamble role ++ outputs front ++ [[]]) (.payload n pos) left

theorem short_block {s : ReadState} {need : Nat} {pos : 0 < need} {left : Bytes}
    (hm : s.mode = .block need pos) (hlt : left.length < need) : (machine true).Short s left := by
  intro need' pos' hm'
  change s.mode = _ at hm'
  rw [hm] at hm'
  cases hm'
  exact hlt

theorem reads_prefix {role : Role} {ds : List Bytes} {p : Bytes} (h : ∀ d ∈ ds, Fits d)
    (hp : p <+: stream role ds) :
    ∃ outs t left, (machine true).framing.Reads role.start p outs t left
      ∧ (machine true).Short t left ∧ Left role ds p outs t left
      ∧ Arrived role ds p (outs.filter (· ≠ [])) := by
  rcases prefix_append_cases hp with ⟨hhead, hne⟩ | ⟨q, rfl, hq⟩
  · cases role with
    | client => exact absurd (List.prefix_nil.mp hhead) hne
    | server =>
      refine ⟨[], .response, p, .refl, ?_, .header hhead hne, arrived_of_header hhead⟩
      exact short_block rfl (length_lt_of_isPrefix hhead hne)
  · obtain ⟨front, back, part, rfl, rfl, hpart⟩ := prefix_flatMap hq
    have hfront : ∀ d ∈ front, Fits d := fun d hd => h d (List.mem_append_left _ hd)
    have hreads := reads_stream role hfront part
    have harrived : Arrived role (front ++ _) (stream role front ++ part) front := arrived_of_part hpart
    rw [stream, List.append_assoc] at hreads harrived
    have houts := filter_outputs role hfront
    rcases hpart with rfl | ⟨d, rest, rfl, hpre, hne⟩
    · exact ⟨_, _, _, hreads, short_block rfl (by decide), .boundary rfl (by simp [stream]),
        houts.symm ▸ harrived⟩
    · have hd : Fits d := h d (by simp)
      have hlen : (Bytes.be RELAY_DGRAM_LEN_SIZE d.length).length = RELAY_DGRAM_LEN_SIZE :=
        Bytes.length_be _ _
      rcases prefix_append_cases hpre with ⟨hl, hlne⟩ | ⟨q, rfl, hq'⟩
      · refine ⟨_, _, _, hreads, short_block rfl ?_, ?_, houts.symm ▸ harrived⟩
        · have := length_lt_of_isPrefix hl hlne
          omega
        · by_cases hnil : part = []
          · exact hnil ▸ .boundary rfl (by simp [stream])
          · exact .inLength rfl hnil
      · have hqne : q ≠ d := fun heq => hne (by rw [heq, frame])
        have houts' : (preamble role ++ outputs front ++ [[]]).filter (· ≠ []) = front := by
          rw [List.filter_append, houts]
          simp
        refine ⟨_, _, _, hreads.tail (next_length hd q), ?_, ?_, houts'.symm ▸ harrived⟩
        · exact short_block rfl (length_lt_of_isPrefix hq' hqne)
        · by_cases hnil : q = []
          · subst hnil
            exact .afterLength rfl (by simp [stream]) _
          · exact .inPayload rfl _ hnil

/-- What the opposite end reads from `src` with buffers of the sizes `caps`. -/
def reads (role : Role) (src : Inbound IoError) (caps : List Nat) :
    List Bytes × Outcome IoError × RelayConn :=
  drive RelayConn.pollRead caps (role.opposite.conn (.new src []))

/-- What the caller of the opposite end gets of the datagrams `ds` when `p` arrives. -/
structure Gets (role : Role) (ds : List Bytes) (p : Bytes) (src : Inbound IoError)
    (caps : List Nat) : Prop where
  pieces : ∃ more, PiecesOf ((reads role src caps).1 ++ more) ds
  /-- After enough reads it has got all that has arrived, whether the stream ends or not. -/
  whole : src.waits + p.length ≤ caps.length ∨ (reads role src caps).2.1 ≠ .running →
    ∃ front, Arrived role ds p front ∧ PiecesOf (reads role src caps).1 front
  ended : (reads role src caps).2.1 = .ended → Boundary role ds p
  failed : ∀ e, (reads role src caps).2.1 = .failed e →
    e.kind = .unexpectedEof ∧ ¬ Boundary role ds p
  stops : src.closed = true → src.waits + p.length < caps.length →
    (reads role src caps).2.1 ≠ .running

/-- The opposite end hands out the datagrams `ds` from a stream that brings `p`, and it
reports a clean end exactly when that is between two frames. -/
def Faithful (role : Role) (ds : List Bytes) (p : Bytes) : Prop :=
  ∀ src caps, src.content = p → (∀ e, .error e ∉ src.arrivals) → (∀ c ∈ caps, 0 < c) →
    Gets role ds p src caps

section

variable {role : Role} {ds : List Bytes} {p : Bytes} {outs : List Bytes} {t : ReadState}
  {left : Bytes} {src : Inbound IoError} {caps : List Nat}

/-- The connection reads as its block reader does. -/
theorem reads_eq (role : Role) (src : Inbound IoError) (caps : List Nat) :
    (reads role src caps).1 = (drive (fun cap s => (machine true).poll cap s.1 s.2) caps
        (Reader.new role.start, src)).1
      ∧ (reads role src caps).2.1 = (drive (fun cap s => (machine true).poll cap s.1 s.2) caps
        (Reader.new role.start, src)).2.1 := by
  have hview : (Reader.new role.start, src) = ((role.opposite.conn (.new src [])).reader,
      (role.opposite.conn (.new src [])).inner.inbound) := by
    cases role <;> rfl
  rw [hview]
  refine drive_part (fun c : RelayConn => (c.reader, c.inner.inbound)) (fun c => c.udp = true)
    (fun cap c hu => ?_) caps (by cases role <;> rfl)
  simp [RelayConn.pollRead, hu]

/-- A connection in UDP mode never reads raw bytes. -/
theorem mode_ne_raw (role : Role) {bs : Bytes}
    (h : (machine true).framing.Reads role.start bs outs t left) :
    (machine true).mode t ≠ .raw := by
  have hstep : ∀ {s s' : ReadState} {bs out rest : Bytes}, s ≠ .raw →
      (machine true).framing.next s bs = .unit s' out rest → s' ≠ .raw := by
    intro s s' bs out rest hs hn
    have hmore : (machine true).next s bs ≠ .more := by
      rw [← Machine.framing_next, hn]
      simp
    obtain ⟨need, pos, hm, hlen, -, -⟩ := Machine.next_append hmore []
    rw [Machine.framing_next, Machine.next_block hm hlen] at hn
    cases s with
    | raw => exact absurd rfl hs
    | eof => cases hm
    | payload n pos' => cases hn; simp
    | length =>
      simp only [machine, onBlock] at hn
      split_ifs at hn <;> cases hn <;> simp
    | responseFeatures n pos' => cases hn; simp [dataPhase]
    | response =>
      simp only [machine, onBlock] at hn
      split_ifs at hn <;> cases hn <;> simp [dataPhase]
  have hne : t ≠ .raw := by
    have hs : role.start ≠ .raw := by cases role <;> simp [Role.start]
    revert hs
    generalize role.start = s at h
    induction h with
    | refl => exact id
    | unit hn _ ih => exact fun hs => ih (hstep hs hn)
  cases t <;> simp_all [machine, ReadState.mode]

theorem onBlock_length_le (s : ReadState) (bs : Bytes) (s' : ReadState) (out : Bytes)
    (h : (machine true).block s bs = (s', .ok out)) : out.length ≤ bs.length := by
  cases s with
  | payload dlen pos =>
    cases h
    exact Nat.le_refl _
  | raw | eof | responseFeatures =>
    cases h
    exact Nat.zero_le _
  | response | length =>
    simp only [machine, onBlock] at h
    split_ifs at h <;> cases h <;> exact Nat.zero_le _

theorem flatten_le {s : ReadState} {bs : Bytes}
    (h : (machine true).framing.Reads s bs outs t left) : outs.flatten.length ≤ bs.length :=
  h.flatten_le (Machine.next_length_le onBlock_length_le)

/-- A stream that ends between two frames leaves the reader in front of the next. -/
theorem left_of_boundary (h : ∀ d ∈ ds, Fits d)
    (hreads : (machine true).framing.Reads role.start p outs t left)
    (hshort : (machine true).Short t left) (hb : Boundary role ds p) : t = .length ∧ left = [] := by
  obtain ⟨front, back, hds, rfl⟩ := hb
  have hfront : ∀ d ∈ front, Fits d := fun d hd => h d (hds ▸ List.mem_append_left _ hd)
  have hr := reads_stream role hfront []
  rw [List.append_nil] at hr
  have hs : (machine true).Short .length [] := Machine.short_nil _
  obtain ⟨-, rfl, rfl⟩ := hreads.unique (Machine.stuck_of_short hshort) hr (Machine.stuck_of_short hs)
  exact ⟨rfl, rfl⟩

theorem unexpectedEof_of_onEnded {e : IoError} (h : onEnded t left = .error e) :
    e.kind = .unexpectedEof ∧ ¬ (t = .length ∧ left = []) := by
  cases t with
  | response | responseFeatures =>
    cases h
    simp [closedErr]
  | raw | length | payload | eof =>
    simp only [onEnded] at h
    split_ifs at h
    cases h
    simp_all [truncatedErr]

theorem faithful_of_reads (h : ∀ d ∈ ds, Fits d)
    (hreads : (machine true).framing.Reads role.start p outs t left)
    (hshort : (machine true).Short t left) (hl : Left role ds p outs t left)
    (harrived : Arrived role ds p (outs.filter (· ≠ []))) (hcut : ¬ AfterLength role ds p) :
    Faithful role ds p := by
  intro src caps hcontent hu hcaps
  obtain ⟨hlog, hout⟩ := reads_eq role src caps
  obtain ⟨rest, hrest, -⟩ := id harrived
  have hreads' := hreads
  rw [← hcontent] at hreads'
  have hraw : ∀ outs t left, (machine true).framing.Reads role.start src.content outs t left →
      (machine true).mode t ≠ .raw := fun _ _ _ hr => mode_ne_raw role hr
  have hle := flatten_le hreads
  obtain ⟨hgo, hended, hfailed⟩ := Machine.settled hu hraw hreads' hshort hcaps rfl
  rw [← hlog] at hgo
  rw [← hlog, ← hout] at hended hfailed
  refine ⟨?_, fun hall => ⟨_, harrived, ?_⟩, fun ho => ?_, fun e ho => ?_, fun hclosed hlen => ?_⟩
  · obtain ⟨outs', more, ready, rfl, hh⟩ := hgo
    obtain ⟨pieces, hpieces⟩ := hh.goes_on (more.filter (· ≠ []) ++ rest)
    rw [← List.append_assoc, ← List.filter_append, ← hrest] at hpieces
    exact ⟨pieces, hpieces⟩
  · rcases hall with hlen | hstop
    · rw [hlog]
      exact Machine.drive_delivers hu hraw hreads' hshort hcaps (by omega)
    · cases ho : (reads role src caps).2.1 with
      | running => exact absurd ho hstop
      | ended => exact (hended ho).1.pieces
      | failed e => exact (hfailed e ho).1.pieces
  · obtain ⟨-, hend⟩ := hended ho
    cases hl with
    | header | inLength _ hne | inPayload _ _ hne =>
      rcases hend with hm | ⟨t', ht'⟩
      · simp [machine, ReadState.mode] at hm
      · simp_all [machine, onEnded]
    | boundary hds hp => exact ⟨_, _, hds, hp⟩
    | afterLength hds hp => exact absurd ⟨_, _, _, hds, hp⟩ hcut
  · have he := unexpectedEof_of_onEnded (hfailed e ho).2
    exact ⟨he.1, fun hb => he.2 (left_of_boundary h hreads hshort hb)⟩
  · rw [hout]
    exact Machine.drive_stops hu hclosed hraw hreads' (Machine.stuck_of_short hshort) hcaps
      (by omega)

/-- Right after a length prefix the reader reports a clean end. -/
theorem not_faithful_of_afterLength (h : ∀ d ∈ ds, Fits d) (hcut : AfterLength role ds p) :
    ¬ Faithful role ds p := by
  intro hf
  obtain ⟨front, d, back, hds, hp⟩ := hcut
  have hd : Fits d := h d (by simp [hds])
  have hfront : ∀ d ∈ front, Fits d := fun d hd => h d (hds ▸ List.mem_append_left _ hd)
  have hreads : (machine true).framing.Reads role.start p
      (preamble role ++ outputs front ++ [[]])
      (.payload d.length (List.length_pos_iff.mpr hd.1)) [] := by
    have hlen := next_length hd []
    rw [List.append_nil] at hlen
    exact hp ▸ (reads_stream _ hfront _).tail hlen
  have hshort : (machine true).Short (.payload d.length (List.length_pos_iff.mpr hd.1)) [] :=
    Machine.short_nil _
  -- read byte by byte, often enough to get to the end
  let src : Inbound IoError := ⟨Arrival.ofBytes p, true⟩
  have hsrc : src.Delivers p := Inbound.delivers_ofBytes p
  obtain ⟨caps, hcaps, hlen⟩ : ∃ caps : List Nat, (∀ c ∈ caps, 0 < c)
      ∧ src.waits + p.length < caps.length :=
    ⟨List.replicate (src.waits + p.length + 1) 1, by simp,
      by rw [List.length_replicate]; omega⟩
  have hgets := hf src caps hsrc.content hsrc.unfailing hcaps
  cases ho : (reads role src caps).2.1 with
  | running => exact hgets.stops hsrc.closed hlen ho
  | ended => cases (left_of_boundary h hreads hshort (hgets.ended ho)).1
  | failed e =>
    rw [(reads_eq role src caps).2] at ho
    rw [← hsrc.content] at hreads
    obtain ⟨-, -, hfail⟩ := Machine.settled hsrc.unfailing
      (fun outs t left hr => mode_ne_raw role hr) hreads hshort hcaps rfl
    simpa [machine, onEnded] using (hfail e ho).2

theorem faithful_iff (h : ∀ d ∈ ds, Fits d) (hp : p <+: stream role ds) :
    Faithful role ds p ↔ ¬ AfterLength role ds p := by
  constructor
  · exact fun hf hcut => not_faithful_of_afterLength h hcut hf
  · intro hcut
    obtain ⟨outs, t, left, hreads, hshort, hl, harrived⟩ := reads_prefix h hp
    exact faithful_of_reads h hreads hshort hl harrived hcut

end

/-! ## From one end to the other -/

/-- The connection after the calls `ops`. -/
def writing (role : Role) (src : Inbound IoError) (grants : List (Grant IoError))
    (ops : List WriteOp) : RelayConn :=
  (RelayConn.writer.run ops (role.conn (.new src grants))).2

/-- The datagrams a connection accepts and the bytes it produces for them. -/
def written (role : Role) (src : Inbound IoError) (grants : List (Grant IoError))
    (ops : List WriteOp) : List Bytes × Bytes :=
  ((RelayConn.writer.run ops (role.conn (.new src grants))).1, (writing role src grants ops).produced)

/-- A flush that ends has handed over the datagrams `ds`, and it ends if the transport takes
something at every poll. -/
structure Flushes (role : Role) (ds : List Bytes) (c : RelayConn) : Prop where
  sent : c.pollFlush.1 = .ready (.ok ()) → c.pollFlush.2.inner.outbound.sent = stream role ds
  ends : c.inner.outbound.Ready ((stream role ds).length + 1) → c.pollFlush.1 = .ready (.ok ())

theorem Framed.flushes {role : Role} {ds : List Bytes} {c : RelayConn} (h : Framed role ds c) :
    Flushes role ds c := by
  refine ⟨fun hok => ?_, fun hready => RelayConn.pollFinish_ready ?_⟩
  · rw [← h.stream]
    exact RelayConn.sent_of_finished hok
  · rwa [h.stream]

/-- A datagram is accepted as a whole or not at all. -/
theorem written_sublist (role : Role) (src : Inbound IoError) (grants : List (Grant IoError))
    (ops : List WriteOp) : (written role src grants ops).1.Sublist (ByteWriter.offered ops) := by
  refine ByteWriter.run_sublist (fun c : RelayConn => c.udp = true) (fun c buf hu => ?_)
    (fun c hu => c.pollFinish_spec.2.2.trans hu) (fun c hu => c.pollFinish_spec.2.2.trans hu) ops
    (by cases role <;> rfl)
  show (c.pollWrite buf).2.udp = true ∧ ∀ n, (c.pollWrite buf).1 = _ → _
  rcases pollWrite_cases hu buf with ⟨hrefused, hc | hc⟩ | ⟨-, hq⟩
  · exact ⟨by rwa [hc], fun n hn => absurd hn (hrefused n)⟩
  · exact ⟨hc ▸ hu, fun n hn => absurd hn (hrefused n)⟩
  · obtain ⟨ha, -, -, hu'⟩ := RelayConn.queue_udp (c := c.pollFlushOut.2) hu buf
    rw [hq, ha]
    exact ⟨hu', fun n hn => by simpa using hn.symm⟩

/-- Whatever the writer's transport takes and wherever the stream is cut, the datagrams
accepted are handed over when a flush says so, and they arrive whole and in order, except that
a stream cut right after a length prefix seems to end in order. -/
theorem udp_framing (role : Role) (src : Inbound IoError) (grants : List (Grant IoError))
    (ops : List WriteOp) {p : Bytes} (hp : p <+: (written role src grants ops).2) :
    (written role src grants ops).1.Sublist (ByteWriter.offered ops)
      ∧ Flushes role (written role src grants ops).1 (writing role src grants ops)
      ∧ (Faithful role (written role src grants ops).1 p
          ↔ ¬ AfterLength role (written role src grants ops).1 p) := by
  have hw := framed_run role (.new src grants) rfl ops
  exact ⟨written_sublist role src grants ops, hw.flushes,
    faithful_iff hw.fits (hp.trans (produced_isPrefix hw))⟩

theorem written_hi : written .client ⟨[], false⟩ [.accept 4, .accept 1] [.write [0x68, 0x69]]
    = ([[0x68, 0x69]], [0x00, 0x02, 0x68, 0x69]) := by
  simp [written, writing, RelayConn.writer, ByteWriter.run, Role.conn, RelayConn.client,
    RelayConn.pollWrite, RelayConn.pollFlushOut, RelayConn.queue, RelayConn.queuePendingHeader,
    RELAY_MAX_DATAGRAM, drainOut, flush, Transport.new, Outbound.write, Cursor.advance,
    Cursor.append, Cursor.empty, Cursor.rest, RelayConn.produced, Bytes.be, Bytes.le]

theorem flush_hi : (writing .client ⟨[], false⟩ [.accept 4, .accept 1]
    [.write [0x68, 0x69]]).pollFlush.1 = .ready (.ok ()) := by
  simp [writing, RelayConn.writer, ByteWriter.run, Role.conn, RelayConn.client,
    RelayConn.pollWrite, RelayConn.pollFlushOut, RelayConn.queue, RelayConn.queuePendingHeader,
    RELAY_MAX_DATAGRAM, drainOut, flush, Transport.new, Outbound.write, Cursor.advance,
    Cursor.append, Cursor.empty, Cursor.rest, RelayConn.pollFlush, RelayConn.pollFinish,
    Outbound.finish, Bytes.be, Bytes.le]

/-- A datagram that is flushed and arrives whole. -/
theorem udp_framing_whole :
    (writing .client ⟨[], false⟩ [.accept 4, .accept 1]
        [.write [0x68, 0x69]]).pollFlush.2.inner.outbound.sent = [0x00, 0x02, 0x68, 0x69]
      ∧ Faithful .client [[0x68, 0x69]] [0x00, 0x02, 0x68, 0x69] := by
  obtain ⟨-, hflush, hfaithful⟩ := udp_framing .client ⟨[], false⟩ [.accept 4, .accept 1]
    [.write [0x68, 0x69]] (p := [0x00, 0x02, 0x68, 0x69]) (by simp [written_hi])
  rw [written_hi] at hflush hfaithful
  refine ⟨hflush.sent flush_hi, hfaithful.mpr ?_⟩
  rintro ⟨front, d, back, hds, hp⟩
  obtain ⟨rfl, rfl, rfl⟩ : front = [] ∧ d = [0x68, 0x69] ∧ back = [] := by
    cases front <;> simp_all
  cases hp

/-- A stream cut right after the length prefix of a datagram seems to end in order. -/
theorem udp_framing_cut :
    [0x00, 0x02] <+:
        (written .client ⟨[], false⟩ [.accept 4, .accept 1] [.write [0x68, 0x69]]).2
      ∧ ¬ Faithful .client
        (written .client ⟨[], false⟩ [.accept 4, .accept 1] [.write [0x68, 0x69]]).1
        [0x00, 0x02] := by
  rw [written_hi]
  refine ⟨by simp, not_faithful_of_afterLength ?_ ⟨[], [0x68, 0x69], [], rfl, by decide⟩⟩
  simp [Fits, RELAY_MAX_DATAGRAM]

end Relay
end RtProxy
