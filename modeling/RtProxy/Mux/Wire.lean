import RtProxy.Mux.Refine

/-!
What a session writes to its transport, and what it makes of the bytes that
arrive.

`Outgoing` says that the bytes written are a prefix of the encoding of the frames
the writer has taken, and that the frames pushed on the data lane leave in the
order they were pushed, with only NOPs between them.  `Incoming` says that the
frames the reader has consumed account for all the bytes it has taken off the
transport.  Both hold of a session alone, whatever its peer does.

Frames are self-delimiting, so bytes that are a prefix of an encoding decode to a
prefix of its frames (`isPrefix_of_rawAll`).
-/

namespace RtProxy
namespace Mux

open Session

/-- A frame as it lies on the wire: the header and the bytes after it. -/
def rawAll (l : List (MuxHeader × Bytes)) : Bytes := l.flatMap fun x => x.1.encode ++ x.2

def MuxFrame.raw (f : MuxFrame) : MuxHeader × Bytes := (f.header, f.data)

@[simp] theorem rawAll_append (l l' : List (MuxHeader × Bytes)) :
    rawAll (l ++ l') = rawAll l ++ rawAll l' := List.flatMap_append

/-- A frame this code sends: only PSH carries a payload, and it fits its length
field. -/
def Sendable (f : MuxFrame) : Prop :=
  (f.cmd = CMD_SYN ∨ f.cmd = CMD_FIN ∨ f.cmd = CMD_NOP) ∧ f.data = []
    ∨ f.cmd = CMD_PSH ∧ f.data.length ≤ MAX_FRAME_DATA

/-- The reader reads as many bytes after a header as the sender put there. -/
theorem Sendable.length_data {f : MuxFrame} (h : Sendable f) : f.data.length = want f.header := by
  unfold want
  rcases h with ⟨hcmd, hdata⟩ | ⟨hcmd, hlen⟩
  · have hnot : f.header.cmd ≠ CMD_PSH ∧ f.header.cmd ≠ CMD_UPD := by
      show f.cmd ≠ CMD_PSH ∧ f.cmd ≠ CMD_UPD
      rcases hcmd with h | h | h <;> rw [h] <;> decide
    rw [if_neg hnot.1, if_neg hnot.2, hdata]
    rfl
  · rw [if_pos (show f.header.cmd = CMD_PSH from hcmd)]
    show _ = (UInt16.ofNat f.data.length).toNat
    rw [UInt16.toNat_ofNat_of_lt']
    unfold MAX_FRAME_DATA at hlen
    simp only [UInt16.size]
    omega

theorem header_injective {h h' : MuxHeader} (he : h.encode = h'.encode) : h = h' := by
  rw [← MuxHeader.decode_encode h, he, MuxHeader.decode_encode]

/-- Bytes that are a prefix of an encoding hold a prefix of its frames. -/
theorem isPrefix_of_rawAll {l : List (MuxHeader × Bytes)} {frames : List MuxFrame}
    (hl : ∀ x ∈ l, x.2.length = want x.1) (hf : ∀ f ∈ frames, Sendable f)
    (h : rawAll l <+: rawAll (frames.map MuxFrame.raw)) : l <+: frames.map MuxFrame.raw := by
  induction l generalizing frames with
  | nil => exact List.nil_prefix
  | cons x l ih =>
    obtain ⟨hdr, data⟩ := x
    cases frames with
    | nil =>
      have hlen := h.length_le
      rw [show rawAll ((hdr, data) :: l) = (hdr.encode ++ data) ++ rawAll l from rfl] at hlen
      simp only [List.length_append, MuxHeader.length_encode, HEADER_SIZE, List.map_nil] at hlen
      exact absurd hlen (by simp [rawAll])
    | cons f frames =>
      have hcons : hdr.encode ++ (data ++ rawAll l)
          <+: f.header.encode ++ (f.data ++ rawAll (frames.map MuxFrame.raw)) := by
        rw [← List.append_assoc, ← List.append_assoc]
        exact h
      -- the headers have the same length, so they agree, and so do the payloads
      have hlen : hdr.encode.length = f.header.encode.length := by
        rw [MuxHeader.length_encode, MuxHeader.length_encode]
      obtain ⟨rest, hrest⟩ := hcons
      rw [List.append_assoc] at hrest
      obtain ⟨hhead, hbody⟩ := List.append_inj hrest hlen
      have hhdr : hdr = f.header := header_injective hhead
      have hdata : data.length = f.data.length := by
        rw [(hf f List.mem_cons_self).length_data, ← hhdr]
        exact hl (hdr, data) List.mem_cons_self
      rw [List.append_assoc] at hbody
      obtain ⟨hsame, htail⟩ := List.append_inj hbody hdata
      have hrec := ih (fun x hx => hl x (List.mem_cons_of_mem _ hx))
        (fun g hg => hf g (List.mem_cons_of_mem _ hg)) ⟨rest, htail⟩
      rw [List.map_cons, hhdr, hsame]
      exact List.cons_prefix_cons.mpr ⟨rfl, hrec⟩

theorem encodeInto_iff {f : MuxFrame} {acc out : Bytes} :
    f.encodeInto acc = .ok out ↔
      f.data.length ≤ MAX_FRAME_DATA ∧ out = acc ++ (f.header.encode ++ f.data) := by
  unfold MuxFrame.encodeInto
  split
  · next h =>
    constructor
    · intro h
      cases h
    · rintro ⟨hle, -⟩
      exact absurd hle (Nat.not_le_of_lt h)
  · next h =>
    rw [← List.append_assoc]
    constructor
    · intro h'
      cases h'
      exact ⟨Nat.le_of_not_lt h, rfl⟩
    · rintro ⟨-, rfl⟩
      rfl

theorem encodeFrom_iff {l : List MuxFrame} {acc out : Bytes} :
    l.foldlM (fun out f => f.encodeInto out) acc = .ok out ↔
      (∀ f ∈ l, f.data.length ≤ MAX_FRAME_DATA) ∧ out = acc ++ rawAll (l.map MuxFrame.raw) := by
  induction l generalizing acc out with
  | nil =>
    constructor
    · intro h
      cases h
      exact ⟨nofun, (List.append_nil _).symm⟩
    · rintro ⟨-, rfl⟩
      exact congrArg Except.ok (List.append_nil _).symm
  | cons f l ih =>
    rw [List.foldlM_cons, List.forall_mem_cons, List.map_cons]
    have hraw : rawAll (f.raw :: l.map MuxFrame.raw) =
        f.header.encode ++ f.data ++ rawAll (l.map MuxFrame.raw) := rfl
    constructor
    · intro h
      cases hf : f.encodeInto acc with
      | error e =>
        rw [hf] at h
        cases h
      | ok acc' =>
        rw [hf] at h
        obtain ⟨hle, rfl⟩ := encodeInto_iff.mp hf
        obtain ⟨hall, rfl⟩ := ih.mp h
        exact ⟨⟨hle, hall⟩, by rw [hraw, List.append_assoc]⟩
    · rintro ⟨⟨hle, hall⟩, rfl⟩
      have hf : f.encodeInto acc = .ok (acc ++ (f.header.encode ++ f.data)) :=
        encodeInto_iff.mpr ⟨hle, rfl⟩
      rw [hf, hraw]
      exact ih.mpr ⟨hall, (List.append_assoc acc _ _).symm⟩

/-- The writer's buffer is the encoding of its batch, all of whose frames fit. -/
theorem encodeBatch_iff {batch : List MuxFrame} {out : Bytes} :
    encodeBatch batch = .ok out ↔
      (∀ f ∈ batch, f.data.length ≤ MAX_FRAME_DATA) ∧ out = rawAll (batch.map MuxFrame.raw) :=
  encodeFrom_iff

theorem encodeBatch_append {a b : List MuxFrame} {x y : Bytes} (ha : encodeBatch a = .ok x)
    (hb : encodeBatch b = .ok y) : encodeBatch (a ++ b) = .ok (x ++ y) := by
  obtain ⟨hfa, rfl⟩ := encodeBatch_iff.mp ha
  obtain ⟨hfb, rfl⟩ := encodeBatch_iff.mp hb
  rw [encodeBatch_iff, List.map_append, rawAll_append]
  exact ⟨List.forall_mem_append.mpr ⟨hfa, hfb⟩, rfl⟩

/-- The first frames of a batch are the first bytes of its encoding. -/
theorem encodeBatch_of_prefix {a b : List MuxFrame} {y : Bytes} (h : a <+: b)
    (hb : encodeBatch b = .ok y) : ∃ x, encodeBatch a = .ok x ∧ x <+: y := by
  obtain ⟨c, rfl⟩ := h
  obtain ⟨hf, rfl⟩ := encodeBatch_iff.mp hb
  refine ⟨rawAll (a.map MuxFrame.raw), ?_, ?_⟩
  · exact encodeBatch_iff.mpr ⟨fun f hfa => hf f (List.mem_append_left _ hfa), rfl⟩
  · rw [List.map_append, rawAll_append]
    exact List.prefix_append _ _
/-! ## The writer -/

/-- What `write_all` has still to write; unknown once the writer has given up. -/
def WriterPc.unsent : WriterPc → Option Bytes
  | .writing out _ => some out
  | .failing _ | .ended => none
  | _ => some []

/-- A frame of the data lane. -/
def DataFrame (f : MuxFrame) : Prop := Sendable f ∧ f.cmd ≠ CMD_NOP

structure Outgoing (s : Session) : Prop where
  ctrl : ∀ f ∈ s.queue.ctrl, Sendable f ∧ f.cmd = CMD_NOP
  data : ∀ f ∈ s.queue.data, DataFrame f
  taken : ∀ f ∈ s.taken, Sendable f
  order : s.sent.map (·.2) = s.taken.filter (·.cmd ≠ CMD_NOP) ++ s.queue.data
  bytes : ∃ rest, s.wire ++ rest = rawAll (s.taken.map MuxFrame.raw)
    ∧ ∀ out, s.writer.unsent = some out → rest = out

namespace Outgoing

variable {s t : Session}

/-- A step that pushes nothing and writes nothing. -/
theorem congr (ho : Outgoing s) (hctrl : t.queue.ctrl = s.queue.ctrl)
    (hdata : t.queue.data = s.queue.data) (htaken : t.taken = s.taken) (hsent : t.sent = s.sent)
    (hwire : t.wire = s.wire)
    (hw : ∀ out, t.writer.unsent = some out → s.writer.unsent = some out) : Outgoing t := by
  refine ⟨by rw [hctrl]; exact ho.ctrl, by rw [hdata]; exact ho.data, by rw [htaken]; exact ho.taken,
    by rw [hsent, htaken, hdata]; exact ho.order, ?_⟩
  obtain ⟨rest, hrest, hun⟩ := ho.bytes
  refine ⟨rest, by rw [hwire, htaken]; exact hrest, fun out hout => hun out (hw out hout)⟩

/-- A push on the data lane. -/
theorem push (ho : Outgoing s) {r : Nat} {f : MuxFrame} {q : WriteQueue} (hf : DataFrame f)
    (hdata : q.data = s.queue.data ++ [f]) (hctrl : q.ctrl = s.queue.ctrl) (hq : t.queue = q)
    (htaken : t.taken = s.taken) (hsent : t.sent = s.sent ++ [(r, f)]) (hwire : t.wire = s.wire)
    (hw : t.writer = s.writer) : Outgoing t := by
  refine ⟨by rw [hq, hctrl]; exact ho.ctrl, fun g hg => ?_, by rw [htaken]; exact ho.taken, ?_, ?_⟩
  · rw [hq, hdata, List.mem_append, List.mem_singleton] at hg
    rcases hg with hg | rfl
    · exact ho.data g hg
    · exact hf
  · rw [hsent, htaken, hq, hdata, List.map_append, ho.order, List.append_assoc]
    rfl
  · rw [hwire, htaken, hw]
    exact ho.bytes

/-- The writer takes everything queued. -/
theorem take (ho : Outgoing s) {batch : List MuxFrame}
    (hbatch : batch = s.queue.ctrl ++ s.queue.data) (hdata : t.queue.data = [])
    (hctrl : t.queue.ctrl = []) (htaken : t.taken = s.taken ++ batch) (hsent : t.sent = s.sent)
    (hwire : t.wire = s.wire) (hold : s.writer.unsent = some [])
    (hw : ∀ out, t.writer.unsent = some out → out = rawAll (batch.map MuxFrame.raw)) :
    Outgoing t := by
  have hbatchOk : ∀ f ∈ batch, Sendable f := by
    intro f hf
    rw [hbatch, List.mem_append] at hf
    rcases hf with hf | hf
    · exact (ho.ctrl f hf).1
    · exact (ho.data f hf).1
  refine ⟨by rw [hctrl]; exact nofun, by rw [hdata]; exact nofun, fun f hf => ?_, ?_, ?_⟩
  · rw [htaken, List.mem_append] at hf
    exact hf.elim (ho.taken f) (hbatchOk f)
  · have hnop : s.queue.ctrl.filter (·.cmd ≠ CMD_NOP) = [] := by
      rw [List.filter_eq_nil_iff]
      intro f hf
      simp [(ho.ctrl f hf).2]
    have hkeep : s.queue.data.filter (·.cmd ≠ CMD_NOP) = s.queue.data := by
      rw [List.filter_eq_self]
      intro f hf
      simp [(ho.data f hf).2]
    rw [hsent, ho.order, htaken, hdata, hbatch, List.filter_append, List.filter_append, hnop, hkeep,
      List.append_nil, List.nil_append]
  · obtain ⟨rest, hrest, hun⟩ := ho.bytes
    have hnil : rest = [] := hun [] hold
    rw [hnil, List.append_nil] at hrest
    refine ⟨rawAll (batch.map MuxFrame.raw), ?_, fun out hout => (hw out hout).symm⟩
    rw [hwire, htaken, hrest, List.map_append, rawAll_append]

/-- The writer writes part of its buffer. -/
theorem write (ho : Outgoing s) {out : Bytes} {count k : Nat} (h : s.writer = .writing out count)
    (hq : t.queue = s.queue) (htaken : t.taken = s.taken) (hsent : t.sent = s.sent)
    (hwire : t.wire = s.wire ++ out.take k)
    (hw : t.writer.unsent = some (out.drop k)) : Outgoing t := by
  refine ⟨by rw [hq]; exact ho.ctrl, by rw [hq]; exact ho.data, by rw [htaken]; exact ho.taken,
    by rw [hsent, htaken, hq]; exact ho.order, ?_⟩
  obtain ⟨rest, hrest, hun⟩ := ho.bytes
  have hout : rest = out := hun out (by rw [h]; rfl)
  refine ⟨out.drop k, ?_, fun o ho' => Option.some.inj (hw.symm.trans ho')⟩
  rw [hwire, htaken, List.append_assoc, List.take_append_drop, ← hrest, hout]

end Outgoing

theorem WriterPc.unsent_ofFail (next : Option FailPc) : (ofFail next).unsent = none := by
  cases next <;> rfl

theorem FailStep.outgoing {s t : Session} {pc : FailPc} {next : Option FailPc}
    (h : FailStep s pc t next) :
    t.queue.ctrl = s.queue.ctrl ∧ t.queue.data = s.queue.data ∧ t.taken = s.taken
      ∧ t.sent = s.sent ∧ t.wire = s.wire ∧ t.writer = s.writer := by
  cases h
  case closeQueue => exact ⟨s.queue.ctrl_close, s.queue.data_close, rfl, rfl, rfl, rfl⟩
  all_goals exact ⟨rfl, rfl, rfl, rfl, rfl, rfl⟩

theorem dataFrame_new {v cmd : UInt8} {sid : UInt32} (h : cmd = CMD_SYN ∨ cmd = CMD_FIN) :
    DataFrame (MuxFrame.new v cmd sid) := by
  refine ⟨.inl ⟨?_, rfl⟩, ?_⟩
  · rcases h with rfl | rfl
    · exact .inl rfl
    · exact .inr (.inl rfl)
  · show cmd ≠ CMD_NOP
    rcases h with rfl | rfl <;> decide

theorem dataFrame_psh {v : UInt8} {sid : UInt32} {buf : Bytes} {n : Nat} (h : n ≤ MAX_FRAME_DATA) :
    DataFrame (MuxFrame.withData v CMD_PSH sid (buf.take n)) := by
  refine ⟨.inr ⟨rfl, ?_⟩, (by decide : CMD_PSH ≠ CMD_NOP)⟩
  show (buf.take n).length ≤ MAX_FRAME_DATA
  rw [List.length_take]
  omega

theorem Step.outgoing {s t : Session} {l : Label} (h : Step s l t)
    (hcfg : s.config.maxFrameSize ≤ MAX_FRAME_DATA) (ho : Outgoing s) : Outgoing t := by
  cases h
  all_goals try exact ho.congr rfl rfl rfl rfl rfl fun _ => id
  case readerFail hf | keepFail hf | closeFail hf =>
    obtain ⟨hctrl, hdata, htaken, hsent, hwire, hw⟩ := hf.outgoing
    exact ho.congr hctrl hdata htaken hsent hwire fun out hout => by rw [← hw]; exact hout
  case writerFail hf =>
    obtain ⟨hctrl, hdata, htaken, hsent, hwire, -⟩ := hf.outgoing
    refine ho.congr hctrl hdata htaken hsent hwire fun out hout => ?_
    rw [WriterPc.unsent_ofFail] at hout
    cases hout
  case writerTake q batch ws out h hq henc =>
    obtain ⟨hbatch, hdata, hctrl, -⟩ := WriteQueue.takeBatch_eq_some hq
    refine ho.take hbatch hdata hctrl rfl rfl rfl (by rw [h]; rfl) fun o hout => ?_
    rw [← (encodeBatch_iff.mp henc).2]
    exact (Option.some.inj hout).symm
  case writerEncodeErr q batch ws e h hq henc =>
    obtain ⟨hbatch, hdata, hctrl, -⟩ := WriteQueue.takeBatch_eq_some hq
    exact ho.take hbatch hdata hctrl rfl rfl rfl (by rw [h]; rfl) fun o hout => nomatch hout
  case writerWrite out count k h hk =>
    refine ho.write (k := k) h rfl rfl rfl rfl ?_
    dsimp only
    split_ifs with hall
    · rw [hall, List.drop_length]
      rfl
    · rfl
  case writerEmpty h _ | writerFlush h | writerWake h _ | writerMark h =>
    exact ho.congr rfl rfl rfl rfl rfl fun out hout => by rw [h]; exact hout
  case writerCheckClosed h | writerPark h =>
    refine ho.congr rfl rfl rfl rfl rfl fun out hout => ?_
    rw [h]
    dsimp only at hout
    split_ifs at hout <;> exact hout
  case writerError | writerAbort | writerShutdown =>
    exact ho.congr rfl rfl rfl rfl rfl fun out hout => nomatch hout
  case keepPing q h hq =>
    obtain ⟨hdata, hctrl, -⟩ := WriteQueue.pushCtrl_eq_some hq
    refine ⟨fun f hf => ?_, ?_, ho.taken, ?_, ho.bytes⟩
    · rw [hctrl, List.mem_append, List.mem_singleton] at hf
      rcases hf with hf | rfl
      · exact ho.ctrl f hf
      · exact ⟨.inl ⟨.inr (.inr rfl), rfl⟩, rfl⟩
    · rw [hdata]
      exact ho.data
    · rw [hdata]
      exact ho.order
  case openAlloc ha =>
    obtain ⟨-, -, rfl⟩ := Session.allocId_eq_some ha
    exact ho.congr rfl rfl rfl rfl rfl fun _ => id
  case openAllocErr ha =>
    obtain rfl := Session.allocId_eq_none ha
    exact ho.congr rfl rfl rfl rfl rfl fun _ => id
  case openPush hq =>
    obtain ⟨hdata, hctrl, -⟩ := WriteQueue.forcePushData_eq_ok hq
    exact ho.push (dataFrame_new (.inl rfl)) hdata hctrl rfl rfl rfl rfl rfl
  case writePush hq =>
    obtain ⟨hdata, hctrl, -⟩ := WriteQueue.forcePushData_eq_ok hq
    exact ho.push (dataFrame_psh hcfg) hdata hctrl rfl rfl rfl rfl rfl
  case sendFin hq =>
    obtain ⟨hdata, hctrl, -⟩ := WriteQueue.forcePushData_eq_ok hq
    exact ho.push (dataFrame_new (.inr rfl)) hdata hctrl rfl rfl rfl rfl rfl
  case writeReserve =>
    exact ho.congr (WriteQueue.ctrl_pollReserve _ _) (WriteQueue.data_pollReserve _ _) rfl rfl rfl
      fun _ => id
  case streamFlush =>
    exact ho.congr (WriteQueue.ctrl_pollFlushed _ _ _) (WriteQueue.data_pollFlushed _ _ _) rfl rfl
      rfl fun _ => id

/-! ## The reader -/

/-- The bytes of an unfinished frame; unknown once the reader has given up. -/
def ReaderPc.held : ReaderPc → Option Bytes
  | .header buf => some buf
  | .decoded buf => some buf
  | .body hdr buf => some (hdr.encode ++ buf)
  | .failing _ | .ended => none
  | _ => some []

structure Incoming (s : Session) : Prop where
  sizes : ∀ x ∈ s.parsed, x.2.length = want x.1
  whole : ∀ buf, s.reader = .decoded buf → buf.length = HEADER_SIZE
  bytes : ∃ junk, s.arrived = rawAll s.parsed ++ junk ++ s.inbound
    ∧ ∀ b, s.reader.held = some b → junk = b

namespace Incoming

variable {s t : Session}

/-- A step that takes no byte off the transport and puts none on it. -/
theorem congr (hi : Incoming s) (hparsed : t.parsed = s.parsed) (harr : t.arrived = s.arrived)
    (hin : t.inbound = s.inbound) (hwhole : ∀ buf, t.reader = .decoded buf → s.reader = .decoded buf)
    (hheld : ∀ b, t.reader.held = some b → s.reader.held = some b) : Incoming t := by
  obtain ⟨junk, hjunk, hb⟩ := hi.bytes
  refine ⟨by rw [hparsed]; exact hi.sizes, fun buf h => hi.whole buf (hwhole buf h), junk, ?_,
    fun b h => hb b (hheld b h)⟩
  rw [hparsed, harr, hin]
  exact hjunk

/-- A move of the reader between frames, or one that gives up. -/
theorem move (hi : Incoming s) (hparsed : t.parsed = s.parsed) (harr : t.arrived = s.arrived)
    (hin : t.inbound = s.inbound)
    (hheld : t.reader.held = none ∨ t.reader.held = s.reader.held)
    (hnot : ∀ buf, t.reader ≠ .decoded buf) : Incoming t := by
  refine hi.congr hparsed harr hin (fun buf h => absurd h (hnot buf)) fun b h => ?_
  rcases hheld with hn | hs
  · rw [hn] at h
    cases h
  · rw [← hs]
    exact h

/-- The reader takes `k` bytes into the frame it is reading. -/
theorem read (hi : Incoming s) (k : Nat) (old : Bytes) {new : Bytes} (hold : s.reader.held = some old)
    (hnew : t.reader.held = some new) (happ : new = old ++ s.inbound.take k)
    (hparsed : t.parsed = s.parsed) (harr : t.arrived = s.arrived)
    (hin : t.inbound = s.inbound.drop k)
    (hwhole : ∀ buf, t.reader = .decoded buf → buf.length = HEADER_SIZE) : Incoming t := by
  obtain ⟨junk, hjunk, hb⟩ := hi.bytes
  refine ⟨by rw [hparsed]; exact hi.sizes, hwhole, new, ?_, fun b h => ?_⟩
  · rw [hparsed, harr, hin, hjunk, hb old hold, happ, List.append_assoc, List.append_assoc,
      List.append_assoc, List.take_append_drop]
  · exact Option.some.inj (hnew.symm.trans h)

/-- The reader completes a frame with `k` bytes more. -/
theorem consume (hi : Incoming s) (k : Nat) (old data : Bytes) {hdr : MuxHeader}
    (hold : s.reader.held = some old) (hframe : old ++ s.inbound.take k = hdr.encode ++ data)
    (hsize : data.length = want hdr) (hparsed : t.parsed = s.parsed ++ [(hdr, data)])
    (harr : t.arrived = s.arrived) (hin : t.inbound = s.inbound.drop k)
    (hnew : t.reader = handleFrame hdr data) : Incoming t := by
  have hpc : t.reader.held = some [] ∧ ∀ buf, t.reader ≠ .decoded buf := by
    rw [hnew]
    unfold handleFrame
    split_ifs <;> exact ⟨rfl, nofun⟩
  obtain ⟨junk, hjunk, hb⟩ := hi.bytes
  refine ⟨fun x hx => ?_, fun buf h => absurd h (hpc.2 buf), [], ?_, fun b h => ?_⟩
  · rw [hparsed, List.mem_append, List.mem_singleton] at hx
    rcases hx with hx | rfl
    · exact hi.sizes x hx
    · exact hsize
  · have hraw : rawAll [(hdr, data)] = old ++ s.inbound.take k := by
      rw [hframe]
      simp [rawAll]
    rw [hparsed, harr, hin, hjunk, hb old hold, rawAll_append, hraw, List.append_nil,
      List.append_assoc, List.append_assoc, List.append_assoc, List.take_append_drop]
  · exact Option.some.inj (hpc.1.symm.trans h)

end Incoming

theorem ReaderPc.held_ofFail (next : Option FailPc) :
    (ofFail next).held = none ∧ ∀ buf, ofFail next ≠ .decoded buf := by
  cases next <;> exact ⟨rfl, nofun⟩

theorem FailStep.incoming {s t : Session} {pc : FailPc} {next : Option FailPc}
    (h : FailStep s pc t next) :
    t.parsed = s.parsed ∧ t.arrived = s.arrived ∧ t.inbound = s.inbound := by
  cases h <;> exact ⟨rfl, rfl, rfl⟩

theorem Step.incoming {s t : Session} {l : Label} (h : Step s l t) (hi : Incoming s) :
    Incoming t := by
  cases h
  all_goals try exact hi.congr rfl rfl rfl (fun _ => id) fun _ => id
  case readerTop h | readerCheckClosed h | readerPark h | readerRecheck h | readerSynCheck h =>
    refine hi.move rfl rfl rfl ?_ fun buf => ?_
    · rw [h]
      dsimp only
      split_ifs <;> first | exact .inl rfl | exact .inr rfl
    · dsimp only
      split_ifs <;> exact nofun
  case readerWake h _ | readerFinMiss h _ | readerFinHit h _ | readerFinSet h | readerPshMiss h _
      | readerPshHit h _ | readerPshSpend h | readerPshPush h | readerAcceptFull h _ _
      | readerAcceptWait h _ | readerAcceptRetry h | readerAcceptSend h _ _ | readerSynInsert h =>
    exact hi.move rfl rfl rfl (.inr (by rw [h]; rfl)) fun buf => nofun
  case readerDecodeErr | readerHeaderEof | readerBodyEof | readerHeaderError | readerBodyError
      | readerAbort | readerAbortAccept | readerAcceptClosed | readerAcceptGiveUp =>
    exact hi.move rfl rfl rfl (.inl rfl) fun buf => nofun
  case readerFail hf =>
    obtain ⟨hparsed, harr, hin⟩ := hf.incoming
    exact hi.move hparsed harr hin (.inl (ReaderPc.held_ofFail _).1) (ReaderPc.held_ofFail _).2
  case writerFail hf | keepFail hf | closeFail hf =>
    obtain ⟨hparsed, harr, hin⟩ := hf.incoming
    have hr := hf.frame.2.2.2.1
    exact hi.congr hparsed harr hin (fun buf h => by rw [← hr]; exact h)
      (fun b h => by rw [← hr]; exact h)
  case openAlloc ha =>
    obtain ⟨-, -, rfl⟩ := Session.allocId_eq_some ha
    exact hi.congr rfl rfl rfl (fun _ => id) fun _ => id
  case openAllocErr ha =>
    obtain rfl := Session.allocId_eq_none ha
    exact hi.congr rfl rfl rfl (fun _ => id) fun _ => id
  -- the bytes themselves
  case arrive bs =>
    obtain ⟨junk, hjunk, hb⟩ := hi.bytes
    refine ⟨hi.sizes, hi.whole, junk, ?_, hb⟩
    show s.arrived ++ bs = _ ++ (s.inbound ++ bs)
    rw [hjunk, List.append_assoc]
  case readerHeader buf k h hk hbuf hin =>
    refine hi.read k buf (by rw [h]; rfl) ?_ rfl rfl rfl rfl fun b hb => ?_
    · dsimp only
      split_ifs <;> rfl
    · dsimp only at hb
      split_ifs at hb with hfull
      cases hb
      rw [List.length_append, List.length_take, Nat.min_eq_left hin]
      exact hfull
  case readerDecodeBody buf h hcheck hwant =>
    have henc := MuxHeader.encode_decode (hi.whole buf h)
    refine hi.congr rfl rfl rfl (fun _ hb => nomatch hb) fun b hb => ?_
    rw [h, ← Option.some.inj hb, henc, List.append_nil]
    rfl
  case readerDecodeEmpty buf h hcheck hwant =>
    have henc := MuxHeader.encode_decode (hi.whole buf h)
    refine hi.consume 0 buf [] (by rw [h]; rfl) ?_ hwant.symm rfl rfl rfl rfl
    rw [henc, List.take_zero]
  case readerBody hdr buf k h hk hbuf hin =>
    refine hi.read k (hdr.encode ++ buf) (by rw [h]; rfl) rfl ?_ rfl rfl rfl nofun
    rw [List.append_assoc]
  case readerBodyDone hdr buf k h hk hbuf hin =>
    refine hi.consume k (hdr.encode ++ buf) (buf ++ s.inbound.take k) (by rw [h]; rfl) ?_ ?_ rfl rfl
      rfl rfl
    · rw [List.append_assoc]
    · rw [List.length_append, List.length_take, Nat.min_eq_left hin]
      exact hbuf

/-- A new session has written and read nothing. -/
theorem outgoing_new (config : MuxConfig) (isClient : Bool) :
    Outgoing (Session.new config isClient) :=
  ⟨nofun, nofun, nofun, rfl, [], rfl, fun _ h => Option.some.inj h⟩

theorem incoming_new (config : MuxConfig) (isClient : Bool) :
    Incoming (Session.new config isClient) :=
  ⟨nofun, nofun, [], rfl, fun _ h => Option.some.inj h⟩

/-! ## From one session to the other -/

theorem msgOf_raw {f : MuxFrame} (hf : Sendable f) :
    msgOf f.raw.1 f.raw.2 = if f.cmd ≠ CMD_NOP then some f.msg else none := by
  unfold msgOf MuxFrame.msg
  show (if f.cmd = CMD_SYN then some (Msg.syn f.sid) else
    if f.cmd = CMD_FIN then some (.fin f.sid) else
    if f.cmd = CMD_PSH then some (.psh f.sid f.data) else none) = _
  rcases hf with ⟨h | h | h, -⟩ | ⟨h, -⟩ <;> rw [h] <;> rfl

/-- The messages of the frames a session has taken are the ones it has sent so
far. -/
theorem filterMap_msgOf {frames : List MuxFrame} (hf : ∀ f ∈ frames, Sendable f) :
    (frames.map MuxFrame.raw).filterMap (fun x => msgOf x.1 x.2)
      = (frames.filter (·.cmd ≠ CMD_NOP)).map MuxFrame.msg := by
  induction frames with
  | nil => rfl
  | cons f frames ih =>
    have hrec := ih fun g hg => hf g (List.mem_cons_of_mem _ hg)
    rw [List.map_cons, List.filterMap_cons, msgOf_raw (hf f List.mem_cons_self), List.filter_cons]
    by_cases hnop : f.cmd = CMD_NOP
    · simpa [hnop] using hrec
    · simpa [hnop] using hrec

/-- If the bytes that have arrived at `s` were written by `w`, the messages `s`
has consumed are a prefix of the ones `w` has sent. -/
theorem parsed_isPrefix_sent {s w : Session} {par par' : Nat} (hi : Incoming s) (ho : Outgoing w)
    (hpipe : s.arrived <+: w.wire) :
    (s.peer par).parsed <+: (w.peer par').sent.map (·.2) := by
  obtain ⟨junk, hjunk, -⟩ := hi.bytes
  obtain ⟨rest, hrest, -⟩ := ho.bytes
  have hraw : rawAll s.parsed <+: rawAll (w.taken.map MuxFrame.raw) := by
    have h1 : rawAll s.parsed <+: s.arrived := by
      rw [hjunk, List.append_assoc]
      exact List.prefix_append _ _
    have h2 : w.wire <+: rawAll (w.taken.map MuxFrame.raw) := ⟨rest, hrest⟩
    exact (h1.trans hpipe).trans h2
  have hframes := isPrefix_of_rawAll hi.sizes ho.taken hraw
  have hmsgs := hframes.filterMap fun x => msgOf x.1 x.2
  rw [filterMap_msgOf ho.taken] at hmsgs
  have hsent : (w.peer par').sent.map (·.2) = (w.sent.map (·.2)).map MuxFrame.msg := by
    show (w.sent.map fun x => (x.1, x.2.msg)).map (·.2) = _
    rw [List.map_map, List.map_map]
    rfl
  rw [hsent, ho.order, List.map_append]
  exact hmsgs.trans (List.prefix_append _ _)

end Mux
end RtProxy
