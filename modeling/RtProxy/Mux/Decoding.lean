import RtProxy.Lib.Framing
import RtProxy.Mux.Accepting
import RtProxy.Mux.Wire

/-!
The reader against the codec.

The reader takes frames off the transport by a rule of its own instead of calling
`MuxFrame::decode`.  Both cut the stream into a header and a payload, and they differ
in how long they take the payload of an UPD frame to be: the reader always reads
`UPD_SIZE` bytes, the codec what the header declares.
-/

namespace RtProxy
namespace Mux

open Session ByteStream

/-! ## Cutting a stream into frames -/

def MuxHeader.frame (hdr : MuxHeader) (data : Bytes) : MuxFrame :=
  { version := hdr.version, cmd := hdr.cmd, sid := hdr.sid, data := data }

/-- How many bytes `MuxFrame::decode` takes after a header it accepts. -/
def declared (hdr : MuxHeader) : Nat :=
  if hdr.cmd = CMD_PSH ∨ hdr.cmd = CMD_UPD then hdr.length.toNat else 0

/-- What stands at the front of a stream of version `v`, if `size` tells the payloads:
a frame with the number of bytes it takes, a header that breaks the protocol, or
neither yet. -/
def nextFrame (v : UInt8) (size : MuxHeader → Nat) (bs : Bytes) :
    Next Unit IoError (MuxFrame × Nat) :=
  if bs.length < HEADER_SIZE then .more
  else
    match checkHeader v (MuxHeader.decode (bs.take HEADER_SIZE)) with
    | .error e => .fail e
    | .ok () =>
      let n := size (MuxHeader.decode (bs.take HEADER_SIZE))
      if bs.length < HEADER_SIZE + n then .more
      else
        .unit () ((MuxHeader.decode (bs.take HEADER_SIZE)).frame ((bs.drop HEADER_SIZE).take n),
          HEADER_SIZE + n) (bs.drop (HEADER_SIZE + n))

section

variable {v : UInt8} {size : MuxHeader → Nat} {hdr : MuxHeader} {rest : Bytes}

theorem take_encode (hdr : MuxHeader) (rest : Bytes) :
    (hdr.encode ++ rest).take HEADER_SIZE = hdr.encode :=
  List.take_left' (MuxHeader.length_encode hdr)

theorem drop_encode (hdr : MuxHeader) (rest : Bytes) :
    (hdr.encode ++ rest).drop HEADER_SIZE = rest :=
  List.drop_left' (MuxHeader.length_encode hdr)

theorem length_encode_append (hdr : MuxHeader) (rest : Bytes) :
    (hdr.encode ++ rest).length = HEADER_SIZE + rest.length := by
  rw [List.length_append, MuxHeader.length_encode]

/-- Eight bytes are a header. -/
theorem exists_header {bs : Bytes} (h : HEADER_SIZE ≤ bs.length) :
    ∃ (hdr : MuxHeader) (rest : Bytes), bs = hdr.encode ++ rest := by
  refine ⟨MuxHeader.decode (bs.take HEADER_SIZE), bs.drop HEADER_SIZE, ?_⟩
  rw [MuxHeader.encode_decode (List.length_take_of_le h), List.take_append_drop]

theorem nextFrame_encode (hcheck : checkHeader v hdr = .ok ()) :
    nextFrame v size (hdr.encode ++ rest) =
      if rest.length < size hdr then .more
      else .unit () (hdr.frame (rest.take (size hdr)), HEADER_SIZE + size hdr)
        (rest.drop (size hdr)) := by
  have hlen := length_encode_append hdr rest
  have hdrop : (hdr.encode ++ rest).drop (HEADER_SIZE + size hdr) = rest.drop (size hdr) := by
    rw [← List.drop_drop, drop_encode]
  unfold nextFrame
  rw [if_neg (by omega), take_encode, MuxHeader.decode_encode, hcheck]
  dsimp only
  rw [drop_encode, hdrop]
  by_cases hshort : rest.length < size hdr
  · rw [if_pos (by omega), if_pos hshort]
  · rw [if_neg (by omega), if_neg hshort]

theorem nextFrame_encode_error {e : IoError} (hcheck : checkHeader v hdr = .error e) :
    nextFrame v size (hdr.encode ++ rest) = .fail e := by
  have hlen := length_encode_append hdr rest
  unfold nextFrame
  rw [if_neg (by omega), take_encode, MuxHeader.decode_encode, hcheck]

theorem nextFrame_eq_unit {bs : Bytes} {out : MuxFrame × Nat} :
    nextFrame v size bs = .unit () out rest ↔ ∃ hdr data, bs = hdr.encode ++ (data ++ rest)
      ∧ checkHeader v hdr = .ok () ∧ data.length = size hdr
      ∧ out = (hdr.frame data, HEADER_SIZE + data.length) := by
  constructor
  · intro h
    by_cases hlen : bs.length < HEADER_SIZE
    · rw [nextFrame, if_pos hlen] at h
      cases h
    · obtain ⟨hdr, after, rfl⟩ := exists_header (Nat.le_of_not_lt hlen)
      cases hcheck : checkHeader v hdr with
      | error e =>
        rw [nextFrame_encode_error hcheck] at h
        cases h
      | ok u =>
        rw [nextFrame_encode hcheck] at h
        split_ifs at h with hshort
        cases h
        have htake : (after.take (size hdr)).length = size hdr :=
          List.length_take_of_le (Nat.le_of_not_lt hshort)
        refine ⟨hdr, after.take (size hdr), ?_, hcheck, htake, by rw [htake]⟩
        rw [List.take_append_drop]
  · rintro ⟨hdr, data, rfl, hcheck, hsize, rfl⟩
    rw [nextFrame_encode hcheck, ← hsize, List.take_left, List.drop_left, if_neg]
    rw [List.length_append]
    omega

theorem nextFrame_eq_fail {bs : Bytes} {e : IoError} (h : nextFrame v size bs = .fail e) :
    ∃ hdr rest, bs = hdr.encode ++ rest ∧ checkHeader v hdr = .error e := by
  by_cases hlen : bs.length < HEADER_SIZE
  · rw [nextFrame, if_pos hlen] at h
    cases h
  · obtain ⟨hdr, after, rfl⟩ := exists_header (Nat.le_of_not_lt hlen)
    refine ⟨hdr, after, rfl, ?_⟩
    cases hcheck : checkHeader v hdr with
    | error e' =>
      rw [nextFrame_encode_error hcheck] at h
      cases h
      rfl
    | ok u =>
      rw [nextFrame_encode hcheck] at h
      split_ifs at h

end

/-- The frames of a stream of version `v`, with payloads of the given sizes. -/
def muxFraming (v : UInt8) (size : MuxHeader → Nat) : Framing Unit IoError (MuxFrame × Nat) where
  next _ bs := nextFrame v size bs
  shrinks h := by
    obtain ⟨hdr, data, rfl, -, -, -⟩ := nextFrame_eq_unit.mp h
    rw [length_encode_append, List.length_append]
    have hpos : 0 < HEADER_SIZE := Nat.zero_lt_succ _
    omega
  unit_append h more := by
    obtain ⟨hdr, data, rfl, hcheck, hsize, rfl⟩ := nextFrame_eq_unit.mp h
    refine nextFrame_eq_unit.mpr ⟨hdr, data, ?_, hcheck, hsize, rfl⟩
    rw [List.append_assoc, List.append_assoc]
  fail_append h more := by
    obtain ⟨hdr, rest, rfl, hcheck⟩ := nextFrame_eq_fail h
    show nextFrame v size (hdr.encode ++ rest ++ more) = _
    rw [List.append_assoc, nextFrame_encode_error hcheck]

/-! ## Repeated decoding -/

/-- `MuxFrame::decode` applied again and again to what is left, up to the first bytes
that are no frame of version `v`; each frame comes with the number of bytes consumed.
Every frame consumes a byte, so `fuel` is enough when it is the length. -/
def decodeAll (v : UInt8) : Nat → Bytes → List (MuxFrame × Nat)
  | 0, _ => []
  | fuel + 1, buf =>
    match MuxFrame.decode buf with
    | .ok (some (frame, consumed)) =>
      if frame.version = v then (frame, consumed) :: decodeAll v fuel (buf.drop consumed) else []
    | _ => []

def decodeFrames (v : UInt8) (buf : Bytes) : List (MuxFrame × Nat) := decodeAll v buf.length buf

theorem version_of_checkHeader {v : UInt8} {hdr : MuxHeader} (h : checkHeader v hdr = .ok ()) :
    hdr.version = v := by
  by_contra hne
  rw [checkHeader, if_pos hne] at h
  cases h

/-- `decode` on a header that breaks no rule. -/
theorem decode_encode_append {v : UInt8} {hdr : MuxHeader} (hcheck : checkHeader v hdr = .ok ())
    (rest : Bytes) :
    MuxFrame.decode (hdr.encode ++ rest) =
      if rest.length < declared hdr then .ok none
      else .ok (some (hdr.frame (rest.take (declared hdr)), HEADER_SIZE + declared hdr)) := by
  have hlen := length_encode_append hdr rest
  have hnot : ¬ (hdr.encode ++ rest).length < HEADER_SIZE := by omega
  have hiff : (hdr.encode ++ rest).length < HEADER_SIZE + declared hdr
      ↔ rest.length < declared hdr := by omega
  have hknown : ¬ (hdr.cmd = CMD_PSH ∨ hdr.cmd = CMD_UPD) →
      hdr.cmd = CMD_SYN ∨ hdr.cmd = CMD_FIN ∨ hdr.cmd = CMD_NOP := by
    intro hno
    rw [checkHeader, if_neg (not_not_intro (version_of_checkHeader hcheck))] at hcheck
    split_ifs at hcheck with hcmd
    rcases hcmd with h | h | h | h | h
    · exact .inr (.inr h)
    · exact .inl h
    · exact .inr (.inl h)
    · exact absurd (.inl h) hno
    · exact absurd (.inr h) hno
  unfold MuxFrame.decode
  rw [if_neg hnot, take_encode, drop_encode, MuxHeader.decode_encode]
  dsimp only
  by_cases hp : hdr.cmd = CMD_PSH ∨ hdr.cmd = CMD_UPD
  · have hd : declared hdr = hdr.length.toNat := if_pos hp
    rw [hd] at hiff ⊢
    simp only [if_pos hp, hiff, MuxHeader.frame]
  · have hd : declared hdr = 0 := if_neg hp
    rw [hd] at hiff ⊢
    simp only [if_neg hp, if_pos (hknown hp), hiff, MuxHeader.frame]

/-- `decode` on a header of the right version that breaks a rule. -/
theorem decode_encode_error {hdr : MuxHeader} {e : IoError}
    (hcheck : checkHeader hdr.version hdr = .error e) (rest : Bytes) :
    MuxFrame.decode (hdr.encode ++ rest) = .error e := by
  have hlen := length_encode_append hdr rest
  have hnot : ¬ (hdr.encode ++ rest).length < HEADER_SIZE := by omega
  rw [checkHeader, if_neg (not_not_intro rfl)] at hcheck
  split_ifs at hcheck with hcmd
  cases hcheck
  have hno1 : ¬ (hdr.cmd = CMD_PSH ∨ hdr.cmd = CMD_UPD) := by
    rintro (h | h)
    · exact hcmd (.inr (.inr (.inr (.inl h))))
    · exact hcmd (.inr (.inr (.inr (.inr h))))
  have hno2 : ¬ (hdr.cmd = CMD_SYN ∨ hdr.cmd = CMD_FIN ∨ hdr.cmd = CMD_NOP) := by
    rintro (h | h | h)
    · exact hcmd (.inr (.inl h))
    · exact hcmd (.inr (.inr (.inl h)))
    · exact hcmd (.inl h)
  unfold MuxFrame.decode
  rw [if_neg hnot, take_encode, MuxHeader.decode_encode]
  simp only [if_neg hno1, if_neg hno2]

/-- One round of `decodeAll` takes what the framing finds. -/
theorem nextFrame_of_decode (v : UInt8) (bs : Bytes) :
    (∃ f n, MuxFrame.decode bs = .ok (some (f, n)) ∧ f.version = v
        ∧ nextFrame v declared bs = .unit () (f, n) (bs.drop n))
      ∨ (∀ f n, MuxFrame.decode bs = .ok (some (f, n)) → f.version ≠ v)
        ∧ (muxFraming v declared).Stuck () bs := by
  by_cases hlen : bs.length < HEADER_SIZE
  · right
    refine ⟨fun f n h => ?_, Framing.stuck_of_more ?_⟩
    · rw [MuxFrame.decode, if_pos hlen] at h
      cases h
    · exact if_pos hlen
  · obtain ⟨hdr, rest, rfl⟩ := exists_header (Nat.le_of_not_lt hlen)
    cases hcheck : checkHeader v hdr with
    | ok u =>
      have hdecode := decode_encode_append hcheck rest
      have hnext : nextFrame v declared (hdr.encode ++ rest) = _ := nextFrame_encode hcheck
      by_cases hshort : rest.length < declared hdr
      · rw [if_pos hshort] at hdecode hnext
        right
        refine ⟨fun f n h => ?_, Framing.stuck_of_more hnext⟩
        rw [hdecode] at h
        cases h
      · rw [if_neg hshort] at hdecode hnext
        left
        refine ⟨_, _, hdecode, version_of_checkHeader hcheck, ?_⟩
        rw [hnext, ← List.drop_drop, drop_encode]
    | error e =>
      right
      refine ⟨fun f n h hv => ?_, Framing.stuck_of_fail (nextFrame_encode_error hcheck)⟩
      cases hown : checkHeader hdr.version hdr with
      | error e' =>
        rw [decode_encode_error hown] at h
        cases h
      | ok u =>
        have hdecode := decode_encode_append hown rest
        rw [hdecode] at h
        split_ifs at h
        · cases h
        obtain ⟨rfl, -⟩ := Prod.mk.inj (Option.some.inj (Except.ok.inj h))
        have hver : hdr.version = v := hv
        rw [← hver, hown] at hcheck
        cases hcheck

theorem reads_decodeAll (v : UInt8) {fuel : Nat} {bs : Bytes} (hfuel : bs.length ≤ fuel) :
    ∃ left, (muxFraming v declared).Reads () bs (decodeAll v fuel bs) () left
      ∧ (muxFraming v declared).Stuck () left := by
  induction fuel generalizing bs with
  | zero =>
    obtain rfl : bs = [] := List.length_eq_zero_iff.mp (Nat.le_zero.mp hfuel)
    exact ⟨[], .refl, Framing.stuck_of_more rfl⟩
  | succ fuel ih =>
    rcases nextFrame_of_decode v bs with ⟨f, n, hdecode, hv, hnext⟩ | ⟨hno, hstuck⟩
    · have hshrink := (muxFraming v declared).shrinks (s := ()) hnext
      have hle : (bs.drop n).length ≤ fuel := by omega
      obtain ⟨left, hreads, hleft⟩ := ih hle
      refine ⟨left, ?_, hleft⟩
      rw [decodeAll, hdecode]
      dsimp only
      rw [if_pos hv]
      exact .unit hnext hreads
    · refine ⟨bs, ?_, hstuck⟩
      have hnil : decodeAll v (fuel + 1) bs = [] := by
        rw [decodeAll]
        split
        · rename_i f n h
          exact if_neg (hno f n h)
        · rfl
      rw [hnil]
      exact .refl

/-! ## What the reader takes -/

/-- The frames the reader has consumed, each with the bytes it took. -/
def Session.frames (s : Session) : List (MuxFrame × Nat) :=
  s.parsed.map fun x => (x.1.frame x.2, HEADER_SIZE + x.2.length)

/-- The reader has taken all it can of the bytes that have arrived: it waits for more,
or it has come to a header that breaks the protocol. -/
def Session.Exhausted (s : Session) : Prop :=
  s.reader.reading = true ∧ s.inbound = [] ∨
    ∃ buf e, s.reader = .decoded buf ∧ checkHeader s.config.version (MuxHeader.decode buf) = .error e

/-- The headers the reader goes by break no rule. -/
structure Checked (s : Session) : Prop where
  parsed : ∀ x ∈ s.parsed, checkHeader s.config.version x.1 = .ok ()
  body : ∀ hdr buf, s.reader = .body hdr buf → checkHeader s.config.version hdr = .ok ()

namespace Checked

variable {s t : Session}

theorem congr (hc : Checked s) (hcfg : t.config = s.config) (hp : t.parsed = s.parsed)
    (hr : ∀ hdr buf, t.reader = .body hdr buf → ∃ buf', s.reader = .body hdr buf') : Checked t := by
  refine ⟨by rw [hcfg, hp]; exact hc.parsed, fun hdr buf h => ?_⟩
  obtain ⟨buf', h'⟩ := hr hdr buf h
  rw [hcfg]
  exact hc.body hdr buf' h'

theorem consume (hc : Checked s) {hdr : MuxHeader} {data : Bytes} (hcfg : t.config = s.config)
    (hp : t.parsed = s.parsed ++ [(hdr, data)]) (hr : t.reader = handleFrame hdr data)
    (hcheck : checkHeader s.config.version hdr = .ok ()) : Checked t := by
  refine ⟨fun x hx => ?_, fun hdr' buf h => ?_⟩
  · rw [hp, List.mem_append, List.mem_singleton] at hx
    rw [hcfg]
    rcases hx with hx | rfl
    · exact hc.parsed x hx
    · exact hcheck
  · rw [hr, handleFrame] at h
    split_ifs at h

end Checked

theorem Step.checked {s t : Session} {l : Label} (h : Step s l t) (hc : Checked s) : Checked t := by
  have hcfg := h.config
  cases h
  all_goals try exact hc.congr hcfg rfl fun hdr buf h => ⟨buf, h⟩
  case readerTop | readerCheckClosed | readerPark | readerRecheck | readerSynCheck
      | readerHeader =>
    refine hc.congr hcfg rfl fun hdr buf h => ?_
    dsimp only at h
    split_ifs at h
  case readerWake | readerFinMiss | readerFinHit | readerFinSet | readerPshMiss | readerPshHit
      | readerPshSpend | readerPshPush | readerAcceptFull | readerAcceptWait | readerAcceptRetry
      | readerAcceptSend | readerSynInsert | readerDecodeErr | readerHeaderEof | readerBodyEof
      | readerHeaderError | readerBodyError | readerAbort | readerAbortAccept | readerAcceptClosed
      | readerAcceptGiveUp =>
    exact hc.congr hcfg rfl nofun
  case readerDecodeBody buf h hcheck hwant =>
    refine ⟨hc.parsed, fun hdr buf' hb => ?_⟩
    cases hb
    exact hcheck
  case readerDecodeEmpty h hcheck hwant => exact hc.consume rfl rfl rfl hcheck
  case readerBody hdr buf k h _ _ _ =>
    refine hc.congr hcfg rfl fun hdr' buf' hb => ?_
    cases hb
    exact ⟨buf, h⟩
  case readerBodyDone hdr buf k h _ _ _ => exact hc.consume rfl rfl rfl (hc.body hdr buf h)
  case readerFail next u h hf =>
    refine hc.congr hcfg hf.incoming.1 fun hdr buf hb => ?_
    cases next <;> cases hb
  case writerFail hf | keepFail hf | closeFail hf =>
    refine hc.congr hcfg hf.incoming.1 fun hdr buf hb => ⟨buf, ?_⟩
    exact hf.frame.2.2.2.1.symm.trans hb
  case openAlloc ha =>
    obtain ⟨-, -, rfl⟩ := Session.allocId_eq_some ha
    exact hc.congr hcfg rfl fun hdr buf h => ⟨buf, h⟩
  case openAllocErr ha =>
    obtain rfl := Session.allocId_eq_none ha
    exact hc.congr hcfg rfl fun hdr buf h => ⟨buf, h⟩

theorem checked_new (config : MuxConfig) (isClient : Bool) :
    Checked (Session.new config isClient) := ⟨nofun, nofun⟩

/-- Frames with the payloads the reader reads are units of its framing. -/
theorem reads_rawAll {v : UInt8} {l : List (MuxHeader × Bytes)} (rest : Bytes)
    (hsize : ∀ x ∈ l, x.2.length = want x.1) (hcheck : ∀ x ∈ l, checkHeader v x.1 = .ok ()) :
    (muxFraming v want).Reads () (rawAll l ++ rest)
      (l.map fun x => (x.1.frame x.2, HEADER_SIZE + x.2.length)) () rest := by
  induction l with
  | nil => exact .refl
  | cons x l ih =>
    have hrest := ih (fun y hy => hsize y (List.mem_cons_of_mem _ hy))
      fun y hy => hcheck y (List.mem_cons_of_mem _ hy)
    have hnext : nextFrame v want (rawAll (x :: l) ++ rest)
        = .unit () (x.1.frame x.2, HEADER_SIZE + x.2.length) (rawAll l ++ rest) := by
      refine nextFrame_eq_unit.mpr ⟨x.1, x.2, ?_, hcheck x List.mem_cons_self,
        hsize x List.mem_cons_self, rfl⟩
      show x.1.encode ++ x.2 ++ rawAll l ++ rest = _
      rw [List.append_assoc, List.append_assoc]
    exact .unit hnext hrest

open Transition in
/-- The reader's framing reads the frames consumed, and no further one once the reader
has taken all it can. -/
theorem reads_arrived {config : MuxConfig} {isClient : Bool} {s : Session}
    (hrun : Reaches Step anyStep (Session.new config isClient) s) :
    ∃ left, (muxFraming s.config.version want).Reads () s.arrived s.frames () left
      ∧ (s.Exhausted → (muxFraming s.config.version want).Stuck () left) := by
  obtain ⟨hi, hc, hshort⟩ : Incoming s ∧ Checked s ∧ s.reader.Short := by
    refine hrun.invariant (I := fun s => Incoming s ∧ Checked s ∧ s.reader.Short)
      ⟨incoming_new config isClient, checked_new config isClient, trivial⟩ ?_
    rintro s l t ⟨hi, hc, hshort⟩ - hstep
    exact ⟨hstep.incoming hi, hstep.checked hc, hstep.short hshort⟩
  obtain ⟨junk, hjunk, hheld⟩ := hi.bytes
  rw [List.append_assoc] at hjunk
  refine ⟨junk ++ s.inbound, ?_, fun hex => ?_⟩
  · rw [hjunk]
    exact reads_rawAll _ hi.sizes hc.parsed
  · rcases hex with ⟨hreading, hin⟩ | ⟨buf, e, hpc, hcheck⟩
    · rw [hin, List.append_nil]
      cases hpc : s.reader with
      | header buf =>
        rw [hheld buf (by rw [hpc]; rfl)]
        rw [hpc] at hshort
        exact Framing.stuck_of_more (if_pos hshort)
      | body hdr buf =>
        rw [hheld (hdr.encode ++ buf) (by rw [hpc]; rfl)]
        rw [hpc] at hshort
        refine Framing.stuck_of_more ((nextFrame_encode (hc.body hdr buf hpc)).trans ?_)
        exact if_pos hshort
      | _ =>
        rw [hpc] at hreading
        cases hreading
    · rw [hheld buf (by rw [hpc]; rfl)]
      have henc := MuxHeader.encode_decode (hi.whole buf hpc)
      have hfail : nextFrame s.config.version want (_ ++ s.inbound) = _ :=
        nextFrame_encode_error hcheck
      rw [henc] at hfail
      exact Framing.stuck_of_fail hfail

/-! ## The two rules -/

/-- If a UPD header of the right version stands at the front, it declares the eight
bytes the reader will read, or there are too few bytes behind it for either. -/
def UpdFits (v : UInt8) (bs : Bytes) : Prop :=
  ∀ (hdr : MuxHeader) (rest : Bytes), bs = hdr.encode ++ rest → hdr.version = v →
    hdr.cmd = CMD_UPD →
    hdr.length.toNat = UPD_SIZE ∨ rest.length < min hdr.length.toNat UPD_SIZE

theorem checkHeader_upd {v : UInt8} {hdr : MuxHeader} (hv : hdr.version = v)
    (hcmd : hdr.cmd = CMD_UPD) : checkHeader v hdr = .ok () := by
  rw [checkHeader, if_neg (not_not_intro hv), if_pos (.inr (.inr (.inr (.inr hcmd))))]

theorem sizes_upd {hdr : MuxHeader} (hcmd : hdr.cmd = CMD_UPD) :
    declared hdr = hdr.length.toNat ∧ want hdr = UPD_SIZE := by
  refine ⟨if_pos (.inr hcmd), ?_⟩
  rw [want, hcmd, if_neg (by decide), if_pos rfl]

theorem sizes_eq {hdr : MuxHeader} (hcmd : hdr.cmd ≠ CMD_UPD) : declared hdr = want hdr := by
  unfold declared want
  by_cases hp : hdr.cmd = CMD_PSH
  · rw [if_pos (.inl hp), if_pos hp]
  · rw [if_neg (not_or.mpr ⟨hp, hcmd⟩), if_neg hp, if_neg hcmd]

theorem sameUnit_iff {v : UInt8} {bs : Bytes} :
    Framing.SameUnit (muxFraming v declared) (muxFraming v want) () bs ↔ UpdFits v bs := by
  constructor
  · intro hsame hdr rest hbs hv hcmd
    subst hbs
    by_contra hno
    obtain ⟨hlen, hlong⟩ := not_or.mp hno
    obtain ⟨hd, hw⟩ := sizes_upd hcmd
    have hcheck := checkHeader_upd hv hcmd
    -- whichever of the two finds a unit, the other finds none of that length
    have hdeclared : nextFrame v declared (hdr.encode ++ rest) = _ := nextFrame_encode hcheck
    have hwant : nextFrame v want (hdr.encode ++ rest) = _ := nextFrame_encode hcheck
    rw [hd] at hdeclared
    rw [hw] at hwant
    by_cases hfit : rest.length < hdr.length.toNat
    · have hfit' : ¬ rest.length < UPD_SIZE := by omega
      rw [if_neg hfit'] at hwant
      rw [if_pos hfit] at hdeclared
      have hback := (hsame _ _ _).mpr hwant
      exact absurd (hdeclared.symm.trans hback) nofun
    · rw [if_neg hfit] at hdeclared
      have hforth := (hsame _ _ _).mp hdeclared
      have hboth := hwant.symm.trans hforth
      split_ifs at hboth
      have hconsumed := congrArg Prod.snd (Next.unit.inj hboth).2.1
      dsimp only at hconsumed
      omega
  · intro hfits
    have heq : nextFrame v declared bs = nextFrame v want bs := by
      by_cases hlen : bs.length < HEADER_SIZE
      · rw [nextFrame, nextFrame, if_pos hlen, if_pos hlen]
      · obtain ⟨hdr, rest, rfl⟩ := exists_header (Nat.le_of_not_lt hlen)
        cases hcheck : checkHeader v hdr with
        | error e => rw [nextFrame_encode_error hcheck, nextFrame_encode_error hcheck]
        | ok u =>
          rw [nextFrame_encode hcheck, nextFrame_encode hcheck]
          by_cases hcmd : hdr.cmd = CMD_UPD
          · obtain ⟨hd, hw⟩ := sizes_upd hcmd
            rw [hd, hw]
            rcases hfits hdr rest rfl (version_of_checkHeader hcheck) hcmd with h8 | hshort
            · rw [h8]
            · rw [if_pos (by omega), if_pos (by omega)]
          · rw [sizes_eq hcmd]
    intro s' out rest
    exact Iff.of_eq (congrArg (· = Next.unit s' out rest) heq)

/-- Units of the two framings that are the same reach equally far. -/
theorem muxFraming_reach {v : UInt8} {size size' : MuxHeader → Nat} {bs r₁ r₂ : Bytes}
    {out : MuxFrame × Nat} (h₁ : nextFrame v size bs = .unit () out r₁)
    (h₂ : nextFrame v size' bs = .unit () out r₂) : r₁ = r₂ := by
  obtain ⟨hdr, data, rfl, -, -, rfl⟩ := nextFrame_eq_unit.mp h₁
  obtain ⟨hdr', data', hbs, -, -, hout⟩ := nextFrame_eq_unit.mp h₂
  have hlen : hdr.encode.length = hdr'.encode.length := by
    rw [MuxHeader.length_encode, MuxHeader.length_encode]
  obtain ⟨-, hrest⟩ := List.append_inj hbs hlen
  have hsize : data.length = data'.length := by
    have h := congrArg Prod.snd hout
    dsimp only at h
    omega
  exact (List.append_inj hrest hsize).2

open Transition in
/-- A reader that has taken all it can of the bytes that have arrived has consumed the
frames that repeated decoding finds in them, each with as many bytes, exactly if every
UPD header the decoder comes to fits the reader's rule; if they all do, no reader ever
consumes anything else. -/
theorem reader_agrees_with_codec {config : MuxConfig} {isClient : Bool} {s : Session}
    (hrun : Reaches Step anyStep (Session.new config isClient) s) :
    (s.Exhausted →
      (s.frames = decodeFrames s.config.version s.arrived ↔
        ∀ frames rest, (muxFraming s.config.version declared).Reads () s.arrived frames () rest →
          UpdFits s.config.version rest))
      ∧ ((∀ frames rest,
          (muxFraming s.config.version declared).Reads () s.arrived frames () rest →
            UpdFits s.config.version rest) →
        s.frames <+: decodeFrames s.config.version s.arrived) := by
  obtain ⟨left, hreads, hstuck⟩ := reads_arrived hrun
  obtain ⟨left', hdecoded, hstuck'⟩ :=
    reads_decodeAll s.config.version (Nat.le_refl s.arrived.length)
  refine ⟨fun hex => ?_, fun hfits => ?_⟩
  · have hiff := hdecoded.eq_iff_sameUnit (fun h₁ h₂ => ⟨rfl, muxFraming_reach h₁ h₂⟩) hstuck'
      hreads (hstuck hex)
    rw [eq_comm]
    refine hiff.trans ⟨fun h frames rest hr => ?_, fun h mid u rest hr => ?_⟩
    · exact sameUnit_iff.mp (h frames () rest hr)
    · exact sameUnit_iff.mpr (h mid rest hr)
  · have hboth := hreads.of_sameUnit fun mid u rest hr => sameUnit_iff.mpr (hfits mid rest hr)
    obtain ⟨more, hmore, -⟩ := hboth.continues hdecoded hstuck'
    exact ⟨more, hmore.symm⟩

/-- A UPD frame with the eight bytes it declares. -/
def updEight : Bytes := [1, 4, 8, 0, 0, 0, 0, 0, 1, 2, 3, 4, 5, 6, 7, 8]

open Transition in
theorem upd_eight_run : ∃ s, Reaches Step anyStep (Session.new MuxConfig.default true) s
    ∧ s.Exhausted ∧ s.frames = decodeFrames s.config.version s.arrived
    ∧ s.arrived = updEight ∧ s.config.version = VERSION_1 := by
  have start : Reaches Step anyStep (Session.new MuxConfig.default true) _ := .refl
  have h := start.tail trivial (Step.arrive updEight)
  have h := h.tail trivial (Step.readerTop rfl)
  have h := h.tail trivial (Step.readerHeader 8 rfl (by decide) (by decide) (by decide))
  have h := h.tail trivial (Step.readerDecodeBody rfl rfl (by decide))
  have h := h.tail trivial (Step.readerBodyDone 8 rfl (by decide) (by decide) (by decide))
  have h := h.tail trivial (Step.readerTop rfl)
  exact ⟨_, h, .inl ⟨rfl, rfl⟩, by decide, rfl, rfl⟩

open Transition in
/-- The two agree on that frame, and it fits. -/
theorem reader_agrees_on_upd : ∃ s, Reaches Step anyStep (Session.new MuxConfig.default true) s
    ∧ s.frames = decodeFrames VERSION_1 updEight ∧ UpdFits VERSION_1 updEight := by
  obtain ⟨s, hrun, hex, hframes, harrived, hversion⟩ := upd_eight_run
  have hfits := ((reader_agrees_with_codec hrun).1 hex).mp hframes [] _ .refl
  rw [harrived, hversion] at hfits hframes
  exact ⟨s, hrun, hframes, hfits⟩

/-- A UPD frame that declares no payload, and a SYN frame for stream 3. -/
def updEmptySyn : Bytes := [1, 4, 0, 0, 0, 0, 0, 0, 1, 0, 0, 0, 3, 0, 0, 0]

open Transition in
/-- The reader takes the SYN for the payload of the UPD frame. -/
theorem upd_empty_run : ∃ s, Reaches Step anyStep (Session.new MuxConfig.default true) s
    ∧ s.Exhausted ∧ s.frames.length = 1 ∧ s.arrived = updEmptySyn
    ∧ s.config.version = VERSION_1 := by
  have start : Reaches Step anyStep (Session.new MuxConfig.default true) _ := .refl
  have h := start.tail trivial (Step.arrive updEmptySyn)
  have h := h.tail trivial (Step.readerTop rfl)
  have h := h.tail trivial (Step.readerHeader 8 rfl (by decide) (by decide) (by decide))
  have h := h.tail trivial (Step.readerDecodeBody rfl rfl (by decide))
  have h := h.tail trivial (Step.readerBodyDone 8 rfl (by decide) (by decide) (by decide))
  have h := h.tail trivial (Step.readerTop rfl)
  exact ⟨_, h, .inl ⟨rfl, rfl⟩, rfl, rfl, rfl⟩

open Transition in
/-- Not every reader consumes the frames the codec finds. -/
theorem reader_disagrees_with_codec :
    ¬ ∀ (config : MuxConfig) (isClient : Bool) (s : Session), config.verify = .ok () →
      Reaches Step anyStep (Session.new config isClient) s → s.Exhausted →
      s.frames = decodeFrames s.config.version s.arrived := by
  intro hall
  obtain ⟨s, hrun, hex, hlen, harrived, hversion⟩ := upd_empty_run
  have hframes := congrArg List.length (hall MuxConfig.default true s rfl hrun hex)
  rw [hlen, harrived, hversion] at hframes
  exact absurd hframes (by decide)

end Mux
end RtProxy
