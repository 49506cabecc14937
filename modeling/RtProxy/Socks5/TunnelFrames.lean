import RtProxy.Socks5.TunnelConn

/-!
The frames of a UDP tunnel and what a reader makes of them.

A frame is a datagram with its address and a fragment number.  Whatever pieces the
frames arrive in and however many pending calls are dropped, the reader returns the
datagrams of the frames that are no fragments, in order, and it tells a stream that
ends between two frames from one that is cut.
-/

namespace RtProxy
namespace Socks5

open ByteStream Net

/-! ## Addresses -/

/-- An address as a frame carries it. -/
inductive Addr
  | v4 (ip : Ipv4Addr)
  | v6 (ip : Ipv6Addr)
  | domain (name : Bytes) (pos : 0 < name.length) (le : name.length ≤ 255)
deriving Repr, DecidableEq

namespace Addr

def atyp : Addr → UInt8
  | .v4 _ => ATYP_IPV4
  | .v6 _ => ATYP_IPV6
  | .domain _ _ _ => ATYP_DOMAIN

/-- The bytes after the address type. -/
def body : Addr → Bytes
  | .v4 ip => ip.octets
  | .v6 ip => ip.octets
  | .domain name _ _ => UInt8.ofNat name.length :: name

def text : Addr → String
  | .v4 ip => ip.text
  | .v6 ip => ip.text
  | .domain name _ _ => Text.fromUtf8Lossy name

/-- The address of a host that is an IP literal or a name of a possible length. -/
def ofHost? (host : String) : Option Addr :=
  match Ipv4Addr.parse host with
  | some ip => some (.v4 ip)
  | none =>
    match Ipv6Addr.parse host with
    | some ip => some (.v6 ip)
    | none =>
      if h : 0 < (Text.utf8 host).length ∧ (Text.utf8 host).length ≤ 255 then
        some (.domain (Text.utf8 host) h.1 h.2)
      else none

end Addr

/-- An IP literal in its canonical form, a name as it is. -/
def canonicalHost (host : String) : String :=
  match IpAddr.parse host with
  | some ip => ip.text
  | none => host

theorem encodeAddress_eq {host : String} {addr : Addr} (h : Addr.ofHost? host = some addr)
    (port : UInt16) :
    encodeAddress host port = addr.atyp :: addr.body ++ Bytes.be 2 port.toNat := by
  unfold Addr.ofHost? at h
  unfold encodeAddress
  cases h4 : Ipv4Addr.parse host with
  | some ip =>
    rw [h4] at h
    cases h
    rfl
  | none =>
    cases h6 : Ipv6Addr.parse host with
    | some ip =>
      rw [h4, h6] at h
      cases h
      rfl
    | none =>
      rw [h4, h6] at h
      simp only at h
      split_ifs at h
      cases h
      rfl

theorem text_ofHost {host : String} {addr : Addr} (h : Addr.ofHost? host = some addr) :
    addr.text = canonicalHost host := by
  unfold Addr.ofHost? at h
  unfold canonicalHost IpAddr.parse
  cases h4 : Ipv4Addr.parse host with
  | some ip =>
    rw [h4] at h
    cases h
    rfl
  | none =>
    cases h6 : Ipv6Addr.parse host with
    | some ip =>
      rw [h4, h6] at h
      cases h
      rfl
    | none =>
      rw [h4, h6] at h
      simp only at h
      split_ifs at h
      cases h
      exact Text.fromUtf8Lossy_utf8 host

theorem toNat_ofNat_be {s : UInt16} (hi lo : UInt8) (h : Bytes.be 2 s.toNat = [hi, lo]) :
    UInt16.ofNat (hi.toNat * 256 + lo.toNat) = s := by
  have hn : Bytes.beNat (Bytes.be 2 s.toNat) = s.toNat := Bytes.beNat_be s.toNat_lt
  rw [h] at hn
  have hb : Bytes.beNat [hi, lo] = hi.toNat * 256 + lo.toNat := by
    simp only [Bytes.beNat, Bytes.leNat, List.reverse_cons, List.reverse_nil, List.nil_append,
      List.cons_append]
    omega
  rw [← hb, hn, UInt16.ofNat_toNat]

theorem pairs_octets (l : List UInt16) :
    Ipv6Addr.pairs (l.flatMap fun s => Bytes.be 2 s.toNat) = l := by
  induction l with
  | nil => rfl
  | cons s l ih =>
    rw [List.flatMap_cons]
    obtain ⟨hi, lo, hb⟩ : ∃ hi lo, Bytes.be 2 s.toNat = [hi, lo] :=
      List.length_eq_two.mp (Bytes.length_be 2 s.toNat)
    rw [hb, List.cons_append, List.cons_append, List.nil_append, Ipv6Addr.pairs, ih,
      toNat_ofNat_be hi lo hb]

theorem ofOctets_octets (ip : Ipv6Addr) : Ipv6Addr.ofOctets ip.octets = ip := by
  obtain ⟨segments, eight⟩ := ip
  simp only [Ipv6Addr.ofOctets, Ipv6Addr.octets, pairs_octets, Ipv6Addr.ofSegments,
    Ipv6Addr.mk.injEq]
  rw [List.take_append_of_le_length (Nat.le_of_eq eight.symm),
    List.take_of_length_le (Nat.le_of_eq eight)]

theorem length_octets (ip : Ipv6Addr) : ip.octets.length = 16 := by
  obtain ⟨segments, eight⟩ := ip
  have h (l : List UInt16) : (l.flatMap fun s => Bytes.be 2 s.toNat).length = 2 * l.length := by
    induction l with
    | nil => rfl
    | cons s l ih =>
      rw [List.flatMap_cons, List.length_append, Bytes.length_be, ih, List.length_cons]
      omega
  rw [Ipv6Addr.octets, h, eight]

/-- The host of a frame is read back from its bytes. -/
theorem parseHost_body (addr : Addr) (rest : Bytes) :
    parseHost addr.atyp (addr.body ++ rest) = some (addr.text, addr.body.length) := by
  cases addr with
  | v4 ip =>
    have hle : ¬ (ip.octets ++ rest).length < 4 := by simp [Ipv4Addr.octets]
    show parseHost ATYP_IPV4 (ip.octets ++ rest) = some (ip.text, 4)
    rw [parseHost.eq_def, if_pos rfl, if_neg hle]
    rfl
  | v6 ip =>
    have hlen := length_octets ip
    have htake : (ip.octets ++ rest).take 16 = ip.octets := List.take_left' hlen
    have hle : ¬ (ip.octets ++ rest).length < 16 := by
      rw [List.length_append]
      omega
    show parseHost ATYP_IPV6 (ip.octets ++ rest) = some (ip.text, ip.octets.length)
    rw [parseHost.eq_def, if_neg (by decide), if_neg (by decide), if_pos rfl, if_neg hle, htake,
      ofOctets_octets, hlen]
  | domain name pos le =>
    have hn : (UInt8.ofNat name.length).toNat = name.length :=
      UInt8.toNat_ofNat_of_lt' (by show _ < 256; omega)
    have hne : ¬ (UInt8.ofNat name.length = 0 ∨ (name ++ rest).length < name.length) := by
      rw [← UInt8.toNat_inj, hn, List.length_append]
      show ¬ (name.length = 0 ∨ _)
      omega
    show parseHost ATYP_DOMAIN (UInt8.ofNat name.length :: (name ++ rest))
      = some (Text.fromUtf8Lossy name, name.length + 1)
    rw [parseHost, if_neg (by decide), if_pos rfl]
    simp only [hn, if_neg hne, List.take_left]
    rw [Nat.add_comm]

/-! ## Frames -/

structure Frame where
  frag : UInt8
  addr : Addr
  port : UInt16
  data : Bytes
  le : data.length ≤ UDP_TUN_MAX_PAYLOAD

namespace Frame

/-- The bytes before the payload. -/
def header (f : Frame) : Bytes :=
  Bytes.be 2 f.data.length ++ f.frag :: f.addr.atyp :: (f.addr.body ++ Bytes.be 2 f.port.toNat)

def encode (f : Frame) : Bytes := f.header ++ f.data

/-- What a reader returns for the frame: a fragment and an empty datagram carry
nothing. -/
def received (f : Frame) : Option Datagram :=
  if f.frag ≠ 0 ∨ f.data.length = 0 then none else some ⟨f.data, f.addr.text, f.port⟩

/-- The frame of a datagram that is sent. -/
structure Carries (f : Frame) (d : Datagram) : Prop where
  frag : f.frag = 0
  addr : Addr.ofHost? d.host = some f.addr
  port : f.port = d.port
  data : f.data = d.data

theorem encode_of_carries {f : Frame} {d : Datagram} (h : f.Carries d) :
    f.encode = encodeUdpTunnelDatagram d := by
  rw [encode, header, encodeUdpTunnelDatagram, encodeAddress_eq h.addr, h.frag, h.port, h.data]
  simp

theorem received_of_carries {f : Frame} {d : Datagram} (h : f.Carries d) (hd : d.data ≠ []) :
    f.received = some { d with host := canonicalHost d.host } := by
  have hlen : ¬ (f.frag ≠ 0 ∨ f.data.length = 0) := by
    rw [h.frag, h.data]
    simp [hd]
  rw [received, if_neg hlen, h.data, h.port, text_ofHost h.addr]

theorem length_header (f : Frame) : f.header.length = 6 + f.addr.body.length := by
  simp only [header, List.length_append, List.length_cons, Bytes.length_be]
  omega

theorem beNat_length (f : Frame) : Bytes.beNat (Bytes.be 2 f.data.length) = f.data.length := by
  have hle := f.le
  simp only [UDP_TUN_MAX_PAYLOAD] at hle
  exact Bytes.beNat_be (by omega)

theorem parse_header (f : Frame) :
    parseUdpDatagram f.header = some (f.frag, f.addr.text, f.port, f.header.length) := by
  obtain ⟨hi, lo, hb⟩ : ∃ hi lo, Bytes.be 2 f.data.length = [hi, lo] :=
    List.length_eq_two.mp (Bytes.length_be 2 f.data.length)
  have hport : UInt16.ofNat (Bytes.beNat (Bytes.be 2 f.port.toNat)) = f.port :=
    Bytes.ofNat_beNat_port f.port
  have htake : (Bytes.be 2 f.port.toNat).take 2 = Bytes.be 2 f.port.toNat :=
    List.take_of_length_le (Nat.le_of_eq (Bytes.length_be _ _))
  have hne : f.addr.body ++ Bytes.be 2 f.port.toNat ≠ [] := by
    rw [← List.length_pos_iff, List.length_append, Bytes.length_be]
    omega
  have hlen : ¬ (f.addr.body ++ Bytes.be 2 f.port.toNat).length < f.addr.body.length + 2 := by
    rw [List.length_append, Bytes.length_be]
    omega
  rw [length_header, header, hb]
  simp only [List.cons_append, List.nil_append, parseUdpDatagram, if_neg hne, parseHost_body,
    if_neg hlen, List.drop_left, htake, hport]
  rw [show 4 + f.addr.body.length + 2 = 6 + f.addr.body.length by omega]

/-- The first five bytes tell how long the header is. -/
theorem headerLength_header (f : Frame) (bs : Bytes) :
    ∃ pos, headerLength ((f.header ++ bs).take UDP_TUN_HEAD_LEN) = .ok ⟨f.header.length, pos⟩ := by
  obtain ⟨hi, lo, hb⟩ : ∃ hi lo, Bytes.be 2 f.data.length = [hi, lo] :=
    List.length_eq_two.mp (Bytes.length_be 2 f.data.length)
  rw [length_header, header, hb]
  cases haddr : f.addr with
  | v4 ip =>
    refine ⟨by omega, ?_⟩
    simp [headerLength, UDP_TUN_HEAD_LEN, Addr.atyp, Addr.body, Ipv4Addr.octets]
  | v6 ip =>
    have hlen := length_octets ip
    refine ⟨by omega, ?_⟩
    simp only [Addr.atyp, Addr.body, hlen]
    simp [headerLength, UDP_TUN_HEAD_LEN, ATYP_IPV4, ATYP_IPV6]
  | domain name pos le =>
    have hn : (UInt8.ofNat name.length).toNat = name.length :=
      UInt8.toNat_ofNat_of_lt' (by show _ < 256; omega)
    refine ⟨by omega, ?_⟩
    simp only [headerLength, UDP_TUN_HEAD_LEN, Addr.atyp, Addr.body, ATYP_IPV4, ATYP_IPV6,
      ATYP_DOMAIN, List.cons_append, List.nil_append, List.take_succ_cons, List.getD_cons_succ,
      List.getD_cons_zero, hn, List.length_cons]
    rw [if_neg (by decide), if_neg (by decide), if_pos trivial]
    congr 2
    omega

end Frame

/-! ## What a byte string reads as -/

/-- The frame at the front of a byte string. -/
def nextFrame (bs : Bytes) : Next Unit IoError (Option Datagram) :=
  if bs.length < UDP_TUN_HEAD_LEN then .more
  else
    match headerLength (bs.take UDP_TUN_HEAD_LEN) with
    | .error atyp => .fail (badAtypErr atyp)
    | .ok ⟨hlen, _⟩ =>
      if bs.length < hlen + Bytes.beNat (bs.take 2) then .more
      else
        match parseUdpDatagram (bs.take hlen) with
        | none => .fail malformedErr
        | some (frag, host, port, _) =>
          .unit ()
            (if frag ≠ 0 ∨ Bytes.beNat (bs.take 2) = 0 then none
              else some ⟨(bs.drop hlen).take (Bytes.beNat (bs.take 2)), host, port⟩)
            (bs.drop (hlen + Bytes.beNat (bs.take 2)))

/-- What the front of a byte string says does not change with what follows it. -/
theorem nextFrame_append {bs : Bytes} (h : nextFrame bs ≠ .more) (more : Bytes) :
    nextFrame (bs ++ more) = match nextFrame bs with
      | .more => .more
      | .fail e => .fail e
      | .unit s out rest => .unit s out (rest ++ more) := by
  unfold nextFrame at h ⊢
  by_cases hlen : bs.length < UDP_TUN_HEAD_LEN
  · rw [if_pos hlen] at h
    exact absurd rfl h
  have hlen' : ¬ (bs ++ more).length < UDP_TUN_HEAD_LEN := by
    rw [List.length_append]
    omega
  have htake (n : Nat) (hn : n ≤ bs.length) : (bs ++ more).take n = bs.take n :=
    List.take_append_of_le_length hn
  simp only [if_neg hlen, if_neg hlen', htake UDP_TUN_HEAD_LEN (by omega),
    htake 2 (by simp only [UDP_TUN_HEAD_LEN] at hlen; omega)] at h ⊢
  split
  · rfl
  · rename_i hlen0 pos _
    by_cases hshort : bs.length < hlen0 + Bytes.beNat (bs.take 2)
    · simp_all
    have hshort' : ¬ (bs ++ more).length < hlen0 + Bytes.beNat (bs.take 2) := by
      rw [List.length_append]
      omega
    rw [if_neg hshort, if_neg hshort', htake hlen0 (by omega),
      List.drop_append_of_le_length (by omega), List.drop_append_of_le_length (by omega),
      List.take_append_of_le_length (by rw [List.length_drop]; omega)]
    split <;> rfl

theorem nextFrame_shrinks {bs rest : Bytes} {s : Unit} {out : Option Datagram}
    (h : nextFrame bs = .unit s out rest) : rest.length < bs.length := by
  unfold nextFrame at h
  split_ifs at h with hlen
  split at h
  · cases h
  · rename_i hlen0 pos _
    split_ifs at h with hshort
    split at h
    · cases h
    · cases h
      rw [List.length_drop]
      simp only [UDP_TUN_HEAD_LEN] at hlen
      omega

def framing : Framing Unit IoError (Option Datagram) where
  next _ := nextFrame
  shrinks := nextFrame_shrinks
  unit_append := by
    intro s bs s' out rest h more
    rw [nextFrame_append (by rw [h]; simp), h]
  fail_append := by
    intro s bs e h more
    rw [nextFrame_append (by rw [h]; simp), h]

/-- A whole frame is taken off the front. -/
theorem next_frame (f : Frame) (bs : Bytes) :
    framing.next () (f.encode ++ bs) = .unit () f.received bs := by
  have hlen := f.length_header
  have hnot : ¬ (f.encode ++ bs).length < UDP_TUN_HEAD_LEN := by
    rw [Frame.encode, List.length_append, List.length_append, hlen]
    simp only [UDP_TUN_HEAD_LEN]
    omega
  have hhead : f.encode ++ bs = f.header ++ (f.data ++ bs) := by
    rw [Frame.encode, List.append_assoc]
  have hdlen : Bytes.beNat ((f.header ++ (f.data ++ bs)).take 2) = f.data.length := by
    rw [Frame.header, List.append_assoc, List.take_left' (Bytes.length_be _ _), f.beNat_length]
  obtain ⟨pos, hh⟩ := f.headerLength_header (f.data ++ bs)
  have hwhole : ¬ (f.header ++ (f.data ++ bs)).length < f.header.length + f.data.length := by
    rw [List.length_append, List.length_append]
    omega
  have hdrop : (f.header ++ (f.data ++ bs)).drop (f.header.length + f.data.length) = bs := by
    rw [← List.append_assoc]
    exact List.drop_left' List.length_append
  show nextFrame _ = _
  rw [nextFrame, if_neg hnot, hhead]
  simp only [hh, hdlen, if_neg hwhole, List.take_left, List.drop_left, f.parse_header, hdrop]
  rfl

/-- A part of a frame waits for the rest. -/
theorem next_part {f : Frame} {part : Bytes} (h : part <+: f.encode) (hne : part ≠ f.encode) :
    framing.next () part = .more := by
  have hlt := length_lt_of_isPrefix h hne
  obtain ⟨rest, hrest⟩ := h
  show nextFrame part = _
  rw [nextFrame]
  by_cases hlen : part.length < UDP_TUN_HEAD_LEN
  · rw [if_pos hlen]
  have htake (n : Nat) (hn : n ≤ part.length) : part.take n = (f.header ++ f.data).take n := by
    rw [← Frame.encode, ← hrest, List.take_append_of_le_length hn]
  obtain ⟨pos, hh⟩ := f.headerLength_header f.data
  have hdlen : Bytes.beNat ((f.header ++ f.data).take 2) = f.data.length := by
    rw [Frame.header, List.append_assoc, List.take_left' (Bytes.length_be _ _), f.beNat_length]
  rw [if_neg hlen, htake UDP_TUN_HEAD_LEN (by omega)]
  simp only [hh, htake 2 (by simp only [UDP_TUN_HEAD_LEN] at hlen; omega), hdlen]
  rw [Frame.encode, List.length_append] at hlt
  rw [if_pos hlt]

def received (fs : List Frame) : List Datagram := fs.filterMap Frame.received

theorem reads_frames (fs : List Frame) (bs : Bytes) :
    framing.Reads () (fs.flatMap Frame.encode ++ bs) (fs.map Frame.received) () bs := by
  induction fs with
  | nil => exact .refl
  | cons f fs ih =>
    rw [List.flatMap_cons, List.append_assoc]
    exact .unit (next_frame f _) ih

/-! ## What a poll does -/

/-- Between two polls the buffer holds a part of a frame that the reader knows to be
incomplete. -/
def ReadState.Waits (state : ReadState) (buf : Bytes) : Prop :=
  match state with
  | .head => buf.length < UDP_TUN_HEAD_LEN
  | .body hlen dlen pos => UDP_TUN_HEAD_LEN ≤ buf.length
      ∧ headerLength (buf.take UDP_TUN_HEAD_LEN) = .ok ⟨hlen, pos⟩
      ∧ dlen = Bytes.beNat (buf.take 2) ∧ buf.length < hlen + dlen
  | .eof => False

theorem headerLength_gt {b : Bytes} {n : Nat} {pos : 0 < n} (h : headerLength b = .ok ⟨n, pos⟩) :
    UDP_TUN_HEAD_LEN < n := by
  simp only [headerLength, UDP_TUN_HEAD_LEN] at h ⊢
  split_ifs at h
  all_goals
    cases h
    omega

namespace ReadState.Waits

variable {state : ReadState} {buf : Bytes}

theorem lt_need (h : state.Waits buf) : buf.length < state.need := by
  cases state with
  | head => exact h
  | body hlen dlen pos => exact h.2.2.2
  | eof => exact h.elim

theorem not_eof (h : state.Waits buf) : state ≠ .eof := by
  rintro rfl
  exact h

/-- A buffer that has grown and is still short waits as before. -/
theorem append (h : state.Waits buf) {got : Bytes} (hlt : (buf ++ got).length < state.need) :
    state.Waits (buf ++ got) := by
  cases state with
  | head => exact hlt
  | eof => exact h.elim
  | body hlen dlen pos =>
    obtain ⟨hge, hh, hd, -⟩ := h
    have h2 : 2 ≤ buf.length := by
      simp only [UDP_TUN_HEAD_LEN] at hge
      omega
    refine ⟨by rw [List.length_append]; omega, ?_, ?_, hlt⟩
    · rw [List.take_append_of_le_length hge, hh]
    · rw [List.take_append_of_le_length h2, hd]

theorem next_eq_more (h : state.Waits buf) : framing.next () buf = .more := by
  show nextFrame buf = .more
  cases state with
  | head => rw [nextFrame, if_pos (show buf.length < UDP_TUN_HEAD_LEN from h)]
  | eof => exact h.elim
  | body hlen dlen pos =>
    obtain ⟨hge, hh, rfl, hlt⟩ := h
    rw [nextFrame, if_neg (Nat.not_lt.mpr hge)]
    simp only [hh, if_pos hlt]

theorem head_of_nil (h : state.Waits []) : state = .head := by
  cases state with
  | head => rfl
  | eof => exact h.elim
  | body hlen dlen pos => exact absurd h.1 (by decide)

end ReadState.Waits

/-- The reader has read whole frames of the stream `total` and returned the datagrams
`log` of them. -/
structure Receiving (total : Bytes) (log : List Datagram) (r : TunnelReader)
    (src : Inbound IoError) : Prop where
  reads : ∃ outs, framing.Reads () total outs () (r.buf ++ src.content) ∧ outs.filterMap id = log
  waits : r.state.Waits r.buf

theorem receiving_new (src : Inbound IoError) : Receiving src.content [] .new src :=
  ⟨⟨[], .refl, rfl⟩, by show ([] : Bytes).length < _; decide⟩

/-- The stream ended between two frames. -/
def Closed (total : Bytes) (log : List Datagram) : Prop :=
  ∃ outs, framing.Reads () total outs () [] ∧ outs.filterMap id = log

/-- The stream ended inside a frame, or a frame of it is defective. -/
def Failed (total : Bytes) (log : List Datagram) (e : IoError) : Prop :=
  ∃ outs left, framing.Reads () total outs () left ∧ outs.filterMap id = log
    ∧ ((left ≠ [] ∧ framing.next () left = .more ∧ e = truncatedErr)
      ∨ framing.next () left = .fail e)

/-- What a poll of a reader of `src` returns and leaves. -/
inductive Polling (total : Bytes) (log : List Datagram) (src : Inbound IoError) :
    Poll Received × TunnelReader × Inbound IoError → Prop
  | pending {got : Bytes} {r' : TunnelReader} {src' : Inbound IoError} (hg : src.Gives got src')
      (h : Receiving total log r' src')
      (hw : src'.waits < src.waits ∨ src.closed = false ∧ src'.content = []) :
      Polling total log src (.pending, r', src')
  | datagram {got : Bytes} {r' : TunnelReader} {src' : Inbound IoError} {d : Datagram}
      (hg : src.Gives got src') (h : Receiving total (log ++ [d]) r' src') :
      Polling total log src (.ready (.datagram d), r', src')
  | closed {r' : TunnelReader} {src' : Inbound IoError} (h : Closed total log) :
      Polling total log src (.ready .closed, r', src')
  | failed {r' : TunnelReader} {src' : Inbound IoError} {e : IoError}
      (h : Failed total log e) : Polling total log src (.ready (.failed e), r', src')
  | transport {r' : TunnelReader} {src' : Inbound IoError} {e : IoError}
      (h : .error e ∈ src.arrivals) : Polling total log src (.ready (.failed e), r', src')

/-- The rest of a poll that has read something already. -/
theorem Polling.after {total got : Bytes} {log : List Datagram} {src mid : Inbound IoError}
    {x : Poll Received × TunnelReader × Inbound IoError} (hg : src.Gives got mid)
    (h : Polling total log mid x) : Polling total log src x := by
  cases h with
  | pending hg' h hw =>
    refine .pending (hg.trans hg') h ?_
    rcases hw with hw | ⟨hopen, hnone⟩
    · exact .inl (Nat.lt_of_lt_of_le hw hg.waits)
    · exact .inr ⟨hg.closed ▸ hopen, hnone⟩
  | datagram hg' h => exact .datagram (hg.trans hg') h
  | closed h => exact .closed h
  | failed h => exact .failed h
  | transport h => exact .transport (hg.errors _ h)

/-- What a full buffer holds: the start of a frame in one state, a frame in the other. -/
theorem onFrame_spec {state : ReadState} {buf got : Bytes} (h : state.Waits buf)
    (hlen : (buf ++ got).length = state.need) (more : Bytes) :
    (∃ e r', TunnelReader.onFrame state (buf ++ got) = .stop (some (.failed e)) r' []
        ∧ framing.next () ((buf ++ got) ++ more) = .fail e)
      ∨ (∃ r', TunnelReader.onFrame state (buf ++ got) = .again r' []
        ∧ r'.buf = buf ++ got ∧ r'.state.Waits r'.buf)
      ∨ (TunnelReader.onFrame state (buf ++ got) = .again .new []
        ∧ framing.next () ((buf ++ got) ++ more) = .unit () none more)
      ∨ ∃ d, TunnelReader.onFrame state (buf ++ got) = .stop (some (.datagram d)) .new []
        ∧ framing.next () ((buf ++ got) ++ more) = .unit () (some d) more := by
  cases state with
  | eof => exact h.elim
  | head =>
    change (buf ++ got).length = UDP_TUN_HEAD_LEN at hlen
    have htake : ((buf ++ got) ++ more).take UDP_TUN_HEAD_LEN = buf ++ got := List.take_left' hlen
    have hge : ¬ ((buf ++ got) ++ more).length < UDP_TUN_HEAD_LEN := by
      rw [List.length_append]
      omega
    simp only [TunnelReader.onFrame, TunnelReader.onHead]
    cases hh : headerLength (buf ++ got) with
    | error atyp =>
      refine .inl ⟨_, _, rfl, ?_⟩
      show nextFrame _ = _
      rw [nextFrame, if_neg hge, htake, hh]
    | ok n =>
      obtain ⟨hlen0, pos⟩ := n
      have hgt := headerLength_gt hh
      refine .inr (.inl ⟨_, rfl, rfl, ?_⟩)
      show ReadState.Waits (.body hlen0 _ pos) (buf ++ got)
      refine ⟨Nat.le_of_eq hlen.symm, ?_, rfl, by omega⟩
      rw [List.take_of_length_le (Nat.le_of_eq hlen), hh]
  | body hlen0 dlen pos =>
    change (buf ++ got).length = hlen0 + dlen at hlen
    obtain ⟨hge, hh, hd, hlt⟩ := h
    have h2 : 2 ≤ buf.length := by
      simp only [UDP_TUN_HEAD_LEN] at hge
      omega
    have htake (n : Nat) (hn : n ≤ buf.length) :
        ((buf ++ got) ++ more).take n = buf.take n := by
      rw [List.append_assoc, List.take_append_of_le_length hn]
    have hnot : ¬ ((buf ++ got) ++ more).length < UDP_TUN_HEAD_LEN := by
      rw [List.length_append, List.length_append]
      omega
    have hshort : ¬ ((buf ++ got) ++ more).length < hlen0 + dlen := by
      rw [List.length_append]
      omega
    have hhead : ((buf ++ got) ++ more).take hlen0 = (buf ++ got).take hlen0 :=
      List.take_append_of_le_length (by omega)
    have hdata : (((buf ++ got) ++ more).drop hlen0).take dlen
        = ((buf ++ got).drop hlen0).take dlen := by
      rw [List.drop_append_of_le_length (by omega),
        List.take_append_of_le_length (by rw [List.length_drop]; omega)]
    have hnext : framing.next () ((buf ++ got) ++ more)
        = match parseUdpDatagram ((buf ++ got).take hlen0) with
          | none => .fail malformedErr
          | some (frag, host, port, _) =>
            .unit () (if frag ≠ 0 ∨ dlen = 0 then none
              else some ⟨((buf ++ got).drop hlen0).take dlen, host, port⟩) more := by
      show nextFrame _ = _
      rw [nextFrame, if_neg hnot, htake _ hge, htake _ h2]
      simp only [hh, ← hd, if_neg hshort, hhead, hdata, List.drop_left' hlen]
    rw [hnext]
    simp only [TunnelReader.onFrame, TunnelReader.onBody]
    cases parseUdpDatagram ((buf ++ got).take hlen0) with
    | none => exact .inl ⟨_, _, rfl, rfl⟩
    | some x =>
      obtain ⟨frag, host, port, off⟩ := x
      by_cases hskip : frag ≠ 0 ∨ dlen = 0
      · simp only [if_pos hskip]
        exact .inr (.inr (.inl ⟨trivial, trivial⟩))
      · simp only [if_neg hskip]
        exact .inr (.inr (.inr ⟨_, rfl, rfl⟩))

theorem polling {total : Bytes} {log : List Datagram} {r : TunnelReader} {src : Inbound IoError}
    (h : Receiving total log r src) : Polling total log src (r.poll src) := by
  induction hn : r.work src.content using Nat.strong_induction_on generalizing r src log with
  | _ n ih =>
    subst hn
    obtain ⟨⟨outs, hreads, hlog⟩, hwait⟩ := h
    have hlt := hwait.lt_need
    have hsplit {got : Bytes} {src' : Inbound IoError} (hg : src.Gives got src') :
        r.buf ++ src.content = (r.buf ++ got) ++ src'.content := by
      rw [hg.content, List.append_assoc]
    have hpart {got : Bytes} {src' : Inbound IoError} (hg : src.Gives got src')
        (hlt' : (r.buf ++ got).length < r.state.need) :
        Receiving total log { r with buf := r.buf ++ got } src' :=
      ⟨⟨outs, hsplit hg ▸ hreads, hlog⟩, hwait.append hlt'⟩
    rw [TunnelReader.poll, dif_neg hwait.not_eof]
    split
    · rename_i buf src' heq
      cases filling_of_eq heq with
      | waits hg hlt' hw => exact .pending hg (hpart hg hlt') (.inl hw)
      | idle hg hlt' hnil hopen =>
        exact .pending hg (hpart hg hlt') (.inr ⟨hopen, by rw [Inbound.content, hnil]; rfl⟩)
    · rename_i e buf src' heq
      cases filling_of_eq heq with
      | failed _ _ he => exact .transport he
    · rename_i buf src' heq
      cases filling_of_eq heq with
      | @ended got _ hg hlt' hnil _ =>
        have hcontent : src'.content = [] := by simp [Inbound.content, hnil]
        rw [hsplit hg, hcontent, List.append_nil] at hreads
        have hwait' := (hpart hg hlt').waits
        split
        · rename_i hend
          exact .closed ⟨outs, hend.1 ▸ hreads, hlog⟩
        · rename_i hend
          refine .failed ⟨outs, _, hreads, hlog, .inl ⟨fun hbuf => ?_, hwait'.next_eq_more, rfl⟩⟩
          exact hend ⟨hbuf, ReadState.Waits.head_of_nil (hbuf ▸ hwait')⟩
    · rename_i buf src' heq
      have hless {r' : TunnelReader} {rest : Bytes} (ht : _ = TunnelReader.Turn.again r' rest) :=
        TunnelReader.work_onFrame heq hwait.not_eof ht
      cases filling_of_eq heq with
      | @full got _ hg hge hle =>
        have hfull := length_of_full hlt hge hle
        rw [hsplit hg] at hreads
        rcases onFrame_spec hwait hfull src'.content with
          ⟨e, r', ht, hnext⟩ | ⟨r', ht, hbuf, hwait'⟩ | ⟨ht, hnext⟩ | ⟨d, ht, hnext⟩
        · split
          all_goals
            rename_i heq'
            rw [ht] at heq'
            cases heq'
          exact .failed ⟨outs, _, hreads, hlog, .inr hnext⟩
        · split
          all_goals
            rename_i heq'
            rw [ht] at heq'
            cases heq'
          have h' : Receiving total log r' src' := ⟨⟨outs, hbuf ▸ hreads, hlog⟩, hwait'⟩
          exact (ih _ (hless ht) h' rfl).after hg
        · split
          all_goals
            rename_i heq'
            rw [ht] at heq'
            cases heq'
          have h' : Receiving total log .new src' := by
            refine ⟨⟨outs ++ [none], hreads.tail hnext, by simpa using hlog⟩, ?_⟩
            exact (receiving_new src').waits
          exact (ih _ (hless ht) h' rfl).after hg
        · split
          all_goals
            rename_i heq'
            rw [ht] at heq'
            cases heq'
          refine .datagram hg ⟨⟨outs ++ [some d], hreads.tail hnext, ?_⟩, ?_⟩
          · rw [List.filterMap_append, hlog]
            rfl
          · exact (receiving_new src').waits

/-! ## A run of polls -/

/-- How a run of polls ends. -/
def Received.All (src : Inbound IoError) : List Datagram × Outcome IoError × Socks5UdpTunnelConn →
    Prop
  | (log, .running, c) => Receiving src.content log c.reader c.inner.inbound
  | (log, .ended, _) => Closed src.content log
  | (log, .failed e, _) => Failed src.content log e

/-- Every poll goes on where the last one stopped, so the run is that of one call after
another. -/
theorem recvAll_spec {src : Inbound IoError} (hu : ∀ e, .error e ∉ src.arrivals) (polls : Nat)
    {c : Socks5UdpTunnelConn} {log : List Datagram} {got : Bytes}
    (h : Receiving src.content log c.reader c.inner.inbound) (hg : src.Gives got c.inner.inbound) :
    Received.All src (log ++ (c.recvAll polls).1, (c.recvAll polls).2) := by
  induction polls generalizing c log got with
  | zero => simpa [Socks5UdpTunnelConn.recvAll, Received.All] using h
  | succ polls ih =>
    have hp := polling h
    rw [Socks5UdpTunnelConn.recvAll, Socks5UdpTunnelConn.pollRecvFrom]
    revert hp
    rcases c.reader.poll c.inner.inbound with ⟨a, r', src'⟩
    intro hp
    cases hp with
    | pending hg' h' _ => exact ih h' (hg.trans hg')
    | datagram hg' h' =>
      have hrest := ih (c := { c with reader := r', inner := { c.inner with inbound := src' } }) h'
        (hg.trans hg')
      simpa using hrest
    | closed h' | failed h' => simpa [Received.All] using h'
    | transport h' => exact absurd h' (hg.unfailing hu _)

section

variable {src : Inbound IoError} {outs : List (Option Datagram)} {left : Bytes}
  {log : List Datagram}

/-- What has been received is a part of all there is. -/
theorem Receiving.log_prefix (hreads : framing.Reads () src.content outs () left)
    (hstuck : framing.Stuck () left) {r : TunnelReader} {src' : Inbound IoError}
    (h : Receiving src.content log r src') : log <+: outs.filterMap id := by
  obtain ⟨outs', hr, rfl⟩ := h.reads
  obtain ⟨more, rfl, -⟩ := hr.continues hreads hstuck
  rw [List.filterMap_append]
  exact List.prefix_append _ _

/-- A reader that waits for more of an open stream has received all there is. -/
theorem Receiving.log_eq (hreads : framing.Reads () src.content outs () left)
    (hstuck : framing.Stuck () left) {r : TunnelReader} {src' : Inbound IoError}
    (h : Receiving src.content log r src') (hnone : src'.content = []) :
    log = outs.filterMap id := by
  obtain ⟨outs', hr, rfl⟩ := h.reads
  rw [hnone, List.append_nil] at hr
  obtain ⟨rfl, -, -⟩ := hr.unique (Framing.stuck_of_more h.waits.next_eq_more) hreads hstuck
  rfl

theorem Closed.log_eq (hreads : framing.Reads () src.content outs () left)
    (hstuck : framing.Stuck () left) (h : Closed src.content log) :
    log = outs.filterMap id ∧ left = [] := by
  obtain ⟨outs', hr, rfl⟩ := h
  have hend : framing.Stuck () [] := Framing.stuck_of_more rfl
  obtain ⟨rfl, -, rfl⟩ := hr.unique hend hreads hstuck
  exact ⟨rfl, rfl⟩

theorem Failed.log_eq (hreads : framing.Reads () src.content outs () left)
    (hmore : framing.next () left = .more) {e : IoError} (h : Failed src.content log e) :
    log = outs.filterMap id ∧ left ≠ [] ∧ e = truncatedErr := by
  obtain ⟨outs', left', hr, rfl, hfail⟩ := h
  have hleft : framing.Stuck () left' := by
    rcases hfail with ⟨-, hm, -⟩ | hf
    · exact Framing.stuck_of_more hm
    · exact Framing.stuck_of_fail hf
  obtain ⟨rfl, -, rfl⟩ := hr.unique hleft hreads (Framing.stuck_of_more hmore)
  rcases hfail with ⟨hne, -, rfl⟩ | hf
  · exact ⟨rfl, hne, rfl⟩
  · rw [hmore] at hf
    cases hf

/-- Often enough polled, the run comes to the end of a stream that ends. -/
theorem recvAll_stops (hclosed : src.closed = true)
    (hreads : framing.Reads () src.content outs () left) (hstuck : framing.Stuck () left)
    (polls : Nat) {c : Socks5UdpTunnelConn} {got : Bytes}
    (h : Receiving src.content log c.reader c.inner.inbound) (hg : src.Gives got c.inner.inbound)
    (hlen : c.inner.inbound.waits + ((outs.filterMap id).length - log.length) < polls) :
    (c.recvAll polls).2.1 ≠ .running := by
  induction polls generalizing c log got with
  | zero => exact absurd hlen (Nat.not_lt_zero _)
  | succ polls ih =>
    have hp := polling h
    rw [Socks5UdpTunnelConn.recvAll, Socks5UdpTunnelConn.pollRecvFrom]
    revert hp
    rcases c.reader.poll c.inner.inbound with ⟨a, r', src'⟩
    intro hp
    cases hp with
    | pending hg' h' hw =>
      rw [hg.closed, hclosed] at hw
      simp only [Bool.true_eq_false, false_and, or_false] at hw
      exact ih h' (hg.trans hg') (by simp only; omega)
    | datagram hg' h' =>
      have hw := hg'.waits
      have hle := (h'.log_prefix hreads hstuck).length_le
      rw [List.length_append, List.length_singleton] at hle
      refine ih h' (hg.trans hg') ?_
      rw [List.length_append, List.length_singleton]
      simp only
      omega
    | closed | failed | transport => simp

/-- Often enough polled, the run receives all there is, whether the stream ends or not. -/
theorem recvAll_delivers (hu : ∀ e, .error e ∉ src.arrivals)
    (hreads : framing.Reads () src.content outs () left) (hmore : framing.next () left = .more)
    (polls : Nat) {c : Socks5UdpTunnelConn} {got : Bytes}
    (h : Receiving src.content log c.reader c.inner.inbound) (hg : src.Gives got c.inner.inbound)
    (hlen : c.inner.inbound.waits + ((outs.filterMap id).length - log.length) ≤ polls) :
    (outs.filterMap id).length ≤ (log ++ (c.recvAll polls).1).length := by
  have hstuck := Framing.stuck_of_more hmore
  induction polls generalizing c log got with
  | zero =>
    rw [List.length_append]
    omega
  | succ polls ih =>
    have hp := polling h
    rw [Socks5UdpTunnelConn.recvAll, Socks5UdpTunnelConn.pollRecvFrom]
    revert hp
    rcases c.reader.poll c.inner.inbound with ⟨a, r', src'⟩
    intro hp
    cases hp with
    | pending hg' h' hw =>
      rcases hw with hw | ⟨-, hnone⟩
      · exact ih h' (hg.trans hg') (by simp only; omega)
      · rw [h'.log_eq hreads hstuck hnone, List.length_append]
        exact Nat.le_add_right _ _
    | @datagram _ _ _ d hg' h' =>
      have hw := hg'.waits
      have hle := (h'.log_prefix hreads hstuck).length_le
      have hrest := ih (c := { c with reader := r', inner := { c.inner with inbound := src' } }) h'
        (hg.trans hg') (by
          rw [List.length_append, List.length_singleton] at hle ⊢
          simp only
          omega)
      simpa using hrest
    | closed h' =>
      rw [(h'.log_eq hreads hstuck).1, List.append_nil]
    | failed h' =>
      rw [(h'.log_eq hreads hmore).1, List.append_nil]
    | transport h' => exact absurd h' (hg.unfailing hu _)

end

/-- The stream ends between two frames. -/
def Boundary (fs : List Frame) (p : Bytes) : Prop :=
  ∃ front back, fs = front ++ back ∧ p = front.flatMap Frame.encode

/-- The frames that have arrived whole. -/
def Arrived (fs : List Frame) (p : Bytes) (front : List Frame) : Prop :=
  ∃ back, fs = front ++ back ∧ front.flatMap Frame.encode <+: p
    ∧ ∀ f rest, back = f :: rest → ¬ (front ++ [f]).flatMap Frame.encode <+: p

/-- Where a prefix of a sequence of frames leaves a reader. -/
theorem reads_prefix {fs : List Frame} {p : Bytes} (h : p <+: fs.flatMap Frame.encode) :
    ∃ front part, Arrived fs p front ∧ p = front.flatMap Frame.encode ++ part
      ∧ framing.Reads () p (front.map Frame.received) () part ∧ framing.next () part = .more := by
  obtain ⟨front, back, part, rfl, rfl, hpart⟩ := prefix_flatMap h
  have harrived (f : Frame) (rest : List Frame) (hback : back = f :: rest) :
      ¬ (front ++ [f]).flatMap Frame.encode <+: front.flatMap Frame.encode ++ part := by
    intro hpre
    rw [List.flatMap_append, List.flatMap_singleton, List.prefix_append_right_inj] at hpre
    rcases hpart with rfl | ⟨f', rest', hback', hpart, hne⟩
    · have hlen := hpre.length_le
      rw [Frame.encode, List.length_append, Frame.length_header, List.length_nil] at hlen
      omega
    · rw [hback] at hback'
      cases hback'
      exact hne (hpart.eq_of_length_le hpre.length_le)
  refine ⟨front, part, ⟨back, rfl, List.prefix_append _ _, harrived⟩, rfl, reads_frames front part, ?_⟩
  rcases hpart with rfl | ⟨f, rest, -, hpre, hne⟩
  · rfl
  · exact next_part hpre hne

/-- What the calls of `recv_from` return on a new connection. -/
def recvs (src : Inbound IoError) (polls : Nat) :
    List Datagram × Outcome IoError × Socks5UdpTunnelConn :=
  Socks5UdpTunnelConn.recvAll polls (.new (.new src []))

/-- What the caller of a tunnel gets of the frames `fs` when `p` arrives: the datagrams `log`
before the polls end with `out`. -/
structure Gets (fs : List Frame) (p : Bytes) (src : Inbound IoError) (polls : Nat)
    (log : List Datagram) (out : Outcome IoError) : Prop where
  inOrder : log <+: received fs
  /-- After enough polls it has got all that has arrived, whether the stream ends or not. -/
  whole : src.waits + fs.length ≤ polls ∨ out ≠ .running →
    ∃ front, Arrived fs p front ∧ log = received front
  ended : out = .ended → Boundary fs p
  failed : ∀ e, out = .failed e → e.kind = .unexpectedEof ∧ ¬ Boundary fs p
  stops : src.closed = true → src.waits + fs.length < polls → out ≠ .running

/-- A tunnel returns the datagrams of the frames `fs` from a stream that brings `p`, and it
reports a clean end exactly when that is between two frames. -/
def Faithful (fs : List Frame) (p : Bytes) : Prop :=
  ∀ src polls, src.content = p → (∀ e, .error e ∉ src.arrivals) →
    Gets fs p src polls (recvs src polls).1 (recvs src polls).2.1

theorem filterMap_map_received (fs : List Frame) :
    (fs.map Frame.received).filterMap id = received fs := by
  rw [List.filterMap_map]
  rfl

theorem faithful {fs : List Frame} {p : Bytes} (hp : p <+: fs.flatMap Frame.encode) :
    Faithful fs p := by
  intro src polls hcontent hu
  obtain ⟨front, part, harrived, hpart, hreads, hmore⟩ := reads_prefix hp
  obtain ⟨back, hfs, -⟩ := id harrived
  have hstuck := Framing.stuck_of_more hmore
  rw [← hcontent] at hreads
  have hnew : Receiving src.content [] TunnelReader.new src := receiving_new src
  have hspec : Received.All src (recvs src polls) :=
    recvAll_spec hu polls (c := .new (.new src [])) hnew .rfl
  have hall : received front <+: received fs := by
    rw [hfs, received, received, List.filterMap_append]
    exact List.prefix_append _ _
  have hcount : (received front).length ≤ fs.length := by
    refine Nat.le_trans (List.length_filterMap_le _ _) ?_
    rw [hfs, List.length_append]
    exact Nat.le_add_right _ _
  have hdelivers (hlen : src.waits + fs.length ≤ polls) :
      (received front).length ≤ (recvs src polls).1.length := by
    have h := recvAll_delivers hu hreads hmore polls (c := .new (.new src [])) hnew .rfl
    rw [filterMap_map_received, List.length_nil] at h
    exact h (by show src.waits + _ ≤ polls; omega)
  have hstop (hclosed : src.closed = true) (hlen : src.waits + fs.length < polls) :
      (recvs src polls).2.1 ≠ .running := by
    have h := recvAll_stops hclosed hreads hstuck polls (c := .new (.new src [])) hnew .rfl
    rw [filterMap_map_received, List.length_nil] at h
    exact h (by show src.waits + _ < polls; omega)
  revert hspec hdelivers hstop
  rcases recvs src polls with ⟨log, out, c⟩
  intro hspec hdelivers hstop
  cases out with
  | running =>
    have hlog := Receiving.log_prefix hreads hstuck hspec
    rw [filterMap_map_received] at hlog
    refine ⟨hlog.trans hall, fun hlen => ⟨front, harrived, ?_⟩, nofun, nofun, hstop⟩
    rcases hlen with hlen | hne
    · exact hlog.eq_of_length_le (hdelivers hlen)
    · exact absurd rfl hne
  | ended =>
    obtain ⟨hlog, rfl⟩ := Closed.log_eq hreads hstuck hspec
    rw [filterMap_map_received] at hlog
    rw [List.append_nil] at hpart
    exact ⟨hlog ▸ hall, fun _ => ⟨front, harrived, hlog⟩, fun _ => ⟨front, back, hfs, hpart⟩, nofun,
      hstop⟩
  | failed e =>
    obtain ⟨hlog, hne, rfl⟩ := Failed.log_eq hreads hmore hspec
    rw [filterMap_map_received] at hlog
    refine ⟨hlog ▸ hall, fun _ => ⟨front, harrived, hlog⟩, nofun, fun e he => ?_, hstop⟩
    cases he
    refine ⟨rfl, ?_⟩
    rintro ⟨front', back', -, hp'⟩
    have hr' := reads_frames front' []
    rw [List.append_nil, ← hp', ← hcontent] at hr'
    exact hne (hreads.unique hstuck hr' (Framing.stuck_of_more rfl)).2.2

/-! ## From one end to the other -/

/-- A datagram that a tunnel can carry. -/
def Sendable (d : Datagram) : Prop := d.data ≠ [] ∧ ∃ addr, Addr.ofHost? d.host = some addr

/-- The frames of the datagrams sent, with fragments between them. -/
def Carry (fs : List Frame) (ds : List Datagram) : Prop :=
  List.Forall₂ Frame.Carries (fs.filter (·.frag = 0)) ds

/-- The datagrams that arrive are those that were sent. -/
theorem received_of_carry {fs : List Frame} {ds : List Datagram} (hds : ∀ d ∈ ds, Sendable d)
    (h : Carry fs ds) : received fs = ds.map fun d => { d with host := canonicalHost d.host } := by
  induction fs generalizing ds with
  | nil =>
    cases h
    rfl
  | cons f fs ih =>
    by_cases hf : f.frag = 0
    · rw [Carry, List.filter_cons_of_pos (by simpa using hf)] at h
      cases h with
      | @cons _ d _ ds hfd hrest =>
        have hd := hds d (by simp)
        rw [received, List.filterMap_cons, Frame.received_of_carries hfd hd.1, List.map_cons,
          ← received, ih (fun d' hd' => hds d' (List.mem_cons_of_mem _ hd')) hrest]
    · rw [Carry, List.filter_cons_of_neg (by simpa using hf)] at h
      rw [received, List.filterMap_cons, Frame.received, if_pos (.inl hf), ← received, ih hds h]

/-- Without fragments between them the frames are the bytes sent. -/
theorem encode_of_carry {fs : List Frame} {ds : List Datagram}
    (h : List.Forall₂ Frame.Carries fs ds) :
    fs.flatMap Frame.encode = ds.flatMap encodeUdpTunnelDatagram := by
  induction h with
  | nil => rfl
  | cons hfd _ ih => rw [List.flatMap_cons, List.flatMap_cons, Frame.encode_of_carries hfd, ih]

theorem carry_of_carries {fs : List Frame} {ds : List Datagram}
    (h : List.Forall₂ Frame.Carries fs ds) : Carry fs ds := by
  induction h with
  | nil => exact .nil
  | cons hfd _ ih =>
    rw [Carry, List.filter_cons_of_pos (by simp [hfd.frag])]
    exact .cons hfd ih

/-- Every sendable datagram of a possible length has a frame. -/
theorem exists_carries {ds : List Datagram} (hds : ∀ d ∈ ds, Sendable d)
    (hlen : ∀ d ∈ ds, d.data.length ≤ UDP_TUN_MAX_PAYLOAD) :
    ∃ fs, List.Forall₂ Frame.Carries fs ds := by
  induction ds with
  | nil => exact ⟨[], .nil⟩
  | cons d ds ih =>
    obtain ⟨fs, hfs⟩ := ih (fun d' hd' => hds d' (List.mem_cons_of_mem _ hd'))
      fun d' hd' => hlen d' (List.mem_cons_of_mem _ hd')
    obtain ⟨addr, haddr⟩ := (hds d (by simp)).2
    exact ⟨⟨0, addr, d.port, d.data, hlen d (by simp)⟩ :: fs, .cons ⟨rfl, haddr, rfl, rfl⟩ hfs⟩

/-- How the calls of `send_to` on a new connection end. -/
def sendLog (src : Inbound IoError) (grants : List (Grant IoError)) (sends : List (Nat × Datagram)) :
    List (Datagram × Sent) :=
  (Socks5UdpTunnelConn.sendAll sends (.new (.new src grants))).1

/-- The datagrams they queue and the bytes they produce. -/
def sent (src : Inbound IoError) (grants : List (Grant IoError)) (sends : List (Nat × Datagram)) :
    List Datagram × Bytes :=
  (Socks5UdpTunnelConn.queued (sendLog src grants sends),
    (Socks5UdpTunnelConn.sendAll sends (.new (.new src grants))).2.produced)

/-- The connection after the calls. -/
def sending (src : Inbound IoError) (grants : List (Grant IoError)) (sends : List (Nat × Datagram)) :
    Socks5UdpTunnelConn :=
  (Socks5UdpTunnelConn.sendAll sends (.new (.new src grants))).2

/-- One more call of `send_to` behind the datagrams `ds`: when it returns `Ok` the frames of all
of them have been handed over, and it does so if the transport takes something at every
poll. -/
structure SendsOut (ds : List Datagram) (d : Datagram) (c : Socks5UdpTunnelConn) : Prop where
  sent : ∀ polls, (c.sendTo polls d).1.result = .ready (.ok ()) →
    (c.sendTo polls d).2.inner.outbound.sent = (ds ++ [d]).flatMap encodeUdpTunnelDatagram
  ends : ∀ polls, 0 < polls → d.data.length ≤ UDP_TUN_MAX_PAYLOAD →
    c.inner.outbound.Ready ((ds ++ [d]).flatMap encodeUdpTunnelDatagram).length →
    (c.sendTo polls d).1.result = .ready (.ok ())

theorem sendsOut (src : Inbound IoError) (grants : List (Grant IoError))
    (sends : List (Nat × Datagram)) (d : Datagram) :
    SendsOut (sent src grants sends).1 d (sending src grants sends) := by
  have hprod : (sending src grants sends).produced
      = (sent src grants sends).1.flatMap encodeUdpTunnelDatagram :=
    (Socks5UdpTunnelConn.sendAll_spec sends (.new (.new src grants))).1
  refine ⟨fun polls hok => ?_, fun polls hpos hlen hready => ?_⟩
  · rw [Socks5UdpTunnelConn.sent_of_ok hok, hprod, List.flatMap_append, List.flatMap_singleton]
  · refine Socks5UdpTunnelConn.sendTo_ready hpos hlen ?_
    rwa [hprod, ← List.flatMap_singleton encodeUdpTunnelDatagram d, ← List.flatMap_append]

/-- The datagrams that are sent arrive, each with its canonical host, in order and whole,
whatever fragments stand between them and wherever their bytes are cut, and a stream that
ends between two frames is told from one that is cut. -/
theorem tunnel_framing (src : Inbound IoError) (grants : List (Grant IoError))
    (sends : List (Nat × Datagram)) (hsends : ∀ s ∈ sends, Sendable s.2) :
    (sent src grants sends).1.Sublist (sends.map Prod.snd)
      ∧ ((∀ x ∈ sendLog src grants sends, x.2.result = .ready (.ok ())) →
        (sent src grants sends).1 = sends.map Prod.snd)
      ∧ (∀ d, SendsOut (sent src grants sends).1 d (sending src grants sends))
      ∧ (∃ fs, Carry fs (sent src grants sends).1
        ∧ fs.flatMap Frame.encode = (sent src grants sends).2)
      ∧ ∀ fs, Carry fs (sent src grants sends).1 →
        received fs
            = (sent src grants sends).1.map (fun d => { d with host := canonicalHost d.host })
          ∧ ∀ p, p <+: fs.flatMap Frame.encode → Faithful fs p := by
  obtain ⟨hprod, hlen, hsub⟩ :=
    Socks5UdpTunnelConn.sendAll_spec sends (.new (.new src grants))
  have hds : ∀ d ∈ (sent src grants sends).1, Sendable d := by
    intro d hd
    obtain ⟨s, hs, rfl⟩ := List.mem_map.mp (hsub.subset hd)
    exact hsends s hs
  have hbytes : (sent src grants sends).2
      = (sent src grants sends).1.flatMap encodeUdpTunnelDatagram := hprod
  obtain ⟨fs, hfs⟩ := exists_carries hds hlen
  refine ⟨hsub, fun hok => ?_, sendsOut src grants sends,
    ⟨fs, carry_of_carries hfs, (encode_of_carry hfs).trans hbytes.symm⟩,
    fun fs' h => ⟨received_of_carry hds h, fun p hp => faithful hp⟩⟩
  exact (Socks5UdpTunnelConn.queued_of_ok hok).trans (Socks5UdpTunnelConn.sendAll_map_fst sends _)

theorem sent_one : sent ⟨[], false⟩ [.accept 11] [(1, ⟨[0x68], "127.0.0.1", 53⟩)]
    = ([⟨[0x68], "127.0.0.1", 53⟩],
      [0x00, 0x01, 0x00, 0x01, 0x7F, 0x00, 0x00, 0x01, 0x00, 0x35, 0x68]) := by
  have henc : encodeUdpTunnelDatagram ⟨[0x68], "127.0.0.1", 53⟩
      = [0x00, 0x01, 0x00, 0x01, 0x7F, 0x00, 0x00, 0x01, 0x00, 0x35, 0x68] := by decide
  simp [sent, sendLog, Socks5UdpTunnelConn.sendAll, Socks5UdpTunnelConn.sendTo,
    Socks5UdpTunnelConn.new, pollFn, Socks5UdpTunnelConn.pollFlushOut, drainOut, flush, Cursor.empty,
    Socks5UdpTunnelConn.queueDatagram, UDP_TUN_MAX_PAYLOAD, henc, Transport.new, Outbound.write,
    Cursor.advance, Cursor.append, Cursor.rest, Socks5UdpTunnelConn.produced,
    Socks5UdpTunnelConn.queued]

def oneFrame (frag : UInt8) : Frame := ⟨frag, .v4 ⟨127, 0, 0, 1⟩, 53, [0x68], by decide⟩

/-- A datagram that is sent behind a fragment, and one more behind it. -/
theorem tunnel_framing_one :
    received [oneFrame 1, oneFrame 0] = [⟨[0x68], "127.0.0.1", 53⟩]
      ∧ SendsOut [⟨[0x68], "127.0.0.1", 53⟩] ⟨[0x69], "127.0.0.1", 53⟩
        (sending ⟨[], false⟩ [.accept 11] [(1, ⟨[0x68], "127.0.0.1", 53⟩)])
      ∧ Faithful [oneFrame 1, oneFrame 0] ((oneFrame 1).encode ++ (oneFrame 0).encode) := by
  have hsends : ∀ s ∈ [(1, (⟨[0x68], "127.0.0.1", 53⟩ : Datagram))], Sendable s.2 := by
    intro s hs
    rw [List.mem_singleton.mp hs]
    exact ⟨by simp, .v4 ⟨127, 0, 0, 1⟩, by decide⟩
  have h := tunnel_framing ⟨[], false⟩ [.accept 11] [(1, ⟨[0x68], "127.0.0.1", 53⟩)] hsends
  rw [sent_one] at h
  have hcarry : Carry [oneFrame 1, oneFrame 0] [⟨[0x68], "127.0.0.1", 53⟩] :=
    .cons ⟨rfl, by decide, rfl, rfl⟩ .nil
  obtain ⟨-, hf⟩ := h.2.2.2.2 _ hcarry
  refine ⟨by decide, h.2.2.1 _, hf _ ?_⟩
  simp

end Socks5
end RtProxy
