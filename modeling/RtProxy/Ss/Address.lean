import RtProxy.Socks5.Addresses

/-!
The addresses of Shadowsocks (`ss.rs`).

TCP and UDP have an encoder and a decoder each.  The decoder of datagrams refuses an
empty name and one that is no text, and it writes an IPv6 address in brackets; the
decoder of streams does none of this.
-/

namespace RtProxy
namespace Ss

open Net

def ATYP_IPV4 : UInt8 := 0x01
def ATYP_DOMAIN : UInt8 := 0x03
def ATYP_IPV6 : UInt8 := 0x04

/-! ## Encoding -/

def encodeSsSocketAddr (addr : SocketAddr) : Bytes :=
  (match addr.ip with
    | .v4 ip => ATYP_IPV4 :: ip.octets
    | .v6 ip => ATYP_IPV6 :: ip.octets) ++ Bytes.be 2 addr.port.toNat

def encodeSsTarget (address : String) : Except HandlerError Bytes :=
  match SocketAddr.parse address with
  | some addr => .ok (encodeSsSocketAddr addr)
  | none => encodeSsAddress address

/-! ## Decoding -/

/-- `read_ss_address`, which reads as `read_address` does. -/
def readSsAddress : Take String := do
  let (host, port) ← Socks5.readAddress (← takeByte)
  return s!"{host}:{portText port}"

def bad (what : String) : HandlerError := .proxy s!"malformed shadowsocks address: {what}"

inductive Host
  | ip (ip : IpAddr)
  | domain (name : String)
deriving Repr, DecidableEq

def Host.text (host : Host) (port : UInt16) : String :=
  match host with
  | .ip addr => (SocketAddr.mk addr port).text
  | .domain name => s!"{name}:{portText port}"

/-- A name that is an IP literal is one. -/
def Host.ofName (name : String) : Host :=
  match IpAddr.parse name with
  | some addr => .ip addr
  | none => .domain name

/-- The host behind the address type, and where it ends. -/
def parseHost (atyp : UInt8) (rest : Bytes) : Except HandlerError (Host × Nat) :=
  if atyp = ATYP_IPV4 then
    if rest.length < 4 then .error (bad "truncated IPv4 address")
    else .ok (.ip (.v4 (Ipv4Addr.ofOctets (rest.take 4))), 5)
  else if atyp = ATYP_IPV6 then
    if rest.length < 16 then .error (bad "truncated IPv6 address")
    else .ok (.ip (.v6 (Ipv6Addr.ofOctets (rest.take 16))), 17)
  else if atyp = ATYP_DOMAIN then
    match rest with
    | [] => .error (bad "truncated domain length")
    | len :: name =>
      if len = 0 then .error (bad "empty domain")
      else if name.length < len.toNat then .error (bad "truncated domain")
      else
        match Text.fromUtf8 (name.take len.toNat) with
        | none => .error (bad "non-UTF-8 domain")
        | some name => .ok (.ofName name, 2 + len.toNat)
  else .error (bad s!"unsupported atyp {atyp}")

/-- The address at the head of a datagram and where its payload begins. -/
def parseSsAddress (buf : Bytes) : Except HandlerError (String × Nat) :=
  match buf with
  | [] => .error (bad "empty datagram")
  | atyp :: rest =>
    match parseHost atyp rest with
    | .error e => .error e
    | .ok (host, off) =>
      if buf.length < off + 2 then .error (bad "truncated port")
      else .ok (host.text (UInt16.ofNat (Bytes.beNat ((buf.drop off).take 2))), off + 2)

/-! ## What stands in the bytes -/

/-- A host as the bytes of an address carry it. -/
inductive Wire
  | v4 (ip : Ipv4Addr)
  | v6 (ip : Ipv6Addr)
  | domain (name : Bytes) (le : name.length ≤ 255)

namespace Wire

def bytes (port : UInt16) : Wire → Bytes
  | .v4 ip => ATYP_IPV4 :: (ip.octets ++ Bytes.be 2 port.toNat)
  | .v6 ip => ATYP_IPV6 :: (ip.octets ++ Bytes.be 2 port.toNat)
  | .domain name _ => ATYP_DOMAIN :: UInt8.ofNat name.length :: (name ++ Bytes.be 2 port.toNat)

/-- The host that a stream makes of it. -/
def read : Wire → String
  | .v4 ip => ip.text
  | .v6 ip => ip.text
  | .domain name _ => Text.fromUtf8Lossy name

/-- The host that a datagram makes of it. -/
def parsed : Wire → Option Host
  | .v4 ip => some (.ip (.v4 ip))
  | .v6 ip => some (.ip (.v6 ip))
  | .domain name _ =>
    if name = [] then none else (Text.fromUtf8 name).map .ofName

theorem readSsAddress_of {atyp : UInt8} {host : String} {port : UInt16} {more : Bytes} (bs : Bytes)
    (h : Socks5.readHost atyp (bs ++ (Bytes.be 2 port.toNat ++ more))
      = .ok (host, Bytes.be 2 port.toNat ++ more)) :
    readSsAddress (atyp :: (bs ++ Bytes.be 2 port.toNat) ++ more)
      = .ok (s!"{host}:{portText port}", more) := by
  have haddr : Socks5.readAddress atyp (bs ++ (Bytes.be 2 port.toNat ++ more))
      = .ok ((host, port), more) := by
    rw [Socks5.readAddress, take_bind h, take_bind (takeU16_be port more)]
    rfl
  rw [List.cons_append, List.append_assoc, readSsAddress, Socks5.takeByte_bind, take_bind haddr]
  rfl

theorem readSsAddress_bytes (w : Wire) (port : UInt16) (more : Bytes) :
    readSsAddress (w.bytes port ++ more) = .ok (s!"{w.read}:{portText port}", more) := by
  cases w with
  | v4 ip => exact readSsAddress_of ip.octets (Socks5.readHost_body (.v4 ip) _)
  | v6 ip => exact readSsAddress_of ip.octets (Socks5.readHost_body (.v6 ip) _)
  | domain name le =>
    exact readSsAddress_of (UInt8.ofNat name.length :: name) (Socks5.readHost_name le _)

/-- A host of a datagram, with the port behind it. -/
theorem parseSsAddress_of {atyp : UInt8} {host : Host} {port : UInt16} {more : Bytes} (bs : Bytes)
    (h : parseHost atyp (bs ++ (Bytes.be 2 port.toNat ++ more)) = .ok (host, 1 + bs.length)) :
    parseSsAddress (atyp :: (bs ++ Bytes.be 2 port.toNat) ++ more)
      = .ok (host.text port, (atyp :: (bs ++ Bytes.be 2 port.toNat)).length) := by
  have hlen : ¬ (atyp :: (bs ++ (Bytes.be 2 port.toNat ++ more))).length < 1 + bs.length + 2 := by
    rw [List.length_cons, List.length_append, List.length_append, Bytes.length_be]
    omega
  have hport : ((atyp :: (bs ++ (Bytes.be 2 port.toNat ++ more))).drop (1 + bs.length)).take 2
      = Bytes.be 2 port.toNat := by
    rw [Nat.add_comm, List.drop_succ_cons, List.drop_left, List.take_left' (Bytes.length_be _ _)]
  rw [List.cons_append, List.append_assoc, parseSsAddress]
  simp only [h]
  rw [if_neg hlen, hport, Bytes.ofNat_beNat_port, List.length_cons, List.length_append,
    Bytes.length_be]
  have hsum : 1 + bs.length + 2 = bs.length + 2 + 1 := by omega
  rw [hsum]

theorem parseSsAddress_error {atyp : UInt8} {rest : Bytes} {e : HandlerError}
    (h : parseHost atyp rest = .error e) : parseSsAddress (atyp :: rest) = .error e := by
  rw [parseSsAddress]
  simp only [h]

theorem parseHost_name {name : Bytes} (le : name.length ≤ 255) (more : Bytes) :
    parseHost ATYP_DOMAIN (UInt8.ofNat name.length :: (name ++ more))
      = if name = [] then .error (bad "empty domain")
        else match Text.fromUtf8 name with
          | none => .error (bad "non-UTF-8 domain")
          | some name' => .ok (.ofName name', 2 + name.length) := by
  have hzero : UInt8.ofNat name.length = 0 ↔ name = [] := by
    rw [← UInt8.toNat_inj, Socks5.toNat_length le]
    exact List.length_eq_zero_iff
  have hlen : ¬ (name ++ more).length < name.length := by
    rw [List.length_append]
    omega
  rw [parseHost, if_neg (by decide), if_neg (by decide), if_pos rfl]
  simp only [hzero, Socks5.toNat_length le, if_neg hlen, List.take_left]

theorem parseSsAddress_bytes (w : Wire) (port : UInt16) (more : Bytes) :
    match w.parsed with
    | some host => parseSsAddress (w.bytes port ++ more)
        = .ok (host.text port, (w.bytes port).length)
    | none => ∃ e, parseSsAddress (w.bytes port ++ more) = .error e := by
  cases w with
  | v4 ip =>
    apply parseSsAddress_of ip.octets
    have hlen : ip.octets.length = 4 := rfl
    have hle : ¬ (ip.octets ++ (Bytes.be 2 port.toNat ++ more)).length < 4 := by
      rw [List.length_append]
      omega
    rw [parseHost.eq_def, if_pos rfl, if_neg hle, List.take_left' hlen]
    rfl
  | v6 ip =>
    apply parseSsAddress_of ip.octets
    have hlen := Socks5.length_octets ip
    have hle : ¬ (ip.octets ++ (Bytes.be 2 port.toNat ++ more)).length < 16 := by
      rw [List.length_append]
      omega
    rw [parseHost.eq_def, if_neg (by decide), if_pos rfl, if_neg hle, List.take_left' hlen,
      Socks5.ofOctets_octets, hlen]
  | domain name le =>
    have hname := parseHost_name le (Bytes.be 2 port.toNat ++ more)
    have hlen : 1 + (UInt8.ofNat name.length :: name).length = 2 + name.length := by
      rw [List.length_cons]
      omega
    have hbytes : bytes port (.domain name le) ++ more
        = ATYP_DOMAIN :: UInt8.ofNat name.length :: (name ++ (Bytes.be 2 port.toNat ++ more)) := by
      rw [← List.append_assoc name]
      rfl
    simp only [parsed]
    by_cases hempty : name = []
    · rw [if_pos hempty] at hname ⊢
      rw [hbytes]
      exact ⟨_, parseSsAddress_error hname⟩
    · rw [if_neg hempty] at hname ⊢
      cases hutf : Text.fromUtf8 name with
      | none =>
        rw [hutf] at hname
        simp only [Option.map_none]
        rw [hbytes]
        exact ⟨_, parseSsAddress_error hname⟩
      | some text =>
        rw [hutf] at hname
        simp only [Option.map_some]
        apply parseSsAddress_of (UInt8.ofNat name.length :: name)
        rw [hlen]
        exact hname

/-! ### What is accepted -/

theorem octets_ofOctets4 {bs : Bytes} (h : bs.length = 4) : (Ipv4Addr.ofOctets bs).octets = bs := by
  match bs, h with
  | [_, _, _, _], _ => rfl

theorem flatMap_pairs (n : Nat) {bs : Bytes} (h : bs.length = 2 * n) :
    (Ipv6Addr.pairs bs).flatMap (fun s => Bytes.be 2 s.toNat) = bs
      ∧ (Ipv6Addr.pairs bs).length = n := by
  induction n generalizing bs with
  | zero =>
    rw [List.eq_nil_of_length_eq_zero h]
    exact ⟨rfl, rfl⟩
  | succ n ih =>
    match bs, h with
    | hi :: lo :: rest, h =>
      have hlen : rest.length = 2 * n := by
        rw [List.length_cons, List.length_cons] at h
        omega
      have hpair : Bytes.beNat [hi, lo] = hi.toNat * 256 + lo.toNat := by
        simp only [Bytes.beNat, Bytes.leNat, List.reverse_cons, List.reverse_nil, List.nil_append,
          List.cons_append]
        omega
      obtain ⟨hflat, hn⟩ := ih hlen
      rw [Ipv6Addr.pairs, List.flatMap_cons, hflat, ← hpair, Bytes.be_port rfl, List.length_cons, hn]
      exact ⟨rfl, rfl⟩

theorem octets_ofOctets16 {bs : Bytes} (h : bs.length = 16) : (Ipv6Addr.ofOctets bs).octets = bs := by
  obtain ⟨hflat, hlen⟩ := flatMap_pairs 8 h
  show ((Ipv6Addr.pairs bs ++ List.replicate 8 0).take 8).flatMap _ = bs
  rw [List.take_left' hlen, hflat]

/-- Two bytes behind the first `n` are a port. -/
theorem exists_port {n : Nat} {rest : Bytes} (h : n + 2 ≤ rest.length) :
    ∃ (port : UInt16) (more : Bytes), rest = rest.take n ++ Bytes.be 2 port.toNat ++ more := by
  have hlen : ((rest.drop n).take 2).length = 2 := by
    rw [List.length_take, List.length_drop]
    omega
  refine ⟨UInt16.ofNat (Bytes.beNat ((rest.drop n).take 2)), (rest.drop n).drop 2, ?_⟩
  rw [Bytes.be_port hlen, List.append_assoc, List.take_append_drop, List.take_append_drop]

/-- The bytes are long enough for their type. -/
def Holds (atyp : UInt8) (rest : Bytes) : Prop :=
  atyp = ATYP_IPV4 ∧ 6 ≤ rest.length ∨ atyp = ATYP_IPV6 ∧ 18 ≤ rest.length
    ∨ atyp = ATYP_DOMAIN ∧ ∃ len name, rest = len :: name ∧ UInt8.toNat len + 2 ≤ name.length

theorem exists_wire {atyp : UInt8} {rest : Bytes} (h : Holds atyp rest) :
    ∃ w port more, atyp :: rest = bytes port w ++ more := by
  rcases h with ⟨rfl, hlen⟩ | ⟨rfl, hlen⟩ | ⟨rfl, len, name, rfl, hlen⟩
  · obtain ⟨port, more, heq⟩ := exists_port (n := 4) hlen
    have h4 : (rest.take 4).length = 4 := by
      rw [List.length_take]
      omega
    refine ⟨.v4 (Ipv4Addr.ofOctets (rest.take 4)), port, more, ?_⟩
    rw [bytes, octets_ofOctets4 h4, List.cons_append, ← heq]
  · obtain ⟨port, more, heq⟩ := exists_port (n := 16) hlen
    have h16 : (rest.take 16).length = 16 := by
      rw [List.length_take]
      omega
    refine ⟨.v6 (Ipv6Addr.ofOctets (rest.take 16)), port, more, ?_⟩
    rw [bytes, octets_ofOctets16 h16, List.cons_append, ← heq]
  · obtain ⟨port, more, heq⟩ := exists_port hlen
    have hname : (name.take len.toNat).length = len.toNat := by
      rw [List.length_take]
      omega
    have hle : (name.take len.toNat).length ≤ 255 := by
      have hlt := len.toNat_lt
      omega
    refine ⟨.domain (name.take len.toNat) hle, port, more, ?_⟩
    rw [bytes, hname, UInt8.ofNat_toNat, List.cons_append, List.cons_append, ← heq]

theorem holds_of_read {atyp : UInt8} {rest : Bytes} {x : String × Bytes}
    (h : readSsAddress (atyp :: rest) = .ok x) : Holds atyp rest := by
  obtain ⟨t, more⟩ := x
  rw [readSsAddress, Socks5.takeByte_bind] at h
  obtain ⟨⟨host, port⟩, mid, haddr, -⟩ := take_bind_eq_ok h
  obtain ⟨host', mid', hhost, hport⟩ := take_bind_eq_ok haddr
  obtain ⟨port', mid'', hport, -⟩ := take_bind_eq_ok hport
  obtain ⟨two, mid'', htwo, -⟩ := take_bind_eq_ok hport
  obtain ⟨rfl, hlen⟩ := takeExact_eq_ok htwo
  unfold Socks5.readHost at hhost
  split_ifs at hhost with h4 hd h6
  · obtain ⟨bs, mid, hbs, hpure⟩ := take_bind_eq_ok hhost
    obtain ⟨rfl, hlen'⟩ := takeExact_eq_ok hbs
    cases hpure
    refine .inl ⟨h4, ?_⟩
    simp only [List.length_append]
    omega
  · obtain ⟨len, mid, hbyte, hrest⟩ := take_bind_eq_ok hhost
    obtain ⟨bs, mid', hbs, hpure⟩ := take_bind_eq_ok hrest
    obtain ⟨rfl, hlen'⟩ := takeExact_eq_ok hbs
    cases hpure
    cases rest with
    | nil => cases hbyte
    | cons b rest =>
      cases hbyte
      refine .inr (.inr ⟨hd, _, _, rfl, ?_⟩)
      simp only [List.length_append]
      omega
  · obtain ⟨bs, mid, hbs, hpure⟩ := take_bind_eq_ok hhost
    obtain ⟨rfl, hlen'⟩ := takeExact_eq_ok hbs
    cases hpure
    refine .inr (.inl ⟨h6, ?_⟩)
    simp only [List.length_append]
    omega
  · cases hhost

theorem holds_of_parse {atyp : UInt8} {rest : Bytes} {x : String × Nat}
    (h : parseSsAddress (atyp :: rest) = .ok x) : Holds atyp rest := by
  rw [parseSsAddress] at h
  cases hhost : parseHost atyp rest with
  | error e =>
    rw [hhost] at h
    cases h
  | ok y =>
    obtain ⟨host, off⟩ := y
    rw [hhost] at h
    simp only [List.length_cons] at h
    split_ifs at h with hlen
    unfold parseHost at hhost
    split_ifs at hhost with h4 hshort h6 hshort hd
    · cases hhost
      exact .inl ⟨h4, by omega⟩
    · cases hhost
      exact .inr (.inl ⟨h6, by omega⟩)
    · split at hhost
      · cases hhost
      · rename_i len name
        split_ifs at hhost with hzero hshort
        have hoff : off = 2 + len.toNat := by
          split at hhost
          · cases hhost
          · cases hhost
            rfl
        rw [List.length_cons] at hlen
        exact .inr (.inr ⟨hd, len, name, rfl, by omega⟩)

/-- Bytes that hold no host are refused by both decoders. -/
theorem cases_bytes (b : Bytes) : (∃ w port more, b = bytes port w ++ more)
    ∨ ((∃ e, readSsAddress b = .error e) ∧ ∃ e, parseSsAddress b = .error e) := by
  cases b with
  | nil => exact .inr ⟨⟨_, rfl⟩, ⟨_, rfl⟩⟩
  | cons atyp rest =>
    by_cases h : Holds atyp rest
    · exact .inl (exists_wire h)
    · right
      constructor
      · cases hr : readSsAddress (atyp :: rest) with
        | error e => exact ⟨e, rfl⟩
        | ok x => exact absurd (holds_of_read hr) h
      · cases hp : parseSsAddress (atyp :: rest) with
        | error e => exact ⟨e, rfl⟩
        | ok x => exact absurd (holds_of_parse hp) h

end Wire

end Ss
end RtProxy
