import RtProxy.Ss.Address

/-!
Where the codecs of Shadowsocks addresses agree.

The decoders agree on all bytes except those with an IPv6 address, an empty name, a name
that is no text and a name that is an IPv6 literal.  An address comes back from the bytes
of TCP if its host fits the length byte, and from those of UDP if moreover it is not empty
and has no scope.
-/

namespace RtProxy
namespace Ss

open Net

/-! ## The decoders -/

/-- A host with a colon and without brackets does not split from its port. -/
theorem splitHostPort_colon {host : String} (hcolon : ':' ∈ host.toList) (hopen : '[' ∉ host.toList)
    (port : UInt16) (x : String × String) :
    Permissions.splitHostPort s!"{host}:{portText port}" ≠ .ok x := by
  obtain ⟨h, p⟩ := x
  intro hok
  have hport := (not_mem_of_parseUnsigned (parseUnsigned_portText port)).1
  obtain ⟨-, ⟨hp, -⟩, heq | ⟨hno, heq⟩⟩ := Permissions.splitHostPort_eq_ok.mp hok
  · rw [bracketed_eq_plain] at heq
    have hl := congrArg String.toList heq
    rw [toList_plain, toList_plain] at hl
    rw [(plain_inj hport hp hl).1, toList_brackets] at hopen
    exact hopen List.mem_cons_self
  · have hl := congrArg String.toList heq
    rw [toList_plain, toList_plain] at hl
    rw [← (plain_inj hport hp hl).1] at hno
    exact hno hcolon

theorem contains_plain (host port : String) : Text.contains s!"{host}:{port}" ':' = true := by
  rw [Text.contains, toList_plain]
  simp

/-- Such an address is refused, and one that splits is allowed without rules. -/
theorem can_colon {host : String} (hcolon : ':' ∈ host.toList) (hopen : '[' ∉ host.toList)
    (port : UInt16) : Can "tcp" s!"{host}:{portText port}" none none = false := by
  unfold Can
  rw [if_pos (contains_plain _ _)]
  cases hsplit : Permissions.splitHostPort s!"{host}:{portText port}" with
  | error e => rfl
  | ok x => exact absurd hsplit (splitHostPort_colon hcolon hopen port x)

theorem can_address {addr host : String} {port : UInt16} (h : Address addr host port) :
    Can "tcp" addr none none = true := by
  have hcolon : Text.contains addr ':' = true := by
    obtain ⟨-, p, n, -, -, heq | ⟨-, heq⟩⟩ := address_iff.mp h
    · rw [heq, bracketed_eq_plain]
      exact contains_plain _ _
    · rw [heq]
      exact contains_plain _ _
  obtain ⟨p, n, hsplit, hn, -⟩ := h
  unfold Can
  rw [if_pos hcolon, hsplit]
  simp only [hn]
  trivial

/-- The text of a socket address is an address. -/
theorem address_text (addr : SocketAddr) : Address addr.text addr.ip.text addr.port := by
  obtain ⟨ip, port⟩ := addr
  have hbr := IpAddr.not_mem_text ip
  have hport := parseUnsigned_portText port
  rw [address_iff]
  refine ⟨hbr, portText port, port.toNat, hport, UInt16.ofNat_toNat.symm, ?_⟩
  cases ip with
  | v4 ip => exact .inr ⟨fun hmem => absurd (Ipv4Addr.mem_text hmem) (by decide), rfl⟩
  | v6 ip => exact .inl rfl

/-- What the decoders say of the bytes that a stream holds before it ends. -/
def Agree (b : Bytes) : Prop :=
  match readSsAddress b, parseSsAddress b with
  | .error _, .error _ => True
  | .ok (t, rest), .ok (t', off) =>
    rest.length + off = b.length
      ∧ (∀ action whitelist blacklist,
          Can action t whitelist blacklist = Can action t' whitelist blacklist)
      ∧ (Permissions.splitHostPort t).toOption = (Permissions.splitHostPort t').toOption
  | _, _ => False

/-- A host that only a stream accepts, or that a stream writes without brackets. -/
def Wire.Lax : Wire → Prop
  | .v4 _ => False
  | .v6 _ => True
  | .domain name _ => name = [] ∨ Text.fromUtf8 name = none
      ∨ ∃ text, Text.fromUtf8 name = some text ∧ (Ipv6Addr.parse text).isSome

def Laxer (b : Bytes) : Prop := ∃ (w : Wire) (port : UInt16) (more : Bytes),
  b = w.bytes port ++ more ∧ w.Lax

theorem fromUtf8Lossy_of_fromUtf8 {bs : Bytes} {s : String} (h : Text.fromUtf8 bs = some s) :
    Text.fromUtf8Lossy bs = s := by
  unfold Text.fromUtf8 at h
  split_ifs at h
  exact Option.some.inj h

/-- The addresses are the same string, or differ in the brackets. -/
theorem agree_bytes {w : Wire} {port : UInt16} {more : Bytes} {host : Host}
    (h : w.parsed = some host) (heq : host.text port = s!"{w.read}:{portText port}") :
    Agree (w.bytes port ++ more) := by
  have hparse := w.parseSsAddress_bytes port more
  rw [h] at hparse
  simp only at hparse
  unfold Agree
  rw [w.readSsAddress_bytes, hparse, heq]
  have hlen : more.length + (w.bytes port).length = (w.bytes port ++ more).length := by
    rw [List.length_append]
    omega
  exact ⟨hlen, fun _ _ _ => rfl, rfl⟩

theorem not_agree_brackets {w : Wire} {port : UInt16} {more : Bytes} {ip : Ipv6Addr}
    (h : w.parsed = some (.ip (.v6 ip))) (hcolon : ':' ∈ w.read.toList)
    (hopen : '[' ∉ w.read.toList) : ¬ Agree (w.bytes port ++ more) := by
  have hparse := w.parseSsAddress_bytes port more
  rw [h] at hparse
  simp only at hparse
  unfold Agree
  rw [w.readSsAddress_bytes, hparse]
  rintro ⟨-, hcan, -⟩
  have hverdict := hcan "tcp" none none
  rw [can_colon hcolon hopen, Host.text, can_address (address_text _)] at hverdict
  cases hverdict

theorem not_agree_refused {w : Wire} {port : UInt16} {more : Bytes} (h : w.parsed = none) :
    ¬ Agree (w.bytes port ++ more) := by
  have hparse := w.parseSsAddress_bytes port more
  rw [h] at hparse
  obtain ⟨e, he⟩ := hparse
  unfold Agree
  rw [w.readSsAddress_bytes, he]
  exact id

theorem not_lbracket_of_textual {s : String} (h : ∀ c ∈ s.toList, Ipv6Addr.Textual c) :
    '[' ∉ s.toList := fun hmem => absurd (h _ hmem) (by unfold Ipv6Addr.Textual; decide)

/-- The decoders agree on a host exactly if it is not lax. -/
theorem agree_wire (w : Wire) (port : UInt16) (more : Bytes) :
    Agree (w.bytes port ++ more) ↔ ¬ w.Lax := by
  cases w with
  | v4 ip => exact iff_of_true (agree_bytes rfl rfl) id
  | v6 ip =>
    refine iff_of_false (not_agree_brackets rfl (Ipv6Addr.colon_mem_text ip) ?_) fun h => h trivial
    exact (IpAddr.not_mem_text (.v6 ip)).1
  | domain name le =>
    unfold Wire.Lax
    by_cases hempty : name = []
    · have hparsed : (Wire.domain name le).parsed = none := if_pos hempty
      exact iff_of_false (not_agree_refused hparsed) fun h => h (.inl hempty)
    cases hutf : Text.fromUtf8 name with
    | none =>
      have hparsed : (Wire.domain name le).parsed = none := by
        simp only [Wire.parsed, if_neg hempty, hutf, Option.map_none]
      exact iff_of_false (not_agree_refused hparsed) fun h => h (.inr (.inl hutf))
    | some text =>
      have hread : (Wire.domain name le).read = text := fromUtf8Lossy_of_fromUtf8 hutf
      have hparsed : (Wire.domain name le).parsed = some (.ofName text) := by
        simp only [Wire.parsed, if_neg hempty, hutf, Option.map_some]
      cases h6 : Ipv6Addr.parse text with
      | some ip =>
        have hcolon := Ipv6Addr.colon_mem_of_parse h6
        rw [Host.ofName, IpAddr.parse_of_v6 h6] at hparsed
        refine iff_of_false (not_agree_brackets hparsed ?_ ?_) fun h => h (.inr (.inr ⟨text, hutf, ?_⟩))
        · rw [hread]
          exact hcolon
        · rw [hread]
          exact not_lbracket_of_textual (Ipv6Addr.textual_of_parse h6)
        · rw [h6]
          rfl
      | none =>
        refine iff_of_true ?_ ?_
        · cases h4 : Ipv4Addr.parse text with
          | some ip =>
            have hip : IpAddr.parse text = some (.v4 ip) := by
              rw [IpAddr.parse, h4]
            rw [Host.ofName, hip] at hparsed
            apply agree_bytes hparsed
            rw [hread, ← Ipv4Addr.text_of_parse h4]
            rfl
          | none =>
            have hip : IpAddr.parse text = none := by
              rw [IpAddr.parse, h4, h6]
              rfl
            rw [Host.ofName, hip] at hparsed
            apply agree_bytes hparsed
            rw [hread]
            rfl
        · rintro (h | h | ⟨text', heq, hsome⟩)
          · exact hempty h
          · rw [hutf] at h
            cases h
          · rw [hutf] at heq
            cases heq
            rw [h6] at hsome
            cases hsome

/-- The decoders agree on the bytes exactly if they hold no lax host. -/
theorem ss_decoders_agree (b : Bytes) : Agree b ↔ ¬ Laxer b := by
  constructor
  · rintro h ⟨w, port, more, rfl, hlax⟩
    exact (agree_wire w port more).mp h hlax
  · intro h
    rcases Wire.cases_bytes b with ⟨w, port, more, rfl⟩ | ⟨⟨e, hr⟩, e', hp⟩
    · exact (agree_wire w port more).mpr fun hlax => h ⟨w, port, more, rfl, hlax⟩
    · unfold Agree
      rw [hr, hp]
      trivial

/-- The IPv6 address of a stream loses its brackets and is refused. -/
theorem ss_decoders_ipv6 : ¬ Agree (ATYP_IPV6 :: (List.replicate 15 0 ++ [1, 0, 80])) := by
  have h := (agree_wire (.v6 (Ipv6Addr.ofSegments [0, 0, 0, 0, 0, 0, 0, 1])) 80 []).mp.mt
    (not_not_intro trivial)
  rwa [List.append_nil] at h

/-! ## The encoders -/

/-- The host comes back, or its canonical form. -/
def SameAddress (addr host : String) (port : UInt16) : Prop :=
  ∃ host', Address addr host' port ∧ (host' = host ∨ host' = Socks5.canonicalHost host)

/-- The encoder of streams refuses the address, or the decoder reads it back. -/
def TcpRoundTrips (address host : String) (port : UInt16) : Prop :=
  ∀ e, encodeSsAddress address = .ok e → ∀ more,
    ∃ addr, readSsAddress (e ++ more) = .ok (addr, more) ∧ SameAddress addr host port

/-- The same for datagrams. -/
def UdpRoundTrips (address host : String) (port : UInt16) : Prop :=
  ∀ e, encodeSsTarget address = .ok e → ∀ more,
    ∃ addr, parseSsAddress (e ++ more) = .ok (addr, e.length) ∧ SameAddress addr host port

/-- What stands before the last colon. -/
def rawHost (address : String) : String :=
  match Text.cutLast ':' address.toList with
  | some (host, _) => String.ofList host
  | none => ""

theorem rawHost_plain (host : String) {port : String} (h : ':' ∉ port.toList) :
    rawHost s!"{host}:{port}" = host := by
  rw [rawHost, toList_plain, Text.cutLast_append _ h]
  exact String.ofList_toList

/-- The length of the host fits its byte. -/
def TcpFits (address : String) : Prop :=
  (Ipv4Addr.parse (rawHost address)).isSome ∨ (Text.utf8 (rawHost address)).length ≤ 255

/-- A socket address has no scope, and another host is not empty and fits. -/
def UdpFits (address host : String) : Prop :=
  match SocketAddr.parse address with
  | some _ => (IpAddr.parse host).isSome
  | none => (Ipv4Addr.parse (rawHost address)).isSome
      ∨ 0 < (Text.utf8 (rawHost address)).length ∧ (Text.utf8 (rawHost address)).length ≤ 255

/-- The host with its brackets, as the encoder of streams takes it. -/
structure Raw (raw host : String) : Prop where
  unbracketed : '[' ∉ host.toList ∧ ']' ∉ host.toList
  form : raw = s!"[{host}]" ∨ ':' ∉ host.toList ∧ raw = host

theorem encodeSsAddress_eq {address host : String} {port : UInt16} (h : Address address host port) :
    encodeSsAddress address = .ok (Socks5.encodeAddress (rawHost address) port)
      ∧ Raw (rawHost address) host := by
  obtain ⟨hbr, p, n, hn, rfl, hform⟩ := address_iff.mp h
  obtain ⟨raw, rfl, hraw⟩ : ∃ raw : String, address = s!"{raw}:{p}"
      ∧ (raw = s!"[{host}]" ∨ ':' ∉ host.toList ∧ raw = host) := by
    rcases hform with rfl | ⟨hcolon, rfl⟩
    · exact ⟨_, bracketed_eq_plain host p, .inl rfl⟩
    · exact ⟨host, rfl, .inr ⟨hcolon, rfl⟩⟩
  have hlast : Text.cutLast ':' (s!"{raw}:{p}").toList = some (raw.toList, p.toList) := by
    rw [toList_plain, Text.cutLast_append _ (not_mem_of_parseUnsigned hn).1]
  have hhost : rawHost s!"{raw}:{p}" = raw := by
    rw [rawHost, hlast]
    exact String.ofList_toList
  rw [hhost]
  refine ⟨?_, hbr, hraw⟩
  unfold encodeSsAddress
  rw [hlast]
  simp only [String.ofList_toList, hn]

namespace Raw

variable {raw host : String}

theorem sameAddress (h : Raw raw host) (port : UInt16) :
    SameAddress s!"{raw}:{portText port}" host port :=
  ⟨host, address_plain.mpr ⟨h.unbracketed, h.form⟩, .inl rfl⟩

/-- No such host is an IPv6 literal. -/
theorem parse_v6 (h : Raw raw host) : Ipv6Addr.parse raw = none := by
  rcases h.form with rfl | ⟨hcolon, rfl⟩
  · exact Ipv6Addr.parse_bracket (toList_brackets host)
  · cases h6 : Ipv6Addr.parse raw with
    | none => rfl
    | some ip => exact absurd (Ipv6Addr.colon_mem_of_parse h6) hcolon

theorem encode_name (h : Raw raw host) (h4 : Ipv4Addr.parse raw = none) (port : UInt16) :
    Socks5.encodeAddress raw port = ATYP_DOMAIN :: UInt8.ofNat (Text.utf8 raw).length ::
      (Text.utf8 raw ++ Bytes.be 2 port.toNat) := by
  unfold Socks5.encodeAddress
  rw [h4, h.parse_v6]
  rfl

end Raw

/-- What a host looks like in the bytes, unless its length does not fit. -/
theorem exists_wire_raw {raw host : String} (h : Raw raw host)
    (hfit : (Ipv4Addr.parse raw).isSome ∨ (Text.utf8 raw).length ≤ 255) (port : UInt16) :
    ∃ w : Wire, Socks5.encodeAddress raw port = w.bytes port ∧ w.read = raw
      ∧ ((Ipv4Addr.parse raw).isSome ∨ 0 < (Text.utf8 raw).length →
          ∃ host', w.parsed = some host' ∧ host'.text port = s!"{raw}:{portText port}")
      ∧ (¬ ((Ipv4Addr.parse raw).isSome ∨ 0 < (Text.utf8 raw).length) → w.parsed = none) := by
  cases h4 : Ipv4Addr.parse raw with
  | some ip =>
    refine ⟨.v4 ip, ?_, Ipv4Addr.text_of_parse h4, fun _ => ⟨_, rfl, ?_⟩, fun hno => ?_⟩
    · unfold Socks5.encodeAddress
      rw [h4]
      rfl
    · rw [← Ipv4Addr.text_of_parse h4]
      rfl
    · exact absurd (.inl rfl) hno
  | none =>
    rw [h4] at hfit
    have hle : (Text.utf8 raw).length ≤ 255 := hfit.resolve_left (by simp)
    have hip : IpAddr.parse raw = none := by
      rw [IpAddr.parse, h4, h.parse_v6]
      rfl
    refine ⟨.domain (Text.utf8 raw) hle, h.encode_name h4 port, Text.fromUtf8Lossy_utf8 raw, ?_, ?_⟩
    · intro hpos
      have hne : Text.utf8 raw ≠ [] := List.ne_nil_of_length_pos (hpos.resolve_left (by simp))
      refine ⟨.domain raw, ?_, rfl⟩
      rw [Wire.parsed, if_neg hne, Text.fromUtf8_utf8, Option.map_some, Host.ofName, hip]
    · intro hno
      have hnil : Text.utf8 raw = [] := by
        apply List.eq_nil_of_length_eq_zero
        rw [not_or] at hno
        omega
      rw [Wire.parsed, if_pos hnil]

theorem length_wire_le (w : Wire) (port : UInt16) : (w.bytes port).length ≤ 259 := by
  cases w with
  | v4 ip =>
    have hlen : ip.octets.length = 4 := rfl
    rw [Wire.bytes, List.length_cons, List.length_append, Bytes.length_be]
    omega
  | v6 ip =>
    have hlen := Socks5.length_octets ip
    rw [Wire.bytes, List.length_cons, List.length_append, Bytes.length_be]
    omega
  | domain name le =>
    rw [Wire.bytes, List.length_cons, List.length_cons, List.length_append, Bytes.length_be]
    omega

/-- Neither decoder reads a longer address to its end. -/
theorem not_read_long {b : Bytes} (h : 259 < b.length) :
    (∀ addr, readSsAddress b ≠ .ok (addr, []))
      ∧ ∀ addr, parseSsAddress b ≠ .ok (addr, b.length) := by
  rcases Wire.cases_bytes b with ⟨w, port, more, rfl⟩ | ⟨⟨e, hr⟩, e', hp⟩
  · have hle := length_wire_le w port
    have hparse := w.parseSsAddress_bytes port more
    constructor
    · intro addr hread
      rw [w.readSsAddress_bytes] at hread
      cases hread
      rw [List.append_nil] at h
      omega
    · intro addr hok
      cases hw : w.parsed with
      | none =>
        rw [hw] at hparse
        obtain ⟨e, he⟩ := hparse
        rw [he] at hok
        cases hok
      | some host =>
        rw [hw] at hparse
        simp only at hparse
        rw [hparse] at hok
        have hlen := (Prod.mk.inj (Except.ok.inj hok)).2
        omega
  · rw [hr, hp]
    exact ⟨fun addr hok => (nomatch hok), fun addr hok => (nomatch hok)⟩

theorem length_encode_long {raw host : String} (h : Raw raw host)
    (hlong : ¬ ((Ipv4Addr.parse raw).isSome ∨ (Text.utf8 raw).length ≤ 255)) (port : UInt16) :
    259 < (Socks5.encodeAddress raw port).length := by
  rw [not_or] at hlong
  have h4 : Ipv4Addr.parse raw = none := by
    cases hip : Ipv4Addr.parse raw with
    | none => rfl
    | some ip =>
      rw [hip] at hlong
      exact absurd rfl hlong.1
  rw [h.encode_name h4, List.length_cons, List.length_cons, List.length_append, Bytes.length_be]
  omega

theorem tcp_iff {address host : String} {port : UInt16} (h : Address address host port) :
    TcpRoundTrips address host port ↔ TcpFits address := by
  obtain ⟨henc, hraw⟩ := encodeSsAddress_eq h
  unfold TcpRoundTrips TcpFits
  rw [henc]
  simp only [Except.ok.injEq, forall_eq']
  constructor
  · intro hr
    by_contra hlong
    obtain ⟨addr, hread, -⟩ := hr []
    rw [List.append_nil] at hread
    exact (not_read_long (length_encode_long hraw hlong port)).1 addr hread
  · intro hfit more
    obtain ⟨w, hw, hread, -, -⟩ := exists_wire_raw hraw hfit port
    refine ⟨_, ?_, hraw.sameAddress port⟩
    rw [hw, w.readSsAddress_bytes, hread]

/-! ### Socket addresses -/

theorem parseUnsigned_of_port? {p : String} {port : UInt16} (h : port? p.toList = some port) :
    Text.parseUnsigned (2 ^ 16) p = some port.toNat := by
  unfold port? at h
  split at h
  · rename_i n hn
    split_ifs at h with hlt
    cases h
    have hparse := Text.parseUnsigned_of_decimal? hn hlt
    rw [String.ofList_toList] at hparse
    rw [UInt16.toNat_ofNat_of_lt' hlt]
    exact hparse
  · cases h

/-- A socket address is one of its host and port, but for the scope. -/
theorem of_socketAddr {address host : String} {port : UInt16} {addr : SocketAddr}
    (h : Address address host port) (hparse : SocketAddr.parse address = some addr) :
    addr.port = port ∧ ((∃ ip, addr.ip = .v4 ip ∧ Ipv4Addr.parse host = some ip)
      ∨ ∃ ip, addr.ip = .v6 ip ∧ scoped? host.toList = some ip) := by
  obtain ⟨⟨hopen, hclose⟩, p, n, hn, rfl, hform⟩ := address_iff.mp h
  have hport {q : UInt16} (hq : port? p.toList = some q) : q = UInt16.ofNat n := by
    rw [parseUnsigned_of_port? hq] at hn
    cases hn
    exact UInt16.ofNat_toNat.symm
  unfold SocketAddr.parse at hparse
  rcases hform with rfl | ⟨hcolon, rfl⟩
  · simp only [toList_bracketed, Text.cutFirst_append hclose] at hparse
    obtain ⟨ip, hip, hparse⟩ := Option.bind_eq_some_iff.mp hparse
    obtain ⟨q, hq, hparse⟩ := Option.bind_eq_some_iff.mp hparse
    cases hparse
    exact ⟨hport hq, .inr ⟨ip, rfl, hip⟩⟩
  · rw [toList_plain] at hparse
    split at hparse
    · rename_i rest hrest
      cases hh : host.toList with
      | nil =>
        rw [hh] at hrest
        cases hrest
      | cons c cs =>
        rw [hh] at hrest hopen
        cases hrest
        exact absurd List.mem_cons_self hopen
    · rw [Text.cutFirst_append hcolon] at hparse
      simp only [String.ofList_toList] at hparse
      obtain ⟨ip, hip, hparse⟩ := Option.bind_eq_some_iff.mp hparse
      obtain ⟨q, hq, hparse⟩ := Option.bind_eq_some_iff.mp hparse
      cases hparse
      exact ⟨hport hq, .inl ⟨ip, rfl, hip⟩⟩

/-- The host of a socket address is the host given exactly if that is a literal. -/
theorem text_iff {address host : String} {port : UInt16} {addr : SocketAddr}
    (h : Address address host port) (hparse : SocketAddr.parse address = some addr) :
    addr.ip.text = host ∨ addr.ip.text = Socks5.canonicalHost host
      ↔ (IpAddr.parse host).isSome := by
  unfold Socks5.canonicalHost
  rcases (of_socketAddr h hparse).2 with ⟨ip, hip, h4⟩ | ⟨ip, hip, h6⟩
  · have hsome : IpAddr.parse host = some (.v4 ip) := by
      rw [IpAddr.parse, h4]
    rw [hip, hsome]
    simp
  · unfold scoped? at h6
    cases hcut : Text.cutFirst '%' host.toList with
    | none =>
      rw [hcut] at h6
      simp only [String.ofList_toList] at h6
      rw [hip, IpAddr.parse_of_v6 h6]
      simp
    | some x =>
      -- a scope is no part of a literal
      obtain ⟨hhost, -⟩ := Text.eq_of_cutFirst hcut
      have hmem : '%' ∈ host.toList := by
        rw [hhost]
        exact List.mem_append_right _ List.mem_cons_self
      have hscope : ¬ Ipv6Addr.Textual '%' := by
        unfold Ipv6Addr.Textual
        decide
      have hnone : IpAddr.parse host = none := by
        cases hsome : IpAddr.parse host with
        | none => rfl
        | some a => exact absurd (IpAddr.textual_of_parse hsome _ hmem) hscope
      have hne : addr.ip.text ≠ host := by
        intro heq
        rw [← heq] at hmem
        exact hscope (IpAddr.mem_text hmem)
      rw [hnone]
      simp [hne]

theorem encodeSsSocketAddr_eq (addr : SocketAddr) :
    ∃ w : Wire, encodeSsSocketAddr addr = w.bytes addr.port ∧ w.parsed = some (.ip addr.ip) := by
  obtain ⟨ip, port⟩ := addr
  cases ip with
  | v4 ip => exact ⟨.v4 ip, rfl, rfl⟩
  | v6 ip => exact ⟨.v6 ip, rfl, rfl⟩

theorem udp_iff {address host : String} {port : UInt16} (h : Address address host port) :
    UdpRoundTrips address host port ↔ UdpFits address host := by
  unfold UdpRoundTrips UdpFits encodeSsTarget
  cases hparse : SocketAddr.parse address with
  | some addr =>
    obtain ⟨w, hw, hparsed⟩ := encodeSsSocketAddr_eq addr
    have hport := (of_socketAddr h hparse).1
    have htext := address_text addr
    simp only [Except.ok.injEq, forall_eq']
    rw [← text_iff h hparse, hw]
    have hbytes (more : Bytes) : parseSsAddress (w.bytes addr.port ++ more)
        = .ok (addr.text, (w.bytes addr.port).length) := by
      have hb := w.parseSsAddress_bytes addr.port more
      rw [hparsed] at hb
      exact hb
    constructor
    · intro hr
      obtain ⟨t, hread, host', haddr, hsame⟩ := hr []
      rw [hbytes] at hread
      cases hread
      rw [(htext.unique haddr).1]
      exact hsame
    · intro hsame more
      rw [hport] at htext
      exact ⟨addr.text, hbytes more, addr.ip.text, htext, hsame⟩
  | none =>
    obtain ⟨henc, hraw⟩ := encodeSsAddress_eq h
    simp only [henc, Except.ok.injEq, forall_eq']
    by_cases hfit : (Ipv4Addr.parse (rawHost address)).isSome
        ∨ (Text.utf8 (rawHost address)).length ≤ 255
    · obtain ⟨w, hw, -, hsome, hnone⟩ := exists_wire_raw hraw hfit port
      rw [hw]
      constructor
      · intro hr
        obtain ⟨addr, hread, -⟩ := hr []
        by_cases hpos : (Ipv4Addr.parse (rawHost address)).isSome
            ∨ 0 < (Text.utf8 (rawHost address)).length
        · rcases hfit with hv4 | hle
          · exact .inl hv4
          · exact hpos.imp_right fun hlen => ⟨hlen, hle⟩
        · have hb := w.parseSsAddress_bytes port []
          rw [hnone hpos] at hb
          obtain ⟨e, he⟩ := hb
          rw [he] at hread
          cases hread
      · intro hcond more
        obtain ⟨host', hparsed, htext⟩ := hsome (hcond.imp_right And.left)
        have hb := w.parseSsAddress_bytes port more
        rw [hparsed] at hb
        simp only [htext] at hb
        exact ⟨_, hb, hraw.sameAddress port⟩
    · constructor
      · intro hr
        obtain ⟨addr, hread, -⟩ := hr []
        rw [List.append_nil] at hread
        exact absurd hread ((not_read_long (length_encode_long hraw hfit port)).2 addr)
      · rintro (hv4 | ⟨-, hle⟩)
        · exact absurd (.inl hv4) hfit
        · exact absurd (.inr hle) hfit

/-- Each encoder refuses an address or writes bytes that the decoder reads back, under
exactly these conditions. -/
theorem ss_address_agreement {address host : String} {port : UInt16} (h : Address address host port) :
    (TcpRoundTrips address host port ↔ TcpFits address)
      ∧ (UdpRoundTrips address host port ↔ UdpFits address host) :=
  ⟨tcp_iff h, udp_iff h⟩

theorem ss_address_agreement_ipv6 :
    TcpRoundTrips "[::1]:53" "::1" 53 ∧ UdpRoundTrips "[::1]:53" "::1" 53 := by
  have h : Address "[::1]:53" "::1" 53 :=
    address_iff.mpr ⟨⟨by decide, by decide⟩, "53", 53, by decide, rfl, .inl rfl⟩
  have hagree := ss_address_agreement h
  refine ⟨hagree.1.mpr (.inr (by decide)), hagree.2.mpr ?_⟩
  have hsome : (SocketAddr.parse "[::1]:53").isSome := by decide
  have hip : (IpAddr.parse "::1").isSome := by decide
  unfold UdpFits
  cases hparse : SocketAddr.parse "[::1]:53" with
  | some addr => exact hip
  | none =>
    rw [hparse] at hsome
    cases hsome

/-- A name with a port is no socket address. -/
theorem SocketAddr.parse_name {host : String} (hopen : '[' ∉ host.toList)
    (hdot : '.' ∉ host.toList) (hcolon : ':' ∉ host.toList) (port : String) :
    SocketAddr.parse s!"{host}:{port}" = none := by
  have h4 : Ipv4Addr.parse host = none := Option.eq_none_iff_forall_ne_some.mpr fun ip hip =>
    hdot (Ipv4Addr.dot_mem_of_parse hip)
  unfold SocketAddr.parse
  rw [toList_plain]
  split
  · rename_i rest heq
    cases hhost : host.toList with
    | nil =>
      rw [hhost] at heq
      cases heq
    | cons c cs =>
      rw [hhost] at heq hopen
      cases heq
      exact absurd List.mem_cons_self hopen
  · rw [Text.cutFirst_append hcolon]
    simp only [String.ofList_toList, h4]
    rfl

/-- A name of 256 bytes, whose length byte is 0. -/
def longName : String := String.ofList (List.replicate 256 'a')

theorem ss_address_long : Address s!"{longName}:80" longName 80
    ∧ ¬ TcpRoundTrips s!"{longName}:80" longName 80
    ∧ ¬ UdpRoundTrips s!"{longName}:80" longName 80 := by
  have hno {c : Char} (hc : c ≠ 'a') : c ∉ longName.toList := Text.not_mem_replicate hc 256
  have h : Address s!"{longName}:80" longName 80 :=
    address_iff.mpr ⟨⟨hno (by decide), hno (by decide)⟩, "80", 80, by decide, rfl,
      .inr ⟨hno (by decide), plain_http longName rfl⟩⟩
  have hlen : (Text.utf8 longName).length = 256 := Text.length_utf8_replicate (k := 1) rfl 256
  have h4 : Ipv4Addr.parse longName = none := Option.eq_none_iff_forall_ne_some.mpr fun ip hip =>
    hno (by decide) (Ipv4Addr.dot_mem_of_parse hip)
  have hraw : rawHost s!"{longName}:80" = longName :=
    (congrArg rawHost (plain_http longName rfl)).trans (rawHost_plain longName (by decide))
  have hparse : SocketAddr.parse s!"{longName}:80" = none :=
    (congrArg SocketAddr.parse (plain_http longName rfl)).trans
      (SocketAddr.parse_name (hno (by decide)) (hno (by decide)) (hno (by decide)) "80")
  refine ⟨h, ?_, ?_⟩
  · rw [tcp_iff h, TcpFits, hraw, h4, hlen]
    decide
  · rw [udp_iff h, UdpFits, hparse]
    simp only [hraw, h4, hlen]
    decide

end Ss
end RtProxy
