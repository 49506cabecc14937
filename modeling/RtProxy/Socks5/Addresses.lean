import RtProxy.Chain.Connect
import RtProxy.Handler.Reading
import RtProxy.Handler.Socks5
import RtProxy.Socks5.TunnelFrames
import RtProxy.Targets

/-!
The encoders and the decoders of SOCKS5 addresses (`socks5.rs`, `chain.rs`).

Three decoders read what two encoders write.  They agree on the hosts that have an
address: an IP literal, or a name of 1 to 255 bytes.  The length byte of a longer name
is truncated, and an empty name is refused by the decoder of datagrams alone.
-/

namespace RtProxy
namespace Socks5

open Net

/-- `skip_address`.  An unknown type skips nothing. -/
def skipAddress (atyp : UInt8) : Take Unit :=
  if atyp = ATYP_IPV4 then do
    let _ ← takeExact 6
  else if atyp = ATYP_DOMAIN then do
    let len ← takeByte
    let _ ← takeExact (len.toNat + 2)
  else if atyp = ATYP_IPV6 then do
    let _ ← takeExact 18
  else pure ()

/-- Each decoder finds exactly the host and the port in the bytes, whatever follows. -/
structure Decodes (e : Bytes) (host : String) (port : UInt16) : Prop where
  read (more : Bytes) :
    (takeByte >>= readAddress) (e ++ more) = .ok ((canonicalHost host, port), more)
  skip (more : Bytes) : (takeByte >>= skipAddress) (e ++ more) = .ok ((), more)
  parse (hi lo frag : UInt8) (more : Bytes) :
    parseUdpDatagram (hi :: lo :: frag :: (e ++ more))
      = some (frag, canonicalHost host, port, 3 + e.length)

/-- The host is an IP literal or a name whose length fits its byte. -/
def Encodable (host : String) : Prop := ∃ addr, Addr.ofHost? host = some addr

/-! ## Addresses that fit -/

theorem takeByte_bind {α : Type} (f : UInt8 → Take α) (b : UInt8) (bs : Bytes) :
    (takeByte >>= f) (b :: bs) = f b bs :=
  take_bind (takeByte_cons b bs)

theorem toNat_length {name : Bytes} (le : name.length ≤ 255) :
    (UInt8.ofNat name.length).toNat = name.length :=
  UInt8.toNat_ofNat_of_lt' (by show _ < 256; omega)

theorem readHost_name {name : Bytes} (le : name.length ≤ 255) (more : Bytes) :
    readHost ATYP_DOMAIN (UInt8.ofNat name.length :: (name ++ more))
      = .ok (Text.fromUtf8Lossy name, more) := by
  rw [readHost, if_neg (by decide), if_pos rfl, takeByte_bind,
    take_bind (takeExact_append (toNat_length le).symm more)]
  rfl

theorem readHost_body (addr : Addr) (more : Bytes) :
    readHost addr.atyp (addr.body ++ more) = .ok (addr.text, more) := by
  cases addr with
  | v4 ip =>
    show readHost ATYP_IPV4 (ip.octets ++ more) = _
    have hlen : ip.octets.length = 4 := rfl
    rw [readHost, if_pos rfl, take_bind (takeExact_append hlen more)]
    rfl
  | v6 ip =>
    show readHost ATYP_IPV6 (ip.octets ++ more) = _
    rw [readHost, if_neg (by decide), if_neg (by decide), if_pos rfl,
      take_bind (takeExact_append (length_octets ip) more), ofOctets_octets]
    rfl
  | domain name pos le => exact readHost_name le more

theorem skipAddress_body (addr : Addr) (port : UInt16) (more : Bytes) :
    skipAddress addr.atyp (addr.body ++ Bytes.be 2 port.toNat ++ more) = .ok ((), more) := by
  cases addr with
  | v4 ip =>
    show skipAddress ATYP_IPV4 (ip.octets ++ Bytes.be 2 port.toNat ++ more) = _
    rw [skipAddress, if_pos rfl, take_bind (takeExact_append _ more)]
    · rfl
    · rw [List.length_append, Bytes.length_be]
      rfl
  | v6 ip =>
    show skipAddress ATYP_IPV6 (ip.octets ++ Bytes.be 2 port.toNat ++ more) = _
    rw [skipAddress, if_neg (by decide), if_neg (by decide), if_pos rfl,
      take_bind (takeExact_append _ more)]
    · rfl
    · rw [List.length_append, Bytes.length_be, length_octets]
  | domain name pos le =>
    show skipAddress ATYP_DOMAIN
      (UInt8.ofNat name.length :: (name ++ Bytes.be 2 port.toNat ++ more)) = _
    rw [skipAddress, if_neg (by decide), if_pos rfl, takeByte_bind,
      take_bind (takeExact_append _ more)]
    · rfl
    · rw [List.length_append, Bytes.length_be, toNat_length le]

theorem decodes_of_ofHost {host : String} {addr : Addr} (h : Addr.ofHost? host = some addr)
    (port : UInt16) : Decodes (encodeAddress host port) host port := by
  have henc := encodeAddress_eq h port
  constructor
  · intro more
    rw [henc, List.cons_append, List.cons_append, takeByte_bind, List.append_assoc, readAddress,
      take_bind (readHost_body addr _), take_bind (takeU16_be port more), text_ofHost h]
    rfl
  · intro more
    rw [henc, List.cons_append, List.cons_append, takeByte_bind, skipAddress_body]
  · intro hi lo frag more
    have hne : addr.body ++ Bytes.be 2 port.toNat ++ more ≠ [] := by
      apply List.ne_nil_of_length_pos
      rw [List.length_append, List.length_append, Bytes.length_be]
      omega
    have hlen : ¬ (addr.body ++ Bytes.be 2 port.toNat ++ more).length < addr.body.length + 2 := by
      rw [List.length_append, List.length_append, Bytes.length_be]
      omega
    have hport : ((addr.body ++ Bytes.be 2 port.toNat ++ more).drop addr.body.length).take 2
        = Bytes.be 2 port.toNat := by
      rw [List.append_assoc, List.drop_left, List.take_left' (Bytes.length_be _ _)]
    have hparse := parseHost_body addr (Bytes.be 2 port.toNat ++ more)
    rw [← List.append_assoc] at hparse
    rw [henc, List.cons_append, List.cons_append, parseUdpDatagram, if_neg hne]
    simp only [hparse]
    rw [if_neg hlen, hport, Bytes.ofNat_beNat_port, text_ofHost h, List.length_cons,
      List.length_append, Bytes.length_be]
    have hsum : 4 + addr.body.length + 2 = 3 + (addr.body.length + 2 + 1) := by omega
    rw [hsum]

/-! ## Addresses that do not -/

/-- What is written for a host that has no address. -/
theorem encodeAddress_of_not_encodable {host : String} (h : ¬ Encodable host) (port : UInt16) :
    encodeAddress host port = ATYP_DOMAIN :: UInt8.ofNat (Text.utf8 host).length ::
        (Text.utf8 host ++ Bytes.be 2 port.toNat)
      ∧ ((Text.utf8 host).length = 0 ∨ 255 < (Text.utf8 host).length) := by
  have hnone : Addr.ofHost? host = none := by
    cases haddr : Addr.ofHost? host with
    | none => rfl
    | some addr => exact absurd ⟨addr, haddr⟩ h
  unfold Addr.ofHost? at hnone
  unfold encodeAddress
  cases h4 : Ipv4Addr.parse host with
  | some ip =>
    rw [h4] at hnone
    cases hnone
  | none =>
    cases h6 : Ipv6Addr.parse host with
    | some ip =>
      rw [h4, h6] at hnone
      cases hnone
    | none =>
      rw [h4, h6] at hnone
      simp only at hnone
      split_ifs at hnone with hlen
      exact ⟨rfl, by omega⟩

theorem not_decodes {host : String} (h : ¬ Encodable host) (port : UInt16) (host' : String)
    (port' : UInt16) : ¬ Decodes (encodeAddress host port) host' port' := by
  obtain ⟨henc, hlen⟩ := encodeAddress_of_not_encodable h port
  intro hd
  rcases hlen with hzero | hlong
  · -- the decoder of datagrams refuses an empty name
    have hname : Text.utf8 host = [] := List.eq_nil_of_length_eq_zero hzero
    have hparse := hd.parse 0 0 0 []
    rw [henc, hname] at hparse
    have hempty : parseUdpDatagram
        (0 :: 0 :: 0 :: ATYP_DOMAIN :: 0 :: (Bytes.be 2 port.toNat ++ [])) = none := rfl
    exact absurd (hempty.symm.trans hparse) (by simp)
  · -- the length byte falls short of the name, and the rest is left to be read
    have hskip := hd.skip []
    rw [henc, List.append_nil, takeByte_bind, skipAddress, if_neg (by decide), if_pos rfl,
      takeByte_bind] at hskip
    obtain ⟨bs, mid, htake, hrest⟩ := take_bind_eq_ok hskip
    obtain ⟨heq, hbs⟩ := takeExact_eq_ok htake
    cases hrest
    have hlen := congrArg List.length heq
    have hlt : (UInt8.ofNat (Text.utf8 host).length).toNat < 256 := UInt8.toNat_lt _
    rw [List.append_nil, List.length_append, Bytes.length_be, hbs] at hlen
    omega

theorem decodes_iff (host : String) (port : UInt16) :
    Decodes (encodeAddress host port) host port ↔ Encodable host := by
  constructor
  · intro hd
    by_contra h
    exact not_decodes h port host port hd
  · rintro ⟨addr, h⟩
    exact decodes_of_ofHost h port

theorem not_encodable_of_long {host : String} (hdot : '.' ∉ host.toList)
    (hcolon : ':' ∉ host.toList) (hlong : 255 < (Text.utf8 host).length) : ¬ Encodable host := by
  rintro ⟨addr, haddr⟩
  unfold Addr.ofHost? at haddr
  split at haddr
  · rename_i ip hip
    exact hdot (Ipv4Addr.dot_mem_of_parse hip)
  · split at haddr
    · rename_i ip hip
      exact hcolon (Ipv6Addr.colon_mem_of_parse hip)
    · split_ifs at haddr with hfit
      omega

/-! ## The request of a chain -/

/-- The request that a chain writes for a target holds an address that the decoders agree
on. -/
def RequestDecodes (target host : String) (port : UInt16) : Prop :=
  ∀ req, socks5ConnectRequest target = .ok req →
    ∃ e, req = [VERSION, CMD_CONNECT, 0x00] ++ e ∧ Decodes e host port

/-- The host comes back from the address it is joined into. -/
def Plain (host : String) : Prop :=
  if ':' ∈ host.toList then ']' ∉ host.toList else host.toList.head? ≠ some '['

/-- The host is a name in brackets, which the chain takes for those of an address. -/
def Bracketed (host : String) : Prop :=
  ∃ name : String, host = s!"[{name}]" ∧ ':' ∉ name.toList ∧ ']' ∉ name.toList

theorem joinHostPort_of_colon {host : String} (h : ':' ∈ host.toList) (port : UInt16) :
    joinHostPort host port = s!"[{host}]:{portText port}" :=
  if_pos (by simpa [Text.contains] using h)

theorem joinHostPort_of_not_colon {host : String} (h : ':' ∉ host.toList) (port : UInt16) :
    joinHostPort host port = s!"{host}:{portText port}" :=
  if_neg (by simpa [Text.contains] using h)

theorem split_plain {host : String} (h : Plain host) (port : UInt16) :
    splitHostPort (joinHostPort host port) = .ok (host, port) := by
  have hport := parseUnsigned_portText port
  unfold Plain at h
  apply splitHostPort_eq_ok.mpr
  refine ⟨portText port, port.toNat, hport, UInt16.ofNat_toNat.symm, ?_⟩
  split_ifs at h with hc
  · exact .inl ⟨h, joinHostPort_of_colon hc port⟩
  · exact .inr ⟨h, joinHostPort_of_not_colon hc port⟩

theorem split_bracketed {name : String} (hcolon : ':' ∉ name.toList) (hclose : ']' ∉ name.toList)
    (port : UInt16) : splitHostPort (joinHostPort s!"[{name}]" port) = .ok (name, port) := by
  have hport := parseUnsigned_portText port
  have hc : ':' ∉ (s!"[{name}]").toList := by
    rw [toList_brackets]
    simp [hcolon]
  apply splitHostPort_eq_ok.mpr
  refine ⟨portText port, port.toNat, hport, UInt16.ofNat_toNat.symm, .inl ⟨hclose, ?_⟩⟩
  rw [joinHostPort_of_not_colon hc, bracketed_eq_plain]

/-- Any other host is refused. -/
theorem plain_or_bracketed {host host' : String} {port port' : UInt16}
    (h : splitHostPort (joinHostPort host port) = .ok (host', port')) :
    Plain host ∨ Bracketed host := by
  obtain ⟨p, n, hn, rfl, hform⟩ := splitHostPort_eq_ok.mp h
  have hp := not_mem_of_parseUnsigned hn
  have hport := not_mem_of_parseUnsigned (parseUnsigned_portText port)
  unfold Plain
  split_ifs with hc
  · left
    rw [joinHostPort_of_colon hc] at hform
    rcases hform with ⟨hclose, heq⟩ | ⟨hhead, heq⟩
    · -- the last bracket of both is the one before the port
      have hl := congrArg String.toList heq
      rw [toList_bracketed, toList_bracketed, List.cons_inj_right] at hl
      have hq : ']' ∉ ':' :: p.toList := List.not_mem_cons_of_ne_of_not_mem (by decide) hp.2.2
      have hq' : ']' ∉ ':' :: (portText port).toList :=
        List.not_mem_cons_of_ne_of_not_mem (by decide) hport.2.2
      have hcut := Text.cutLast_append host'.toList hq
      rw [← hl, Text.cutLast_append host.toList hq'] at hcut
      rw [(Prod.mk.inj (Option.some.inj hcut)).1]
      exact hclose
    · have hl := congrArg String.toList heq
      rw [toList_bracketed, toList_plain] at hl
      cases hh : host'.toList with
      | nil =>
        rw [hh] at hl
        cases hl
      | cons c cs =>
        rw [hh] at hl hhead
        rw [List.cons_append, List.cons.injEq] at hl
        exact absurd (congrArg some hl.1.symm) hhead
  · rw [joinHostPort_of_not_colon hc] at hform
    rcases hform with ⟨hclose, heq⟩ | ⟨hhead, heq⟩
    · right
      rw [bracketed_eq_plain] at heq
      have hl := congrArg String.toList heq
      rw [toList_plain, toList_plain] at hl
      obtain ⟨hhost, -⟩ := plain_inj hport.1 hp.1 hl
      refine ⟨host', String.toList_inj.mp hhost, ?_, hclose⟩
      rw [hhost, toList_brackets] at hc
      intro hmem
      exact hc (List.mem_cons_of_mem _ (List.mem_append_left _ hmem))
    · left
      have hl := congrArg String.toList heq
      rw [toList_plain, toList_plain] at hl
      rw [(plain_inj hport.1 hp.1 hl).1]
      exact hhead

theorem socks5ConnectRequest_eq {target host : String} {port : UInt16}
    (h : splitHostPort target = .ok (host, port)) :
    socks5ConnectRequest target
      = .ok ([VERSION, CMD_CONNECT, 0x00] ++ encodeAddress host port) := by
  rw [socks5ConnectRequest, h]
  rfl

theorem requestDecodes_of_split {target host host' : String} {port port' : UInt16}
    (h : splitHostPort target = .ok (host', port')) :
    RequestDecodes target host port ↔ Decodes (encodeAddress host' port') host port := by
  have hreq := socks5ConnectRequest_eq h
  constructor
  · intro hr
    obtain ⟨e, heq, hd⟩ := hr _ hreq
    rwa [List.append_cancel_left heq]
  · intro hd req hr
    rw [hreq] at hr
    cases hr
    exact ⟨_, rfl, hd⟩

/-- A name that loses its brackets is not read back with them. -/
theorem not_decodes_bracketed (name : String) (port : UInt16) :
    ¬ Decodes (encodeAddress name port) s!"[{name}]" port := by
  intro hd
  by_cases h : Encodable name
  · have hread := hd.read []
    obtain ⟨addr, haddr⟩ := h
    rw [(decodes_of_ofHost haddr port).read []] at hread
    have hhost : canonicalHost name = canonicalHost s!"[{name}]" :=
      (Prod.mk.inj (Prod.mk.inj (Except.ok.inj hread)).1).1
    have hself : canonicalHost s!"[{name}]" = s!"[{name}]" := by
      rw [canonicalHost, IpAddr.parse_bracket (toList_brackets name)]
    rw [hself] at hhost
    have hl := congrArg String.toList hhost
    rw [toList_brackets] at hl
    unfold canonicalHost at hl
    split at hl
    · rename_i ip _
      have hno := (IpAddr.not_mem_text ip).1
      rw [hl] at hno
      exact hno List.mem_cons_self
    · have hlen := congrArg List.length hl
      rw [List.length_cons, List.length_append] at hlen
      omega
  · exact not_decodes h port _ _ hd

/-- The encoders and the decoders agree on the hosts that have an address, and a request
of a chain on those that also keep their brackets. -/
theorem socks5_address_agreement (host : String) (port : UInt16) :
    (Decodes (encodeAddress host port) host port ↔ Encodable host)
      ∧ (RequestDecodes (joinHostPort host port) host port ↔
          ¬ Bracketed host ∧ (Plain host → Encodable host)) := by
  refine ⟨decodes_iff host port, ?_, ?_⟩
  · intro hr
    constructor
    · rintro ⟨name, rfl, hcolon, hclose⟩
      exact not_decodes_bracketed name port
        ((requestDecodes_of_split (split_bracketed hcolon hclose port)).mp hr)
    · intro hplain
      exact (decodes_iff host port).mp ((requestDecodes_of_split (split_plain hplain port)).mp hr)
  · rintro ⟨hbr, henc⟩
    cases hsplit : splitHostPort (joinHostPort host port) with
    | error e =>
      intro req hreq
      rw [socks5ConnectRequest, hsplit] at hreq
      cases hreq
    | ok x =>
      have hplain := (plain_or_bracketed hsplit).resolve_right hbr
      exact (requestDecodes_of_split (split_plain hplain port)).mpr
        ((decodes_iff host port).mpr (henc hplain))

/-- What 86 bytes that are no text are decoded to: a name of 258 bytes, whose length byte
is 2. -/
def lossyHost : String := Text.fromUtf8Lossy (List.replicate 86 0xFF)

theorem lossyHost_eq : lossyHost = String.ofList (List.replicate 86 Text.replacement) :=
  Text.fromUtf8Lossy_replicate (by decide) 86

theorem not_mem_lossyHost {c : Char} (h : c ≠ Text.replacement) : c ∉ lossyHost.toList := by
  rw [lossyHost_eq]
  exact Text.not_mem_replicate h 86

theorem not_encodable_lossyHost : ¬ Encodable lossyHost := by
  apply not_encodable_of_long (not_mem_lossyHost (by decide)) (not_mem_lossyHost (by decide))
  rw [lossyHost_eq, Text.length_utf8_replicate (k := 3) rfl]
  decide

theorem split_lossyHost : splitHostPort (joinHostPort lossyHost 80) = .ok (lossyHost, 80) := by
  apply split_plain
  unfold Plain
  rw [if_neg (not_mem_lossyHost (by decide))]
  exact fun hhead => not_mem_lossyHost (by decide) (List.mem_of_mem_head? hhead)

theorem socks5_address_lossy :
    readHost ATYP_DOMAIN (86 :: List.replicate 86 0xFF) = .ok (lossyHost, [])
      ∧ ¬ Decodes (encodeAddress lossyHost 80) lossyHost 80
      ∧ ¬ RequestDecodes (joinHostPort lossyHost 80) lossyHost 80 := by
  have hno : ¬ Decodes (encodeAddress lossyHost 80) lossyHost 80 :=
    not_decodes not_encodable_lossyHost 80 lossyHost 80
  refine ⟨?_, hno, fun hr => ?_⟩
  · exact @readHost_name (List.replicate 86 0xFF) (by decide) []
  · exact hno ((requestDecodes_of_split split_lossyHost).mp hr)

end Socks5
end RtProxy
