import RtProxy.Handler.Reading
import RtProxy.Relay.Conn
import RtProxy.Socks5.TunnelFrames
import RtProxy.Targets

/-!
The request of the relay protocol (`relay.rs`).

A request is a header and a block of features, each with its type and its length.  The
lengths inside a feature have one byte, the others two.
-/

namespace RtProxy
namespace Relay

open Net

/-! ## Reading -/

/-- `parse_relay_addr`.  What does not fit is the empty address. -/
def parseRelayAddr (data : Bytes) : String × UInt16 :=
  match data with
  | [] => ("", 0)
  | atype :: rest =>
    if atype = ADDR_IPV4 ∧ 7 ≤ data.length then
      ((Ipv4Addr.ofOctets (rest.take 4)).text, UInt16.ofNat (Bytes.beNat ((rest.drop 4).take 2)))
    else if atype = ADDR_IPV6 ∧ 19 ≤ data.length then
      ((Ipv6Addr.ofOctets (rest.take 16)).text, UInt16.ofNat (Bytes.beNat ((rest.drop 16).take 2)))
    else if atype = ADDR_DOMAIN then
      match rest with
      | [] => ("", 0)
      | dlen :: name =>
        if 2 + dlen.toNat + 2 ≤ data.length then
          (Text.fromUtf8Lossy (name.take dlen.toNat),
            UInt16.ofNat (Bytes.beNat ((name.drop dlen.toNat).take 2)))
        else ("", 0)
    else ("", 0)

/-- What the features of a request say. -/
structure Features where
  user : String
  pass : String
  raddr : String
deriving Repr, DecidableEq

namespace Features

def empty : Features := ⟨"", "", ""⟩

/-- The user name is taken even if the password does not fit. -/
def onUser (f : Features) (fdata : Bytes) : Features :=
  match fdata with
  | [] => f
  | ulen :: rest =>
    match rest.drop ulen.toNat with
    | [] => f
    | plen :: pass =>
      { f with
        user := Text.fromUtf8Lossy (rest.take ulen.toNat)
        pass := if plen.toNat ≤ pass.length then Text.fromUtf8Lossy (pass.take plen.toNat)
          else f.pass }

def onFeature (f : Features) (ftype : UInt8) (fdata : Bytes) : Features :=
  if ftype = FEATURE_USER_AUTH then f.onUser fdata
  else if ftype = FEATURE_ADDR ∧ fdata ≠ [] then
    { f with raddr := s!"{(parseRelayAddr fdata).1}:{portText (parseRelayAddr fdata).2}" }
  else f

/-- The loop over the features; a truncated one ends it. -/
def parse (f : Features) (buf : Bytes) : Features :=
  match buf with
  | [] => f
  | ftype :: rest =>
    if rest.length < 2 then f
    else
      let flen := Bytes.beNat (rest.take 2)
      if (rest.drop 2).length < flen then f
      else (f.onFeature ftype ((rest.drop 2).take flen)).parse ((rest.drop 2).drop flen)
termination_by buf.length
decreasing_by
  simp only [List.length_drop, List.length_cons]
  omega

end Features

structure Request where
  udp : Bool
  features : Features
deriving Repr, DecidableEq

/-- All that `handle` reads before it authenticates. -/
def readRequest : Take Request := do
  let header ← takeExact RELAY_HEADER_LEN
  if header.getD 0 0 ≠ RELAY_VERSION1 then throw (.proxy "relay: bad version")
  let features ← takeExact (Bytes.beNat (header.drop 2))
  return { udp := header.getD 1 0 &&& RELAY_FLAG_UDP ≠ 0, features := Features.empty.parse features }

/-! ## The address of a request -/

theorem splitHostPort_eq_some {addr host port : String} (hport : ':' ∉ port.toList) :
    splitHostPort addr = some (host, port) ↔
      ']' ∉ host.toList ∧ addr = s!"[{host}]:{port}"
        ∨ host.toList.head? ≠ some '[' ∧ addr = s!"{host}:{port}" := by
  unfold splitHostPort
  constructor
  · intro h
    split at h
    · rename_i rest hrest
      split at h
      · rename_i inner p hfirst
        cases h
        obtain ⟨rfl, hinner⟩ := Text.eq_of_cutFirst hfirst
        refine .inl ⟨by simpa using hinner, ?_⟩
        apply String.toList_inj.mp
        rw [toList_bracketed, hrest, String.toList_ofList, String.toList_ofList]
      · cases h
    · rename_i hno
      obtain ⟨⟨hs, ps⟩, hlast, heq⟩ := Option.map_eq_some_iff.mp h
      cases heq
      obtain ⟨haddr, -⟩ := Text.eq_of_cutLast hlast
      refine .inr ⟨?_, ?_⟩
      · intro hhead
        rw [String.toList_ofList] at hhead
        cases hs with
        | nil => cases hhead
        | cons c hs =>
          cases hhead
          exact hno _ haddr
      · apply String.toList_inj.mp
        rw [toList_plain, haddr, String.toList_ofList, String.toList_ofList]
  · rintro (⟨hclose, rfl⟩ | ⟨hhead, rfl⟩)
    · simp only [toList_bracketed, Text.cutFirst_append hclose, String.ofList_toList]
    · have hlast : Text.cutLast ':' (host.toList ++ ':' :: port.toList)
          = some (host.toList, port.toList) := Text.cutLast_append _ hport
      simp only [toList_plain]
      split
      · rename_i rest hrest
        cases hh : host.toList with
        | nil =>
          rw [hh] at hrest
          cases hrest
        | cons c cs =>
          rw [hh] at hrest hhead
          cases hrest
          exact absurd rfl hhead
      · rw [hlast, Option.map_some, String.ofList_toList, String.ofList_toList]

/-- The address splits into the host and the port. -/
def Splits (addr host : String) (port : UInt16) : Prop :=
  ∃ p n, splitHostPort addr = some (host, p) ∧ Text.parseUnsigned (2 ^ 16) p = some n
    ∧ port = UInt16.ofNat n

/-- The relay splits an address with a port as the chain does. -/
theorem splits_iff {addr host : String} {port : UInt16} :
    Splits addr host port ↔ RtProxy.splitHostPort addr = .ok (host, port) := by
  rw [splitHostPort_eq_ok]
  constructor
  · rintro ⟨p, n, hsplit, hn, hport⟩
    exact ⟨p, n, hn, hport, (splitHostPort_eq_some (not_mem_of_parseUnsigned hn).1).mp hsplit⟩
  · rintro ⟨p, n, hn, hport, hform⟩
    exact ⟨p, n, (splitHostPort_eq_some (not_mem_of_parseUnsigned hn).1).mpr hform, hn, hport⟩

/-! ## Features -/

namespace Features

theorem parse_nil (f : Features) : f.parse [] = f := by
  rw [parse]

/-- A feature whose length fits is read whole. -/
theorem parse_feature (f : Features) {fdata : Bytes} (h : fdata.length < 65536) (ftype : UInt8)
    (rest : Bytes) : f.parse (feature ftype fdata ++ rest) = (f.onFeature ftype fdata).parse rest := by
  have hlen : ¬ (Bytes.be 2 fdata.length ++ fdata ++ rest).length < 2 := by
    rw [List.length_append, List.length_append, Bytes.length_be]
    omega
  have htake : (Bytes.be 2 fdata.length ++ fdata ++ rest).take 2 = Bytes.be 2 fdata.length := by
    rw [List.append_assoc, List.take_left' (Bytes.length_be _ _)]
  have hdrop : (Bytes.be 2 fdata.length ++ fdata ++ rest).drop 2 = fdata ++ rest := by
    rw [List.append_assoc, List.drop_left' (Bytes.length_be _ _)]
  have hle : ¬ (fdata ++ rest).length < fdata.length := by
    rw [List.length_append]
    omega
  rw [feature, List.cons_append, parse, if_neg hlen, htake, hdrop, Bytes.beNat_be h]
  simp only [if_neg hle, List.take_left, List.drop_left]

end Features

theorem toNat_length (bs : Bytes) : (UInt8.ofNat bs.length).toNat = bs.length % 256 :=
  UInt8.toNat_ofNat' ..

/-- The name ends where its length byte says. -/
theorem user_onUser (f : Features) (user pass : Bytes) :
    (f.onUser (userData user pass)).user
      = Text.fromUtf8Lossy (user.take (user.length % 256)) := by
  have hle : user.length % 256 ≤ user.length := Nat.mod_le _ _
  rw [userData, Features.onUser, toNat_length, List.take_append_of_le_length hle,
    List.drop_append_of_le_length hle]
  cases hdrop : user.drop (user.length % 256) <;> rfl

/-- So does the password behind a name that fits. -/
theorem onUser_eq (f : Features) {user : Bytes} (h : user.length ≤ 255) (pass : Bytes) :
    f.onUser (userData user pass) = { f with
      user := Text.fromUtf8Lossy user
      pass := Text.fromUtf8Lossy (pass.take (pass.length % 256)) } := by
  have hmod : user.length % 256 = user.length := Nat.mod_eq_of_lt (by omega)
  have hle : pass.length % 256 ≤ pass.length := Nat.mod_le _ _
  rw [userData, Features.onUser, toNat_length, hmod, List.take_left, List.drop_left]
  simp only [toNat_length, if_pos hle]

theorem parseRelayAddr_ip {host : String} {ip : IpAddr} (h : IpAddr.parse host = some ip)
    (port : UInt16) : parseRelayAddr (addrData host port) = (ip.text, port) := by
  have htake : (Bytes.be 2 port.toNat).take 2 = Bytes.be 2 port.toNat :=
    List.take_of_length_le (Nat.le_of_eq (Bytes.length_be _ _))
  unfold IpAddr.parse at h
  unfold addrData
  cases h4 : Ipv4Addr.parse host with
  | some v4 =>
    rw [h4] at h
    cases h
    have hlen : v4.octets.length = 4 := rfl
    have hdata : 7 ≤ (ADDR_IPV4 :: (v4.octets ++ Bytes.be 2 port.toNat)).length := by
      rw [List.length_cons, List.length_append, Bytes.length_be, hlen]
    simp only [List.cons_append, parseRelayAddr.eq_def]
    rw [if_pos ⟨trivial, hdata⟩, List.take_left' hlen, List.drop_left' hlen, htake,
      Bytes.ofNat_beNat_port]
    rfl
  | none =>
    rw [h4] at h
    obtain ⟨v6, h6, rfl⟩ := Option.map_eq_some_iff.mp h
    have hlen := Socks5.length_octets v6
    have hdata : 19 ≤ (ADDR_IPV6 :: (v6.octets ++ Bytes.be 2 port.toNat)).length := by
      rw [List.length_cons, List.length_append, Bytes.length_be, hlen]
    simp only [h6, List.cons_append, parseRelayAddr.eq_def]
    rw [if_neg fun hv4 => absurd hv4.1 (by decide), if_pos ⟨trivial, hdata⟩, List.take_left' hlen,
      List.drop_left' hlen, htake, Bytes.ofNat_beNat_port, Socks5.ofOctets_octets]
    rfl

/-- A name ends where its length byte says, and the port follows it there. -/
theorem parseRelayAddr_name {host : String} (h : IpAddr.parse host = none) (port : UInt16) :
    parseRelayAddr (addrData host port)
      = (Text.fromUtf8Lossy ((Text.utf8 host).take ((Text.utf8 host).length % 256)),
        UInt16.ofNat (Bytes.beNat (((Text.utf8 host ++ Bytes.be 2 port.toNat).drop
          ((Text.utf8 host).length % 256)).take 2))) := by
  have hle : (Text.utf8 host).length % 256 ≤ (Text.utf8 host).length := Nat.mod_le _ _
  unfold IpAddr.parse at h
  unfold addrData
  cases h4 : Ipv4Addr.parse host with
  | some v4 =>
    rw [h4] at h
    cases h
  | none =>
    rw [h4] at h
    have h6 : Ipv6Addr.parse host = none := Option.map_eq_none_iff.mp h
    have hdata : 2 + (Text.utf8 host).length % 256 + 2 ≤ (ADDR_DOMAIN ::
        UInt8.ofNat (Text.utf8 host).length :: (Text.utf8 host ++ Bytes.be 2 port.toNat)).length := by
      rw [List.length_cons, List.length_cons, List.length_append, Bytes.length_be]
      omega
    simp only [h6, List.cons_append, parseRelayAddr.eq_def]
    rw [if_neg fun hv4 => absurd hv4.1 (by decide), if_neg fun hv6 => absurd hv6.1 (by decide),
      if_pos trivial]
    simp only [toNat_length]
    rw [if_pos hdata, List.take_append_of_le_length hle]

/-! ## The round trip -/

/-- The user that the configuration gives a connector, and the password. -/
def credentials (user : Option (String × Option String)) : String × String :=
  match user with
  | some (name, pass) => (name, pass.getD "")
  | none => ("", "")

/-- The handler reads the user, the password, the flag and the address of the request, and
no more than the request. -/
def Recovers (bytes : Bytes) (user : Option (String × Option String)) (network host : String)
    (port : UInt16) : Prop :=
  ∀ more, ∃ r, readRequest (bytes ++ more) = .ok (r, more)
    ∧ (r.features.user, r.features.pass) = credentials user
    ∧ r.udp = decide (network ∈ ["udp", "udp4", "udp6"])
    ∧ Splits r.features.raddr (Socks5.canonicalHost host) port

/-- The connector refuses the request or writes one that is recovered. -/
def RoundTrips (user : Option (String × Option String)) (network address host : String)
    (port : UInt16) : Prop :=
  ∀ bytes, connectRequest user network address = .ok bytes → Recovers bytes user network host port

def hostLength (host : String) : Nat :=
  match IpAddr.parse host with
  | some (.v4 _) => 5
  | some (.v6 _) => 17
  | none => 2 + (Text.utf8 host).length

/-- The features of a request are too many for their length. -/
def TooLarge (user : Option (String × Option String)) (host : String) : Prop :=
  65535 < (match user with
      | some (name, pass) => 5 + (Text.utf8 name).length + (Text.utf8 (pass.getD "")).length
      | none => 0) + (5 + hostLength host)

/-- A host comes back if it is a literal, or a name that fits its byte and does not begin
with a bracket. -/
def HostFits (host : String) : Prop :=
  IpAddr.parse host = none → (Text.utf8 host).length ≤ 255 ∧ host.toList.head? ≠ some '['

def UserFits (user : Option (String × Option String)) : Prop :=
  (Text.utf8 (credentials user).1).length ≤ 255 ∧ (Text.utf8 (credentials user).2).length ≤ 255

theorem length_addrData (host : String) (port : UInt16) :
    (addrData host port).length = hostLength host + 2 := by
  unfold addrData hostLength IpAddr.parse
  rw [List.length_append, Bytes.length_be]
  cases Ipv4Addr.parse host with
  | some ip => rfl
  | none =>
    cases Ipv6Addr.parse host with
    | some ip =>
      have hlen := Socks5.length_octets ip
      simp [hlen]
    | none =>
      simp only [Option.map_none, List.length_cons]
      omega

theorem length_feature (ftype : UInt8) (fdata : Bytes) :
    (feature ftype fdata).length = 3 + fdata.length := by
  rw [feature, List.length_cons, List.length_append, Bytes.length_be]
  omega

theorem addrFeature_eq {address host : String} {port : UInt16} (h : Splits address host port) :
    addrFeature address = feature FEATURE_ADDR (addrData host port) := by
  obtain ⟨p, n, hsplit, hn, rfl⟩ := h
  have hne : address ≠ "" := by
    rintro rfl
    cases hsplit
  unfold addrFeature
  rw [if_neg hne, hsplit]
  simp only [hn]

theorem length_features {address host : String} {port : UInt16} (h : Splits address host port)
    (user : Option (String × Option String)) :
    65535 < (userFeature user ++ addrFeature address).length ↔ TooLarge user host := by
  rw [List.length_append, addrFeature_eq h, length_feature, length_addrData]
  unfold TooLarge
  rcases user with _ | ⟨name, pass⟩
  · simp only [userFeature, List.length_nil]
    omega
  · simp only [userFeature, length_feature, userData, List.length_cons, List.length_append]
    omega

theorem readRequest_eq (flag : UInt8) {features : Bytes} (h : features.length < 65536)
    (more : Bytes) :
    readRequest ([RELAY_VERSION1, flag] ++ Bytes.be 2 features.length ++ features ++ more)
      = .ok (⟨flag &&& RELAY_FLAG_UDP ≠ 0, Features.empty.parse features⟩, more) := by
  have hlen : ([RELAY_VERSION1, flag] ++ Bytes.be 2 features.length).length = RELAY_HEADER_LEN := by
    rw [List.length_append, Bytes.length_be]
    rfl
  have hbe : Bytes.beNat (([RELAY_VERSION1, flag] ++ Bytes.be 2 features.length).drop 2)
      = features.length := Bytes.beNat_be h
  rw [List.append_assoc _ features, readRequest, take_bind (takeExact_append hlen _)]
  show (takeExact _ >>= _) _ = _
  rw [hbe, take_bind (takeExact_append rfl more)]
  rfl

/-- What the features say once the user has been read. -/
def afterUser (user : Option (String × Option String)) : Features :=
  match user with
  | some (name, pass) => Features.empty.onUser (userData (Text.utf8 name) (Text.utf8 (pass.getD "")))
  | none => .empty

/-- The features of a request that is not too large are all read. -/
theorem parse_features {address host : String} {port : UInt16}
    (h : Splits address host port)
    {user : Option (String × Option String)} (hfit : ¬ TooLarge user host) :
    Features.empty.parse (userFeature user ++ addrFeature address)
      = { afterUser user with
          raddr := s!"{(parseRelayAddr (addrData host port)).1}:{portText (parseRelayAddr (addrData host port)).2}" } := by
  have haddr : (addrData host port).length < 65536 := by
    unfold TooLarge at hfit
    rw [length_addrData]
    omega
  have hne : addrData host port ≠ [] := by
    apply List.ne_nil_of_length_pos
    rw [length_addrData]
    omega
  have hlast (f : Features) : f.parse (feature FEATURE_ADDR (addrData host port))
      = { f with raddr := s!"{(parseRelayAddr (addrData host port)).1}:{portText (parseRelayAddr (addrData host port)).2}" } := by
    have hparse := f.parse_feature haddr FEATURE_ADDR []
    rw [List.append_nil, Features.parse_nil] at hparse
    rw [hparse, Features.onFeature, if_neg (by decide), if_pos ⟨rfl, hne⟩]
  rw [addrFeature_eq h]
  rcases user with _ | ⟨name, pass⟩
  · exact hlast _
  · have huser : (userData (Text.utf8 name) (Text.utf8 (pass.getD ""))).length < 65536 := by
      unfold TooLarge at hfit
      simp only at hfit
      rw [userData, List.length_cons, List.length_append, List.length_cons]
      omega
    rw [userFeature, Features.parse_feature _ huser, hlast]
    rfl

/-- The user comes back if the name and the password fit. -/
theorem afterUser_iff (user : Option (String × Option String)) :
    ((afterUser user).user, (afterUser user).pass) = credentials user ↔ UserFits user := by
  rcases user with _ | ⟨name, pass⟩
  · exact ⟨fun _ => ⟨Nat.zero_le _, Nat.zero_le _⟩, fun _ => rfl⟩
  show ((Features.empty.onUser _).user, (Features.empty.onUser _).pass) = (name, pass.getD "")
    ↔ (Text.utf8 name).length ≤ 255 ∧ (Text.utf8 (pass.getD "")).length ≤ 255
  rw [Prod.mk.injEq]
  -- a text that is cut at its length modulo 256 is short
  have hcut (s : String) (hs : 255 < (Text.utf8 s).length) :
      Text.fromUtf8Lossy ((Text.utf8 s).take ((Text.utf8 s).length % 256)) ≠ s := by
    intro heq
    have hlt := Text.length_fromUtf8Lossy_take (s := s) (n := (Text.utf8 s).length % 256) (by omega)
    rw [heq] at hlt
    exact Nat.lt_irrefl _ hlt
  constructor
  · rintro ⟨hname, hpass⟩
    have hle : (Text.utf8 name).length ≤ 255 := by
      by_contra hlong
      rw [user_onUser] at hname
      exact hcut name (by omega) hname
    refine ⟨hle, ?_⟩
    by_contra hlong
    rw [onUser_eq _ hle] at hpass
    exact hcut (pass.getD "") (by omega) hpass
  · rintro ⟨hname, hpass⟩
    have hmod : (Text.utf8 (pass.getD "")).length % 256 = (Text.utf8 (pass.getD "")).length :=
      Nat.mod_eq_of_lt (by omega)
    rw [onUser_eq _ hname, hmod, List.take_length, Text.fromUtf8Lossy_utf8, Text.fromUtf8Lossy_utf8]
    exact ⟨rfl, rfl⟩

/-- The host and the port come back if the host fits. -/
theorem raddr_iff (host : String) (port : UInt16) :
    Splits
      s!"{(parseRelayAddr (addrData host port)).1}:{portText (parseRelayAddr (addrData host port)).2}"
      (Socks5.canonicalHost host) port ↔ HostFits host := by
  rw [splits_iff]
  unfold HostFits Socks5.canonicalHost
  cases hip : IpAddr.parse host with
  | some ip =>
    have hhead : ip.text.toList.head? ≠ some '[' := fun hhead =>
      (IpAddr.not_mem_text ip).1 (List.mem_of_mem_head? hhead)
    rw [parseRelayAddr_ip hip, splitHostPort_plain]
    simp [hhead]
  | none =>
    simp only [true_implies]
    rw [parseRelayAddr_name hip]
    by_cases hlong : (Text.utf8 host).length ≤ 255
    · have hmod : (Text.utf8 host).length % 256 = (Text.utf8 host).length :=
        Nat.mod_eq_of_lt (by omega)
      have htake : (Bytes.be 2 port.toNat).take 2 = Bytes.be 2 port.toNat :=
        List.take_of_length_le (Nat.le_of_eq (Bytes.length_be _ _))
      simp only [hmod, List.take_length, List.drop_left, htake, Text.fromUtf8Lossy_utf8,
        Bytes.ofNat_beNat_port]
      rw [splitHostPort_plain]
      have hne : host ≠ s!"[{host}]" := by
        intro heq
        have hlen := congrArg (fun s => s.toList.length) heq
        simp only [toList_brackets, List.length_cons, List.length_append] at hlen
        omega
      simp [hne, hlong]
    · have hlt := Text.length_fromUtf8Lossy_take (s := host)
        (n := (Text.utf8 host).length % 256) (by omega)
      simp only [hlong, false_and, iff_false]
      exact splitHostPort_ne hlt _ _

theorem flag_eq (udp : Bool) :
    decide ((if udp then RELAY_FLAG_UDP else 0) &&& RELAY_FLAG_UDP ≠ 0) = udp := by
  cases udp <;> decide

/-- A request that is not refused is recovered if the user and the host fit. -/
theorem roundTrips_of_fit {address host : String} {port : UInt16}
    (h : Splits address host port)
    {user : Option (String × Option String)} (hfit : ¬ TooLarge user host) (network : String) :
    RoundTrips user network address host port ↔ UserFits user ∧ HostFits host := by
  have hlen : ¬ 65535 < (userFeature user ++ addrFeature address).length := fun hl =>
    hfit ((length_features h user).mp hl)
  have hlt : (userFeature user ++ addrFeature address).length < 65536 := by omega
  have hread := readRequest_eq
    (if network ∈ ["udp", "udp4", "udp6"] then RELAY_FLAG_UDP else 0) hlt
  rw [parse_features h hfit] at hread
  unfold RoundTrips connectRequest Recovers
  simp only
  rw [if_neg hlen, ← afterUser_iff, ← raddr_iff host port]
  simp only [Except.ok.injEq, forall_eq']
  constructor
  · intro hr
    obtain ⟨r, hok, huser, -, hhost⟩ := hr []
    rw [hread []] at hok
    cases hok
    exact ⟨huser, hhost⟩
  · rintro ⟨huser, hhost⟩ more
    refine ⟨_, hread more, huser, ?_, hhost⟩
    have hflag := flag_eq (decide (network ∈ ["udp", "udp4", "udp6"]))
    simpa using hflag

theorem roundTrips_of_large {address host : String} {port : UInt16}
    (h : Splits address host port)
    {user : Option (String × Option String)} (hlarge : TooLarge user host) (network : String) :
    RoundTrips user network address host port := by
  unfold RoundTrips connectRequest
  rw [if_pos ((length_features h user).mpr hlarge)]
  exact fun bytes hb => nomatch hb

/-- A connector refuses a request that is too large, and any other is recovered exactly if
the user and the host fit. -/
theorem relay_request_agreement {address host : String} {port : UInt16}
    (h : Splits address host port)
    (user : Option (String × Option String)) (network : String) :
    RoundTrips user network address host port
      ↔ TooLarge user host ∨ (UserFits user ∧ HostFits host) := by
  by_cases hlarge : TooLarge user host
  · exact ⟨fun _ => .inl hlarge, fun _ => roundTrips_of_large h hlarge network⟩
  · rw [roundTrips_of_fit h hlarge, or_iff_right hlarge]

theorem relay_request_agreement_ipv6 :
    RoundTrips (some ("u", some "p")) "udp" "[::1]:53" "::1" 53 := by
  have h : Splits "[::1]:53" "::1" 53 := splits_iff.mpr (splitHostPort_eq_ok.mpr
    ⟨"53", 53, by decide, rfl, .inl ⟨by decide, rfl⟩⟩)
  refine (relay_request_agreement h (some ("u", some "p")) "udp").mpr (.inr ⟨⟨by decide, by decide⟩, ?_⟩)
  intro hnone
  have hsome : (IpAddr.parse "::1").isSome := by decide
  rw [hnone] at hsome
  cases hsome

/-- A user whose name is cut is sent another name. -/
theorem not_roundTrips_user {address host name : String} {port : UInt16}
    (h : Splits address host port) (hlong : 255 < (Text.utf8 name).length)
    (hfit : (Text.utf8 name).length + hostLength host ≤ 65525) (network : String) :
    ¬ RoundTrips (some (name, none)) network address host port := by
  have hlarge : ¬ TooLarge (some (name, none)) host := by
    show ¬ 65535 < 5 + (Text.utf8 name).length + 0 + (5 + hostLength host)
    omega
  rw [roundTrips_of_fit h hlarge]
  rintro ⟨⟨huser, -⟩, -⟩
  have huser' : (Text.utf8 name).length ≤ 255 := huser
  omega

theorem not_roundTrips_host {address host : String} {port : UInt16}
    (h : Splits address host port) (hname : IpAddr.parse host = none)
    (hlong : 255 < (Text.utf8 host).length) (hfit : (Text.utf8 host).length ≤ 65528)
    (network : String) : ¬ RoundTrips none network address host port := by
  have hhost : hostLength host = 2 + (Text.utf8 host).length := by rw [hostLength, hname]
  have hlarge : ¬ TooLarge none host := by
    show ¬ 65535 < 0 + (5 + hostLength host)
    omega
  rw [roundTrips_of_fit h hlarge]
  rintro ⟨-, hfits⟩
  have hle := (hfits hname).1
  omega

/-- A name of 256 bytes, whose length byte is 0. -/
def longName : String := String.ofList (List.replicate 256 'a')

theorem relay_request_long :
    Splits "a.b:80" "a.b" 80
      ∧ ¬ RoundTrips (some (longName, none)) "tcp" "a.b:80" "a.b" 80
      ∧ Splits s!"{longName}:80" longName 80
      ∧ ¬ RoundTrips none "tcp" s!"{longName}:80" longName 80 := by
  have hno {c : Char} (hc : c ≠ 'a') : c ∉ longName.toList := Text.not_mem_replicate hc 256
  have h : Splits "a.b:80" "a.b" 80 := splits_iff.mpr (splitHostPort_eq_ok.mpr
    ⟨"80", 80, by decide, rfl, .inr ⟨by decide, rfl⟩⟩)
  have hlong : Splits s!"{longName}:80" longName 80 := splits_iff.mpr (splitHostPort_eq_ok.mpr
    ⟨"80", 80, by decide, rfl, .inr ⟨fun hhead => hno (by decide) (List.mem_of_mem_head? hhead),
      plain_http longName rfl⟩⟩)
  have hlen : (Text.utf8 longName).length = 256 := Text.length_utf8_replicate (k := 1) rfl 256
  have hname : IpAddr.parse longName = none :=
    IpAddr.parse_eq_none (hno (by decide)) (hno (by decide))
  have hlt : 255 < (Text.utf8 longName).length := hlen ▸ by decide
  have hhost : hostLength "a.b" = 5 := by decide
  refine ⟨h, not_roundTrips_user h hlt ?_ "tcp", hlong,
    not_roundTrips_host hlong hname hlt (hlen ▸ by decide) "tcp"⟩
  rw [hlen, hhost]
  decide

end Relay
end RtProxy
