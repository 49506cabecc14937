import RtProxy.Chain.Connect
import RtProxy.Handler.Reading
import RtProxy.Handler.Socks4
import RtProxy.Targets

/-!
The requests of SOCKS4 and SOCKS4a (`socks4.rs`, `chain.rs`).

Texts in a request end at a zero byte, and the addresses `0.0.0.x` mark a request with a
name.  A request is read back as long as no text has a zero byte of its own, no host is
one of those addresses, and no name is an IPv6 literal without its brackets.
-/

namespace RtProxy
namespace Socks4

open Net

/-- The request that `Socks4aConnector::connect` writes. -/
def socks4aConnectRequest (address : String) : Except HandlerError Bytes :=
  match parseAddress address with
  | .error e => .error e
  | .ok (host, port) =>
    match Ipv4Addr.parse host with
    | some ip => .ok ([VERSION, CMD_CONNECT] ++ Bytes.be 2 port.toNat ++ ip.octets ++ [0x00])
    | none =>
      .ok ([VERSION, CMD_CONNECT] ++ Bytes.be 2 port.toNat ++ [0, 0, 0, 1] ++ [0x00] ++
        Text.utf8 host ++ [0x00])

/-- The handler reads a request for the host and the port, and no more than the request. -/
def Recovers (bytes : Bytes) (host : String) (port : UInt16) : Prop :=
  ∀ more, ∃ r, readRequest (bytes ++ more) = .ok (r, more) ∧ r.cmd = CMD_CONNECT
    ∧ Address r.target host port

/-- A connector refuses or writes what the handler recovers. -/
def RoundTrips {ε : Type} (req : Except ε Bytes) (host : String) (port : UInt16) : Prop :=
  ∀ bytes, req = .ok bytes → Recovers bytes host port

/-- The address marks a request with a name. -/
def Marks (ip : Ipv4Addr) : Prop := ip.octets.take 3 = [0, 0, 0] ∧ ip.octets.drop 3 ≠ [0]

instance (ip : Ipv4Addr) : Decidable (Marks ip) := inferInstanceAs (Decidable (_ ∧ _))

def nul : Char := Char.ofNat 0

/-- The text has no zero byte. -/
def NulFree (s : String) : Prop := nul ∉ s.toList

instance (s : String) : Decidable (NulFree s) := inferInstanceAs (Decidable (¬ _))

theorem zero_mem_utf8 (s : String) : (0 : UInt8) ∉ Text.utf8 s ↔ NulFree s :=
  not_congr (Text.mem_utf8 (by decide) s)

theorem nulFree_brackets (host : String) : NulFree s!"[{host}]" ↔ NulFree host := by
  have hopen : nul ≠ '[' := by decide
  have hclose : nul ≠ ']' := by decide
  rw [NulFree, NulFree, toList_brackets]
  simp [hopen, hclose]

/-! ## What the handler reads -/

/-- What follows the address of a request: the user id, and the host if the address says
so. -/
def readTexts (port : UInt16) (ip : Ipv4Addr) : Take Request := do
  let _userId ← takeCString
  let host ← if Marks ip then Text.fromUtf8Lossy <$> takeCString else pure ip.text
  return { cmd := CMD_CONNECT, target := s!"{host}:{portText port}", isSocks4a := Marks ip }

theorem readRequest_eq (port : UInt16) (ip : Ipv4Addr) (rest : Bytes) :
    readRequest ([VERSION, CMD_CONNECT] ++ Bytes.be 2 port.toNat ++ ip.octets ++ rest)
      = readTexts port ip rest := by
  have hlen : ip.octets.length = 4 := rfl
  rw [List.append_assoc, List.append_assoc, List.cons_append, List.cons_append, List.nil_append,
    readRequest, take_bind (takeByte_cons _ _)]
  simp only [ne_eq, not_true_eq_false, if_false]
  rw [take_bind (takeByte_cons _ _), take_bind (takeU16_be _ _),
    take_bind (takeExact_append hlen rest)]
  rfl

theorem readTexts_unmarked {port : UInt16} {ip : Ipv4Addr} (h : ¬ Marks ip) {s more : Bytes}
    {r : Request} : readTexts port ip s = .ok (r, more) ↔
      ∃ u, (0 : UInt8) ∉ u ∧ s = u ++ 0 :: more
        ∧ r = ⟨CMD_CONNECT, s!"{ip.text}:{portText port}", false⟩ := by
  unfold readTexts
  constructor
  · intro hr
    obtain ⟨u, mid, hu, hrest⟩ := take_bind_eq_ok hr
    obtain ⟨rfl, hnot⟩ := takeCString_eq_ok.mp hu
    rw [if_neg h] at hrest
    have hfalse : decide (Marks ip) = false := decide_eq_false h
    rw [hfalse] at hrest
    cases hrest
    exact ⟨u, hnot, rfl, rfl⟩
  · rintro ⟨u, hnot, rfl, rfl⟩
    rw [take_bind (takeCString_append hnot more), if_neg h]
    have hfalse : decide (Marks ip) = false := decide_eq_false h
    rw [hfalse]
    rfl

theorem readTexts_marked {port : UInt16} {ip : Ipv4Addr} (h : Marks ip) {s more : Bytes}
    {r : Request} : readTexts port ip s = .ok (r, more) ↔
      ∃ u d, (0 : UInt8) ∉ u ∧ (0 : UInt8) ∉ d ∧ s = u ++ 0 :: (d ++ 0 :: more)
        ∧ r = ⟨CMD_CONNECT, s!"{Text.fromUtf8Lossy d}:{portText port}", true⟩ := by
  have htrue : decide (Marks ip) = true := decide_eq_true h
  have hmap : (Text.fromUtf8Lossy <$> takeCString : Take String)
      = takeCString >>= fun d => pure (Text.fromUtf8Lossy d) := rfl
  unfold readTexts
  rw [if_pos h, htrue, hmap]
  constructor
  · intro hr
    obtain ⟨u, mid, hu, hrest⟩ := take_bind_eq_ok hr
    obtain ⟨rfl, hnot⟩ := takeCString_eq_ok.mp hu
    obtain ⟨host, mid', hhost, hpure⟩ := take_bind_eq_ok hrest
    obtain ⟨d, mid'', hd, hlossy⟩ := take_bind_eq_ok hhost
    obtain ⟨rfl, hnot'⟩ := takeCString_eq_ok.mp hd
    cases hlossy
    cases hpure
    exact ⟨u, d, hnot, hnot', rfl, rfl⟩
  · rintro ⟨u, d, hnot, hnot', rfl, rfl⟩
    have hd : (takeCString >>= fun d => pure (Text.fromUtf8Lossy d) : Take String) (d ++ 0 :: more)
        = .ok (Text.fromUtf8Lossy d, more) := by
      rw [take_bind (takeCString_append hnot' more)]
      rfl
    rw [take_bind (takeCString_append hnot _), take_bind hd]
    rfl

/-- The bytes of a request up to the user id. -/
def head (port : UInt16) (ip : Ipv4Addr) : Bytes :=
  [VERSION, CMD_CONNECT] ++ Bytes.be 2 port.toNat ++ ip.octets

theorem recovers_unmarked {port : UInt16} {ip : Ipv4Addr} (h : ¬ Marks ip) (tail : Bytes)
    (host : String) : Recovers (head port ip ++ tail) host port ↔
      (∃ u, (0 : UInt8) ∉ u ∧ tail = u ++ [0])
        ∧ Address s!"{ip.text}:{portText port}" host port := by
  unfold Recovers head
  constructor
  · intro hr
    obtain ⟨r, hread, -, haddr⟩ := hr []
    rw [List.append_nil, readRequest_eq, readTexts_unmarked h] at hread
    obtain ⟨u, hnot, rfl, rfl⟩ := hread
    exact ⟨⟨u, hnot, rfl⟩, haddr⟩
  · rintro ⟨⟨u, hnot, rfl⟩, haddr⟩ more
    refine ⟨⟨CMD_CONNECT, s!"{ip.text}:{portText port}", false⟩, ?_, rfl, haddr⟩
    rw [List.append_assoc _ (u ++ [0]), readRequest_eq, readTexts_unmarked h]
    exact ⟨u, hnot, by simp, rfl⟩

theorem recovers_marked {port : UInt16} {ip : Ipv4Addr} (h : Marks ip) (tail : Bytes)
    (host : String) : Recovers (head port ip ++ tail) host port ↔
      ∃ u d, (0 : UInt8) ∉ u ∧ (0 : UInt8) ∉ d ∧ tail = u ++ 0 :: (d ++ [0])
        ∧ Address s!"{Text.fromUtf8Lossy d}:{portText port}" host port := by
  unfold Recovers head
  constructor
  · intro hr
    obtain ⟨r, hread, -, haddr⟩ := hr []
    rw [List.append_nil, readRequest_eq, readTexts_marked h] at hread
    obtain ⟨u, d, hnot, hnot', rfl, rfl⟩ := hread
    exact ⟨u, d, hnot, hnot', rfl, haddr⟩
  · rintro ⟨u, d, hnot, hnot', rfl, haddr⟩ more
    refine ⟨⟨CMD_CONNECT, s!"{Text.fromUtf8Lossy d}:{portText port}", true⟩, ?_, rfl, haddr⟩
    rw [List.append_assoc _ (u ++ 0 :: (d ++ [0])), readRequest_eq, readTexts_marked h]
    exact ⟨u, d, hnot, hnot', by simp, rfl⟩

/-! ## What comes back -/

theorem utf8_cut {s : String} {front back : List Char} (h : s.toList = front ++ nul :: back) :
    Text.utf8 s = Text.utf8 (String.ofList front) ++ 0 :: Text.utf8 (String.ofList back) := by
  rw [Text.utf8, h, List.flatMap_append, List.flatMap_cons, Text.utf8, Text.utf8,
    String.toList_ofList, String.toList_ofList]
  rfl

/-- A user id that makes up for the host that an address of mark does not carry: the host
is behind its zero byte. -/
def Supplies (userId host : String) : Prop :=
  ∃ front, nul ∉ front
    ∧ (userId.toList = front ++ nul :: host.toList
      ∨ userId.toList = front ++ nul :: (s!"[{host}]").toList)

/-- What `socks4_connect` carries over. -/
def Carried (userId host : String) (allowDomain : Bool) : Prop :=
  match Ipv4Addr.parse host with
  | some ip => if Marks ip then Supplies userId host else NulFree userId
  | none => allowDomain = true → NulFree userId ∧ NulFree host ∧ ':' ∉ host.toList

/-- A literal without a mark comes back if the user id ends where it should. -/
theorem recovers_literal {host : String} {ip : Ipv4Addr} {port : UInt16}
    (hip : Ipv4Addr.parse host = some ip) (hmark : ¬ Marks ip)
    (hbr : '[' ∉ host.toList ∧ ']' ∉ host.toList) (name : String) :
    Recovers (head port ip ++ (Text.utf8 name ++ [0x00])) host port ↔ NulFree name := by
  have htext := Ipv4Addr.text_of_parse hip
  have hcolon : ':' ∉ host.toList := by
    intro hmem
    rw [← htext] at hmem
    exact absurd (Ipv4Addr.mem_text hmem) (by decide)
  rw [recovers_unmarked hmark, htext, address_plain, ← zero_mem_utf8]
  constructor
  · rintro ⟨⟨u, hnot, heq⟩, -⟩
    rw [List.append_cancel_right heq]
    exact hnot
  · intro hnot
    exact ⟨⟨_, hnot, rfl⟩, hbr, .inr ⟨hcolon, rfl⟩⟩

/-- One with a mark comes back if the user id supplies it. -/
theorem recovers_marked_literal {host : String} {ip : Ipv4Addr} {port : UInt16}
    (hip : Ipv4Addr.parse host = some ip) (hmark : Marks ip)
    (hbr : '[' ∉ host.toList ∧ ']' ∉ host.toList) (name : String) :
    Recovers (head port ip ++ (Text.utf8 name ++ [0x00])) host port ↔ Supplies name host := by
  have hcolon : ':' ∉ host.toList := by
    intro hmem
    rw [← Ipv4Addr.text_of_parse hip] at hmem
    exact absurd (Ipv4Addr.mem_text hmem) (by decide)
  rw [recovers_marked hmark]
  constructor
  · rintro ⟨u, d, hu, hd, heq, haddr⟩
    have happ : Text.utf8 name ++ [0] = (u ++ 0 :: d) ++ [0] := by
      rw [heq]
      simp
    have hname : Text.utf8 name = u ++ 0 :: d := List.append_cancel_right happ
    have hmem : nul ∈ name.toList := by
      apply (Text.mem_utf8 (b := 0) (by decide) name).mp
      rw [hname]
      exact List.mem_append_right _ List.mem_cons_self
    obtain ⟨front, back, hcut, hfront⟩ := List.eq_append_cons_of_mem hmem
    have hzero : (0 : UInt8) ∉ Text.utf8 (String.ofList front) := by
      rw [zero_mem_utf8, NulFree, String.toList_ofList]
      exact hfront
    rw [utf8_cut hcut] at hname
    obtain ⟨-, rfl⟩ := cString_inj hzero hu hname
    rw [Text.fromUtf8Lossy_utf8, address_plain] at haddr
    refine ⟨front, hfront, ?_⟩
    rcases haddr.2 with hback | ⟨-, hback⟩
    · right
      rw [hcut, ← hback, String.toList_ofList]
    · left
      rw [hcut, ← hback, String.toList_ofList]
  · rintro ⟨front, hfront, hname⟩
    have hu : (0 : UInt8) ∉ Text.utf8 (String.ofList front) := by
      rw [zero_mem_utf8, NulFree, String.toList_ofList]
      exact hfront
    have hnul : NulFree host := by
      intro hmem
      rw [← Ipv4Addr.text_of_parse hip] at hmem
      exact absurd (Ipv4Addr.mem_text hmem) (by decide)
    have hback : ∃ back : String, NulFree back ∧ name.toList = front ++ nul :: back.toList
        ∧ (back = s!"[{host}]" ∨ ':' ∉ host.toList ∧ back = host) := by
      rcases hname with hname | hname
      · exact ⟨host, hnul, hname, .inr ⟨hcolon, rfl⟩⟩
      · exact ⟨_, (nulFree_brackets host).mpr hnul, hname, .inl rfl⟩
    obtain ⟨back, hfree, hcut, hform⟩ := hback
    have hbytes := utf8_cut hcut
    rw [String.ofList_toList] at hbytes
    refine ⟨_, Text.utf8 back, hu, (zero_mem_utf8 back).mpr hfree, by rw [hbytes]; simp, ?_⟩
    rw [Text.fromUtf8Lossy_utf8, address_plain]
    exact ⟨hbr, hform⟩

def firstMark : Ipv4Addr := ⟨0, 0, 0, 1⟩

/-- A name comes back if neither text has a zero byte and the name is one that an address
can have. -/
theorem recovers_name {raw host : String} {port : UInt16}
    (hbr : '[' ∉ host.toList ∧ ']' ∉ host.toList) (name : String) :
    Recovers (head port firstMark ++ (Text.utf8 name ++ 0x00 :: (Text.utf8 raw ++ [0x00]))) host port
      ↔ NulFree name ∧ NulFree raw ∧ (raw = s!"[{host}]" ∨ ':' ∉ host.toList ∧ raw = host) := by
  have hmark : Marks firstMark := by decide
  rw [recovers_marked hmark, ← zero_mem_utf8, ← zero_mem_utf8]
  constructor
  · rintro ⟨u, d, hu, hd, heq, haddr⟩
    -- the bytes have three zeros
    have hcount := congrArg (List.count 0) heq
    simp only [List.count_append, List.count_cons_self, List.count_nil,
      List.count_eq_zero_of_not_mem hu, List.count_eq_zero_of_not_mem hd] at hcount
    have hname : (0 : UInt8) ∉ Text.utf8 name := List.count_eq_zero.mp (by omega)
    have hraw : (0 : UInt8) ∉ Text.utf8 raw := List.count_eq_zero.mp (by omega)
    obtain ⟨-, htail⟩ := cString_inj hname hu heq
    rw [← List.append_cancel_right htail, Text.fromUtf8Lossy_utf8, address_plain] at haddr
    exact ⟨hname, hraw, haddr.2⟩
  · rintro ⟨hname, hraw, hform⟩
    refine ⟨_, _, hname, hraw, rfl, ?_⟩
    rw [Text.fromUtf8Lossy_utf8, address_plain]
    exact ⟨hbr, hform⟩

/-! ## The connectors -/

theorem roundTrips_ok {ε : Type} {bytes : Bytes} {host : String} {port : UInt16} :
    RoundTrips (.ok bytes : Except ε Bytes) host port ↔ Recovers bytes host port := by
  constructor
  · intro h
    exact h bytes rfl
  · rintro h _ ⟨⟩
    exact h

theorem socks4ConnectRequest_carried {target host : String} {port : UInt16}
    (h : Address target host port) (user : Option (String × Option String)) (allowDomain : Bool) :
    RoundTrips (socks4ConnectRequest target user allowDomain) host port
      ↔ Carried (userId user) host allowDomain := by
  have hbr := (address_iff.mp h).1
  unfold socks4ConnectRequest Carried
  rw [splitHostPort_of_address h]
  simp only
  cases hip : Ipv4Addr.parse host with
  | some ip =>
    simp only
    rw [roundTrips_ok, List.append_assoc]
    show Recovers (head port ip ++ (Text.utf8 (userId user) ++ [0x00])) host port ↔ _
    split_ifs with hmark
    · exact recovers_marked_literal hip hmark hbr _
    · exact recovers_literal hip hmark hbr _
  | none =>
    cases allowDomain with
    | false => simp [RoundTrips]
    | true =>
      simp only [if_true, true_implies]
      rw [roundTrips_ok]
      have hbytes : [0x04, 0x01] ++ Bytes.be 2 port.toNat ++ [0, 0, 0, 1]
            ++ Text.utf8 (userId user) ++ [0x00] ++ Text.utf8 host ++ [0x00]
          = head port firstMark ++ (Text.utf8 (userId user) ++ 0x00 :: (Text.utf8 host ++ [0x00])) := by
        simp [head, firstMark, Ipv4Addr.octets, VERSION, CMD_CONNECT]
      rw [hbytes, recovers_name hbr]
      have hne : host ≠ s!"[{host}]" := by
        intro heq
        have hmem : '[' ∈ (s!"[{host}]").toList := by
          rw [toList_brackets]
          exact List.mem_cons_self
        rw [← heq] at hmem
        exact hbr.1 hmem
      simp [hne]

/-- What the connector of `socks4.rs` carries over. -/
def CarriedRaw (address host : String) : Prop :=
  NulFree host ∧ (address.toList.head? = some '[' ∨
    ∀ ip, Ipv4Addr.parse host = some ip → ¬ Marks ip)

/-- A name in brackets is no address. -/
theorem parse_brackets (host : String) : Ipv4Addr.parse s!"[{host}]" = none := by
  have hnone := IpAddr.parse_bracket (toList_brackets host)
  unfold IpAddr.parse at hnone
  cases h : Ipv4Addr.parse s!"[{host}]" with
  | none => rfl
  | some ip =>
    rw [h] at hnone
    cases hnone

theorem parseAddress_plain {raw p : String} {n : Nat}
    (hn : Text.parseUnsigned (2 ^ 16) p = some n) :
    parseAddress s!"{raw}:{p}" = .ok (raw, UInt16.ofNat n) := by
  unfold parseAddress
  rw [toList_plain, Text.cutLast_append _ (not_mem_of_parseUnsigned hn).1]
  simp only [String.ofList_toList, hn]

theorem not_supplies_empty (host : String) : ¬ Supplies "" host := by
  rintro ⟨front, -, h | h⟩
  all_goals exact absurd h.symm (List.append_ne_nil_of_right_ne_nil _ (List.cons_ne_nil _ _))

theorem socks4aConnectRequest_carried {address host : String} {port : UInt16}
    (h : Address address host port) :
    RoundTrips (socks4aConnectRequest address) host port ↔ CarriedRaw address host := by
  obtain ⟨hbr, p, n, hn, rfl, hform⟩ := address_iff.mp h
  have hempty : NulFree "" := List.not_mem_nil
  have hname (raw : String) : [VERSION, CMD_CONNECT] ++ Bytes.be 2 (UInt16.ofNat n).toNat
        ++ [0, 0, 0, 1] ++ [0x00] ++ Text.utf8 raw ++ [0x00]
      = head (UInt16.ofNat n) firstMark ++ (Text.utf8 "" ++ 0x00 :: (Text.utf8 raw ++ [0x00])) := by
    simp [head, firstMark, Ipv4Addr.octets, Text.utf8]
  unfold socks4aConnectRequest CarriedRaw
  rcases hform with rfl | ⟨hcolon, rfl⟩
  · have hhead : (s!"[{host}]:{p}").toList.head? = some '[' := by
      rw [toList_bracketed]
      rfl
    rw [hhead, bracketed_eq_plain, parseAddress_plain hn]
    simp only [parse_brackets]
    rw [roundTrips_ok, hname, recovers_name hbr, nulFree_brackets]
    simp [hempty]
  · have hhead : (s!"{host}:{p}").toList.head? ≠ some '[' := by
      intro hhead
      rw [toList_plain] at hhead
      cases hh : host.toList with
      | nil =>
        rw [hh] at hhead
        cases hhead
      | cons c cs =>
        rw [hh] at hhead hbr
        cases hhead
        exact hbr.1 List.mem_cons_self
    rw [parseAddress_plain hn]
    simp only [hhead, false_or]
    cases hip : Ipv4Addr.parse host with
    | some ip =>
      have hnul : NulFree host := by
        intro hmem
        rw [← Ipv4Addr.text_of_parse hip] at hmem
        exact absurd (Ipv4Addr.mem_text hmem) (by decide)
      simp only [Option.some.injEq, forall_eq']
      rw [roundTrips_ok]
      show Recovers (head (UInt16.ofNat n) ip ++ (Text.utf8 "" ++ [0x00])) host _ ↔ _
      by_cases hmark : Marks ip
      · rw [recovers_marked_literal hip hmark hbr]
        simp [not_supplies_empty, hmark]
      · rw [recovers_literal hip hmark hbr]
        simp [hempty, hnul, hmark]
    | none =>
      simp only [reduceCtorEq, false_implies, implies_true, and_true]
      rw [roundTrips_ok, hname, recovers_name hbr]
      simp [hempty, hcolon]

/-- Each connector refuses a target or writes a request that the handler reads back, under
exactly these conditions. -/
theorem socks4_request_agreement {target host : String} {port : UInt16} (h : Address target host port)
    (user : Option (String × Option String)) (allowDomain : Bool) :
    (RoundTrips (socks4ConnectRequest target user allowDomain) host port
        ↔ Carried (userId user) host allowDomain)
      ∧ (RoundTrips (socks4aConnectRequest target) host port ↔ CarriedRaw target host) :=
  ⟨socks4ConnectRequest_carried h user allowDomain, socks4aConnectRequest_carried h⟩

theorem socks4_request_agreement_name :
    RoundTrips (socks4ConnectRequest "a.b:80" (some ("u", none)) true) "a.b" 80
      ∧ RoundTrips (socks4aConnectRequest "a.b:80") "a.b" 80 := by
  have h : Address "a.b:80" "a.b" 80 := ⟨"80", 80, by decide, by decide, rfl⟩
  have hagree := socks4_request_agreement h (some ("u", none)) true
  have hparse : Ipv4Addr.parse "a.b" = none := by decide
  refine ⟨hagree.1.mpr ?_, hagree.2.mpr ?_⟩
  · unfold Carried
    rw [hparse]
    exact fun _ => ⟨by decide, by decide, by decide⟩
  · exact ⟨by decide, .inr fun ip hip => by rw [hparse] at hip; cases hip⟩

/-- An address of mark is sent as it is, and the handler waits for a name. -/
theorem socks4_request_marked :
    Address "0.0.0.5:80" "0.0.0.5" 80
      ∧ ¬ RoundTrips (socks4ConnectRequest "0.0.0.5:80" none true) "0.0.0.5" 80
      ∧ ¬ RoundTrips (socks4aConnectRequest "0.0.0.5:80") "0.0.0.5" 80 := by
  have h : Address "0.0.0.5:80" "0.0.0.5" 80 := ⟨"80", 80, by decide, by decide, rfl⟩
  have hparse : Ipv4Addr.parse "0.0.0.5" = some ⟨0, 0, 0, 5⟩ := by decide
  have hmark : Marks ⟨0, 0, 0, 5⟩ := by decide
  refine ⟨h, ?_, ?_⟩
  · rw [socks4ConnectRequest_carried h, Carried, hparse]
    simp only [if_pos hmark]
    exact not_supplies_empty _
  · rw [socks4aConnectRequest_carried h]
    rintro ⟨-, hhead | hno⟩
    · exact absurd hhead (by decide)
    · exact hno _ hparse hmark

end Socks4
end RtProxy
