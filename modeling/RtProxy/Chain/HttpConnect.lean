import RtProxy.Chain.Connect
import RtProxy.Handler.Socks5
import RtProxy.Lib.Cut
import RtProxy.Lib.HttpHead

/-!
What an HTTP hop is asked for (`chain.rs`).

The target stands in the request line and in a field.  The hop reads one request for it as
long as the target has neither spaces nor controls, and the checks on a target look for
neither.
-/

namespace RtProxy
namespace HttpConnect

open Http1

/-- Every character of base64 is one of these. -/
def Base64Char (c : Char) : Prop := c.isAlphanum ∨ c = '+' ∨ c = '/' ∨ c = '='

instance (c : Char) : Decidable (Base64Char c) := inferInstanceAs (Decidable (_ ∨ _))

/-- The fields of the request, without those of the credentials. -/
def FIELDS : List Bytes :=
  [Text.utf8 "Host", Text.utf8 "User-Agent", Text.utf8 "Proxy-Connection"]

def CREDENTIALS : Bytes := Text.utf8 "Proxy-Authorization"

/-- The hop reads one CONNECT for the target, with these fields only, and nothing after
it. -/
def OneConnect (written : Bytes) (target : String) (credentials : Bool) : Prop :=
  ∃ head, parseHead written = some (head, []) ∧ head.method = Text.utf8 "CONNECT"
    ∧ head.target = Text.utf8 target
    ∧ head.fields.map Prod.fst = FIELDS ++ if credentials then [CREDENTIALS] else []

/-- The target has characters, none of them a space or a control. -/
def Visible (target : String) : Prop :=
  target ≠ "" ∧ ∀ c ∈ target.toList, 0x20 < c.toNat ∧ c.toNat ≠ 0x7F

instance (target : String) : Decidable (Visible target) :=
  decidable_of_iff (target ≠ "" ∧ target.toList.all fun c => 0x20 < c.toNat ∧ c.toNat ≠ 0x7F)
    (and_congr_right fun _ => by simp)

/-! ## Targets -/

theorem targetByte_iff (b : UInt8) : targetByte b ↔ 0x20 < b.toNat ∧ b.toNat ≠ 0x7F := by
  rw [targetByte, Bool.and_eq_true, decide_eq_true_eq, decide_eq_true_eq, ne_eq,
    ← UInt8.toNat_inj]
  exact Iff.rfl

theorem target_utf8 (target : String) : Target (Text.utf8 target) ↔ Visible target := by
  refine and_congr (not_congr Text.utf8_eq_nil) ?_
  constructor
  · intro h c hc
    by_cases hlt : c.toNat < 0x80
    · have hn : (UInt8.ofNat c.toNat).toNat = c.toNat := 
        UInt8.toNat_ofNat_of_lt' (Nat.lt_trans hlt (by decide))
      have hb : UInt8.ofNat c.toNat < 0x80 := by
        rw [UInt8.lt_iff_toNat_lt, hn]
        exact hlt
      have hmem : UInt8.ofNat c.toNat ∈ Text.utf8 target := by
        rw [Text.mem_utf8 hb, hn, Char.ofNat_toNat]
        exact hc
      have htarget := (targetByte_iff _).mp (h _ hmem)
      rwa [hn] at htarget
    · omega
  · intro h b hb
    rw [targetByte_iff]
    by_cases hlt : b < 0x80
    · have hc := h _ ((Text.mem_utf8 hlt target).mp hb)
      have hn : (Char.ofNat b.toNat).toNat = b.toNat := by
        have hlt' : b.toNat < 0x80 := hlt
        rw [Char.ofNat, dif_pos (.inl (by omega))]
        rfl
      rwa [hn] at hc
    · have hle : ¬ b.toNat < 0x80 := hlt
      omega

theorem value_base64 {s : String} (h : ∀ c ∈ s.toList, Base64Char c) : Value (Text.utf8 s) := by
  by_cases hs : s = ""
  · rw [hs]
    exact List.forall_mem_nil _
  · refine value_of_target ((target_utf8 s).mpr ⟨hs, fun c hc => ?_⟩).2
    rcases h c hc with hc | rfl | rfl | rfl
    · have := Text.toNat_of_isAlphanum hc
      omega
    · decide
    · decide
    · decide

/-! ## The request -/

def connectFields (base64 : Bytes → String) (target : String)
    (user : Option (String × Option String)) : List (Bytes × Bytes) :=
  [(Text.utf8 "Host", Text.utf8 target), (Text.utf8 "User-Agent", Text.utf8 DEFAULT_USER_AGENT),
    (Text.utf8 "Proxy-Connection", Text.utf8 "keep-alive")] ++
  match basicCredentials base64 user with
  | some creds => [(CREDENTIALS, Text.utf8 ("Basic " ++ creds))]
  | none => []

def connectHead (base64 : Bytes → String) (target : String)
    (user : Option (String × Option String)) : Head :=
  ⟨Text.utf8 "CONNECT", Text.utf8 target, connectFields base64 target user⟩

theorem httpConnectRequest_eq (base64 : Bytes → String) (target : String)
    (user : Option (String × Option String)) :
    httpConnectRequest base64 target user = (connectHead base64 target user).bytes := by
  have hmethod : Text.utf8 "CONNECT " = Text.utf8 "CONNECT" ++ [SP] := rfl
  have hhost : Text.utf8 " HTTP/1.1\r\nHost: " =
      SP :: VERSION ++ lineEnd ++ (Text.utf8 "Host" ++ [COLON, SP]) := rfl
  have hagent : Text.utf8 "\r\nUser-Agent: " =
      lineEnd ++ (Text.utf8 "User-Agent" ++ [COLON, SP]) := rfl
  have hconn : Text.utf8 "\r\nProxy-Connection: keep-alive\r\n" =
      lineEnd ++ (Text.utf8 "Proxy-Connection" ++ COLON :: SP :: Text.utf8 "keep-alive" ++ lineEnd) :=
    rfl
  have hend : Text.utf8 "\r\n" = lineEnd := rfl
  have hauth : Text.utf8 "Proxy-Authorization: Basic " =
      CREDENTIALS ++ COLON :: SP :: Text.utf8 "Basic " := rfl
  unfold httpConnectRequest connectHead connectFields Head.bytes requestLine
  cases basicCredentials base64 user with
  | none =>
    have hnone : Text.utf8 "" = [] := rfl
    simp only [Text.utf8_append, hmethod, hhost, hagent, hconn, hend, hnone]
    simp [fieldLine]
  | some creds =>
    simp only [Text.utf8_append, hmethod, hhost, hagent, hconn, hend, hauth]
    simp [fieldLine]

theorem token_fields : ∀ name ∈ CREDENTIALS :: FIELDS, Token name := by
  have hall : (CREDENTIALS :: FIELDS).all fun name => decide (Token name) := by decide
  intro name hname
  exact of_decide_eq_true (List.all_eq_true.mp hall name hname)

theorem wf_connectHead {base64 : Bytes → String}
    (hbase64 : ∀ bs, ∀ c ∈ (base64 bs).toList, Base64Char c) {target : String}
    (h : Visible target) (user : Option (String × Option String)) :
    (connectHead base64 target user).Wf := by
  have htarget : Target (Text.utf8 target) := (target_utf8 target).mpr h
  have hmethod : Token (Text.utf8 "CONNECT") := by decide
  refine ⟨hmethod, htarget, ?_⟩
  intro field hfield
  rcases List.mem_append.mp hfield with hfield | hfield
  · have hvalue : Value (Text.utf8 target) := value_of_target htarget.2
    simp only [List.mem_cons, List.not_mem_nil, or_false] at hfield
    rcases hfield with rfl | rfl | rfl
    · exact ⟨token_fields (Text.utf8 "Host") (by decide), hvalue⟩
    · exact ⟨token_fields _ (by decide), by decide⟩
    · exact ⟨token_fields _ (by decide), by decide⟩
  · cases user with
    | none => exact absurd hfield List.not_mem_nil
    | some user =>
      rcases List.mem_singleton.mp hfield with rfl
      refine ⟨token_fields _ List.mem_cons_self, ?_⟩
      rw [Text.utf8_append, value_append]
      exact ⟨by decide, value_base64 (hbase64 _)⟩

theorem names_connectFields (base64 : Bytes → String) (target : String)
    (user : Option (String × Option String)) :
    (connectFields base64 target user).map Prod.fst =
      FIELDS ++ if user.isSome then [CREDENTIALS] else [] := by
  cases user <;> rfl

/-- An HTTP hop reads exactly one CONNECT for the target if and only if the target is not
empty and has neither spaces nor controls. -/
theorem http_connect_one {base64 : Bytes → String}
    (hbase64 : ∀ bs, ∀ c ∈ (base64 bs).toList, Base64Char c) (target : String)
    (user : Option (String × Option String)) :
    OneConnect (httpConnectRequest base64 target user) target user.isSome ↔ Visible target := by
  constructor
  · rintro ⟨head, hparse, -, htarget, -⟩
    have h := target_of_parseHead hparse
    rwa [htarget, target_utf8] at h
  · intro h
    have hparse := parseHead_bytes (wf_connectHead hbase64 h user) []
    rw [List.append_nil, ← httpConnectRequest_eq] at hparse
    refine ⟨_, hparse, rfl, rfl, ?_⟩
    rw [← names_connectFields base64 target user, List.map_map]
    rfl

theorem http_connect_one_example :
    OneConnect (httpConnectRequest (fun _ => "dTpw") "example.com:443" (some ("u", some "p")))
      "example.com:443" true := by
  have hbase64 : ∀ bs : Bytes, ∀ c ∈ ((fun _ : Bytes => "dTpw") bs).toList, Base64Char c := by
    intro bs
    have hall : "dTpw".toList.all fun c => decide (Base64Char c) := by decide
    intro c hc
    exact of_decide_eq_true (List.all_eq_true.mp hall c hc)
  have h := http_connect_one hbase64 "example.com:443" (some ("u", some "p"))
  exact h.mpr (by decide)

/-- A name that ends the request for it and starts another one. -/
def splitName : String := "a HTTP/1.1\r\n\r\nGET / HTTP/1.1\r\n"

def splitTarget : String := Socks5.joinHostPort splitName 80

/-- What a client of the SOCKS5 handler sends for the name. -/
def splitRequest : Bytes :=
  [Socks5.VERSION, Socks5.CMD_CONNECT, 0x00, Socks5.ATYP_DOMAIN,
    UInt8.ofNat (Text.utf8 splitName).length] ++ Text.utf8 splitName ++ [0x00, 0x50]

/-- What the hop takes for the start of the next request. -/
def splitRest : Bytes :=
  (httpConnectRequest (fun _ => "") splitTarget none).drop (Text.utf8 "CONNECT a HTTP/1.1\r\n\r\n").length

/-- What stands behind the name that starts another request. -/
def splitTail : String :=
  ":80 HTTP/1.1\r\nHost: " ++ splitTarget ++ "\r\nUser-Agent: " ++ DEFAULT_USER_AGENT ++
    "\r\nProxy-Connection: keep-alive\r\n" ++ "" ++ "\r\n"

theorem httpConnectRequest_splitTail (base64 : Bytes → String) :
    httpConnectRequest base64 splitTarget none = Text.utf8 "CONNECT a HTTP/1.1\r\n\r\n" ++
      (Text.utf8 "GET / HTTP/1.1\r\n" ++ Text.utf8 splitTail) := by
  have htarget : "CONNECT " ++ splitTarget ++ " HTTP/1.1\r\nHost: " =
      "CONNECT a HTTP/1.1\r\n\r\n" ++ ("GET / HTTP/1.1\r\n" ++ ":80 HTTP/1.1\r\nHost: ") := by
    decide
  have hcreds : basicCredentials base64 none = none := rfl
  rw [httpConnectRequest, htarget, hcreds]
  delta splitTail
  simp only [Text.utf8_append, List.append_assoc]

theorem splitRest_eq : splitRest = Text.utf8 "GET / HTTP/1.1\r\n" ++ Text.utf8 splitTail := by
  rw [splitRest, httpConnectRequest_splitTail, List.drop_left]

theorem httpConnectRequest_split (base64 : Bytes → String) :
    httpConnectRequest base64 splitTarget none =
      Head.bytes ⟨Text.utf8 "CONNECT", Text.utf8 "a", []⟩ ++ splitRest := by
  have hhead : Head.bytes ⟨Text.utf8 "CONNECT", Text.utf8 "a", []⟩ =
      Text.utf8 "CONNECT a HTTP/1.1\r\n\r\n" := by decide
  rw [httpConnectRequest_splitTail, splitRest_eq, hhead]

/-- The handler takes the name and the checks let it through; the hop reads a CONNECT for
another target and finds a second request after it. -/
theorem http_connect_split :
    Socks5.readRequest splitRequest = .ok (⟨Socks5.CMD_CONNECT, splitTarget⟩, [])
      ∧ Can "tcp" splitTarget none none = true
      ∧ (Text.utf8 "GET / HTTP/1.1\r\n").isPrefixOf splitRest
      ∧ ∀ base64,
        parseHead (httpConnectRequest base64 splitTarget none) =
            some (⟨Text.utf8 "CONNECT", Text.utf8 "a", []⟩, splitRest)
          ∧ ¬ OneConnect (httpConnectRequest base64 splitTarget none) splitTarget false := by
  refine ⟨by decide, by decide, ?_, fun base64 => ?_⟩
  · rw [splitRest_eq, List.isPrefixOf_iff_prefix]
    exact List.prefix_append _ _
  have hwf : Head.Wf ⟨Text.utf8 "CONNECT", Text.utf8 "a", []⟩ :=
    ⟨by decide, by decide, List.forall_mem_nil _⟩
  have hparse := parseHead_bytes hwf splitRest
  rw [← httpConnectRequest_split base64] at hparse
  refine ⟨hparse, ?_⟩
  rintro ⟨head, hone, -, htarget, -⟩
  have h := target_of_parseHead hone
  rw [htarget, target_utf8] at h
  exact absurd h (by decide)

end HttpConnect
end RtProxy
