import RtProxy.Lib.HeadText
import RtProxy.Lib.Percent
import RtProxy.Node

/-!
The credentials in the URL of a node (`Node::parse`, `node.rs`).

The address is cut out of the authority as it is written.  The credentials are what the `url`
crate returns, which is percent-encoded, and they are not decoded.
-/

namespace RtProxy

/-- What the `url` crate leaves as it is in credentials, besides what is encoded. -/
def userinfoChar (c : Char) : Bool := c.isAlphanum || c ∈ "-._~!$&'()*+,".toList

/-- The name of a scheme. -/
def IsScheme (scheme : String) : Prop :=
  scheme ≠ "" ∧ ∀ c ∈ scheme.toList, c.isAlphanum = true ∨ c ∈ ['+', '-', '.']

/-- A host and a port, either of which may be left out. -/
def IsHostPort (hostport : String) : Prop :=
  ∀ c ∈ hostport.toList, endsAuthority c = false ∧ c ≠ '@' ∧ Text.isWhite c = false

/-- The URL of a node with credentials. -/
def nodeUrl (scheme name password hostport : String) : String :=
  s!"{scheme}://{name}:{password}@{hostport}"

/-- What the `url` crate is given for a host and a port. -/
def shownHost (hostport : String) : String :=
  if hostport = "" ∨ hostport.toList.head? = some ':' then "0.0.0.0" ++ hostport else hostport

/-- The `url` crate takes the URL and returns the credentials as they are written; an empty
password may be absent. -/
structure ParsesUserinfo (urlParse : UrlParser) (text name password : String) (url : Url) :
    Prop where
  ok : urlParse text = .ok url
  username : url.username = name
  password : url.password.getD "" = password

/-- The credentials of a node; an empty password may be absent. -/
def HasUser (node : Node) (name password : String) : Prop :=
  ∃ p, node.user = some (name, p) ∧ p.getD "" = password

/-! ## The authority -/

section

variable {scheme name password hostport : String}

theorem toList_nodeUrl (scheme name password hostport : String) :
    (nodeUrl scheme name password hostport).toList = scheme.toList ++ "://".toList ++
      (name.toList ++ ':' :: password.toList ++ '@' :: hostport.toList) := by
  have htext (s : String) : toString s = s := rfl
  simp [nodeUrl, htext]

/-- What may stand in credentials as they are written. -/
def Written (s : String) : Prop := ∀ c ∈ s.toList, endsAuthority c = false

theorem written_encode {keep : Char → Bool} (hkeep : ∀ c, keep c = true → userinfoChar c = true)
    (s : String) : Written (Percent.encode keep s) := by
  refine Percent.forall_encode (by decide) (by decide) (fun c hc => ?_) s
  have hchar := hkeep c hc
  by_contra hend
  rw [Bool.not_eq_false, endsAuthority] at hend
  simp only [Bool.or_eq_true, decide_eq_true_eq] at hend
  rcases hend with (rfl | rfl) | rfl <;> exact absurd hchar (by decide)

theorem not_colon_of_isScheme (h : IsScheme scheme) : ':' ∉ scheme.toList := by
  intro hmem
  have hcolon := h.2 _ hmem
  revert hcolon
  decide

theorem cutSub_nodeUrl (hscheme : IsScheme scheme) (name password hostport : String) :
    Text.cutSub "://".toList (nodeUrl scheme name password hostport).toList =
      some (scheme.toList, name.toList ++ ':' :: password.toList ++ '@' :: hostport.toList) := by
  rw [toList_nodeUrl]
  exact Text.cutSub_of_not_mem (not_colon_of_isScheme hscheme) _

/-- The authority is what is behind the scheme. -/
theorem takeWhile_authority (hname : Written name) (hpassword : Written password)
    (hhost : IsHostPort hostport) :
    (name.toList ++ ':' :: password.toList ++ '@' :: hostport.toList).takeWhile
        (fun c => !endsAuthority c) =
      name.toList ++ ':' :: password.toList ++ '@' :: hostport.toList := by
  rw [List.takeWhile_eq_self_iff]
  intro c hc
  simp only [List.mem_append, List.mem_cons] at hc
  rw [Bool.not_eq_true']
  rcases hc with (hc | rfl | hc) | rfl | hc
  · exact hname c hc
  · decide
  · exact hpassword c hc
  · decide
  · exact (hhost c hc).1

theorem splitAuthority_userinfo (hhost : IsHostPort hostport) (info : List Char) :
    splitAuthority (info ++ '@' :: hostport.toList) = (info ++ ['@'], hostport.toList) := by
  have hat : '@' ∉ hostport.toList := fun hmem => (hhost _ hmem).2.1 rfl
  rw [splitAuthority, Text.cutLast_append _ hat]

theorem rawHostPort_nodeUrl (hscheme : IsScheme scheme) (hname : Written name)
    (hpassword : Written password) (hhost : IsHostPort hostport) :
    rawHostPort (nodeUrl scheme name password hostport) = some hostport := by
  unfold rawHostPort
  rw [cutSub_nodeUrl hscheme]
  simp only [takeWhile_authority hname hpassword hhost, splitAuthority_userinfo hhost,
    String.ofList_toList]

theorem insertSentinelHost_nodeUrl (hscheme : IsScheme scheme) (hname : Written name)
    (hpassword : Written password) (hhost : IsHostPort hostport) :
    (insertSentinelHost (nodeUrl scheme name password hostport)).1 =
      nodeUrl scheme name password (shownHost hostport) := by
  have hauthority := takeWhile_authority hname hpassword hhost
  have hrest : (name.toList ++ ':' :: password.toList ++ '@' :: hostport.toList).dropWhile
      (fun c => !endsAuthority c) = [] := by
    rw [List.dropWhile_eq_nil_iff]
    exact List.takeWhile_eq_self_iff.mp hauthority
  unfold insertSentinelHost
  rw [cutSub_nodeUrl hscheme]
  simp only [hauthority, splitAuthority_userinfo hhost, hrest, List.append_nil]
  unfold shownHost
  by_cases hshown : hostport = "" ∨ hostport.toList.head? = some ':'
  · have hcond : ¬ (hostport.toList ≠ [] ∧ hostport.toList.head? ≠ some ':') := by
      intro ⟨hne, hhead⟩
      exact hshown.elim (fun h => hne (String.toList_eq_nil_iff.mpr h)) hhead
    rw [if_neg hcond, if_pos hshown]
    apply String.toList_inj.mp
    rw [toList_nodeUrl, String.toList_ofList, String.toList_append]
    simp
  · have hcond : hostport.toList ≠ [] ∧ hostport.toList.head? ≠ some ':' :=
      ⟨fun h => hshown (.inl (String.toList_eq_nil_iff.mp h)), fun h => hshown (.inr h)⟩
    rw [if_pos hcond, if_neg hshown]

/-! ## The text as it is given -/

theorem not_white_of_isAlphanum {c : Char} (h : c.isAlphanum = true) : Text.isWhite c = false := by
  have hbounds := Text.toNat_of_isAlphanum h
  unfold Text.isWhite
  simp
  omega

theorem trim_nodeUrl (hscheme : IsScheme scheme) (hhost : IsHostPort hostport) :
    Text.trim (nodeUrl scheme name password hostport) = nodeUrl scheme name password hostport := by
  have hlist := toList_nodeUrl scheme name password hostport
  have hne : scheme.toList ≠ [] := mt String.toList_eq_nil_iff.mp hscheme.1
  apply Text.trim_eq_self
  · intro c hc
    rw [hlist, List.append_assoc, List.head?_append_of_ne_nil _ hne] at hc
    rcases hscheme.2 c (List.mem_of_mem_head? hc) with halnum | hmark
    · exact not_white_of_isAlphanum halnum
    · have hmarks : ∀ c ∈ ['+', '-', '.'], Text.isWhite c = false := by decide
      exact hmarks c hmark
  · intro c hc
    rw [hlist, List.getLast?_append_of_ne_nil _ (by simp),
      List.getLast?_append_of_ne_nil _ (List.cons_ne_nil _ _)] at hc
    rcases List.mem_cons.mp (List.mem_of_getLast? hc) with rfl | hmem
    · decide
    · exact (hhost c hmem).2.2

end

/-! ## The node -/

/-- The URL of a node gives the address as it is written, and the credentials as they are
written; they are the name and the password if and only if nothing in them was encoded. -/
theorem parse_credentials {urlParse : UrlParser} {keep : Char → Bool}
    (hkeep : ∀ c, keep c = true → userinfoChar c = true) {scheme name password hostport : String}
    (hscheme : IsScheme scheme) (hname : name ≠ "") (hhost : IsHostPort hostport) {url : Url}
    (hurl : ParsesUserinfo urlParse
      (nodeUrl scheme (Percent.encode keep name) (Percent.encode keep password)
        (shownHost hostport))
      (Percent.encode keep name) (Percent.encode keep password) url) :
    ∃ node, Node.parse urlParse (nodeUrl scheme (Percent.encode keep name)
        (Percent.encode keep password) hostport) = .ok node ∧
      node.addr = hostport ∧
      HasUser node (Percent.encode keep name) (Percent.encode keep password) ∧
      Percent.decode (Percent.encode keep name) = Text.utf8 name ∧
      Percent.decode (Percent.encode keep password) = Text.utf8 password ∧
      (HasUser node name password ↔
        (∀ c ∈ name.toList, keep c = true) ∧ ∀ c ∈ password.toList, keep c = true) := by
  have hpercent : keep '%' = false := by
    by_contra h
    exact absurd (hkeep '%' (Bool.not_eq_false _ ▸ h)) (by decide)
  have hwritten := written_encode hkeep
  set text := nodeUrl scheme (Percent.encode keep name) (Percent.encode keep password) hostport
    with htext
  have htrim : Text.trim text = text := trim_nodeUrl hscheme hhost
  have hscheme' : Node.withScheme text = text := by
    rw [Node.withScheme, htext, cutSub_nodeUrl hscheme, Option.isSome_some, if_pos rfl]
  have hnonempty : Text.trim text ≠ "" := by
    rw [htrim, htext, Ne, ← String.toList_eq_nil_iff, toList_nodeUrl]
    simp
  have hparse : Node.parse urlParse text = .ok (Node.ofUrl text url) := by
    have hu : urlParse (insertSentinelHost (Node.withScheme (Text.trim text))).1 = .ok url := by
      rw [htrim, hscheme', htext,
        insertSentinelHost_nodeUrl hscheme (hwritten name) (hwritten password) hhost]
      exact hurl.ok
    rw [Node.parse_eq_ok hnonempty hu, htrim, hscheme']
  have hencoded : Percent.encode keep name ≠ "" := by
    intro hempty
    have hdecode := Percent.decode_encode hpercent name
    rw [hempty] at hdecode
    exact hname (Text.utf8_eq_nil.mp hdecode.symm)
  have huser : (Node.ofUrl text url).user = some (Percent.encode keep name, url.password) := by
    show (if url.username = "" then none else some (url.username, url.password)) = _
    rw [hurl.username, if_neg hencoded]
  refine ⟨Node.ofUrl text url, hparse, ?_, ⟨_, huser, hurl.password⟩,
    Percent.decode_encode hpercent name, Percent.decode_encode hpercent password, ?_⟩
  · show (rawHostPort text).getD _ = hostport
    rw [htext, rawHostPort_nodeUrl hscheme (hwritten name) (hwritten password) hhost]
    rfl
  · rw [← Percent.encode_eq_self, ← Percent.encode_eq_self]
    constructor
    · intro ⟨p, hp, hpassword⟩
      obtain ⟨hn, rfl⟩ := Prod.mk.inj (Option.some.inj (huser.symm.trans hp))
      exact ⟨hn, hurl.password.symm.trans hpassword⟩
    · intro ⟨hn, hp⟩
      exact ⟨_, by rw [huser, hn], hurl.password.trans hp⟩

/-! The password of a user has an `@` in it. -/

/-- The characters that are left as they are. -/
def unreserved (c : Char) : Bool := c.isAlphanum || c ∈ "-._~".toList

/-- What the `url` crate makes of `admin` and `p%40ss`, and of `guest` and `secret`. -/
def adminUrl (name password : String) : Url :=
  { scheme := "socks5", username := name, password := some password
    host := some "proxy.example.com", port := some 1443, path := "", query := none
    queryPairs := [] }

theorem userinfoChar_of_unreserved (c : Char) (h : unreserved c = true) : userinfoChar c = true := by
  have hmarks : ∀ c ∈ "-._~".toList, userinfoChar c = true := by decide
  unfold unreserved at h
  rw [Bool.or_eq_true, decide_eq_true_eq] at h
  rcases h with halnum | hmark
  · rw [userinfoChar, halnum, Bool.true_or]
  · exact hmarks c hmark

theorem isHostPort_proxy : IsHostPort "proxy.example.com:1443" := by
  have hall : ∀ c ∈ "proxy.example.com:1443".toList,
      endsAuthority c = false ∧ c ≠ '@' ∧ Text.isWhite c = false := by decide
  exact hall

/-- Nothing in these credentials is encoded. -/
theorem parse_credentials_guest :
    ∃ node, Node.parse (fun _ => .ok (adminUrl "guest" "secret"))
        (nodeUrl "socks5" (Percent.encode unreserved "guest") (Percent.encode unreserved "secret")
          "proxy.example.com:1443") = .ok node ∧
      node.addr = "proxy.example.com:1443" ∧ HasUser node "guest" "secret" := by
  have hscheme : IsScheme "socks5" := ⟨by decide, by decide⟩
  have hname : Percent.encode unreserved "guest" = "guest" := by decide
  have hpassword : Percent.encode unreserved "secret" = "secret" := by decide
  have hurl : ParsesUserinfo (fun _ => .ok (adminUrl "guest" "secret"))
      (nodeUrl "socks5" (Percent.encode unreserved "guest") (Percent.encode unreserved "secret")
        (shownHost "proxy.example.com:1443"))
      (Percent.encode unreserved "guest") (Percent.encode unreserved "secret")
      (adminUrl "guest" "secret") := ⟨rfl, hname.symm, hpassword.symm⟩
  obtain ⟨node, hparse, haddr, -, -, -, hiff⟩ := parse_credentials userinfoChar_of_unreserved
    hscheme (by decide) isHostPort_proxy hurl
  exact ⟨node, hparse, haddr, hiff.mpr ⟨by decide, by decide⟩⟩

/-- The encoded password is kept. -/
theorem parse_credentials_encoded :
    Percent.encode unreserved "p@ss" = "p%40ss" ∧
      ParsesUserinfo (fun _ => .ok (adminUrl "admin" "p%40ss"))
        (nodeUrl "socks5" "admin" "p%40ss" "proxy.example.com:1443") "admin" "p%40ss"
        (adminUrl "admin" "p%40ss") ∧
      ∃ node, Node.parse (fun _ => .ok (adminUrl "admin" "p%40ss"))
          (nodeUrl "socks5" "admin" "p%40ss" "proxy.example.com:1443") = .ok node ∧
        node.user = some ("admin", some "p%40ss") ∧ ¬ HasUser node "admin" "p@ss" := by
  have huser (full : String) :
      (Node.ofUrl full (adminUrl "admin" "p%40ss")).user = some ("admin", some "p%40ss") := rfl
  refine ⟨by decide, ⟨rfl, rfl, rfl⟩, _, Node.parse_eq_ok (by decide) rfl, huser _, ?_⟩
  intro ⟨p, hp, hpassword⟩
  rw [huser] at hp
  cases hp
  exact absurd hpassword (by decide)

end RtProxy
