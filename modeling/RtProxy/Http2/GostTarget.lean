import RtProxy.Http2.Serve

/-!
What the HTTP/2 handler makes of a `Gost-Target`, next to the HTTP handler.

Both dial the host that the target decodes to.  The head that goes over HTTP/2 is that of the
request as it came, so it still has the decoy and the target in it.
-/

namespace RtProxy
namespace Http2Handler

open Act

/-- What the `http` crate makes sure of. -/
structure Checked (request : Http2Request) : Prop where
  method : ∀ c ∈ request.method.toList, Text.isWhite c = false
  path : ∀ path ∈ request.pathAndQuery, ∀ c ∈ path.toList, Text.isWhite c = false
  authority : ∀ a ∈ request.authority, IsHost a
  /-- the host is that of the authority -/
  host : request.host.isSome = true → request.authority.isSome = true
  names : ∀ field ∈ request.headers, field.1 ≠ "" ∧ Text.toLowercase field.1 = field.1 ∧
    ':' ∉ field.1.toList ∧ ∀ c ∈ field.1.toList, Text.isWhite c = false
  values : ∀ field ∈ request.headers, ∀ v ∈ field.2, '\n' ∉ v.toList

/-- The values of a header; one that is no text is absent. -/
def headerValues (request : Http2Request) (name : String) : List (Option String) :=
  (request.headers.filter fun field => field.1 = name).map (·.2)

/-- The host that is dialled, and the authority. -/
def Shows (request : Http2Request) (decoy : Decoy) : Prop :=
  request.host = some decoy.host ∧ request.authority = some decoy.header

/-! ## Field lines -/

section

variable {n m v : String}

theorem toList_field (n v : String) : (s!"{n}: {v}").toList = n.toList ++ ':' :: ' ' :: v.toList := by
  have htext (s : String) : toString s = s := rfl
  simp [htext]

/-- Trimming leaves the name. -/
theorem trim_field (hne : n ≠ "") (hwhite : ∀ c ∈ n.toList, Text.isWhite c = false) (v : String) :
    (Text.trim s!"{n}: {v}").toList =
      n.toList ++ ':' :: Text.dropEndWhile Text.isWhite (' ' :: v.toList) := by
  have hcolon : Text.isWhite ':' = false := by decide
  obtain ⟨c, cs, hn⟩ := List.exists_cons_of_ne_nil (mt String.toList_eq_nil_iff.mp hne)
  have hc : Text.isWhite c = false := hwhite c (by rw [hn]; exact List.mem_cons_self)
  have hdrop : (n.toList ++ ':' :: ' ' :: v.toList).dropWhile Text.isWhite =
      n.toList ++ ':' :: ' ' :: v.toList := by
    rw [hn]
    exact List.dropWhile_cons_of_neg (by simp [hc])
  rw [Text.trim_eq, String.toList_ofList, toList_field, Text.trimWhile, hdrop,
    Text.dropEndWhile_keep hcolon]

theorem line_field (hname : ∀ c ∈ n.toList, Text.isWhite c = false) (hv : '\n' ∉ v.toList) :
    Text.Line s!"{n}: {v}" := by
  have hlist := toList_field n v
  have hcolon : ':' ∈ (s!"{n}: {v}").toList := by
    rw [hlist]
    simp
  refine ⟨?_, Text.trim_ne_empty hcolon (by decide)⟩
  have hn : '\n' ∉ n.toList := fun hmem => absurd (hname _ hmem) (by decide)
  rw [hlist]
  simp [hn, hv]

/-- A field line is named by its name alone. -/
theorem named_field {rest : List Char} (hlower : Text.toLowercase n = n) (hn : ':' ∉ n.toList)
    (hm : ':' ∉ m.toList) {line : String} (hline : line.toList = n.toList ++ ':' :: rest) :
    (HttpHandler.named line (m ++ ":")).isSome = true ↔ n = m := by
  have hfront : n.toList.flatMap Text.lowerChar = n.toList := by
    have h := congrArg String.toList hlower
    rwa [Text.toLowercase, String.toList_ofList] at h
  have hcolon : Text.lowerChar ':' = [':'] := by decide
  have hchars : (Text.toLowercase line).toList =
      n.toList ++ ':' :: rest.flatMap Text.lowerChar := by
    rw [Text.toLowercase, String.toList_ofList, hline, List.flatMap_append, List.flatMap_cons, hfront,
      hcolon]
    rfl
  have hname : (m ++ ":").toList = m.toList ++ [':'] := String.toList_append
  rw [HttpHandler.named_isSome, HttpHandler.startsWith_iff, hchars, hname]
  constructor
  · intro h
    obtain ⟨more, hmore⟩ := h
    have hcut := Text.cutFirst_append hn (rest.flatMap Text.lowerChar)
    rw [← hmore, List.append_assoc, List.singleton_append, Text.cutFirst_append hm] at hcut
    exact (String.toList_inj.mp (congrArg Prod.fst (Option.some.inj hcut))).symm
  · rintro rfl
    exact ⟨rest.flatMap Text.lowerChar, by simp⟩

end

/-! ## The head -/

section

variable {request : Http2Request} {host : String}

/-- The lines of the head after the first. -/
def headLines (request : Http2Request) (host : String) : List String :=
  s!"Host: {request.authority.getD host}" ::
    (forwardedFields request).map (fun field => s!"{field.1}: {field.2}") ++ ["Connection: close"]

theorem head_eq (request : Http2Request) (host : String) :
    head request host = Text.headBytes
      s!"{request.method} {path request} HTTP/1.1" (headLines request host) := by
  have htext (s : String) : toString s = s := rfl
  have hfirst : s!"{request.method} {path request} HTTP/1.1\r\n" =
      s!"{request.method} {path request} HTTP/1.1" ++ "\r\n" := by
    rw [← String.toList_inj]
    simp [htext]
  have hhost : s!"Host: {request.authority.getD host}\r\n" =
      s!"Host: {request.authority.getD host}" ++ "\r\n" := by
    rw [← String.toList_inj]
    simp [htext]
  have hfield (field : String × String) :
      s!"{field.1}: {field.2}\r\n" = s!"{field.1}: {field.2}" ++ "\r\n" := by
    rw [← String.toList_inj]
    simp [htext]
  have hclose : Text.utf8 "Connection: close\r\n\r\n" =
      Text.utf8 ("Connection: close" ++ "\r\n") ++ Text.utf8 "\r\n" := by
    decide
  unfold head Text.headBytes headLines
  simp only [hfirst, hhost, hfield, hclose, List.flatMap_append, List.flatMap_cons, List.flatMap_map,
    List.flatMap_nil, List.append_assoc, List.append_nil, List.cons_append]

theorem mem_forwardedFields {n v : String} : (n, v) ∈ forwardedFields request ↔
    (n, some v) ∈ request.headers ∧ Text.utf8 n ∉ Http2.HOP_BY_HOP := by
  unfold forwardedFields
  rw [List.mem_filterMap]
  constructor
  · rintro ⟨⟨name, value⟩, hfield, h⟩
    simp only at h
    split_ifs at h with hhop
    obtain ⟨w, rfl, hw⟩ := Option.map_eq_some_iff.mp h
    cases hw
    exact ⟨hfield, fun hmem => hhop (List.contains_iff_mem.mpr hmem)⟩
  · rintro ⟨hfield, hhop⟩
    exact ⟨(n, some v), hfield, by simp [hhop]⟩

theorem line_headLines (hchecked : Checked request) {a : String} (ha : request.authority = some a)
    (host : String) : ∀ line ∈ headLines request host, Text.Line line := by
  have hclose : Text.Line "Connection: close" := ⟨by decide, by decide⟩
  intro line hline
  rcases List.mem_append.mp hline with hline | hline
  · rcases List.mem_cons.mp hline with rfl | hline
    · rw [ha]
      exact (HttpHandler.settled_host (hchecked.authority a ha)).1
    · obtain ⟨⟨n, v⟩, hfield, rfl⟩ := List.mem_map.mp hline
      have hmem := (mem_forwardedFields.mp hfield).1
      exact line_field (hchecked.names _ hmem).2.2.2 (hchecked.values _ hmem v rfl)
  · rw [List.mem_singleton.mp hline]
    exact hclose

/-- The values of a header in the head that is forwarded. -/
theorem fieldTexts_head (hchecked : Checked request) {a : String} (ha : request.authority = some a)
    (host name : String) :
    fieldTexts name (head request host) = valuesOf name ((headLines request host).map Text.trim) := by
  have hlf {s : String} (h : ∀ c ∈ s.toList, Text.isWhite c = false) : '\n' ∉ s.toList :=
    fun hmem => absurd (h _ hmem) (by decide)
  have hpath : '\n' ∉ (path request).toList := by
    unfold path
    cases hp : request.pathAndQuery with
    | none => decide
    | some p => exact hlf (hchecked.path p hp)
  have hfirst :
      '\n' ∉ (s!"{request.method} {path request} HTTP/1.1").toList := by
    have htext (s : String) : toString s = s := rfl
    simp [htext, hlf hchecked.method, hpath]
  rw [head_eq, HttpHandler.fieldTexts_headBytes hfirst (line_headLines hchecked ha host)]

/-- A field of another name is no `Host`, and one of the name is the header. -/
theorem named_forwarded (hchecked : Checked request) {n v : String}
    (hfield : (n, v) ∈ forwardedFields request) {m : String} (hm : ':' ∉ m.toList) :
    (HttpHandler.named (Text.trim s!"{n}: {v}") (m ++ ":")).isSome = true ↔ n = m := by
  obtain ⟨hne, hlower, hcolon, hwhite⟩ :=
    hchecked.names _ (mem_forwardedFields.mp hfield).1
  exact named_field hlower hcolon hm (trim_field hne hwhite v)

/-- The authority is the only `Host`. -/
theorem fieldTexts_host (hchecked : Checked request) {a : String} (ha : request.authority = some a)
    (host : String) : fieldTexts "host:" (head request host) = [a] := by
  have hhost := hchecked.authority a ha
  have hname : "host:" = "host" ++ ":" := by decide
  have hhop : Text.utf8 "host" ∈ Http2.HOP_BY_HOP := by decide
  have hfields : ((forwardedFields request).map fun field => s!"{field.1}: {field.2}").filterMap
      (fun line => HttpHandler.named (Text.trim line) "host:") = [] := by
    rw [List.filterMap_eq_nil_iff]
    intro line hline
    obtain ⟨⟨n, v⟩, hfield, rfl⟩ := List.mem_map.mp hline
    rw [← Option.not_isSome_iff_eq_none, hname, named_forwarded hchecked hfield (by decide)]
    rintro rfl
    exact (mem_forwardedFields.mp hfield).2 hhop
  have hclose : HttpHandler.named (Text.trim "Connection: close") "host:" = none := by decide
  rw [fieldTexts_head hchecked ha, valuesOf, List.filterMap_map]
  unfold headLines
  rw [ha]
  simp only [Option.getD_some, List.filterMap_cons, Function.comp,
    (HttpHandler.settled_host hhost).2, HttpHandler.named_host hhost, List.filterMap_append, hfields,
    hclose, List.filterMap_nil, List.append_nil]

/-- A target that is text is forwarded. -/
theorem fieldTexts_target (hchecked : Checked request) {a : String}
    (ha : request.authority = some a) {t : String}
    (ht : ("gost-target", some t) ∈ request.headers) (host : String) :
    fieldTexts "gost-target:" (head request host) ≠ [] := by
  have hname : "gost-target:" = "gost-target" ++ ":" := by decide
  have hfield : ("gost-target", t) ∈ forwardedFields request :=
    mem_forwardedFields.mpr ⟨ht, by decide⟩
  have hline : s!"gost-target: {t}" ∈ headLines request host :=
    List.mem_append_left _ (List.mem_cons_of_mem _ (List.mem_map.mpr ⟨_, hfield, rfl⟩))
  have hnamed := (named_forwarded hchecked hfield (by decide)).mpr rfl
  rw [← hname] at hnamed
  obtain ⟨value, hvalue⟩ := Option.isSome_iff_exists.mp hnamed
  rw [fieldTexts_head hchecked ha]
  exact List.ne_nil_of_mem (List.mem_filterMap.mpr ⟨_, List.mem_map_of_mem hline, hvalue⟩)

end

/-! ## The host that is dialled -/

section

variable {request : Http2Request} {host target real : String}

theorem requestTarget_eq_some (h : requestTarget request = some target)
    (hhost : request.host = some host) : ∃ port : UInt16,
      target = s!"{host}:{portText port}" ∨ target = s!"[{host}]:{portText port}" := by
  unfold requestTarget at h
  rw [hhost] at h
  simp only at h
  by_cases hliteral : (Text.contains host ':' && !Text.startsWith host "[") = true
  · rw [if_pos hliteral] at h
    exact ⟨_, .inr (Option.some.inj h).symm⟩
  · rw [if_neg hliteral] at h
    exact ⟨_, .inl (Option.some.inj h).symm⟩

/-- A target ends with a port. -/
theorem requestTarget_plain (h : requestTarget request = some target) :
    ∃ (name : String) (port : UInt16), target = s!"{name}:{portText port}" := by
  cases hhost : request.host with
  | none =>
    rw [requestTarget, hhost] at h
    cases h
  | some host =>
    obtain ⟨port, hplain | hliteral⟩ := requestTarget_eq_some h hhost
    · exact ⟨host, port, hplain⟩
    · exact ⟨brackets host, port, hliteral.trans (bracketed_eq_plain host (portText port))⟩

theorem portOf_plain (name : String) (port : UInt16) :
    portOf s!"{name}:{portText port}" = portText port := by
  have hcolon := (not_mem_of_parseUnsigned (parseUnsigned_portText port)).1
  unfold portOf
  rw [toList_plain, Text.cutLast_append _ hcolon]
  exact String.ofList_toList

theorem headerStr_of_names {name : String} {v : Option String}
    (hv : Names (headerValues request name) v) : headerStr request name = v.getD "" := by
  have hhead := hv.head?
  unfold headerValues at hhead
  rw [List.head?_map, List.head?_filter] at hhead
  obtain ⟨⟨n, value⟩, hfield, rfl⟩ := Option.map_eq_some_iff.mp hhead
  unfold headerStr
  rw [hfield]
  cases value <;> rfl

/-- A value that is no text or does not decode changes nothing. -/
theorem dialled_undecoded {engine : Sni.Engine} {v : Option String}
    (hv : Names (headerValues request "gost-target") v)
    (hdecode : v.bind (Sni.decodeServerName engine) = none) (target : String) :
    dialled request engine target = target := by
  unfold dialled
  rw [headerStr_of_names hv]
  cases v with
  | none => rfl
  | some t =>
    have ht : Sni.decodeServerName engine t = none := hdecode
    simp only [Option.getD_some, ht]
    split_ifs <;> rfl

/-- What decodes is dialled, at the port of the request. -/
theorem addresses_decoded {engine : Sni.Engine} (hengine : engine.Lawful) {v : Option String}
    (hv : Names (headerValues request "gost-target") v)
    (hdecode : v.bind (Sni.decodeServerName engine) = some real)
    (htarget : requestTarget request = some target) :
    Addresses (dialled request engine target) real := by
  obtain ⟨t, rfl, ht⟩ := Option.bind_eq_some_iff.mp hdecode
  have hne : t ≠ "" := by
    rintro rfl
    rw [decodeServerName_empty hengine] at ht
    cases ht
  obtain ⟨name, port, rfl⟩ := requestTarget_plain htarget
  unfold dialled
  rw [headerStr_of_names hv, Option.getD_some, if_neg hne, ht, portOf_plain]
  exact addresses_withPort real port

theorem undisturbed_of_undecoded {engine : Sni.Engine} {v : Option String}
    (hchecked : Checked request) (hv : Names (headerValues request "gost-target") v)
    (hdecode : v.bind (Sni.decodeServerName engine) = none)
    (htarget : requestTarget request = some target) {decoy : Decoy} (hshows : Shows request decoy) :
    Undisturbed decoy (dialled request engine target)
      (head request (dialled request engine target)) := by
  obtain ⟨hhost, hauthority⟩ := hshows
  obtain ⟨port, hport⟩ := requestTarget_eq_some htarget hhost
  constructor
  · rw [dialled_undecoded hv hdecode]
    exact .inr ⟨port, hport⟩
  · rw [fieldTexts_host hchecked hauthority]
    exact names_cons_iff.mpr (List.forall_mem_nil _)

/-- A head that is forwarded still has the target in it. -/
theorem not_redirected {engine : Sni.Engine} {v : Option String} (hchecked : Checked request)
    (hv : Names (headerValues request "gost-target") v)
    (hdecode : v.bind (Sni.decodeServerName engine) = some real)
    (htarget : requestTarget request = some target) (addr host : String) :
    ¬ Redirected real addr (head request host) := by
  obtain ⟨t, rfl, -⟩ := Option.bind_eq_some_iff.mp hdecode
  have hsome : request.host.isSome = true := by
    unfold requestTarget at htarget
    cases hhost : request.host with
    | none =>
      rw [hhost] at htarget
      cases htarget
    | some host => rfl
  obtain ⟨a, ha⟩ := Option.isSome_iff_exists.mp (hchecked.host hsome)
  have hmem : some t ∈ headerValues request "gost-target" := List.mem_of_mem_head? hv.head?
  obtain ⟨⟨n, value⟩, hfield, hvalue⟩ := List.mem_map.mp hmem
  obtain ⟨hfield, hn⟩ := List.mem_filter.mp hfield
  have hn' : n = "gost-target" := of_decide_eq_true hn
  have hvalue' : value = some t := hvalue
  rw [hn', hvalue'] at hfield
  exact fun hred => fieldTexts_target hchecked ha hfield host hred.hidden

end

/-! ## Runs -/

section

variable (env : Env) (o : HandlerOptions) (frames : Nat → List (String × String) → Bytes)

open HttpHandler (Serves splice_serves)

theorem sendStatus_emits {p : Event → Prop} (hp : ∀ bs, p (.reply bs)) (status : Nat) :
    (sendStatus env o frames status).Emits p :=
  emits_bind (emits_attempt (emits_mapErr _ (emits_perform (hp _)))) fun _ => emits_pure _

theorem forwardRequest_serves (request : Http2Request) (addr host : String) (conn : Conn) :
    (forwardRequest env request host conn).Emits (Serves addr (head request host)) := by
  have hbody (chunks : List Bytes) :
      (copyBody env conn chunks).Emits (Serves addr (head request host)) := by
    induction chunks with
    | nil => exact emits_pure _
    | cons chunk chunks ih =>
      exact emits_bind (emits_mapErr _ (emits_perform trivial)) fun _ => ih
  refine emits_bind (emits_mapErr _ (emits_perform ?_)) fun _ => hbody _
  cases conn <;> first | rfl | trivial

theorem serveRequest_serves {engine : Sni.Engine} {request : Http2Request} {target : String}
    (htarget : requestTarget request = some target) :
    (serveRequest env o frames engine request).Emits
      (Serves (dialled request engine target) (head request (dialled request engine target))) := by
  have hstatus (status : Nat) : (sendStatus env o frames status).Emits
      (Serves (dialled request engine target) (head request (dialled request engine target))) :=
    sendStatus_emits env o frames (fun _ => trivial) status
  unfold serveRequest
  rw [htarget]
  refine emits_bind (emits_bind (emits_when fun _ => emits_emit trivial) fun _ => emits_pure _)
    fun hit => emits_ite (hstatus 403) ?_
  refine emits_bind (emits_bind (emits_when fun _ => emits_emit trivial) fun _ => emits_pure _)
    fun accepted => emits_ite ?_ (hstatus 407)
  refine emits_bind (emits_attempt (HttpHandler.dial_serves env _ _ _ _)) fun answer => ?_
  cases answer with
  | error e => exact hstatus 502
  | ok conn =>
    refine emits_ite ?_ (forwardRequest_serves env request _ _ conn)
    exact emits_bind (emits_mapErr _ (emits_perform trivial)) fun _ => splice_serves conn

/-- All that is dialled and forwarded is that of the request. -/
theorem exists_target {engine : Sni.Engine} {request : Http2Request} {stream : Bytes}
    {log : List Event} {addr : String}
    (hdial : .dial addr ∈ (serveRequest env o frames engine request stream log).events) :
    ∃ target, requestTarget request = some target := by
  cases htarget : requestTarget request with
  | some target => exact ⟨target, rfl⟩
  | none =>
    unfold serveRequest at hdial
    rw [htarget] at hdial
    have hreply := sendStatus_emits (p := fun e => ∃ bs, e = .reply bs) env o frames
      (fun bs => ⟨bs, rfl⟩) 400 stream log _ hdial
    obtain ⟨bs, hbs⟩ := hreply
    cases hbs

end

/-! ## Both handlers -/

/-- Over HTTP/1, a request with a target is dialled and forwarded as it is to be if and only if
the target does not decode to a host, or there is a `Host` and each one after the first names
that host.  Over HTTP/2 the right host is dialled, but the request is forwarded as it is to be
if and only if the target does not decode to a host. -/
theorem gost_target_agrees_iff (env : Env) (o : HandlerOptions)
    (frames : Nat → List (String × String) → Bytes) {engine : Sni.Engine} (hengine : engine.Lawful)
    (hrelative : HttpHandler.RefusesRelative env.urlParse) {log : List Event} {addr : String}
    {conn : Conn} {bs : Bytes} (hconn : ∀ d, conn ≠ .decoy d) (stream : Bytes) :
    (∀ r rest v, HttpHandler.readRequest engine stream = .ok (some r, rest) →
      r.method ≠ "CONNECT" → Text.startsWith r.target "/" = true →
      Names (fieldTexts "gost-target:" stream) v →
      .dial addr ∈ (HttpHandler.handle env o engine stream log).events →
      .send conn bs ∈ (HttpHandler.handle env o engine stream log).events →
      (Routed (Sni.decodeServerName engine v) (HttpHandler.Shows stream) addr bs ↔
        ∀ real, Sni.decodeServerName engine v = some real → IsHost real →
          HttpHandler.LedByHost real (fieldTexts "host:" stream))) ∧
    (∀ request v, Checked request → request.method ≠ "CONNECT" →
      Names (headerValues request "gost-target") v →
      .dial addr ∈ (serveRequest env o frames engine request stream log).events →
      .send conn bs ∈ (serveRequest env o frames engine request stream log).events →
      (∀ real, v.bind (Sni.decodeServerName engine) = some real → Addresses addr real) ∧
        (Routed (v.bind (Sni.decodeServerName engine)) (Shows request) addr bs ↔
          ∀ real, v.bind (Sni.decodeServerName engine) = some real → ¬ IsHost real)) := by
  constructor
  · intro r rest v hread hmethod horigin hv hdial hsend
    obtain ⟨_, _, hread', haddr⟩ := HttpHandler.handle_serves env o engine hdial
    rw [hread] at hread'
    cases hread'
    obtain ⟨_, _, hread', hbs⟩ := HttpHandler.handle_serves env o engine hsend
    rw [hread] at hread'
    cases hread'
    have haddr' : addr = r.host env.toLibs := haddr
    rw [haddr', HttpHandler.serves_send hbs hconn]
    exact HttpHandler.routed_iff hengine hrelative hread hmethod horigin hv
  · intro request v hchecked _ hv hdial hsend
    obtain ⟨target, htarget⟩ := exists_target env o frames hdial
    have hserves : (serveRequest env o frames engine request).Emits _ :=
      serveRequest_serves env o frames htarget
    have haddr : addr = dialled request engine target := hserves stream log _ hdial
    have hbs := HttpHandler.serves_send (hserves stream log _ hsend) hconn
    rw [haddr, hbs]
    refine ⟨fun real hdecode => addresses_decoded hengine hv hdecode htarget, ?_⟩
    constructor
    · intro hrouted real hdecode hreal
      exact not_redirected hchecked hv hdecode htarget _ _ (hrouted.1 real hdecode hreal)
    · intro hnone
      refine ⟨fun real hdecode hreal => absurd hreal (hnone real hdecode),
        fun hdecode decoy hshows => ?_⟩
      exact undisturbed_of_undecoded hchecked hv hdecode htarget hshows

/-! A client asks for `b` and shows `a`. -/

/-- What `encode_server_name` makes of `b`. -/
def hiddenB : String := "cb7v-Vln"

def hiddenRequest : Bytes :=
  Text.utf8 "GET / HTTP/1.1\r\nHost: a\r\nGost-Target: cb7v-Vln\r\n\r\n"

def hiddenRequest2 : Http2Request :=
  { method := "GET"
    scheme := some "https"
    authority := some "a"
    host := some "a"
    port := none
    pathAndQuery := some "/"
    headers := [("gost-target", some hiddenB)]
    body := [] }

theorem checked_hiddenRequest2 : Checked hiddenRequest2 where
  method := by decide
  path := by
    intro path hpath
    cases hpath
    decide
  authority := by
    intro a ha
    cases ha
    exact ⟨by decide, by decide⟩
  host := fun _ => rfl
  names := by decide
  values := by
    intro field hfield v hv
    rw [List.mem_singleton.mp hfield] at hv
    cases hv
    decide

theorem isHost_b : IsHost "b" := ⟨by decide, by decide⟩

theorem decode_hiddenB : Sni.decodeServerName Sni.urlSafeNoPad hiddenB = some "b" := by
  decide +kernel

/-- The request as it is read over HTTP/1. -/
def hiddenRequest1 : HttpHandler.Request :=
  { headers := ["Host: b"]
    proxyAuth := ""
    hostHeader := "b"
    gostTarget := hiddenB
    method := "GET"
    target := "/" }

theorem readRequest_hidden :
    HttpHandler.readRequest Sni.urlSafeNoPad hiddenRequest = .ok (some hiddenRequest1, []) := by
  decide +kernel

/-- Over HTTP/1 what is dialled and forwarded is that of `b`. -/
theorem gost_target_agrees_b :
    ∃ bs, .send (.tcp "b:80") bs ∈ (HttpHandler.handle (Env.calm Libs.blank) .empty Sni.urlSafeNoPad
        hiddenRequest []).events ∧ Redirected "b" "b:80" bs := by
  have hdial : .dial "b:80" ∈ (HttpHandler.handle (Env.calm Libs.blank) .empty Sni.urlSafeNoPad
      hiddenRequest []).events := by decide +kernel
  have hsend : .send (.tcp "b:80") (Text.utf8 "GET / HTTP/1.1\r\nHost: b\r\n\r\n") ∈
      (HttpHandler.handle (Env.calm Libs.blank) .empty Sni.urlSafeNoPad hiddenRequest []).events := by
    decide +kernel
  have htarget : fieldTexts "gost-target:" hiddenRequest = [hiddenB] := by decide +kernel
  have hhost : fieldTexts "host:" hiddenRequest = ["a"] := by decide +kernel
  have hnames : Names (fieldTexts "gost-target:" hiddenRequest) hiddenB := by
    rw [htarget]
    exact names_cons_iff.mpr (List.forall_mem_nil _)
  have hled : HttpHandler.LedByHost "b" (fieldTexts "host:" hiddenRequest) :=
    ⟨"a", [], hhost, List.forall_mem_nil _⟩
  have hconn : ∀ d, Conn.tcp "b:80" ≠ .decoy d := fun _ => nofun
  have h := (gost_target_agrees_iff (Env.calm Libs.blank) .empty (fun _ _ => [])
    Sni.lawful_urlSafeNoPad (fun _ _ => ⟨_, rfl⟩) hconn hiddenRequest).1 hiddenRequest1 []
    hiddenB readRequest_hidden (by decide) (by decide) hnames hdial hsend
  refine ⟨_, hsend, (h.mpr fun real hdecode _ => ?_).1 "b" decode_hiddenB isHost_b⟩
  rw [decode_hiddenB] at hdecode
  cases hdecode
  exact hled

/-- Over HTTP/2 `b` is dialled, but it is asked for `a` and shown the target. -/
theorem gost_target_leaks :
    ∃ bs, Checked hiddenRequest2 ∧ hiddenRequest2.method ≠ "CONNECT" ∧
      Names (headerValues hiddenRequest2 "gost-target") (some hiddenB) ∧
      Sni.decodeServerName Sni.urlSafeNoPad hiddenB = some "b" ∧ IsHost "b" ∧
      .dial "b:443" ∈ (serveRequest (Env.calm Libs.blank) .empty (fun _ _ => []) Sni.urlSafeNoPad
        hiddenRequest2 [] []).events ∧
      .send (.tcp "b:443") bs ∈ (serveRequest (Env.calm Libs.blank) .empty (fun _ _ => [])
        Sni.urlSafeNoPad hiddenRequest2 [] []).events ∧
      fieldTexts "host:" bs = ["a"] ∧ fieldTexts "gost-target:" bs = [hiddenB] ∧
      ¬ Routed (Sni.decodeServerName Sni.urlSafeNoPad hiddenB) (Shows hiddenRequest2) "b:443" bs := by
  have hdial : .dial "b:443" ∈ (serveRequest (Env.calm Libs.blank) .empty (fun _ _ => [])
      Sni.urlSafeNoPad hiddenRequest2 [] []).events := by decide +kernel
  have hsend : .send (.tcp "b:443") (head hiddenRequest2 "b:443") ∈
      (serveRequest (Env.calm Libs.blank) .empty (fun _ _ => []) Sni.urlSafeNoPad
        hiddenRequest2 [] []).events := by
    decide +kernel
  have hhost : fieldTexts "host:" (head hiddenRequest2 "b:443") = ["a"] := by decide +kernel
  have htarget : fieldTexts "gost-target:" (head hiddenRequest2 "b:443") = [hiddenB] := by
    decide +kernel
  have hnames : Names (headerValues hiddenRequest2 "gost-target") (some hiddenB) :=
    names_cons_iff.mpr (List.forall_mem_nil _)
  refine ⟨_, checked_hiddenRequest2, by decide, hnames, decode_hiddenB, isHost_b, hdial, hsend, hhost,
    htarget, fun hrouted => ?_⟩
  have hhidden := (hrouted.1 "b" decode_hiddenB isHost_b).hidden
  rw [htarget] at hhidden
  cases hhidden

end Http2Handler
end RtProxy
