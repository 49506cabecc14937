import RtProxy.Handler.Http
import RtProxy.Lib.HttpReply

/-!
What a prober learns from an HTTP handler with probe resistance.

A client that is rejected shall not be told that it talks to a proxy.  The answers of the
two checks, which stand before the authentication, tell it.
-/

namespace RtProxy
namespace HttpHandler

open Act Http1

/-! ## What gives a proxy away -/

/-- A response with the status 407 or a header whose name starts with `Proxy-`. -/
def betrays (bs : Bytes) : Bool :=
  match shownLines [] bs with
  | [] => false
  | line :: fields =>
    shownStatus line = Text.utf8 "407" || fields.any (shownNamed (Text.utf8 "Proxy-"))

/-- A reply that passes on what a decoy answered to the request before it. -/
def relayed (env : Env) (log : List Event) (bs : Bytes) : Bool :=
  match log.getLast? with
  | some (.send (.decoy _) _) => bs = env.response log
  | _ => false

/-- The bytes of a reply that is not passed on. -/
def ownReply (env : Env) (log : List Event) : Event → Bytes
  | .reply bs => if relayed env log bs then [] else bs
  | _ => []

/-- What the handler itself writes to the client, after a trace. -/
def ownReplies (env : Env) : List Event → List Event → Bytes
  | _, [] => []
  | log, e :: events => ownReply env log e ++ ownReplies env (log ++ [e]) events

/-- The host is the knocking host, whose clients are challenged. -/
def Knocks (o : HandlerOptions) (host : String) : Prop :=
  o.knockingHost ≠ "" ∧ Text.toAsciiLowercase ((Text.split host ':').headD host) =
    Text.toAsciiLowercase o.knockingHost

theorem resist_of_not_knocks {o : HandlerOptions} {host : String} (h : ¬ Knocks o host) :
    resist o host = ProbeResist.parse o.probeResist := if_neg h

/-! ### The replies in a trace -/

/-- An event that is no reply. -/
def Silent (e : Event) : Prop := ∀ bs, e ≠ .reply bs

section

variable {env : Env} {log : List Event} {e : Event} {events new : List Event} {bs : Bytes}

theorem ownReplies_silent (h : ∀ e ∈ new, Silent e) (log : List Event) :
    ownReplies env log (new ++ events) = ownReplies env (log ++ new) events := by
  induction new generalizing log with
  | nil => rw [List.nil_append, List.append_nil]
  | cons e new ih =>
    obtain ⟨he, hnew⟩ := List.forall_mem_cons.mp h
    have htail := ih hnew (log ++ [e])
    rw [List.append_assoc, List.singleton_append] at htail
    have hown : ownReply env log e = [] := by
      cases e with
      | reply bs => exact absurd rfl (he bs)
      | _ => rfl
    rw [List.cons_append, ownReplies, hown, htail, List.nil_append]

theorem ownReplies_of_silent (h : ∀ e ∈ events, Silent e) : ownReplies env log events = [] := by
  have happ : ownReplies env log (events ++ []) = ownReplies env (log ++ events) [] :=
    ownReplies_silent h log
  rw [List.append_nil] at happ
  exact happ

theorem ownReplies_reply (h : relayed env log bs = false) :
    ownReplies env log (.reply bs :: events) = bs ++ ownReplies env (log ++ [.reply bs]) events := by
  rw [ownReplies, ownReply, h]
  rfl

theorem ownReplies_relayed (h : relayed env log bs = true) : ownReplies env log [.reply bs] = [] := by
  rw [ownReplies, ownReply, h]
  rfl

/-- Only what follows a request to a decoy is relayed. -/
theorem relayed_concat (h : ∀ addr req, e ≠ .send (.decoy addr) req) (log : List Event)
    (bs : Bytes) : relayed env (log ++ [e]) bs = false := by
  unfold relayed
  rw [List.getLast?_concat]
  split
  · rename_i heq
    exact absurd (Option.some.inj heq) (h _ _)
  · rfl

theorem betrays_nil : betrays [] = false := by decide

/-- A reply tells no more for being relayed. -/
theorem betrays_single (h : betrays bs = false) : betrays (ownReplies env log [.reply bs]) = false := by
  cases hrel : relayed env log bs with
  | true => rw [ownReplies_relayed hrel, betrays_nil]
  | false =>
    rw [ownReplies_reply hrel, ownReplies, List.append_nil]
    exact h

end

/-! ## Camouflage -/

/-- A text without a line feed. -/
def OneLine (s : String) : Prop := '\n' ∉ s.toList

instance (s : String) : Decidable (OneLine s) := inferInstanceAs (Decidable (¬ _))

theorem oneLine_append {a b : String} : OneLine (a ++ b) ↔ OneLine a ∧ OneLine b := by
  unfold OneLine
  rw [String.toList_append, List.mem_append, not_or]

theorem lf_not_mem {s : String} (h : OneLine s) : LF ∉ Text.utf8 s := fun hmem =>
  h ((Text.mem_utf8 (by decide) s).mp hmem)

theorem oneLine_nat (n : Nat) : OneLine (toString n) := by
  have hdigits : (toString n).toList = Nat.toDigits 10 n := String.toList_ofList
  unfold OneLine
  rw [hdigits]
  intro hmem
  exact absurd ((Text.toDigits_word n).2 _ hmem) (by decide)

theorem oneLine_int (n : Int) : OneLine (toString n) := by
  cases n with
  | ofNat n => exact oneLine_nat n
  | negSucc n =>
    have htext : toString (Int.negSucc n) = "-" ++ toString (n + 1) := rfl
    rw [htext, oneLine_append]
    exact ⟨by decide, oneLine_nat (n + 1)⟩

theorem oneLine_twoDigits (n : Int) : OneLine (twoDigits n) := by
  unfold twoDigits
  split_ifs
  · rw [oneLine_append]
    exact ⟨by decide, oneLine_int n⟩
  · exact oneLine_int n

theorem oneLine_getD {names : List String} (h : ∀ name ∈ names, OneLine name) (i : Nat) :
    OneLine (names.getD i "") := by
  rw [List.getD_eq_getElem?_getD]
  cases hi : names[i]? with
  | none => exact List.not_mem_nil
  | some name => exact h name (List.mem_of_getElem? hi)

theorem oneLine_httpDate (unixSecs : UInt64) : OneLine (httpDate unixSecs) := by
  have hdays : ∀ name ∈ DAYS, OneLine name := by decide
  have hmonths : ∀ name ∈ MONTHS, OneLine name := by decide
  unfold httpDate
  simp only [oneLine_append, oneLine_getD hdays, oneLine_getD hmonths, oneLine_int,
    oneLine_twoDigits, true_and, and_true]
  decide

def camouflageStatus (code : UInt16) : String := s!"HTTP/1.1 {code} {statusText code}"

def camouflageFields (date : String) (code : UInt16) (bodyLen : Nat) (contentType : Option String) :
    List String :=
  ["Server: nginx/1.14.1", s!"Date: {date}"] ++
    (match contentType with
      | some ct => [s!"Content-Type: {ct}"]
      | none => []) ++
    [s!"Content-Length: {bodyLen}"] ++ (if code = 200 then ["Connection: keep-alive"] else [])

theorem utf8_camouflageHeaders (date : String) (code : UInt16) (bodyLen : Nat)
    (contentType : Option String) :
    Text.utf8 (camouflageHeaders date code bodyLen contentType) =
      ((camouflageStatus code :: camouflageFields date code bodyLen contentType).map
        Text.utf8).flatMap (· ++ lineEnd) ++ lineEnd := by
  have hend : lineEnd = Text.utf8 "\r\n" := by decide
  have hjoin (lines : List String) : (lines.map Text.utf8).flatMap (· ++ lineEnd) =
      Text.utf8 (String.join (lines.map (· ++ "\r\n"))) := by
    induction lines with
    | nil => rfl
    | cons line lines ih =>
      rw [List.map_cons, List.flatMap_cons, ih, List.map_cons, String.join_cons, Text.utf8_append,
        Text.utf8_append, hend]
  rw [hjoin, hend, ← Text.utf8_append]
  refine congrArg Text.utf8 ?_
  unfold camouflageHeaders camouflageStatus camouflageFields
  rw [← String.toList_inj]
  have htext (s : String) : toString s = s := rfl
  cases contentType <;> split_ifs <;> simp [htext]

/-- A line that is neither empty nor a `Proxy-` header. -/
structure Harmless (line : String) : Prop where
  oneLine : OneLine line
  front : ∃ b, (Text.utf8 line).head? = some b ∧ lowerByte b ≠ 0x70

theorem Harmless.append {a b : String} (h : Harmless a) (hb : OneLine b) : Harmless (a ++ b) := by
  obtain ⟨c, hc, hne⟩ := h.front
  refine ⟨oneLine_append.mpr ⟨h.oneLine, hb⟩, c, ?_, hne⟩
  rw [Text.utf8_append, List.head?_append, hc]
  rfl

theorem Harmless.ne_nil {line : String} (h : Harmless line) : Text.utf8 line ≠ [] := by
  obtain ⟨b, hb, -⟩ := h.front
  intro hnil
  rw [hnil] at hb
  cases hb

theorem Harmless.not_named {line : String} (h : Harmless line) (rest : Bytes) :
    shownNamed (Text.utf8 "Proxy-") (Text.utf8 line ++ rest) = false := by
  obtain ⟨b, hb, hne⟩ := h.front
  obtain ⟨bs, hbs⟩ := List.head?_eq_some_iff.mp hb
  have hfront : (Text.utf8 "Proxy-").map lowerByte = [0x70, 0x72, 0x6F, 0x78, 0x79, 0x2D] := by
    decide
  unfold shownNamed
  rw [hbs, hfront, List.cons_append, List.map_cons, List.isPrefixOf_cons_cons,
    beq_false_of_ne (Ne.symm hne), Bool.false_and]

theorem oneLine_statusText (code : UInt16) : OneLine (statusText code) := by
  unfold statusText
  split_ifs <;> decide

theorem harmless_camouflage {date : String} (hdate : OneLine date) (code : UInt16)
    (bodyLen : Nat) {contentType : Option String} (hct : ∀ ct ∈ contentType, OneLine ct) :
    ∀ line ∈ camouflageStatus code :: camouflageFields date code bodyLen contentType,
      Harmless line := by
  have hversion : Harmless "HTTP/1.1 " := ⟨by decide, 0x48, by decide, by decide⟩
  have hserver : Harmless "Server: nginx/1.14.1" := ⟨by decide, 0x53, by decide, by decide⟩
  have hdate' : Harmless "Date: " := ⟨by decide, 0x44, by decide, by decide⟩
  have htype : Harmless "Content-Type: " := ⟨by decide, 0x43, by decide, by decide⟩
  have hlength : Harmless "Content-Length: " := ⟨by decide, 0x43, by decide, by decide⟩
  have hkeep : Harmless "Connection: keep-alive" := ⟨by decide, 0x43, by decide, by decide⟩
  have hspace : OneLine " " := by decide
  have hnil := List.forall_mem_nil Harmless
  unfold camouflageStatus camouflageFields
  simp only [List.forall_mem_append, List.forall_mem_cons]
  refine ⟨?_, ⟨⟨⟨hserver, hdate'.append hdate, hnil⟩, ?_⟩, hlength.append (oneLine_nat bodyLen),
    hnil⟩, ?_⟩
  · exact ((hversion.append (oneLine_nat code.toNat)).append hspace).append (oneLine_statusText code)
  · cases contentType with
    | none => exact hnil
    | some ct => exact List.forall_mem_singleton.mpr (htype.append (hct ct rfl))
  · split_ifs
    · exact List.forall_mem_singleton.mpr hkeep
    · exact hnil

theorem toString_inj {m n : Nat} (h : toString m = toString n) : m = n := by
  have hm : (toString m).toList = Nat.toDigits 10 m := String.toList_ofList
  have hn : (toString n).toList = Nat.toDigits 10 n := String.toList_ofList
  have hdigits := Text.decimal?_toDigits m
  rw [← hm, h, hn, Text.decimal?_toDigits n] at hdigits
  exact (Option.some.inj hdigits).symm

theorem shownStatus_camouflageStatus (code : UInt16) (rest : Bytes) :
    shownStatus (Text.utf8 (camouflageStatus code) ++ rest) = Text.utf8 (toString code.toNat) := by
  have hwhite {c : Char} (hc : Text.isWhite c = true) : c ∉ (toString code.toNat).toList := by
    have hdigits : (toString code.toNat).toList = Nat.toDigits 10 code.toNat := String.toList_ofList
    rw [hdigits]
    intro hmem
    rw [(Text.toDigits_word code.toNat).2 c hmem] at hc
    cases hc
  have hsp : SP ∉ Text.utf8 (toString code.toNat) := fun h =>
    hwhite (by decide) ((Text.mem_utf8 (by decide) _).mp h)
  have hcr : CR ∉ Text.utf8 (toString code.toNat) := fun h =>
    hwhite (by decide) ((Text.mem_utf8 (by decide) _).mp h)
  have hversion : Text.utf8 "HTTP/1.1 " = VERSION ++ [SP] := by decide
  have hspace : Text.utf8 " " = [SP] := by decide
  have hline : camouflageStatus code =
      "HTTP/1.1 " ++ toString code.toNat ++ " " ++ statusText code := rfl
  have hbytes : Text.utf8 (camouflageStatus code) ++ rest =
      VERSION ++ SP :: (Text.utf8 (toString code.toNat) ++ SP ::
        (Text.utf8 (statusText code) ++ rest)) := by
    rw [hline, Text.utf8_append, Text.utf8_append, Text.utf8_append, hversion, hspace]
    simp
  rw [hbytes, shownStatus_line (by decide) ⟨hsp, hcr⟩]

/-- Only a camouflage as a 407 gives the proxy away, whatever body follows. -/
theorem betrays_camouflageHeaders {date : String} (hdate : OneLine date) (code : UInt16)
    (bodyLen : Nat) (contentType : Option String) (hct : ∀ ct ∈ contentType, OneLine ct)
    (body : Bytes) :
    betrays (Text.utf8 (camouflageHeaders date code bodyLen contentType) ++ body) =
      decide (code = 407) := by
  have hlines := harmless_camouflage hdate code bodyLen hct
  have hbytes : ∀ line ∈ (camouflageStatus code ::
      camouflageFields date code bodyLen contentType).map Text.utf8, line ≠ [] ∧ LF ∉ line :=
    List.forall_mem_map.mpr fun line hline =>
      ⟨(hlines line hline).ne_nil, lf_not_mem (hlines line hline).oneLine⟩
  have hfields : (((camouflageFields date code bodyLen contentType).map Text.utf8).map
      (· ++ [CR])).any (shownNamed (Text.utf8 "Proxy-")) = false := by
    rw [List.any_eq_false]
    intro field hfield
    obtain ⟨bs, hbs, rfl⟩ := List.mem_map.mp hfield
    obtain ⟨line, hline, rfl⟩ := List.mem_map.mp hbs
    exact Bool.eq_false_iff.mp ((hlines line (List.mem_cons_of_mem _ hline)).not_named [CR])
  have hcode : Text.utf8 (toString code.toNat) = Text.utf8 "407" ↔ code = 407 := by
    constructor
    · exact fun h => UInt16.toNat_inj.mp (toString_inj (Text.utf8_inj h))
    · rintro rfl
      rfl
  rw [betrays, utf8_camouflageHeaders, shownLines_lines hbytes body, List.map_cons, List.map_cons]
  dsimp only
  rw [hfields, shownStatus_camouflageStatus, Bool.or_false, decide_eq_decide]
  exact hcode

/-! ## The answer to a client that is rejected -/

section

variable {env : Env} {o : HandlerOptions} {s : Bytes} {log : List Event}

theorem camouflage_events (env : Env) (code : UInt16) (bodyLen : Nat) (contentType : Option String)
    (s : Bytes) (log : List Event) :
    (camouflage env code bodyLen contentType s log).events =
      [.reply (Text.utf8 (camouflageHeaders (httpDate (env.now log)) code bodyLen contentType))] := by
  unfold camouflage replyText
  rw [ask_bind, reply_events]

/-- A page that is not there, or not to be had. -/
theorem betrays_unavailable :
    betrays (ownReplies env log (camouflage env 503 0 none s log).events) = false := by
  have hhead := betrays_camouflageHeaders (oneLine_httpDate (env.now log)) 503 0 none
    (fun _ h => by cases h) []
  rw [List.append_nil] at hhead
  rw [camouflage_events]
  exact betrays_single hhead

theorem camouflage_code_iff {e : Event} (he : ∀ addr req, e ≠ .send (.decoy addr) req)
    (code : UInt16) :
    betrays (ownReplies env (log ++ [e]) (camouflage env code 0 none s (log ++ [e])).events) =
      false ↔ code ≠ 407 := by
  have hhead := betrays_camouflageHeaders (oneLine_httpDate (env.now (log ++ [e]))) code 0 none
    (fun _ h => by cases h) []
  rw [List.append_nil] at hhead
  rw [camouflage_events, ownReplies_reply (relayed_concat he log _), ownReplies, List.append_nil,
    hhead, decide_eq_false_iff_not]

theorem betrays_file {e : Event} (he : ∀ addr req, e ≠ .send (.decoy addr) req) (body : Bytes) :
    betrays (ownReplies env (log ++ [e]) ((do
      camouflage env 200 body.length (some "text/html")
      reply env body) s (log ++ [e])).events) = false := by
  have hct : ∀ ct ∈ some "text/html", OneLine ct := by
    intro ct hct
    rw [← Option.some.inj hct]
    decide
  have hhead (bs : Bytes) := betrays_camouflageHeaders
    (oneLine_httpDate (env.now (log ++ [e]))) 200 body.length _ hct bs
  have hevents := camouflage_events env 200 body.length (some "text/html") s (log ++ [e])
  rcases hrun : camouflage env 200 body.length (some "text/html") s (log ++ [e]) with
    ⟨_ | u, s', new⟩ <;> rw [hrun] at hevents <;> dsimp only at hevents <;> subst hevents
  · rw [bind_error hrun, ownReplies_reply (relayed_concat he log _)]
    exact hhead _
  · rw [bind_ok hrun, reply_events, List.singleton_append,
      ownReplies_reply (relayed_concat he log _)]
    exact hhead _

theorem fetchDecoy_silent (env : Env) (url : String) : (fetchDecoy env url).Emits Silent := by
  refine emits_bind (emits_ofExcept _) fun page => ?_
  refine emits_bind (emits_mapErr _ (emits_perform fun _ h => by cases h)) fun _ => ?_
  refine emits_bind (emits_mapErr _ (emits_perform fun _ h => by cases h)) fun _ => ?_
  exact emits_ask _

/-- What is fetched is the answer to the request that was sent last. -/
theorem fetchDecoy_relayed {url : String} {response s' : Bytes} {new : List Event}
    (h : fetchDecoy env url s log = ⟨.ok response, s', new⟩) :
    relayed env (log ++ new) response = true := by
  obtain ⟨⟨host, port, req⟩, s₁, new₁, ev₁, -, h₁, rfl⟩ := bind_eq_ok h
  obtain ⟨_, s₂, new₂, ev₂, -, h₂, rfl⟩ := bind_eq_ok h₁
  obtain ⟨_, s₃, new₃, ev₃, hsend, h₃, rfl⟩ := bind_eq_ok h₂
  obtain ⟨-, rfl⟩ := perform_eq_ok (mapErr_eq_ok hsend)
  cases h₃
  unfold relayed
  rw [List.append_nil, ← List.append_assoc, ← List.append_assoc, List.getLast?_concat]
  exact decide_eq_true rfl

/-- The page of a decoy is passed on. -/
theorem betrays_web (url : String) :
    betrays (ownReplies env log ((do
      match ← attempt (fetchDecoy env url) with
      | .ok response => reply env response
      | .error _ => camouflage env 503 0 none : Action HandlerError Unit) s log).events) = false := by
  have hsilent := fetchDecoy_silent env url s log
  rcases hrun : fetchDecoy env url s log with ⟨res, s', new⟩
  rw [hrun] at hsilent
  have hattempt : (attempt (fetchDecoy env url) : Action HandlerError _) s log =
      ⟨.ok res, s', new⟩ := by
    unfold attempt
    rw [hrun]
  rw [bind_ok hattempt, ownReplies_silent hsilent]
  cases res with
  | ok response =>
    dsimp only
    rw [reply_events, ownReplies_relayed (fetchDecoy_relayed hrun), betrays_nil]
  | error e => exact betrays_unavailable

/-- A decoy host answers for itself. -/
theorem betrays_host (addr : String) (head : Bytes) :
    betrays (ownReplies env log ((do
      match ← attempt (env.perform (.decoy addr)) with
      | .ok () =>
        send env (.decoy addr) head
        splice (.decoy addr)
      | .error _ => camouflage env 503 0 none : Action HandlerError Unit) s log).events) = false := by
  have hsilent : (env.perform (.decoy addr)).Emits Silent := emits_perform fun _ h => by cases h
  rcases hrun : env.perform (.decoy addr) s log with ⟨res, s', new⟩
  have hnew : ∀ e ∈ new, Silent e := by
    have hev := hsilent s log
    rw [hrun] at hev
    exact hev
  have hattempt : (attempt (env.perform (.decoy addr)) : Action HandlerError _) s log =
      ⟨.ok res, s', new⟩ := by
    unfold attempt
    rw [hrun]
  rw [bind_ok hattempt, ownReplies_silent hnew]
  cases res with
  | ok u =>
    have hjoin : (send env (.decoy addr) head >>= fun _ =>
        (splice (.decoy addr) : Action HandlerError Unit)).Emits Silent := by
      refine emits_bind (emits_mapErr _ (emits_perform fun _ h => by cases h)) fun _ => ?_
      exact emits_bind emits_get fun _ => emits_bind (emits_set _) fun _ =>
        emits_emit fun _ h => by cases h
    dsimp only
    rw [ownReplies_of_silent (hjoin s' (log ++ new)), betrays_nil]
  | error e => exact betrays_unavailable

/-- A client that is rejected sees a camouflage, unless it is the challenge's own status. -/
theorem deny_hides {e : Event} (he : ∀ addr req, e ≠ .send (.decoy addr) req) {host : String}
    {how : ProbeResist} (hres : resist o host = some how) (keepAlive : Bool) (head : Bytes) :
    betrays (ownReplies env (log ++ [e])
      (deny env o host keepAlive head s (log ++ [e])).events) = false ↔ how ≠ .code 407 := by
  unfold deny
  rw [hres]
  cases how with
  | code code =>
    dsimp only
    rw [camouflage_code_iff he, Ne, Ne, ProbeResist.code.injEq]
  | file path =>
    refine iff_of_true ?_ (fun h => by cases h)
    dsimp only
    cases env.file path with
    | some body => exact betrays_file he body
    | none => exact betrays_unavailable
  | web url => exact iff_of_true (betrays_web url) (fun h => by cases h)
  | host addr => exact iff_of_true (betrays_host addr head) (fun h => by cases h)

end

/-! ## The handler -/

theorem checkEvents_silent (o : HandlerOptions) (target : String) :
    ∀ e ∈ checkEvents o target, Silent e := by
  intro e he
  unfold checkEvents at he
  rcases List.mem_cons.mp he with rfl | he
  · exact fun _ h => by cases h
  · split_ifs at he
    · rw [List.mem_singleton.mp he]
      exact fun _ h => by cases h
    · cases he

/-- The last of the checks' events is no request to a decoy. -/
theorem checkEvents_concat (o : HandlerOptions) (target : String) :
    ∃ front e, checkEvents o target = front ++ [e] ∧ ∀ addr req, e ≠ .send (.decoy addr) req := by
  unfold checkEvents
  split_ifs
  · exact ⟨[_], _, rfl, fun _ _ h => by cases h⟩
  · exact ⟨[], _, rfl, fun _ _ h => by cases h⟩

/-- The answer of a check names the proxy's agent. -/
theorem betrays_answer (o : HandlerOptions) :
    betrays (Text.utf8 (answer o "403 Forbidden")) = true := by
  have htext : answer o "403 Forbidden" =
      "HTTP/1.1 403 Forbidden\r\n" ++ ("Proxy-Agent: " ++ (proxyAgent o ++ "\r\n\r\n")) := by
    have hid (s : String) : toString s = s := rfl
    rw [← String.toList_inj]
    simp [answer, hid]
  have hstatus : Text.utf8 "HTTP/1.1 403 Forbidden\r\n" =
      Text.utf8 "HTTP/1.1 403 Forbidden\r" ++ [LF] := by
    decide
  have hagent : Text.utf8 "Proxy-Agent: " = 0x50 :: 0x72 :: Text.utf8 "oxy-Agent: " := by decide
  obtain ⟨more, lines, hlines⟩ := shownLines_begun 0x50 0x72 (Text.utf8 "oxy-Agent: ")
    (Text.utf8 (proxyAgent o ++ "\r\n\r\n"))
  rw [betrays, htext, Text.utf8_append, Text.utf8_append, hstatus, hagent, List.append_assoc,
    List.singleton_append, shownLines_line (by decide), if_neg (by decide),
    shownLines_append (by decide), List.nil_append, List.nil_append, hlines]
  rfl

/-- The question that the authenticator answers with no. -/
def rejection (libs : Libs) (r : Request) : Event :=
  .auth (basicProxyAuth libs r.proxyAuth).2.2 (basicProxyAuth libs r.proxyAuth).1
    (basicProxyAuth libs r.proxyAuth).2.1 false

/-- What a client that is rejected is answered. -/
theorem serve_rejected {env : Env} {o : HandlerOptions} {auth : Authenticator}
    (hauth : o.authenticator = some auth) {r : Request}
    (hreject : auth.authenticate (basicProxyAuth env.toLibs r.proxyAuth).1
      (basicProxyAuth env.toLibs r.proxyAuth).2.1 = false) (pipelined s : Bytes)
    (log : List Event) :
    (serve env o r pipelined s log).events = checkEvents o (r.host env.toLibs) ++
      if o.allows "tcp" (r.host env.toLibs) = true ∧ o.bypasses (r.host env.toLibs) = false then
        rejection env.toLibs r ::
          (deny env o (r.host env.toLibs) r.keepAlive (r.rebuildRequest env.toLibs) s
            (log ++ checkEvents o (r.host env.toLibs) ++ [rejection env.toLibs r])).events
      else
        (replyText env (answer o "403 Forbidden") s
          (log ++ checkEvents o (r.host env.toLibs))).events := by
  have haccepts : o.accepts (basicProxyAuth env.toLibs r.proxyAuth).1
      (basicProxyAuth env.toLibs r.proxyAuth).2.1 = false := by
    unfold HandlerOptions.accepts
    rw [hauth]
    exact hreject
  have hauthenticate (log : List Event) : (authenticate o (basicProxyAuth env.toLibs r.proxyAuth).2.2
      (basicProxyAuth env.toLibs r.proxyAuth).1 (basicProxyAuth env.toLibs r.proxyAuth).2.1 :
        Action HandlerError Bool) s log = ⟨.ok false, s, [rejection env.toLibs r]⟩ := by
    rw [authenticate_run, haccepts, hauth]
    rfl
  refine (congrArg Outcome.events (checked_run o _ _ _ _ s log)).trans ?_
  refine congrArg (checkEvents o (r.host env.toLibs) ++ ·) ?_
  by_cases hall : o.allows "tcp" (r.host env.toLibs) = true
  · cases hbyp : o.bypasses (r.host env.toLibs) with
    | true =>
      rw [if_pos hall, if_pos rfl, if_neg fun h => Bool.true_eq_false.mp h.2]
    | false =>
      rw [if_pos hall, if_neg Bool.false_ne_true, bind_ok (hauthenticate _),
        if_neg Bool.false_ne_true, if_pos ⟨hall, rfl⟩]
      rfl
  · rw [if_neg hall, if_neg fun h => hall h.1]

/-- A client that is rejected, and does not knock, is not told that it talks to a proxy
if and only if its host passes both checks and the camouflage is not a 407. -/
theorem prober_sees_no_proxy (env : Env) (o : HandlerOptions) (engine : Sni.Engine)
    {auth : Authenticator} (hauth : o.authenticator = some auth) {how : ProbeResist}
    (hhow : ProbeResist.parse o.probeResist = some how) {r : Request} {s c : Bytes}
    (hread : readRequest engine s = .ok (some r, c)) (hknock : ¬ Knocks o (r.host env.toLibs))
    (hreject : auth.authenticate (basicProxyAuth env.toLibs r.proxyAuth).1
      (basicProxyAuth env.toLibs r.proxyAuth).2.1 = false) (log : List Event) :
    betrays (ownReplies env log (handle env o engine s log).events) = false ↔
      o.allows "tcp" (r.host env.toLibs) = true ∧ o.bypasses (r.host env.toLibs) = false ∧
        how ≠ .code 407 := by
  have hbuffer : takeBuffer env c log =
      ⟨.ok (c.take (env.ahead log)), c.drop (env.ahead log), []⟩ := rfl
  obtain ⟨front, e, hchecks, he⟩ := checkEvents_concat o (r.host env.toLibs)
  unfold handle
  rw [bind_silent (take_ok hread)]
  dsimp only
  rw [bind_silent hbuffer, serve_rejected hauth hreject,
    ownReplies_silent (checkEvents_silent o _)]
  by_cases hpass : o.allows "tcp" (r.host env.toLibs) = true ∧ o.bypasses (r.host env.toLibs) = false
  · have hasked : ∀ e' ∈ [rejection env.toLibs r], Silent e' := by
      intro e' he'
      rw [List.mem_singleton.mp he']
      exact fun _ h => by cases h
    have hres : resist o (r.host env.toLibs) = some how := (resist_of_not_knocks hknock).trans hhow
    rw [if_pos hpass, ← List.singleton_append, ownReplies_silent hasked,
      deny_hides (fun _ _ h => by cases h) hres]
    exact ⟨fun h => ⟨hpass.1, hpass.2, h⟩, fun h => h.2.2⟩
  · unfold replyText
    rw [if_neg hpass, reply_events, hchecks, ← List.append_assoc,
      ownReplies_reply (relayed_concat he _ _), ownReplies, List.append_nil, betrays_answer]
    exact iff_of_false Bool.true_eq_false.mp fun h => hpass ⟨h.1, h.2.1⟩

/-! A prober asks for `10.0.0.1`, without credentials. -/

def probe : Bytes := Text.utf8 "CONNECT 10.0.0.1:443 HTTP/1.1\r\n\r\n"

def probeRequest : Request := { Fields.empty with method := "CONNECT", target := "10.0.0.1:443" }

/-- Nobody is let in, and whoever asks is shown a page that is not found. -/
def disguised (blacklist : Option Permissions) : HandlerOptions :=
  { HandlerOptions.empty with
    authenticator := some ⟨fun _ _ => false⟩
    blacklist := blacklist
    probeResist := "code:404" }

/-- An engine that decodes nothing. -/
def blankEngine : Sni.Engine := { encode := fun _ => "", decode := fun _ => none }

theorem readRequest_probe : readRequest blankEngine probe = .ok (some probeRequest, []) := by
  decide

theorem prober_sees_no_proxy_code :
    betrays (ownReplies (Env.calm Libs.blank) []
      (handle (Env.calm Libs.blank) (disguised none) blankEngine probe []).events) = false :=
  (prober_sees_no_proxy (Env.calm Libs.blank) (disguised none) blankEngine rfl
    (show ProbeResist.parse "code:404" = some (.code 404) by decide) readRequest_probe
    (fun h => h.1 rfl) rfl []).mpr ⟨by decide, rfl, by decide⟩

/-- Port 443 of every host. -/
def secured : Permissions := [⟨["tcp"], ["*"], [⟨443, 443⟩]⟩]

/-- Where it is forbidden, the prober is told so by a proxy. -/
theorem prober_sees_agent :
    ProbeResist.parse (disguised (some secured)).probeResist = some (.code 404) ∧
      readRequest blankEngine probe = .ok (some probeRequest, []) ∧
      ¬ Knocks (disguised (some secured)) (probeRequest.host (Env.calm Libs.blank).toLibs) ∧
      (disguised (some secured)).accepts "" "" = false ∧
      betrays (ownReplies (Env.calm Libs.blank) [] (handle (Env.calm Libs.blank)
        (disguised (some secured)) blankEngine probe []).events) = true :=
  ⟨by decide, readRequest_probe, fun h => h.1 rfl, rfl, by decide⟩

end HttpHandler
end RtProxy
