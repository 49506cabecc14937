import RtProxy.Chain.Stream
import RtProxy.Chain.Wire
import RtProxy.Handler.Http
import RtProxy.Handler.Reading
import RtProxy.Lib.Cut

/-!
What the other side receives of the bytes of an HTTP client.

Once the client is joined with the target of its request, the target has received the
head, if it is forwarded, and every byte after it.  A decoy does not receive the bytes
that were read together with the head.
-/

namespace RtProxy
namespace HttpHandler

open Act

/-! ## What a connection receives -/

/-- What an event brings to a connection. -/
def bringsTo (conn : Conn) : Event → Bytes
  | .send c bs | .copy c bs | .splice c bs => if c = conn then bs else []
  | _ => []

/-- All that a connection has received. -/
def received (conn : Conn) (events : List Event) : Bytes := events.flatMap (bringsTo conn)

/-- An event that does not join the client with anybody. -/
def Apart (e : Event) : Prop := ∀ conn rest, e ≠ .splice conn rest

/-- An event that brings nothing to anybody. -/
def Quiet (e : Event) : Prop := Apart e ∧ ∀ conn, bringsTo conn e = []

/-- Whoever the client is joined with is this connection and has received these bytes. -/
def JoinedTo (conn : Conn) (bs : Bytes) (events : List Event) : Prop :=
  ∀ c rest, .splice c rest ∈ events → c = conn ∧ received conn events = bs

/-- Whoever the client is joined with has received these bytes. -/
def Joined (bs : Bytes) (events : List Event) : Prop :=
  ∀ conn rest, .splice conn rest ∈ events → received conn events = bs

/-! ## Events -/

section

variable {conn : Conn} {bs : Bytes} {e : Event} {events new : List Event}

theorem received_append (conn : Conn) (new events : List Event) :
    received conn (new ++ events) = received conn new ++ received conn events :=
  List.flatMap_append

theorem received_quiet (h : ∀ e ∈ new, Quiet e) (conn : Conn) : received conn new = [] :=
  List.flatMap_eq_nil_iff.mpr fun e he => (h e he).2 conn

theorem joined_of_apart (h : ∀ e ∈ events, Apart e) : Joined bs events :=
  fun conn rest hmem => absurd rfl (h _ hmem conn rest)

theorem JoinedTo.joined (h : JoinedTo conn bs events) : Joined bs events := by
  intro c rest hmem
  obtain ⟨rfl, hbs⟩ := h c rest hmem
  exact hbs

theorem Joined.quiet_append (hnew : ∀ e ∈ new, Quiet e) (h : Joined bs events) :
    Joined bs (new ++ events) := by
  intro conn rest hmem
  rw [received_append, received_quiet hnew, List.nil_append]
  refine h conn rest ((List.mem_append.mp hmem).resolve_left fun hnew' => ?_)
  exact (hnew _ hnew').1 conn rest rfl

theorem JoinedTo.cons (he : Apart e) (h : JoinedTo conn bs events) :
    JoinedTo conn (bringsTo conn e ++ bs) ([e] ++ events) := by
  intro c rest hmem
  have hlater := (List.mem_append.mp hmem).resolve_left fun h =>
    he c rest (List.mem_singleton.mp h).symm
  obtain ⟨hc, hbs⟩ := h c rest hlater
  rw [received_append, hbs]
  exact ⟨hc, congrArg (· ++ bs) (List.append_nil _)⟩

theorem apart_reply (bs : Bytes) : Apart (.reply bs) := fun _ _ => nofun
theorem apart_send (conn : Conn) (bs : Bytes) : Apart (.send conn bs) := fun _ _ => nofun
theorem apart_copy (conn : Conn) (bs : Bytes) : Apart (.copy conn bs) := fun _ _ => nofun

theorem quiet_of_wire {e : Event} (h : e.wire = true) : Quiet e := by
  cases e with
  | splice | send | copy => cases h
  | _ => exact ⟨fun _ _ => nofun, fun _ => rfl⟩

end

/-! ## Parts of the handler -/

section

variable (env : Env) (o : HandlerOptions)

/-- A program after a write that may fail. -/
theorem write_joinedTo {e : Event} (he : Apart e) {k : Action HandlerError Unit} {conn : Conn}
    {bs s : Bytes} (hk : ∀ log, JoinedTo conn bs (k s log).events) (log : List Event) :
    JoinedTo conn (bringsTo conn e ++ bs)
      ((mapErr HandlerError.ofFailure (env.write e) >>= fun _ => k) s log).events := by
  cases hb : env.breaks log e with
  | none =>
    have hrun : mapErr HandlerError.ofFailure (env.write e) s log = ⟨.ok (), s, [e]⟩ := by
      unfold mapErr Env.write perform
      rw [hb]
      rfl
    rw [bind_ok hrun]
    exact (hk _).cons he
  | some f =>
    have hrun : mapErr HandlerError.ofFailure (env.write e) s log =
        ⟨.error (.ofFailure f), s, [e]⟩ := by
      unfold mapErr Env.write perform
      rw [hb]
      rfl
    rw [bind_error hrun]
    intro c rest hmem
    exact absurd (List.mem_singleton.mp hmem).symm (he c rest)

theorem splice_joinedTo (conn : Conn) (s : Bytes) (log : List Event) :
    JoinedTo conn s ((splice conn : Action HandlerError Unit) s log).events := by
  intro c rest hmem
  cases List.mem_singleton.mp hmem
  have hbrings : bringsTo conn (.splice conn s) = s := if_pos rfl
  refine ⟨rfl, ?_⟩
  show bringsTo conn (.splice conn s) ++ [] = s
  rw [hbrings, List.append_nil]

theorem replay_joinedTo (pipelined : Bytes) (conn : Conn) (s : Bytes) (log : List Event) :
    JoinedTo conn (pipelined ++ s) (replay env pipelined conn s log).events := by
  unfold replay when
  split_ifs with h
  · have hcopy := write_joinedTo env (apart_copy conn pipelined) (splice_joinedTo conn s) log
    rwa [bringsTo, if_pos rfl] at hcopy
  · rw [not_not.mp h]
    exact splice_joinedTo conn s log

/-- The head that a target receives. -/
def Request.relayed (libs : Libs) (r : Request) : Bytes :=
  if r.method = "CONNECT" then [] else r.forwarded libs

theorem relay_joined (r : Request) (pipelined : Bytes) (cc : Conn) (s : Bytes) (log : List Event) :
    Joined (r.relayed env.toLibs ++ (pipelined ++ s)) (relay env o r pipelined cc s log).events := by
  have hreplay := replay_joinedTo env pipelined cc s
  unfold relay Request.relayed
  split_ifs with h
  · exact (write_joinedTo env (apart_reply _) hreplay log).joined
  · have hsend := write_joinedTo env (apart_send cc (r.forwarded env.toLibs)) hreplay log
    rw [bringsTo, if_pos rfl] at hsend
    exact hsend.joined

theorem reply_apart (bs : Bytes) : (reply env bs).Emits Apart :=
  emits_mapErr _ (emits_perform (apart_reply bs))

theorem connect_emits (host : String) : (connect env o host).Emits Quiet := by
  have hdial : Quiet (.dial host) := ⟨fun _ _ => nofun, fun _ => rfl⟩
  have hfailed : Quiet (.failed host) := ⟨fun _ _ => nofun, fun _ => rfl⟩
  refine tries_emits (dialWithOptions_emits (D := fun _ => True) hdial hfailed ?_ ?_ ?_) _ _
  · exact fun e he => quiet_of_wire he.1
  · exact fun _ _ _ => trivial
  · exact lookupWithin_any _ _

theorem connect_keeps (host : String) : (connect env o host).Keeps :=
  tries_keeps (dialWithOptions_keeps _ _ _) _ _

theorem dialTarget_joined (r : Request) (pipelined s : Bytes) (log : List Event) :
    Joined (r.relayed env.toLibs ++ (pipelined ++ s))
      (dialTarget env o r pipelined s log).events := by
  have hquiet := connect_emits env o (r.host env.toLibs) s log
  have hkeeps := connect_keeps env o (r.host env.toLibs) s log
  unfold dialTarget
  rcases hrun : connect env o (r.host env.toLibs) s log with ⟨res, s', new⟩
  rw [hrun] at hquiet hkeeps
  dsimp only at hquiet hkeeps
  subst hkeeps
  have hattempt : (attempt (connect env o (r.host env.toLibs)) : Action HandlerError _) s' log =
      ⟨.ok res, s', new⟩ := by
    unfold attempt
    rw [hrun]
  rw [bind_ok hattempt]
  refine Joined.quiet_append hquiet ?_
  cases res with
  | ok cc => exact relay_joined env o r pipelined cc s' _
  | error e =>
    refine joined_of_apart ?_
    exact emits_bind (reply_apart env _) (fun _ => emits_fail _) s' _

theorem camouflage_apart (code : UInt16) (bodyLen : Nat) (contentType : Option String) :
    (camouflage env code bodyLen contentType).Emits Apart :=
  emits_bind (emits_ask _) fun _ => reply_apart env _

theorem fetchDecoy_apart (url : String) : (fetchDecoy env url).Emits Apart := by
  have hdecoy (addr : String) : Apart (.decoy addr) := fun _ _ => nofun
  refine emits_bind (emits_ofExcept _) fun page => ?_
  refine emits_bind (emits_mapErr _ (emits_perform (hdecoy _))) fun _ => ?_
  refine emits_bind (emits_mapErr _ (emits_perform (apart_send _ _))) fun _ => ?_
  exact emits_ask _

/-- Only a decoy host is joined with a client that is denied. -/
theorem deny_joined (host : String) (keepAlive : Bool) (head s : Bytes) (log : List Event) :
    Joined (head ++ s) (deny env o host keepAlive head s log).events := by
  unfold deny
  cases resist o host with
  | none => exact joined_of_apart (reply_apart env _ s log)
  | some how =>
    cases how with
    | code code => exact joined_of_apart (camouflage_apart env _ _ _ s log)
    | file path =>
      dsimp only
      cases env.file path with
      | some body =>
        exact joined_of_apart (emits_bind (camouflage_apart env _ _ _) (fun _ => reply_apart env _) s log)
      | none => exact joined_of_apart (camouflage_apart env _ _ _ s log)
    | web url =>
      refine joined_of_apart (emits_bind (emits_attempt (fetchDecoy_apart env url)) (fun r => ?_) s log)
      cases r with
      | ok response => exact reply_apart env _
      | error e => exact camouflage_apart env _ _ _
    | host addr =>
      dsimp only
      have hquiet : ∀ e ∈ [Event.decoy addr], Quiet e := by
        intro e he
        rw [List.mem_singleton.mp he]
        exact ⟨fun _ _ => nofun, fun _ => rfl⟩
      have hrun : (attempt (env.perform (.decoy addr)) : Action HandlerError _) s log =
          ⟨.ok (match env.fails log (.decoy addr) with
            | none => .ok ()
            | some f => .error f), s, [.decoy addr]⟩ := by
        unfold attempt Env.perform perform
        cases env.fails log (.decoy addr) <;> rfl
      rw [bind_ok hrun]
      refine Joined.quiet_append hquiet ?_
      cases env.fails log (.decoy addr) with
      | none =>
        have hsend := write_joinedTo env (apart_send (.decoy addr) head)
          (splice_joinedTo (.decoy addr) s) (log ++ [.decoy addr])
        rw [bringsTo, if_pos rfl] at hsend
        exact hsend.joined
      | some f => exact joined_of_apart (camouflage_apart env _ _ _ s _)

/-! ## The handler -/

/-- What is joined after the two checks. -/
theorem checked_joined {target : String} {forbidden bypass k : Action HandlerError Unit}
    {bs s : Bytes} (hf : forbidden.Emits Apart) (hb : bypass.Emits Apart)
    (hk : ∀ log, Joined bs (k s log).events) (log : List Event) :
    Joined bs (checked o target forbidden bypass k s log).events := by
  unfold checked
  rw [bind_ok (can_run o "tcp" target s log)]
  refine Joined.quiet_append ?_ ?_
  · intro e he
    rw [List.mem_singleton.mp he]
    exact ⟨fun _ _ => nofun, fun _ => rfl⟩
  · split_ifs
    · rw [bind_ok (bypassed_run o target s _)]
      refine Joined.quiet_append ?_ ?_
      · intro e he
        split_ifs at he
        · rw [List.mem_singleton.mp he]
          exact ⟨fun _ _ => nofun, fun _ => rfl⟩
        · cases he
      · by_cases hbyp : o.bypasses target = true
        · rw [if_pos hbyp]
          exact joined_of_apart (hb s _)
        · rw [if_neg hbyp]
          exact hk _
    · exact joined_of_apart (hf s _)

/-- Whether the client's credentials are accepted. -/
def Request.accepted (libs : Libs) (r : Request) : Bool :=
  o.accepts (basicProxyAuth libs r.proxyAuth).1 (basicProxyAuth libs r.proxyAuth).2.1

theorem serve_joined (r : Request) (pipelined s : Bytes) (log : List Event) :
    Joined (if r.accepted o env.toLibs then r.relayed env.toLibs ++ (pipelined ++ s)
      else r.rebuildRequest env.toLibs ++ s) (serve env o r pipelined s log).events := by
  refine checked_joined o (reply_apart env _) (reply_apart env _) (fun log => ?_) log
  rw [bind_ok (authenticate_run o _ _ _ s log)]
  refine Joined.quiet_append ?_ ?_
  · intro e he
    split_ifs at he
    · rw [List.mem_singleton.mp he]
      exact ⟨fun _ _ => nofun, fun _ => rfl⟩
    · cases he
  · unfold Request.accepted
    generalize o.accepts _ _ = accepted
    cases accepted with
    | true => exact dialTarget_joined env o r pipelined s _
    | false => exact deny_joined env o _ _ _ s _

variable (engine : Sni.Engine)

theorem handle_joined {stream c : Bytes} {r : Request}
    (h : readRequest engine stream = .ok (some r, c)) (log : List Event) :
    Joined (if r.accepted o env.toLibs then r.relayed env.toLibs ++ c
      else r.rebuildRequest env.toLibs ++ c.drop (env.ahead log))
      (handle env o engine stream log).events := by
  have hbuffer : takeBuffer env c log =
      ⟨.ok (c.take (env.ahead log)), c.drop (env.ahead log), []⟩ := rfl
  have hserve := serve_joined env o r (c.take (env.ahead log)) (c.drop (env.ahead log)) log
  rw [List.take_append_drop] at hserve
  unfold handle
  rw [bind_silent (take_ok h)]
  dsimp only
  rw [bind_silent hbuffer]
  exact hserve

/-- The head that the other side receives. -/
def Request.received (libs : Libs) (r : Request) : Bytes :=
  if r.accepted o libs then r.relayed libs else r.rebuildRequest libs

end

/-! ### Who is joined

If nothing fails, then whoever reaches the target or a decoy is joined with it. -/

section

variable {env : Env} {o : HandlerOptions} {conn : Conn} {s : Bytes}

theorem splice_joins (conn : Conn) (s : Bytes) (log : List Event) :
    ∃ rest, .splice conn rest ∈ ((splice conn : Action HandlerError Unit) s log).events :=
  ⟨s, List.mem_singleton_self _⟩

theorem write_joins (hu : env.Unfailing) (e : Event) {k : Action HandlerError Unit}
    (hk : ∀ log, ∃ rest, .splice conn rest ∈ (k s log).events) (log : List Event) :
    ∃ rest, .splice conn rest ∈
      ((mapErr HandlerError.ofFailure (env.write e) >>= fun _ => k) s log).events := by
  have hrun : mapErr HandlerError.ofFailure (env.write e) s log = ⟨.ok (), s, [e]⟩ := by
    unfold mapErr
    rw [hu.write]
    rfl
  obtain ⟨rest, hrest⟩ := hk (log ++ [e])
  exact ⟨rest, mem_bind_right hrun hrest⟩

theorem replay_joins (hu : env.Unfailing) (pipelined : Bytes) (conn : Conn) (s : Bytes)
    (log : List Event) : ∃ rest, .splice conn rest ∈ (replay env pipelined conn s log).events := by
  unfold replay when
  split_ifs
  · exact write_joins hu _ (splice_joins conn s) log
  · exact splice_joins conn s log

theorem relay_joins (hu : env.Unfailing) (r : Request) (pipelined : Bytes) (conn : Conn) (s : Bytes)
    (log : List Event) : ∃ rest, .splice conn rest ∈ (relay env o r pipelined conn s log).events := by
  unfold relay
  split_ifs
  · exact write_joins hu _ (replay_joins hu pipelined conn s) log
  · exact write_joins hu _ (replay_joins hu pipelined conn s) log

theorem dialTarget_joins (hu : env.Unfailing) {r : Request}
    (hdial : ∀ log, ∃ new, connect env o (r.host env.toLibs) s log = ⟨.ok conn, s, new⟩)
    (pipelined : Bytes) (log : List Event) :
    ∃ rest, .splice conn rest ∈ (dialTarget env o r pipelined s log).events := by
  obtain ⟨new, hrun⟩ := hdial log
  have hattempt : (attempt (connect env o (r.host env.toLibs)) : Action HandlerError _) s log =
      ⟨.ok (.ok conn), s, new⟩ := by
    unfold attempt
    rw [hrun]
  obtain ⟨rest, hrest⟩ := relay_joins (o := o) hu r pipelined conn s (log ++ new)
  exact ⟨rest, mem_bind_right hattempt hrest⟩

theorem deny_joins (hu : env.Unfailing) {host addr : String} (hres : resist o host = some (.host addr))
    (keepAlive : Bool) (head s : Bytes) (log : List Event) :
    ∃ rest, .splice (.decoy addr) rest ∈ (deny env o host keepAlive head s log).events := by
  have hrun : (attempt (env.perform (.decoy addr)) : Action HandlerError _) s log =
      ⟨.ok (.ok ()), s, [.decoy addr]⟩ := by
    unfold attempt
    rw [hu.perform]
  obtain ⟨rest, hrest⟩ := write_joins hu (.send (.decoy addr) head) (splice_joins (.decoy addr) s)
    (log ++ [.decoy addr])
  refine ⟨rest, ?_⟩
  unfold deny
  rw [hres]
  exact mem_bind_right hrun hrest

/-- Whom a request that passes the checks reaches: the target if the client is let in, and
otherwise the decoy host. -/
def Reaches (env : Env) (o : HandlerOptions) (r : Request) (conn : Conn) : Prop :=
  if r.accepted o env.toLibs then
    ∀ s log, ∃ new, connect env o (r.host env.toLibs) s log = ⟨.ok conn, s, new⟩
  else ∃ addr, conn = .decoy addr ∧ resist o (r.host env.toLibs) = some (.host addr)

/-- Checks that are passed change nothing. -/
theorem checked_joins {target : String} (hallow : o.allows "tcp" target = true)
    (hbyp : o.bypasses target = false) {forbidden bypass k : Action HandlerError Unit} {s : Bytes}
    (hk : ∀ log, ∃ rest, .splice conn rest ∈ (k s log).events) (log : List Event) :
    ∃ rest, .splice conn rest ∈ (checked o target forbidden bypass k s log).events := by
  have hcan := can_run (ε := HandlerError) o "tcp" target s log
  have hbypassed := bypassed_run (ε := HandlerError) o target s
    (log ++ [.can "tcp" target (o.allows "tcp" target)])
  obtain ⟨rest, hrest⟩ := hk (log ++ [.can "tcp" target (o.allows "tcp" target)] ++
    if o.bypass.isSome then [.bypass target (o.bypasses target)] else [])
  refine ⟨rest, mem_bind_right hcan ?_⟩
  rw [if_pos hallow]
  refine mem_bind_right hbypassed ?_
  rw [if_neg (by rw [hbyp]; exact Bool.false_ne_true)]
  exact hrest

theorem serve_joins (hu : env.Unfailing) {r : Request}
    (hallow : o.allows "tcp" (r.host env.toLibs) = true)
    (hbyp : o.bypasses (r.host env.toLibs) = false) (hreach : Reaches env o r conn)
    (pipelined s : Bytes) (log : List Event) :
    ∃ rest, .splice conn rest ∈ (serve env o r pipelined s log).events := by
  refine checked_joins hallow hbyp (fun log => ?_) log
  rw [bind_ok (authenticate_run o _ _ _ s log)]
  unfold Reaches Request.accepted at hreach
  generalize o.accepts _ _ = accepted at hreach ⊢
  cases accepted with
  | true =>
    obtain ⟨rest, hrest⟩ := dialTarget_joins hu (hreach s) pipelined _
    exact ⟨rest, List.mem_append_right _ hrest⟩
  | false =>
    obtain ⟨addr, rfl, hres⟩ := hreach
    obtain ⟨rest, hrest⟩ := deny_joins hu hres r.keepAlive (r.rebuildRequest env.toLibs) s _
    exact ⟨rest, List.mem_append_right _ hrest⟩

theorem handle_joins (hu : env.Unfailing) {engine : Sni.Engine} {stream c : Bytes} {r : Request}
    (h : readRequest engine stream = .ok (some r, c))
    (hallow : o.allows "tcp" (r.host env.toLibs) = true)
    (hbyp : o.bypasses (r.host env.toLibs) = false) (hreach : Reaches env o r conn)
    (log : List Event) :
    ∃ rest, .splice conn rest ∈ (handle env o engine stream log).events := by
  have hbuffer : takeBuffer env c log =
      ⟨.ok (c.take (env.ahead log)), c.drop (env.ahead log), []⟩ := rfl
  unfold handle
  rw [bind_silent (take_ok h)]
  dsimp only
  rw [bind_silent hbuffer]
  exact serve_joins hu hallow hbyp hreach _ _ log

end

theorem drop_eq_self_iff {n : Nat} {c : Bytes} : c.drop n = c ↔ n = 0 ∨ c = [] := by
  cases n with
  | zero => exact iff_of_true rfl (.inl rfl)
  | succ n =>
    cases c with
    | nil => exact iff_of_true rfl (.inr rfl)
    | cons b c =>
      refine iff_of_false (fun h => ?_) (fun h => h.elim nofun nofun)
      have hlen := congrArg List.length h
      rw [List.length_drop, List.length_cons] at hlen
      omega

/-- The other side that a client is joined with receives the head and all that follows it
if and only if the client was let in or nothing had been read together with the head. -/
theorem pipelined_delivered (env : Env) (o : HandlerOptions) (engine : Sni.Engine)
    {head c : Bytes} {r : Request} (h : readRequest engine (head ++ c) = .ok (some r, c))
    {log : List Event} {conn : Conn} {rest : Bytes}
    (hjoin : .splice conn rest ∈ (handle env o engine (head ++ c) log).events) :
    received conn (handle env o engine (head ++ c) log).events = r.received o env.toLibs ++ c ↔
      r.accepted o env.toLibs = true ∨ env.ahead log = 0 ∨ c = [] := by
  rw [handle_joined env o engine h log conn rest hjoin]
  unfold Request.received
  split_ifs with hacc
  · exact iff_of_true rfl (.inl hacc)
  · rw [List.append_cancel_left_eq, drop_eq_self_iff]
    exact (or_iff_right hacc).symm

/-! Two clients send three bytes after a CONNECT, and two of them come with the head. -/

def connectHead : Bytes := Text.utf8 "CONNECT 10.0.0.1:443 HTTP/1.1\r\n\r\n"

/-- An engine that decodes nothing. -/
def noEngine : Sni.Engine := { encode := fun _ => "", decode := fun _ => none }

/-- The world in which two bytes are read ahead. -/
def coalesced : Env := { Env.calm Libs.blank with ahead := fun _ => 2 }

def connectRequest : Request :=
  { Fields.empty with method := "CONNECT", target := "10.0.0.1:443" }

theorem readRequest_connect :
    readRequest noEngine (connectHead ++ [1, 2, 3]) = .ok (some connectRequest, [1, 2, 3]) := by
  decide

/-- The client that is let in loses none of them. -/
theorem pipelined_delivered_connect :
    received (.tcp "10.0.0.1:443")
      (handle coalesced .empty noEngine (connectHead ++ [1, 2, 3]) []).events = [1, 2, 3] := by
  have hu : coalesced.Unfailing := fun _ _ => ⟨rfl, rfl⟩
  have hreach : Reaches coalesced .empty connectRequest (.tcp "10.0.0.1:443") :=
    fun _ _ => ⟨_, rfl⟩
  obtain ⟨rest, hjoin⟩ := handle_joins hu readRequest_connect rfl rfl hreach []
  exact (pipelined_delivered coalesced .empty noEngine readRequest_connect hjoin).mpr (.inl rfl)

/-- Nobody is let in, and whoever asks is joined with a decoy. -/
def decoyed : HandlerOptions :=
  { HandlerOptions.empty with
    authenticator := some ⟨fun _ _ => false⟩
    probeResist := "host:10.0.0.2:80" }

/-- The decoy receives the last byte only. -/
theorem pipelined_lost :
    .splice (.decoy "10.0.0.2:80") [3] ∈
        (handle coalesced decoyed noEngine (connectHead ++ [1, 2, 3]) []).events ∧
      received (.decoy "10.0.0.2:80")
          (handle coalesced decoyed noEngine (connectHead ++ [1, 2, 3]) []).events =
        connectRequest.received decoyed coalesced.toLibs ++ [3] ∧
      received (.decoy "10.0.0.2:80")
          (handle coalesced decoyed noEngine (connectHead ++ [1, 2, 3]) []).events ≠
        connectRequest.received decoyed coalesced.toLibs ++ [1, 2, 3] := by
  have hjoin : .splice (.decoy "10.0.0.2:80") [3] ∈
      (handle coalesced decoyed noEngine (connectHead ++ [1, 2, 3]) []).events := by
    decide
  have hreceived := handle_joined coalesced decoyed noEngine readRequest_connect [] _ _ hjoin
  rw [hreceived]
  refine ⟨hjoin, rfl, fun h => ?_⟩
  have hlen := congrArg List.length (List.append_cancel_left h)
  exact absurd hlen (by decide)

end HttpHandler
end RtProxy
