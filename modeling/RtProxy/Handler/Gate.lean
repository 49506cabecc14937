import RtProxy.Handler.Listeners
import RtProxy.Lib.Traces

/-!
What a client has to pass before a listener acts for it.

Each handler has its own checks and its own place for them.  What a handler demands is a
condition on the trace before an event: the rules and the bypass have been asked about the
very string that is dialled, and credentials have been accepted before anything leaves the
machine or is bound on it.
-/

namespace RtProxy

open Act

/-! ## What is demanded -/

/-- What a handler asks about. -/
structure Asks where
  /-- the actions one of which the rules must allow for a target; without one they are not
  asked about it -/
  actions : List String
  bypass : Bool
  user : Bool

section

variable (libs : Libs) (o : HandlerOptions)

/-- The rules have allowed the address for one of the actions. -/
def Allowed (actions : List String) (addr : String) (log : List Event) : Prop :=
  ∃ action ∈ actions, o.allows action addr = true ∧ .can action addr true ∈ log

/-- The bypass, if there is one, has let the address through. -/
def NotBypassed (addr : String) (log : List Event) : Prop :=
  o.bypass.isSome = true → o.bypasses addr = false ∧ .bypass addr false ∈ log

/-- The authenticator, if there is one, has accepted credentials. -/
def LetIn (log : List Event) : Prop :=
  o.authenticator.isSome = true → ∃ presented user password,
    o.accepts user password = true ∧ .auth presented user password true ∈ log

/-- What stands in the trace before a target is dialled. -/
structure Cleared (a : Asks) (addr : String) (log : List Event) : Prop where
  rules : a.actions ≠ [] → Allowed o a.actions addr log
  bypass : a.bypass = true → NotBypassed o addr log

/-- The address is that of the decoy in the options. -/
def IsDecoy (addr : String) : Prop :=
  HttpHandler.ProbeResist.parse o.probeResist = some (.host addr) ∨
    ∃ url page, HttpHandler.ProbeResist.parse o.probeResist = some (.web url) ∧
      HttpHandler.decoyPage libs url = .ok page ∧ addr = joinHostPort page.1 page.2.1

/-- What stands in the trace before an event. -/
def Demand (a : Asks) : Event → List Event → Prop
  | .dial addr, log => Cleared o a addr log ∧ (a.user = true → LetIn o log)
  | .listen _, log => (∃ addr, Allowed o ["rtcp", "udp", "rudp"] addr log) ∧
      (a.user = true → LetIn o log)
  | .connect _, log | .datagram _, log | .openStream _, log | .lookup _, log =>
      a.user = true → LetIn o log
  | .decoy addr, _ => IsDecoy libs o addr
  | _, _ => True

end

section

variable {libs : Libs} {o : HandlerOptions} {a : Asks} {actions : List String} {addr : String}

theorem lasting_allowed : Lasting (Allowed o actions addr) := by
  intro log new h
  obtain ⟨action, hmem, hallows, hcan⟩ := h
  exact ⟨action, hmem, hallows, List.mem_append_left _ hcan⟩

theorem lasting_notBypassed : Lasting (NotBypassed o addr) :=
  fun _ _ h hsome => ⟨(h hsome).1, List.mem_append_left _ (h hsome).2⟩

theorem lasting_letIn : Lasting (LetIn o) := by
  intro log new h hsome
  obtain ⟨presented, user, password, hacc, hmem⟩ := h hsome
  exact ⟨presented, user, password, hacc, List.mem_append_left _ hmem⟩

/-- The client is let in, if the handler asks for credentials. -/
def Entered (o : HandlerOptions) (a : Asks) (log : List Event) : Prop := a.user = true → LetIn o log

/-- An event that no check has to precede. -/
def Idle : Event → Prop
  | .dial _ | .listen _ | .connect _ | .datagram _ | .openStream _ | .lookup _ | .decoy _ => False
  | _ => True

/-- An event that needs no target to be cleared. -/
def Inner : Event → Prop
  | .dial _ | .listen _ | .decoy _ => False
  | _ => True

theorem demand_of_idle {e : Event} (h : Idle e) (log : List Event) : Demand libs o a e log := by
  cases e <;> trivial

theorem demand_of_inner {e : Event} (h : Inner e) {log : List Event} (hin : Entered o a log) :
    Demand libs o a e log := by
  cases e <;> trivial

theorem Idle.inner {e : Event} (h : Idle e) : Inner e := by
  cases e <;> trivial

theorem inner_of_wire {e : Event} (h : e.wire = true) : Inner e := by
  cases e <;> trivial

end

/-! ## Parts of handlers -/

section

variable {env : Env} {libs : Libs} {o : HandlerOptions} {a : Asks} {C : List Event → Prop}

section

variable {ε α : Type} {x : Action ε α}

theorem admits_idle (hx : x.Emits Idle) (hC : Lasting C) : Admits (Demand libs o a) C x fun _ => C :=
  admits_of_emits hx hC fun _ he log _ => demand_of_idle he log

theorem admits_inner (hx : x.Emits Inner) (hC : Lasting C) (hin : ∀ log, C log → Entered o a log) :
    Admits (Demand libs o a) C x fun _ => C :=
  admits_of_emits hx hC fun _ he log hlog => demand_of_inner he (hin log hlog)

/-- A part that dials the one target that is cleared. -/
theorem admits_dials {t : String} (hx : x.Emits fun e => e = .dial t ∨ Inner e) (hC : Lasting C)
    (hin : ∀ log, C log → Entered o a log) (hclear : ∀ log, C log → Cleared o a t log) :
    Admits (Demand libs o a) C x fun _ => C := by
  refine admits_of_emits hx hC fun e he log hlog => ?_
  rcases he with rfl | he
  · exact ⟨hclear log hlog, hin log hlog⟩
  · exact demand_of_inner he (hin log hlog)

/-- The rules are asked. -/
theorem admits_can (hC : Lasting C) (action addr : String) :
    Admits (Demand libs o a) C (can o action addr : Action ε Bool) fun b log =>
      C log ∧ (b = true → o.allows action addr = true ∧ .can action addr true ∈ log) := by
  refine admits_of_run (emits_bind (emits_emit (p := Idle) trivial) fun _ => emits_pure _) hC
    (fun e he log _ => demand_of_idle he log) fun s log b s' new hrun hlog => ?_
  rw [can_run] at hrun
  cases hrun
  refine ⟨hC _ _ hlog, fun hb => ⟨hb, List.mem_append_right _ ?_⟩⟩
  rw [hb]
  exact List.mem_singleton_self _

/-- The bypass is asked. -/
theorem admits_bypassed (hC : Lasting C) (addr : String) :
    Admits (Demand libs o a) C (bypassed o addr : Action ε Bool) fun b log =>
      C log ∧ (b = false → NotBypassed o addr log) := by
  refine admits_of_run (emits_bind (emits_when fun _ => emits_emit (p := Idle) trivial) fun _ =>
    emits_pure _) hC (fun e he log _ => demand_of_idle he log) fun s log b s' new hrun hlog => ?_
  rw [bypassed_run] at hrun
  cases hrun
  refine ⟨hC _ _ hlog, fun hb hsome => ⟨hb, List.mem_append_right _ ?_⟩⟩
  rw [if_pos hsome, hb]
  exact List.mem_singleton_self _

/-- The authenticator is asked. -/
theorem admits_authenticate (hC : Lasting C) (presented : Bool) (user password : String) :
    Admits (Demand libs o a) C (authenticate o presented user password : Action ε Bool) fun b log =>
      C log ∧ (b = true → LetIn o log) := by
  refine admits_of_run (emits_bind (emits_when fun _ => emits_emit (p := Idle) trivial) fun _ =>
    emits_pure _) hC (fun e he log _ => demand_of_idle he log) fun s log b s' new hrun hlog => ?_
  rw [authenticate_run] at hrun
  cases hrun
  refine ⟨hC _ _ hlog, fun hb hsome => ⟨presented, user, password, hb, List.mem_append_right _ ?_⟩⟩
  rw [if_pos hsome, hb]
  exact List.mem_singleton_self _

end

/-- A dial makes its connections for the target only. -/
def Dials (t : String) (e : Event) : Prop := e = .dial t ∨ Inner e

theorem dialWithOptions_dials (chain : Chain) (t : String) (options : ChainOptions) :
    (chain.dialWithOptions env t options).Emits (Dials t) := by
  have hfailed : Dials t (.failed t) := .inr trivial
  have hwire (e : Event) (he : Toward (fun _ => True) e) : Dials t e := .inr (inner_of_wire he.1)
  exact dialWithOptions_emits (.inl rfl) hfailed hwire (fun _ _ _ => trivial)
    (lookupWithin_any _ _)

theorem dial_dials (chain : Chain) (t : String) : (chain.dial env t).Emits (Dials t) :=
  dialWithOptions_dials chain t _

theorem socksDial_dials (t : String) : (socksDial env o t).Emits (Dials t) :=
  tries_emits (dialWithOptions_dials _ t _) _ _

theorem Idle.dials {t : String} {e : Event} (h : Idle e) : Dials t e := .inr h.inner

theorem reply_idle (bs : Bytes) : (reply env bs).Emits Idle := emits_mapErr _ (emits_perform trivial)

theorem send_idle (conn : Conn) (bs : Bytes) : (send env conn bs).Emits Idle :=
  emits_mapErr _ (emits_perform trivial)

theorem copy_idle (conn : Conn) (bs : Bytes) : (copy env conn bs).Emits Idle :=
  emits_mapErr _ (emits_perform trivial)

theorem splice_idle {ε : Type} (conn : Conn) : (splice conn : Action ε Unit).Emits Idle := by
  refine emits_bind emits_get fun rest => emits_bind (emits_set _) fun _ => ?_
  exact emits_emit trivial

theorem reply_fail_idle {α : Type} (bs : Bytes) (e : HandlerError) :
    (reply env bs >>= fun _ => (fail e : Action HandlerError α)).Emits Idle :=
  emits_bind (reply_idle bs) fun _ => emits_fail _

theorem peek_idle (n : Nat) : (peek n).Emits Idle := emits_bind emits_get fun _ => emits_pure _

/-- What the checks before a dial establish. -/
def Passed (o : HandlerOptions) (t : String) (log : List Event) : Prop :=
  Allowed o ["tcp"] t log ∧ NotBypassed o t log

theorem lasting_passed {t : String} : Lasting (Passed o t) :=
  lasting_allowed.and lasting_notBypassed

theorem Passed.cleared {t : String} {log : List Event} {user : Bool} (h : Passed o t log) :
    Cleared o ⟨["tcp"], true, user⟩ t log :=
  ⟨fun _ => h.1, fun _ => h.2⟩

/-- The two checks that stand before a dial. -/
theorem admits_checked {ε α : Type} {t : String} {forbidden bypass k : Action ε α}
    {D : α → List Event → Prop} (hC : Lasting C) (hforbidden : Admits (Demand libs o a) C forbidden D)
    (hbypass : Admits (Demand libs o a) C bypass D)
    (hk : Admits (Demand libs o a) (fun log => C log ∧ Passed o t log) k D) :
    Admits (Demand libs o a) C (checked o t forbidden bypass k) D := by
  have hrest : Admits (Demand libs o a) (fun log => C log ∧ Allowed o ["tcp"] t log)
      (bypassed o t >>= fun hit => if hit = true then bypass else k) D := by
    refine admits_bind (admits_bypassed (hC.and lasting_allowed) t) fun hit => admits_ite ?_ ?_
    · exact fun _ => hbypass.mono (fun _ h => h.1.1) fun _ _ h => h
    · intro hit
      refine hk.mono (fun log h => ?_) fun _ _ h => h
      exact ⟨h.1.1, h.1.2, h.2 (Bool.eq_false_iff.mpr hit)⟩
  refine admits_bind (admits_can hC "tcp" t) fun allowed => admits_ite ?_ ?_
  · intro hallowed
    refine hrest.mono (fun log h => ?_) fun _ _ h => h
    exact ⟨h.1, "tcp", List.mem_singleton_self _, h.2 hallowed⟩
  · exact fun _ => hforbidden.mono (fun _ h => h.1) fun _ _ h => h

end

/-! ## The handlers -/

/-- Whatever the client sends, the demands are met. -/
def Gated {ε α : Type} (libs : Libs) (o : HandlerOptions) (a : Asks) (x : Action ε α) : Prop :=
  Admits (Demand libs o a) (fun _ => True) x fun _ _ => True

section

variable {env : Env} {libs : Libs} {o : HandlerOptions} {a : Asks} {engine : Sni.Engine}
  {frames : Nat → List (String × String) → Bytes}

theorem gated_of_idle {ε α : Type} {x : Action ε α} (h : x.Emits Idle) : Gated libs o a x :=
  (admits_idle h lasting_true).mono (fun _ h => h) fun _ _ _ => trivial

/-- A handler that dials once the checks and the credentials have let the client pass. -/
theorem admits_dialling {x : Action HandlerError Unit} {t : String} {C : List Event → Prop}
    (hx : x.Emits (Dials t)) (hC : Lasting C) (hin : ∀ log, C log → Entered o a log)
    (hclear : ∀ log, C log → Cleared o a t log) :
    Admits (Demand libs o a) C x fun _ _ => True :=
  (admits_dials hx hC hin hclear).mono (fun _ h => h) fun _ _ _ => trivial

namespace HttpHandler

theorem camouflage_idle (code : UInt16) (bodyLen : Nat) (contentType : Option String) :
    (camouflage env code bodyLen contentType).Emits Idle :=
  emits_bind (emits_ask _) fun _ => reply_idle _

/-- An event on the way to the decoy. -/
def Decoys (libs : Libs) (o : HandlerOptions) (e : Event) : Prop :=
  Idle e ∨ ∃ addr, e = .decoy addr ∧ IsDecoy libs o addr

theorem fetchDecoy_decoys {url : String} (h : ProbeResist.parse o.probeResist = some (.web url)) :
    (fetchDecoy env url).Emits (Decoys env.toLibs o) := by
  refine emits_bind_of_result (emits_ofExcept _) fun page _ _ _ _ hrun => ?_
  have hdecoy : Decoys env.toLibs o (.decoy (joinHostPort page.1 page.2.1)) :=
    .inr ⟨_, rfl, .inr ⟨url, page, h, (ofExcept_eq_ok hrun).1, rfl⟩⟩
  refine emits_bind (emits_mapErr _ (emits_perform hdecoy)) fun _ => ?_
  refine Emits.mono (p := Idle) ?_ fun _ => .inl
  exact emits_bind (send_idle _ _) fun _ => emits_ask _

/-- A client that is denied reaches a decoy at most. -/
theorem deny_decoys (host : String) (keepAlive : Bool) (requestHead : Bytes) :
    (deny env o host keepAlive requestHead).Emits (Decoys env.toLibs o) := by
  have hidle {x : Action HandlerError Unit} (hx : x.Emits Idle) :
      x.Emits (Decoys env.toLibs o) := hx.mono fun _ => .inl
  unfold deny
  cases hresist : resist o host with
  | none => exact hidle (reply_idle _)
  | some how =>
    have hparse : ProbeResist.parse o.probeResist = some how := by
      unfold resist at hresist
      split_ifs at hresist
      exact hresist
    cases how with
    | code code => exact hidle (camouflage_idle _ _ _)
    | file path =>
      dsimp only
      cases env.file path with
      | some body => exact hidle (emits_bind (camouflage_idle _ _ _) fun _ => reply_idle _)
      | none => exact hidle (camouflage_idle _ _ _)
    | web url =>
      refine emits_bind (emits_attempt (fetchDecoy_decoys hparse)) fun r => ?_
      cases r with
      | ok response => exact hidle (reply_idle _)
      | error e => exact hidle (camouflage_idle _ _ _)
    | host addr =>
      have hdecoy : Decoys env.toLibs o (.decoy addr) := .inr ⟨addr, rfl, .inl hparse⟩
      refine emits_bind (emits_attempt (emits_perform hdecoy)) fun r => ?_
      cases r with
      | ok u => exact hidle (emits_bind (send_idle _ _) fun _ => splice_idle _)
      | error e => exact hidle (camouflage_idle _ _ _)

theorem gated_deny (host : String) (keepAlive : Bool) (requestHead : Bytes) :
    Gated env.toLibs o a (deny env o host keepAlive requestHead) := by
  refine (admits_of_emits (deny_decoys host keepAlive requestHead) lasting_true
    fun e he log _ => ?_).mono (fun _ h => h) fun _ _ _ => trivial
  rcases he with he | ⟨addr, rfl, haddr⟩
  · exact demand_of_idle he log
  · exact haddr

theorem relay_idle (r : Request) (pipelined : Bytes) (cc : Conn) :
    (relay env o r pipelined cc).Emits Idle := by
  have hreplay : (replay env pipelined cc).Emits Idle :=
    emits_bind (emits_when fun _ => copy_idle _ _) fun _ => splice_idle _
  exact emits_ite (emits_bind (reply_idle _) fun _ => hreplay)
    (emits_bind (send_idle _ _) fun _ => hreplay)

theorem dialTarget_dials (r : Request) (pipelined : Bytes) :
    (dialTarget env o r pipelined).Emits (Dials (r.host env.toLibs)) := by
  refine emits_bind (emits_attempt (tries_emits (dial_dials _ _) _ _)) fun res => ?_
  cases res with
  | ok cc => exact (relay_idle r pipelined cc).mono fun _ => Idle.dials
  | error e => exact (reply_fail_idle _ _).mono fun _ => Idle.dials

theorem gated_serve (r : Request) (pipelined : Bytes) :
    Gated env.toLibs o ⟨["tcp"], true, true⟩ (serve env o r pipelined) := by
  refine admits_checked lasting_true (gated_of_idle (reply_idle _)) (gated_of_idle (reply_idle _)) ?_
  have hpass : Lasting fun log => True ∧ Passed o (r.host env.toLibs) log :=
    lasting_true.and lasting_passed
  refine admits_bind (admits_authenticate hpass _ _ _) fun accepted => admits_ite ?_ ?_
  · intro haccepted
    refine (admits_dialling (C := fun log => Passed o (r.host env.toLibs) log ∧ LetIn o log)
      (dialTarget_dials r pipelined) (lasting_passed.and lasting_letIn) (fun _ h _ => h.2)
      fun _ h => h.1.cleared).mono (fun log h => ⟨h.1.2, h.2 haccepted⟩) fun _ _ h => h
  · exact fun _ => (gated_deny _ _ _).mono (fun _ _ => trivial) fun _ _ h => h

theorem gated_handle : Gated env.toLibs o ⟨["tcp"], true, true⟩ (handle env o engine) := by
  refine admits_bind (gated_of_idle (emits_take _)) fun request => ?_
  cases request with
  | none => exact gated_of_idle (emits_pure _)
  | some r =>
    have hbuffer : (takeBuffer env).Emits Idle :=
      emits_bind (emits_ask _) fun _ => emits_bind emits_get fun _ =>
        emits_bind (emits_set _) fun _ => emits_pure _
    exact admits_bind (gated_of_idle hbuffer) fun pipelined => gated_serve r pipelined

end HttpHandler

namespace Http2Handler

theorem sendStatus_idle (status : Nat) : (sendStatus env o frames status).Emits Idle :=
  emits_bind (emits_attempt (reply_idle _)) fun _ => emits_pure _

theorem copyBody_idle (conn : Conn) (body : List Bytes) : (copyBody env conn body).Emits Idle := by
  induction body with
  | nil => exact emits_pure _
  | cons chunk chunks ih => exact emits_bind (copy_idle _ _) fun _ => ih

/-- The rules are not asked. -/
theorem gated_serveRequest (request : Http2Request) :
    Gated libs o ⟨[], true, true⟩ (serveRequest env o frames engine request) := by
  unfold serveRequest
  cases requestTarget request with
  | none => exact gated_of_idle (sendStatus_idle _)
  | some target =>
    refine admits_bind (admits_bypassed lasting_true _) fun hit => admits_ite ?_ fun hit => ?_
    · exact fun _ => (gated_of_idle (sendStatus_idle _)).mono (fun _ _ => trivial) fun _ _ h => h
    have hpass : Lasting (NotBypassed o (dialled request engine target)) := lasting_notBypassed
    refine Admits.mono (C := NotBypassed o (dialled request engine target)) ?_
      (fun log h => h.2 (Bool.eq_false_iff.mpr hit)) fun _ _ h => h
    refine admits_bind (admits_authenticate hpass _ _ _) fun accepted => admits_ite ?_ ?_
    · intro haccepted
      refine (admits_dialling
        (C := fun log => NotBypassed o (dialled request engine target) log ∧ LetIn o log) ?_
        (hpass.and lasting_letIn) (fun _ h _ => h.2)
        fun _ h => ⟨fun hne => absurd rfl hne, fun _ => h.1⟩).mono
          (fun log h => ⟨h.1, h.2 haccepted⟩) fun _ _ h => h
      refine emits_bind (emits_attempt (tries_emits (dial_dials _ _) _ _)) fun res => ?_
      cases res with
      | error e => exact (sendStatus_idle _).mono fun _ => Idle.dials
      | ok conn =>
        refine Emits.mono (p := Idle) (emits_ite ?_ ?_) fun _ => Idle.dials
        · exact emits_bind (emits_mapErr _ (emits_perform trivial)) fun _ => splice_idle _
        · exact emits_bind (send_idle _ _) fun _ => copyBody_idle _ _
    · exact fun _ => (gated_of_idle (sendStatus_idle _)).mono (fun _ _ => trivial) fun _ _ h => h

end Http2Handler

/-! Ports are bound once the rules allow it. -/

/-- A step on the rules about an address that a port is bound for. -/
theorem admits_binding {action t : String} {yes no : Action HandlerError Unit}
    {C : List Event → Prop} (hC : Lasting C) (haction : action ∈ ["rtcp", "udp", "rudp"])
    (hyes : Admits (Demand libs o a) (fun log => C log ∧ ∃ addr, Allowed o ["rtcp", "udp", "rudp"] addr log)
      yes fun _ _ => True) (hno : no.Emits Idle) :
    Admits (Demand libs o a) C (can o action t >>= fun allowed => if allowed = true then yes else no)
      fun _ _ => True := by
  refine admits_bind (admits_can hC action t) fun allowed => admits_ite ?_ ?_
  · intro hallowed
    refine hyes.mono (fun log h => ⟨h.1, t, action, haction, h.2 hallowed⟩) fun _ _ h => h
  · exact fun _ => (gated_of_idle hno).mono (fun _ _ => trivial) fun _ _ h => h

/-- A part that binds ports. -/
theorem admits_binds {x : Action HandlerError Unit} {C : List Event → Prop}
    (hx : x.Emits fun e => (∃ addr, e = .listen addr) ∨ Inner e) (hC : Lasting C)
    (hin : ∀ log, C log → Entered o a log) :
    Admits (Demand libs o a) (fun log => C log ∧ ∃ addr, Allowed o ["rtcp", "udp", "rudp"] addr log) x
      fun _ _ => True := by
  have hbinding : Lasting fun log => ∃ addr, Allowed o ["rtcp", "udp", "rudp"] addr log :=
    lasting_exists fun addr => lasting_allowed
  have hlasting := hC.and hbinding
  refine (admits_of_emits hx hlasting fun e he log hlog => ?_).mono (fun _ h => h) fun _ _ _ => trivial
  rcases he with ⟨addr, rfl⟩ | he
  · exact ⟨hlog.2, hin log hlog.1⟩
  · exact demand_of_inner he (hin log hlog.1)

/-- An event of a handler that binds a port. -/
def Binds (e : Event) : Prop := (∃ addr, e = .listen addr) ∨ Inner e

theorem Idle.binds {e : Event} (h : Idle e) : Binds e := .inr h.inner

theorem listen_binds (addr : String) : (env.perform (.listen addr)).Emits Binds :=
  emits_perform (.inl ⟨addr, rfl⟩)

namespace Socks4

theorem handleConnect_gated (t : String) : Gated libs o ⟨["tcp"], true, false⟩ (handleConnect env o t) := by
  refine admits_checked lasting_true (gated_of_idle (reply_fail_idle _ _))
    (gated_of_idle (reply_idle _)) ?_
  refine admits_dialling (t := t) ?_ (lasting_true.and lasting_passed) (fun _ _ h => nomatch h)
    fun _ h => h.2.cleared
  refine emits_bind (emits_attempt (socksDial_dials t)) fun res => ?_
  cases res with
  | ok cc =>
    exact (emits_bind (reply_idle _) fun _ => splice_idle cc).mono fun _ => Idle.dials
  | error e => exact (reply_fail_idle _ _).mono fun _ => Idle.dials

theorem bindOn_binds (addr : String) : (bindOn env addr).Emits Binds := by
  refine emits_bind (emits_attempt (listen_binds addr)) fun res => ?_
  cases res with
  | error f => exact (reply_fail_idle _ _).mono fun _ => Idle.binds
  | ok u =>
    refine Emits.mono (p := Idle) ?_ fun _ => Idle.binds
    refine emits_bind (emits_ask _) fun bound => emits_bind (reply_idle _) fun _ => ?_
    refine emits_bind (emits_ask _) fun leaves => emits_ite (emits_pure _) ?_
    refine emits_bind (emits_mapErr _ (emits_perform trivial)) fun _ => ?_
    exact emits_bind (emits_ask _) fun peer => emits_bind (reply_idle _) fun _ => splice_idle _

theorem forwardBind_inner (node : Node) (t : String) (isSocks4a : Bool) :
    (forwardBind env node t isSocks4a).Emits Inner := by
  refine emits_bind (emits_attempt (envConnect_emits fun _ _ => trivial)) fun res => ?_
  split
  · exact (reply_fail_idle _ _).mono fun _ => Idle.inner
  · exact (reply_fail_idle _ _).mono fun _ => Idle.inner
  · refine Emits.mono (p := Idle) ?_ fun _ => Idle.inner
    exact emits_bind (emits_ofExcept _) fun parts =>
      emits_bind (send_idle _ _) fun _ => splice_idle _

theorem gated_handle : Gated libs o ⟨["tcp"], true, false⟩ (handle env o) := by
  refine admits_bind (gated_of_idle (emits_take _)) fun r => admits_ite (fun _ => ?_) fun _ => ?_
  · exact handleConnect_gated r.target
  refine admits_ite (fun _ => ?_) fun _ => gated_of_idle (reply_fail_idle _ _)
  refine admits_binding lasting_true (by simp) (admits_binds ?_ lasting_true fun _ _ h => nomatch h)
    (reply_fail_idle _ _)
  exact emits_ite (bindOn_binds _) ((forwardBind_inner _ _ _).mono fun _ => .inr)

end Socks4

namespace Socks5

/-- The client that gets past the negotiation is let in. -/
theorem admits_negotiate :
    Admits (Demand libs o a) (fun _ => True) (negotiate env o) fun _ => LetIn o := by
  refine admits_of_run (p := Idle) (negotiate_emits (fun _ => trivial) trivial fun _ _ _ _ => trivial)
    lasting_true (fun e he log _ => demand_of_idle he log) fun s log u s' new hrun _ hsome => ?_
  obtain ⟨user, password, hacc, hmem⟩ := (negotiate_eq_ok hrun).2 hsome
  exact ⟨true, user, password, hacc, List.mem_append_right _ hmem⟩

theorem admits_handleConnect (t : String) :
    Admits (Demand libs o ⟨["tcp"], true, true⟩) (LetIn o) (handleConnect env o t) fun _ _ => True := by
  have hidle {x : Action HandlerError Unit} (hx : x.Emits Idle) :
      Admits (Demand libs o ⟨["tcp"], true, true⟩) (LetIn o) x fun _ _ => True :=
    (gated_of_idle hx).mono (fun _ _ => trivial) fun _ _ h => h
  refine admits_checked lasting_letIn (hidle (reply_fail_idle _ _)) (hidle (reply_idle _)) ?_
  refine admits_dialling (t := t) ?_ (lasting_letIn.and lasting_passed) (fun _ h _ => h.1)
    fun _ h => h.2.cleared
  refine emits_bind (emits_attempt (socksDial_dials t)) fun res => ?_
  cases res with
  | ok cc =>
    exact (emits_bind (reply_idle _) fun _ => splice_idle cc).mono fun _ => Idle.dials
  | error e => exact (reply_fail_idle _ _).mono fun _ => Idle.dials

theorem bindOn_binds (addr : String) : (bindOn env addr).Emits Binds := by
  refine emits_bind (emits_attempt (listen_binds addr)) fun res => ?_
  cases res with
  | error f => exact (reply_fail_idle _ _).mono fun _ => Idle.binds
  | ok u =>
    refine Emits.mono (p := Idle) ?_ fun _ => Idle.binds
    refine emits_bind (emits_ask _) fun bound => emits_bind (reply_idle _) fun _ => ?_
    refine emits_bind (emits_ask _) fun leaves => emits_ite (emits_pure _) ?_
    refine emits_bind (emits_mapErr _ (emits_perform trivial)) fun _ => ?_
    exact emits_bind (emits_ask _) fun peer => emits_bind (reply_idle _) fun _ => splice_idle _

theorem forwardToLast_inner (node : Node) (negotiate : Bool) (what : String) (cmd : UInt8)
    (t : String) : (forwardToLast env node negotiate what cmd t).Emits Inner := by
  refine emits_bind (emits_attempt (envConnect_emits fun _ _ => trivial)) fun res => ?_
  split
  · exact (reply_fail_idle _ _).mono fun _ => Idle.inner
  · exact (reply_fail_idle _ _).mono fun _ => Idle.inner
  · refine Emits.mono (p := Idle) ?_ fun _ => Idle.inner
    refine emits_bind (emits_when fun _ => ?_) fun _ => emits_bind (emits_ofExcept _) fun parts =>
      emits_bind (send_idle _ _) fun _ => splice_idle _
    refine emits_bind (emits_attempt (emits_perform trivial)) fun res => ?_
    cases res with
    | error f => exact reply_fail_idle _ _
    | ok u => exact emits_pure _

theorem muxAccept_inner (n : Nat) : (muxAccept env n).Emits Inner := by
  induction n with
  | zero => exact emits_fail _
  | succ n ih =>
    refine emits_bind (emits_mapErr _ (emits_perform trivial)) fun _ => ?_
    refine emits_bind (emits_ask _) fun peer => ?_
    exact emits_bind (emits_mapErr _ (emits_perform trivial)) fun _ => ih

theorem udpDstAllowed_idle {ε : Type} (dst : String) :
    (udpDstAllowed o dst : Action ε Bool).Emits Idle := by
  refine emits_bind (emits_bind (emits_emit trivial) fun _ => emits_pure _) fun allowed => ?_
  refine emits_ite (emits_bind ?_ fun hit => emits_pure _) (emits_pure _)
  exact emits_bind (emits_when fun _ => emits_emit trivial) fun _ => emits_pure _

theorem resolveUdpAddr_inner {ε : Type} (host : String) (port : UInt16) :
    (resolveUdpAddr env host port : Action ε _).Emits Inner := by
  unfold resolveUdpAddr
  cases Net.IpAddr.parse host with
  | some ip => exact emits_pure _
  | none =>
    refine emits_bind (envSystemLookup_emits trivial) fun answer => ?_
    split <;> exact emits_pure _

theorem udpForward_inner (host : String) (port : UInt16) :
    (udpForward env o host port).Emits Inner := by
  refine emits_bind ((udpDstAllowed_idle _).mono fun _ => Idle.inner) fun allowed => ?_
  refine emits_ite ?_ (emits_pure _)
  refine emits_bind (resolveUdpAddr_inner host port) fun resolved => ?_
  cases resolved with
  | none => exact emits_pure _
  | some raddr =>
    refine emits_ite (emits_perform trivial) ?_
    refine emits_bind ((udpDstAllowed_idle _).mono fun _ => Idle.inner) fun allowed => ?_
    exact emits_ite (emits_perform trivial) (emits_pure _)

theorem passesBack_idle {ε : Type} (raddr : Net.SocketAddr) :
    (passesBack o raddr : Action ε Bool).Emits Idle :=
  emits_bind (emits_bind (emits_when fun _ => emits_emit trivial) fun _ => emits_pure _) fun _ =>
    emits_pure _

theorem transportUdp_inner (client : Option Net.SocketAddr) (arrivals : List Arrival) :
    (transportUdp env o client arrivals).Emits Inner := by
  induction arrivals generalizing client with
  | nil => exact emits_pure _
  | cons arrival rest ih =>
    cases arrival with
    | client bs laddr =>
      refine emits_bind (emits_when fun _ => ?_) fun _ => ih _
      unfold fromClient
      split
      · exact emits_ite (udpForward_inner _ _) (emits_pure _)
      · exact emits_pure _
    | peer bs raddr =>
      refine emits_bind (Emits.mono (p := Idle) ?_ fun _ => Idle.inner) fun _ => ih client
      cases client with
      | none => exact emits_pure _
      | some c =>
        refine emits_bind (passesBack_idle raddr) fun back => ?_
        exact emits_ite (emits_perform trivial) (emits_pure _)

theorem tunnelServerUdp_inner (r : TunnelReader) (arrivals : List Arrival) :
    (tunnelServerUdp env o r arrivals).Emits Inner := by
  induction arrivals generalizing r with
  | nil => exact emits_pure _
  | cons arrival rest ih =>
    cases arrival with
    | client bs laddr =>
      refine emits_bind emits_get fun s => ?_
      refine emits_bind (emits_set _) fun _ => ?_
      split
      · exact emits_bind (udpForward_inner _ _) fun _ => ih _
      · exact emits_fail _
      · exact emits_pure _
    | peer bs raddr =>
      refine emits_bind ((passesBack_idle raddr).mono fun _ => Idle.inner) fun back => ?_
      exact emits_bind (emits_when fun _ => emits_perform trivial) fun _ => ih r

/-- A command that binds a port if it is allowed to. -/
theorem admits_binder {action t : String} {yes no : Action HandlerError Unit}
    (haction : action ∈ ["rtcp", "udp", "rudp"]) (hyes : yes.Emits Binds) (hno : no.Emits Idle) :
    Admits (Demand libs o ⟨["tcp"], true, true⟩) (LetIn o)
      (can o action t >>= fun allowed => if allowed = true then yes else no) fun _ _ => True :=
  admits_binding lasting_letIn haction (admits_binds hyes lasting_letIn fun _ h _ => h) hno

/-- A command that is passed on to the last hop. -/
theorem admits_forwardToLast (node : Node) (negotiate : Bool) (what : String) (cmd : UInt8)
    (t : String) :
    Admits (Demand libs o ⟨["tcp"], true, true⟩) (LetIn o) (forwardToLast env node negotiate what cmd t)
      fun _ _ => True :=
  (admits_inner (forwardToLast_inner node negotiate what cmd t) lasting_letIn fun _ h _ => h).mono
    (fun _ h => h) fun _ _ _ => trivial

theorem admits_handleBind (t : String) :
    Admits (Demand libs o ⟨["tcp"], true, true⟩) (LetIn o) (handleBind env o t) fun _ _ => True :=
  admits_ite (fun _ => admits_binder (by simp) (bindOn_binds t) (reply_fail_idle _ _))
    fun _ => admits_forwardToLast _ _ _ _ _

theorem admits_handleMuxBind (t : String) :
    Admits (Demand libs o ⟨["tcp"], true, true⟩) (LetIn o) (handleMuxBind env o t) fun _ _ => True := by
  refine admits_ite (fun _ => admits_binder (by simp) ?_ (reply_fail_idle _ _)) fun _ =>
    (gated_of_idle (reply_fail_idle _ _)).mono (fun _ _ => trivial) fun _ _ h => h
  refine emits_bind (emits_attempt (listen_binds t)) fun res => ?_
  cases res with
  | error f => exact (reply_fail_idle _ _).mono fun _ => Idle.binds
  | ok u =>
    refine emits_bind (emits_ask _) fun bound => ?_
    refine emits_bind ((reply_idle _).mono fun _ => Idle.binds) fun _ => ?_
    exact emits_bind (emits_ask _) fun n => (muxAccept_inner n).mono fun _ => .inr

theorem admits_handleUdpRelay (t : String) :
    Admits (Demand libs o ⟨["tcp"], true, true⟩) (LetIn o) (handleUdpRelay env o t) fun _ _ => True := by
  refine admits_binder (by simp) (emits_bind (emits_ask _) fun addr => ?_) (reply_fail_idle _ _)
  refine emits_bind (emits_attempt (listen_binds _)) fun res => ?_
  cases res with
  | error f => exact (reply_fail_idle _ _).mono fun _ => Idle.binds
  | ok u =>
    refine emits_bind (emits_ask _) fun relay => ?_
    refine emits_bind ((reply_idle _).mono fun _ => Idle.binds) fun _ => ?_
    refine emits_bind (emits_mapErr _ (listen_binds _)) fun _ => ?_
    refine emits_bind (emits_attempt ?_) fun _ => emits_pure _
    exact (transportUdp_inner none env.arrivals).mono fun _ => .inr

theorem admits_handleUdpTunnel (t : String) :
    Admits (Demand libs o ⟨["tcp"], true, true⟩) (LetIn o) (handleUdpTunnel env o t) fun _ _ => True := by
  refine admits_ite (fun _ => admits_binder (by simp) ?_ (reply_fail_idle _ _))
    fun _ => admits_forwardToLast _ _ _ _ _
  refine emits_bind (emits_ofExcept _) fun parts => ?_
  refine emits_bind ((resolveUdpAddr_inner _ _).mono fun _ => .inr) fun addr => ?_
  refine emits_bind (emits_attempt (listen_binds _)) fun res => ?_
  cases res with
  | error f => exact (reply_fail_idle _ _).mono fun _ => Idle.binds
  | ok u =>
    refine emits_bind (emits_ask _) fun bound => ?_
    refine emits_bind ((reply_idle _).mono fun _ => Idle.binds) fun _ => ?_
    refine emits_bind (emits_attempt ?_) fun _ => emits_pure _
    exact (tunnelServerUdp_inner .new env.arrivals).mono fun _ => .inr

theorem gated_handle : Gated libs o ⟨["tcp"], true, true⟩ (handle env o) := by
  refine admits_bind admits_negotiate fun _ => admits_bind (D := fun _ => LetIn o) ?_ fun r => ?_
  · exact admits_idle (emits_take _) lasting_letIn
  refine admits_ite (fun _ => admits_handleConnect r.target) fun _ => ?_
  refine admits_ite (fun _ => admits_handleBind r.target) fun _ => ?_
  refine admits_ite (fun _ => admits_handleMuxBind r.target) fun _ => ?_
  refine admits_ite (fun _ => admits_handleUdpRelay r.target) fun _ => ?_
  refine admits_ite (fun _ => admits_handleUdpTunnel r.target) fun _ => ?_
  exact (gated_of_idle (reply_fail_idle _ _)).mono (fun _ _ => trivial) fun _ _ h => h

end Socks5

end
end RtProxy
