import Mathlib.Data.List.AList
import RtProxy.Handler.Gate
import RtProxy.Lib.Transition
import RtProxy.Ssh.Auth

/-!
A session of the SSH forwarder (`ssh.rs`).

The library reads the client's messages and calls the session for each of them; what the
session spawns (a dial for a `direct-tcpip` channel, a loop for a port that is bound for
the client) runs beside it and outlives it.  A dial is one step here.
-/

namespace RtProxy
namespace Ssh

open Act Transition

def joinHostPort (host : String) (port : UInt32) : String :=
  if Text.contains host ':' ∧ ¬ Text.startsWith host "[" then s!"[{host}]:{port.toNat}"
  else s!"{host}:{port.toNat}"

def SshServerAuth.checkPublickey (auth : SshServerAuth) (fingerprint : String) : Bool :=
  auth.authorizedKeys.fingerprints.contains fingerprint

/-! ## The state -/

inductive SshEvent
  | event (e : Event)
  /-- a public key is offered for a user -/
  | key (user fingerprint : String) (accepted : Bool)
deriving Repr, DecidableEq

def SshEvent.event? : SshEvent → Option Event
  | .event e => some e
  | .key .. => none

/-- A listener that was bound for the client, with its cancellation token and its loop. -/
structure Port where
  /-- what the session files the token under -/
  key : String × UInt32
  localAddr : Net.SocketAddr
  cancelled : Bool
  /-- the loop has left, and the listener is closed -/
  stopped : Bool
deriving Repr, DecidableEq

/-- `authenticated` is the library's: whether a method has been accepted.  The ports stand in
the order they were bound; `forwards` holds the tokens by their places there, and `displaced`
those that an insertion into it threw out. -/
structure ForwardSession where
  authenticated : Bool
  user : String
  /-- the dials that are spawned and have not begun -/
  tasks : List String
  ports : List Port
  forwards : AList fun _ : String × UInt32 => Nat
  displaced : List Nat
  closed : Bool
  log : List SshEvent

def init : ForwardSession where
  authenticated := false
  user := ""
  tasks := []
  ports := []
  forwards := ∅
  displaced := []
  closed := false
  log := []

/-- The session does not look at the originator of a channel. -/
inductive Request
  | password (user password : String)
  | publickey (user fingerprint : String)
  | directTcpip (host : String) (port : UInt32)
  | tcpipForward (address : String) (port : UInt32)
  | cancelTcpipForward (address : String) (port : UInt32)
deriving Repr, DecidableEq

/-- What the machine makes of a bind. -/
inductive Bind
  | refused
  /-- the listener has no address, and is closed again -/
  | unnamed
  | bound (addr : Net.SocketAddr)
deriving Repr, DecidableEq

inductive Action
  /-- the library calls the session; `bind` is what a bind comes to -/
  | request (r : Request) (bind : Bind)
  /-- a spawned dial begins -/
  | dial (k : Nat)
  /-- the loop of a port accepts a connection -/
  | accept (k : Nat)
  | acceptFails (k : Nat)
  /-- the loop of a port sees its token -/
  | stop (k : Nat)
  /-- the session is dropped -/
  | close
deriving Repr, DecidableEq

namespace ForwardSession

variable (s : ForwardSession)

/-- What happened, apart from the keys. -/
def events : List Event := s.log.filterMap SshEvent.event?

def note (es : List Event) : ForwardSession := { s with log := s.log ++ es.map .event }

def letIn (user : String) : ForwardSession := { s with authenticated := true, user := user }

def spawn (addr : String) : ForwardSession := { s with tasks := s.tasks ++ [addr] }

/-- A token is filed; one that stood under its key is dropped. -/
def file (p : Port) : ForwardSession :=
  { s with
    ports := s.ports ++ [p]
    forwards := s.forwards.insert p.key s.ports.length
    displaced := s.displaced ++ (s.forwards.lookup p.key).toList }

def cancel (key : String × UInt32) : ForwardSession :=
  { s with
    ports := s.ports.mapIdx fun k p =>
      if s.forwards.lookup key = some k then { p with cancelled := true } else p
    forwards := s.forwards.erase key }

/-- `drop`: every token that is filed is cancelled. -/
def drop : ForwardSession :=
  { s with
    ports := s.ports.mapIdx fun k p =>
      if k ∈ s.forwards.entries.map (·.2) then { p with cancelled := true } else p
    forwards := ∅
    closed := true }

def stopPort (k : Nat) : ForwardSession :=
  { s with ports := s.ports.modify k fun p => { p with stopped := true } }

end ForwardSession

section

variable (h : SshForwardHandler) (s : ForwardSession)

/-- Whether a dial is allowed. -/
def allowed (addr : String) : Bool :=
  h.options.allows "tcp" addr && !h.options.bypasses addr

def authPassword (user password : String) : ForwardSession :=
  if h.auth.checkPassword user password then
    (s.note [.auth true user password true]).letIn user
  else s.note [.auth true user password false]

def authPublickey (user fingerprint : String) : ForwardSession :=
  let asked := { s with log := s.log ++ [.key user fingerprint (h.auth.checkPublickey fingerprint)] }
  if h.auth.checkPublickey fingerprint then asked.letIn user else asked

/-- The host that stands for none is left out. -/
def directAddr (host : String) (port : UInt32) : String :=
  joinHostPort (if host = "<nil>" then "" else host) port

def channelOpenDirectTcpip (host : String) (port : UInt32) : ForwardSession :=
  let addr := directAddr host port
  if allowed h addr then (s.note (checkEvents h.options addr)).spawn addr
  else s.note (checkEvents h.options addr)

/-- What is bound for an address. -/
def bindAddr (address : String) (port : UInt32) : String :=
  if address = "" then s!"0.0.0.0:{port.toNat}" else joinHostPort address port

/-- The port that the client is told. -/
def givenPort (port : UInt32) (addr : Net.SocketAddr) : UInt32 :=
  if port = 0 then addr.port.toUInt32 else port

def tcpipForward (address : String) (port : UInt32) (bind : Bind) : ForwardSession :=
  let asked := joinHostPort address port
  let s := s.note [.can "rtcp" asked (h.options.allows "rtcp" asked)]
  if h.options.allows "rtcp" asked then
    match bind with
    | .refused => s
    | .unnamed => s.note [.listen (bindAddr address port)]
    | .bound addr =>
      (s.note [.listen (bindAddr address port)]).file
        ⟨(address, givenPort port addr), addr, false, false⟩
  else s

def serve (r : Request) (bind : Bind) : ForwardSession :=
  match r with
  | .password user password => authPassword h s user password
  | .publickey user fingerprint => authPublickey h s user fingerprint
  | .directTcpip host port => channelOpenDirectTcpip h s host port
  | .tcpipForward address port => tcpipForward h s address port bind
  | .cancelTcpipForward address port => s.cancel (address, port)

/-- The trace of a dial. -/
def dialEvents (env : Env) (addr : String) (log : List Event) : List Event :=
  (h.options.chainOrEmpty.dial env addr [] log).events

end

/-! ## Runs -/

inductive Step (env : Env) (h : SshForwardHandler) (s : ForwardSession) : Action → ForwardSession → Prop
  | request {r : Request} {bind : Bind} (hopen : s.closed = false) :
      Step env h s (.request r bind) (serve h s r bind)
  | dial {k : Nat} {addr : String} (hk : s.tasks[k]? = some addr) :
      Step env h s (.dial k)
        ({ s with tasks := s.tasks.eraseIdx k }.note (dialEvents h env addr s.events))
  | accept {k : Nat} {p : Port} (hp : s.ports[k]? = some p) (hrun : p.stopped = false) :
      Step env h s (.accept k) (s.note [.accept])
  | acceptFails {k : Nat} {p : Port} (hp : s.ports[k]? = some p) (hrun : p.stopped = false) :
      Step env h s (.acceptFails k) (s.stopPort k)
  | stop {k : Nat} {p : Port} (hp : s.ports[k]? = some p) (hrun : p.stopped = false)
      (hcancelled : p.cancelled = true) : Step env h s (.stop k) (s.stopPort k)
  | close (hopen : s.closed = false) : Step env h s .close s.drop

/-- The library passes on nothing but credentials until a method has been accepted. -/
def Dispatched (s : ForwardSession) : Action → Prop
  | .request (.password _ _) _ | .request (.publickey _ _) _ => True
  | .request _ _ => s.authenticated = true
  | _ => True

/-! ## What a client has to pass -/

section

variable (h : SshForwardHandler)

/-- The client has shown a password or a key that the listener accepts. -/
def LetIn (log : List SshEvent) : Prop :=
  (∃ user password, h.auth.checkPassword user password = true ∧
    .event (.auth true user password true) ∈ log) ∨
  ∃ user fingerprint, h.auth.checkPublickey fingerprint = true ∧
    .key user fingerprint true ∈ log

/-- The rules allow an address for the client to bind, of which `addr` is what is bound. -/
def MayBind (addr : String) (log : List SshEvent) : Prop :=
  ∃ address port, addr = bindAddr address port ∧
    h.options.allows "rtcp" (joinHostPort address port) = true ∧
    .event (.can "rtcp" (joinHostPort address port) true) ∈ log

/-- The checks have let an address through. -/
def MayDial (addr : String) (log : List SshEvent) : Prop :=
  Passed h.options addr (log.filterMap SshEvent.event?)

/-- What stands in the trace before an event. -/
def Demand : SshEvent → List SshEvent → Prop
  | .event (.dial addr), log => MayDial h addr log ∧ LetIn h log
  | .event (.listen addr), log => MayBind h addr log ∧ LetIn h log
  | .event (.connect _), log | .event (.datagram _), log | .event (.openStream _), log
  | .event (.lookup _), log => LetIn h log
  | _, _ => True

end

section

variable {env : Env} {h : SshForwardHandler} {addr : String}

theorem lasting_letIn : Lasting (LetIn h) := by
  intro log new hin
  rcases hin with ⟨user, password, hacc, hmem⟩ | ⟨user, fingerprint, hacc, hmem⟩
  · exact .inl ⟨user, password, hacc, List.mem_append_left _ hmem⟩
  · exact .inr ⟨user, fingerprint, hacc, List.mem_append_left _ hmem⟩

theorem lasting_mayDial : Lasting (MayDial h addr) := by
  intro log new hdial
  unfold MayDial
  rw [List.filterMap_append]
  exact lasting_passed _ _ hdial

theorem demand_of_idle {e : Event} (hidle : Idle e) (log : List SshEvent) : Demand h (.event e) log := by
  cases e <;> trivial

theorem demand_of_inner {e : Event} (hinner : Inner e) {log : List SshEvent} (hin : LetIn h log) :
    Demand h (.event e) log := by
  cases e <;> trivial

theorem filterMap_event (es : List Event) :
    (es.map SshEvent.event).filterMap SshEvent.event? = es := by
  rw [List.filterMap_map]
  exact List.filterMap_some

/-- Events that no check has to precede. -/
theorem guarded_idle {es : List Event} (hes : ∀ e ∈ es, Idle e) (log : List SshEvent) :
    Guarded (Demand h) log (es.map .event) := by
  refine guarded_of_free fun e he log' => ?_
  obtain ⟨e', he', rfl⟩ := List.mem_map.mp he
  exact demand_of_idle (hes e' he') log'

theorem checkEvents_idle (o : HandlerOptions) (addr : String) : ∀ e ∈ checkEvents o addr, Idle e := by
  intro e he
  unfold checkEvents at he
  split_ifs at he <;> simp only [List.mem_cons, List.not_mem_nil, or_false] at he
  · rcases he with rfl | rfl <;> trivial
  · subst he
    trivial

theorem passed_of_allowed (hall : allowed h addr = true) (log : List Event) :
    Passed h.options addr (log ++ checkEvents h.options addr) := by
  unfold allowed at hall
  simp only [Bool.and_eq_true, Bool.not_eq_true'] at hall
  obtain ⟨hallows, hbypass⟩ := hall
  refine ⟨⟨"tcp", List.mem_singleton_self _, hallows, ?_⟩, fun hsome => ⟨hbypass, ?_⟩⟩
  · refine List.mem_append_right _ ?_
    unfold checkEvents
    rw [hallows]
    exact List.mem_cons_self
  · refine List.mem_append_right _ ?_
    unfold checkEvents
    rw [if_pos ⟨hallows, hsome⟩, hbypass]
    exact List.mem_cons_of_mem _ (List.mem_singleton_self _)

/-- What carries the demands through a run. -/
structure Gated (h : SshForwardHandler) (s : ForwardSession) : Prop where
  guarded : Guarded (Demand h) [] s.log
  letIn : s.authenticated = true → LetIn h s.log
  tasks : ∀ addr ∈ s.tasks, MayDial h addr s.log ∧ LetIn h s.log

namespace Gated

variable {s : ForwardSession}

/-- What the session adds to the trace, and what it then knows. -/
theorem extend (hs : Gated h s) {t : ForwardSession} {new : List SshEvent}
    (hlog : t.log = s.log ++ new) (hnew : Guarded (Demand h) s.log new)
    (hin : t.authenticated = true → s.authenticated = true ∨ LetIn h t.log)
    (htasks : ∀ addr ∈ t.tasks, addr ∈ s.tasks ∨ MayDial h addr t.log ∧ LetIn h t.log) :
    Gated h t := by
  have hlast : LetIn h s.log → LetIn h t.log := by
    rw [hlog]
    exact lasting_letIn _ _
  constructor
  · rw [hlog]
    exact hs.guarded.append hnew
  · intro hauth
    rcases hin hauth with hold | hnow
    · exact hlast (hs.letIn hold)
    · exact hnow
  · intro addr haddr
    rcases htasks addr haddr with hold | hnow
    · obtain ⟨hdial, hletIn⟩ := hs.tasks addr hold
      refine ⟨?_, hlast hletIn⟩
      rw [hlog]
      exact lasting_mayDial _ _ hdial
    · exact hnow

/-- Steps that leave the trace, the credentials and the dials as they are. -/
theorem frame (hs : Gated h s) {t : ForwardSession} (hlog : t.log = s.log)
    (hauth : t.authenticated = s.authenticated) (htasks : t.tasks = s.tasks) : Gated h t := by
  have hnone : t.log = s.log ++ [] := by rw [hlog, List.append_nil]
  refine hs.extend hnone (guarded_nil _ _) ?_ ?_
  · rw [hauth]
    exact .inl
  · rw [htasks]
    exact fun _ => .inl

/-- Events that no check has to precede are added. -/
theorem note (hs : Gated h s) {es : List Event} (hes : ∀ e ∈ es, Idle e) : Gated h (s.note es) :=
  hs.extend rfl (guarded_idle hes _) .inl fun _ => .inl

/-- A credential is judged. -/
theorem judge (hs : Gated h s) {t : ForwardSession} {e : SshEvent} (hlog : t.log = s.log ++ [e])
    (hfree : ∀ log, Demand h e log) (hin : t.authenticated = true → s.authenticated = true ∨ LetIn h t.log)
    (htasks : t.tasks = s.tasks) : Gated h t := by
  refine hs.extend hlog (guarded_singleton (hfree _)) hin ?_
  rw [htasks]
  exact fun _ => .inl

theorem authPassword (hs : Gated h s) (user password : String) :
    Gated h (authPassword h s user password) := by
  unfold Ssh.authPassword
  split_ifs with hacc
  · have hlast : SshEvent.event (.auth true user password true) ∈
        s.log ++ [.event (.auth true user password true)] :=
      List.mem_append_right _ (List.mem_singleton_self _)
    exact hs.judge rfl (fun _ => trivial) (fun _ => .inr (.inl ⟨user, password, hacc, hlast⟩)) rfl
  · exact hs.judge rfl (fun _ => trivial) .inl rfl

theorem authPublickey (hs : Gated h s) (user fingerprint : String) :
    Gated h (authPublickey h s user fingerprint) := by
  unfold Ssh.authPublickey
  split_ifs with hacc
  · have hlast : SshEvent.key user fingerprint true ∈
        s.log ++ [.key user fingerprint (h.auth.checkPublickey fingerprint)] := by
      rw [hacc]
      exact List.mem_append_right _ (List.mem_singleton_self _)
    exact hs.judge rfl (fun _ => trivial) (fun _ => .inr (.inr ⟨user, fingerprint, hacc, hlast⟩)) rfl
  · exact hs.judge rfl (fun _ => trivial) .inl rfl

theorem channelOpenDirectTcpip (hs : Gated h s) (hauth : s.authenticated = true) (host : String)
    (port : UInt32) : Gated h (channelOpenDirectTcpip h s host port) := by
  have hidle := checkEvents_idle h.options (directAddr host port)
  unfold Ssh.channelOpenDirectTcpip
  dsimp only
  split_ifs with hall
  · refine hs.extend rfl (guarded_idle hidle _) .inl fun addr haddr => ?_
    rcases List.mem_append.mp haddr with hold | hnew
    · exact .inl hold
    · obtain rfl := List.mem_singleton.mp hnew
      refine .inr ⟨?_, lasting_letIn _ _ (hs.letIn hauth)⟩
      show MayDial h _ (s.log ++ _)
      unfold MayDial
      rw [List.filterMap_append, filterMap_event]
      exact passed_of_allowed hall _
  · exact hs.note hidle

/-- A port that the rules allow is bound. -/
theorem listen (hs : Gated h s) (hin : LetIn h s.log) {address : String} {port : UInt32}
    (hallows : h.options.allows "rtcp" (joinHostPort address port) = true)
    (hcan : .event (.can "rtcp" (joinHostPort address port) true) ∈ s.log) :
    Gated h (s.note [.listen (bindAddr address port)]) :=
  hs.extend rfl (guarded_singleton ⟨⟨address, port, rfl, hallows, hcan⟩, hin⟩) .inl fun _ => .inl

theorem tcpipForward (hs : Gated h s) (hauth : s.authenticated = true) (address : String)
    (port : UInt32) (bind : Bind) : Gated h (tcpipForward h s address port bind) := by
  have hasked : Gated h (s.note [.can "rtcp" (joinHostPort address port)
      (h.options.allows "rtcp" (joinHostPort address port))]) := by
    refine hs.note fun e he => ?_
    obtain rfl := List.mem_singleton.mp he
    trivial
  unfold Ssh.tcpipForward
  dsimp only
  split_ifs with hallows
  · have hin := hasked.letIn hauth
    have hlisten := hasked.listen hin hallows (by
      rw [hallows]
      exact List.mem_append_right _ (List.mem_singleton_self _))
    cases bind with
    | refused => exact hasked
    | unnamed => exact hlisten
    | bound addr => exact hlisten.frame rfl rfl rfl
  · exact hasked

theorem serve (hs : Gated h s) {r : Request} {bind : Bind} (hok : Dispatched s (.request r bind)) :
    Gated h (serve h s r bind) := by
  cases r with
  | password user password => exact hs.authPassword user password
  | publickey user fingerprint => exact hs.authPublickey user fingerprint
  | directTcpip host port => exact hs.channelOpenDirectTcpip hok host port
  | tcpipForward address port => exact hs.tcpipForward hok address port bind
  | cancelTcpipForward address port => exact hs.frame rfl rfl rfl

/-- A spawned dial begins. -/
theorem dial (hs : Gated h s) {k : Nat} {addr : String} (hk : s.tasks[k]? = some addr) :
    Gated h ({ s with tasks := s.tasks.eraseIdx k }.note (dialEvents h env addr s.events)) := by
  obtain ⟨hdial, hin⟩ := hs.tasks addr (List.mem_of_getElem? hk)
  refine hs.extend rfl ?_ .inl fun _ haddr => .inl (List.mem_of_mem_eraseIdx haddr)
  rintro pre e post heq
  have hmem : e ∈ (dialEvents h env addr s.events).map SshEvent.event := by
    rw [heq]
    exact List.mem_append_right _ List.mem_cons_self
  obtain ⟨e', he', rfl⟩ := List.mem_map.mp hmem
  have hin' : LetIn h (s.log ++ pre) := lasting_letIn _ _ hin
  rcases dial_dials h.options.chainOrEmpty addr [] s.events e' he' with rfl | hinner
  · exact ⟨lasting_mayDial _ _ hdial, hin'⟩
  · exact demand_of_inner hinner hin'

theorem step (hs : Gated h s) {a : Action} {t : ForwardSession} (hok : Dispatched s a)
    (hstep : Step env h s a t) : Gated h t := by
  cases hstep with
  | request => exact hs.serve hok
  | dial hk => exact hs.dial hk
  | accept =>
    refine hs.note fun e he => ?_
    obtain rfl := List.mem_singleton.mp he
    trivial
  | acceptFails | stop | close => exact hs.frame rfl rfl rfl

end Gated

theorem gated_init : Gated h init where
  guarded := guarded_nil _ _
  letIn hauth := by cases hauth
  tasks _ haddr := absurd haddr List.not_mem_nil

/-- In every state that a session reaches, whatever the client asks for and however its
dials and ports run beside it: each dial is for an address that the rules allow and the
bypass lets through, both asked about it before; each port that is bound is one that the
rules allow, asked before; and nothing is dialled, bound or connected to before the client
has shown a password or a key that the listener accepts. -/
theorem session_guarded {s : ForwardSession} (hrun : Reaches (Step env h) Dispatched init s) :
    Guarded (Demand h) [] s.log :=
  (hrun.invariant (I := Gated h) gated_init fun _ _ _ hs hok hstep => hs.step hok hstep).guarded

end

/-! ## A session of one user -/

/-- Dials to port 80 and binds of port 8080, but nothing for 198.51.100.1. -/
def bobs : SshForwardHandler where
  options :=
    { HandlerOptions.empty with
      whitelist := (Permissions.parse "tcp:*:80 rtcp:*:8080").toOption
      bypass := some ⟨[fun host => host = "198.51.100.1"], false⟩ }
  hostKey := "host"
  methods := [.password]
  auth := ⟨[("bob", "secret")], none, .none⟩

def bobIn : ForwardSession := serve bobs init (.password "bob" "secret") .refused

def bobAsks : ForwardSession := serve bobs bobIn (.directTcpip "192.0.2.1" 80) .refused

def bobListens : ForwardSession :=
  serve bobs bobAsks (.tcpipForward "" 8080) (.bound ⟨.v4 .unspecified, 8080⟩)

def bobDials : ForwardSession :=
  { bobListens with tasks := [] }.note
    (dialEvents bobs (.calm .blank) "192.0.2.1:80" bobListens.events)

theorem session_guarded_bob :
    .event (.dial "192.0.2.1:80") ∈ bobDials.log ∧ .event (.listen "0.0.0.0:8080") ∈ bobDials.log ∧
      Guarded (Demand bobs) [] bobDials.log := by
  have hin : Reaches (Step (.calm .blank) bobs) Dispatched init bobIn :=
    .tail (a := .request (.password "bob" "secret") .refused) .refl trivial (.request rfl)
  have hasks : Reaches (Step (.calm .blank) bobs) Dispatched init bobAsks :=
    hin.tail (a := .request (.directTcpip "192.0.2.1" 80) .refused)
      (show bobIn.authenticated = true by decide) (.request (by decide))
  have hlistens : Reaches (Step (.calm .blank) bobs) Dispatched init bobListens :=
    hasks.tail (a := .request (.tcpipForward "" 8080) (.bound ⟨.v4 .unspecified, 8080⟩))
      (show bobAsks.authenticated = true by decide) (.request (by decide))
  refine ⟨by decide, by decide, session_guarded (hlistens.tail (a := .dial 0) trivial (.dial ?_))⟩
  decide

end Ssh
end RtProxy
