import RtProxy.Chain.Wire
import RtProxy.Handler.Socks5

/-!
What the SOCKS handlers send around the chain.

With a chain every connection, datagram and lookup of a request should go to the
first hop.  `Contained` says so of one client's stream in every world, and
`Carried` is the condition under which it holds.
-/

namespace RtProxy

open Act

inductive Socks
  | v4
  | v5
deriving Repr, DecidableEq

def Socks.handle (env : Env) (o : HandlerOptions) : Socks → Action HandlerError Unit
  | .v4 => Socks4.handle env o
  | .v5 => Socks5.handle env o

/-- What leaves the machine goes to the address. -/
def Stays (a : String) (e : Event) : Prop := ∀ d, e.destination = some d → d = .addr a

/-- Whatever the world does, all that serving the stream sends goes to the address. -/
def Contained (libs : Libs) (o : HandlerOptions) (a : String) (v : Socks) (stream : Bytes) : Prop :=
  ∀ env : Env, env.toLibs = libs → ∀ e ∈ (v.handle env o stream []).events, Stays a e

/-! ## The condition -/

/-- The options of a dial for a client. -/
def HandlerOptions.dialOptions (o : HandlerOptions) : ChainOptions :=
  { retries := 1, hosts := o.chainOrEmpty.hosts, resolver := o.chainOrEmpty.resolver }

/-- A CONNECT is refused, or it never asks the system for its name, and every name server it
may ask is reached at the address. -/
def ConnectCarried (libs : Libs) (o : HandlerOptions) (a target : String) : Prop :=
  o.allows "tcp" target = false ∨ o.bypasses target = true
    ∨ LookupWithin libs (· = .addr a) o.dialOptions target

/-- Both rules on the destination of a datagram. -/
def HandlerOptions.sends (o : HandlerOptions) (dst : String) : Bool :=
  o.allows "udp" dst && !o.bypasses dst

/-- A UDP ASSOCIATE is refused, or no datagram passes the rules but one whose host is an IP
address, and no such datagram but one to the address.  For a name the system is asked. -/
def AssociateCarried (o : HandlerOptions) (a target : String) : Prop :=
  o.allows "udp" target = false ∨
    ∀ bs host port off, Socks5.parseUdpDatagram bs = some (0, host, port, off) →
      o.sends (Socks5.joinHostPort host port) = true →
        ∃ ip, Net.IpAddr.parse host = some ip ∧
          ((Net.SocketAddr.mk ip port).text = Socks5.joinHostPort host port ∨
            o.sends (Net.SocketAddr.mk ip port).text = true →
              (Net.SocketAddr.mk ip port).text = a)

/-- The last node is at the address, or nowhere that can be dialled. -/
def LastAt (o : HandlerOptions) (a : String) : Prop :=
  ∀ b, dialable o.chainOrEmpty.lastNode.addr = some b → b = a

def Carried4 (libs : Libs) (o : HandlerOptions) (a : String) (r : Socks4.Request) : Prop :=
  if r.cmd = Socks4.CMD_CONNECT then ConnectCarried libs o a r.target
  else if r.cmd = Socks4.CMD_BIND then o.allows "rtcp" r.target = false ∨ LastAt o a
  else True

def Carried5 (libs : Libs) (o : HandlerOptions) (a : String) (r : Socks5.Request) : Prop :=
  if r.cmd = Socks5.CMD_CONNECT then ConnectCarried libs o a r.target
  else if r.cmd = Socks5.CMD_UDP_ASSOCIATE then AssociateCarried o a r.target
  else if r.cmd = Socks5.CMD_BIND ∨ r.cmd = Socks5.CMD_UDP_TUN then LastAt o a
  else True

/-- The request that the stream holds, if the client gets to make one, stays in the
chain. -/
def Carried (libs : Libs) (o : HandlerOptions) (a : String) : Socks → Bytes → Prop
  | .v4, s => ∀ r rest, Socks4.readRequest s = .ok (r, rest) → Carried4 libs o a r
  | .v5, s => ∀ r rest, Socks5.request? libs o s = some (r, rest) → Carried5 libs o a r

/-! ## Nothing leaves if the condition holds -/

section stays

variable {env : Env} {o : HandlerOptions} {a : String}

theorem stays_of_local {e : Event} (h : e.destination = none) : Stays a e := by
  intro d hd
  rw [h] at hd
  cases hd

theorem reply_stays (bs : Bytes) : (reply env bs).Emits (Stays a) :=
  emits_mapErr _ (emits_perform (stays_of_local rfl))

theorem reply_then_fail_stays {α : Type} (bs : Bytes) (e : HandlerError) :
    (reply env bs >>= fun _ => (fail e : Action HandlerError α)).Emits (Stays a) :=
  emits_bind (reply_stays bs) fun _ => emits_fail _

theorem splice_stays {ε : Type} (conn : Conn) : (splice conn : Action ε Unit).Emits (Stays a) := by
  refine emits_bind emits_get fun rest => emits_bind (emits_set _) fun _ => ?_
  exact emits_emit (stays_of_local rfl)

theorem can_stays {ε : Type} (action addr : String) :
    (can o action addr : Action ε Bool).Emits (Stays a) :=
  emits_bind (emits_emit (stays_of_local rfl)) fun _ => emits_pure _

theorem bypassed_stays {ε : Type} (addr : String) :
    (bypassed o addr : Action ε Bool).Emits (Stays a) :=
  emits_bind (emits_when fun _ => emits_emit (stays_of_local rfl)) fun _ => emits_pure _

/-- A step on the rule that `can` asks, by its answer. -/
theorem can_bind_stays {action addr : String} {f : Bool → Action HandlerError Unit}
    (h : (f (o.allows action addr)).Emits (Stays a)) :
    (can o action addr >>= f).Emits (Stays a) :=
  emits_bind_of_ok (can_stays _ _) (fun s log => ⟨_, _, can_run o action addr s log⟩) h

theorem socksDial_stays {target : String}
    (hentry : ∀ t b, o.chainOrEmpty.entry env.toLibs t = some b → b = a)
    (h : LookupWithin env.toLibs (· = .addr a) o.dialOptions target) :
    (socksDial env o target).Emits (Stays a) := by
  refine tries_emits (dialWithOptions_emits (D := (· = .addr a)) (stays_of_local rfl)
    (stays_of_local rfl) ?_ (fun t b hb => congrArg Destination.addr (hentry t b hb)) h) _ _
  exact fun e he => he.2

/-- Both handlers serve a CONNECT in the same way, up to the replies. -/
theorem connect_stays {target : String} {forbidden bypass : Action HandlerError Unit}
    {done : Except ChainError Conn → Action HandlerError Unit}
    (hentry : ∀ t b, o.chainOrEmpty.entry env.toLibs t = some b → b = a)
    (h : ConnectCarried env.toLibs o a target) (hf : forbidden.Emits (Stays a))
    (hb : bypass.Emits (Stays a)) (hd : ∀ r, (done r).Emits (Stays a)) :
    (checked o target forbidden bypass (attempt (socksDial env o target) >>= done)).Emits
      (Stays a) := by
  refine checked_emits o (fun _ => stays_of_local rfl) (fun _ => stays_of_local rfl) hf hb ?_
  intro hall hbyp
  refine emits_bind (emits_attempt (socksDial_stays hentry ?_)) hd
  rcases h with h | h | h
  · rw [h] at hall
    cases hall
  · rw [h] at hbyp
    cases hbyp
  · exact h

theorem socks4_connect_stays {target : String}
    (hentry : ∀ t b, o.chainOrEmpty.entry env.toLibs t = some b → b = a)
    (h : ConnectCarried env.toLibs o a target) :
    (Socks4.handleConnect env o target).Emits (Stays a) := by
  refine connect_stays hentry h (reply_then_fail_stays _ _) (reply_stays _) fun r => ?_
  cases r with
  | ok cc => exact emits_bind (reply_stays _) fun _ => splice_stays cc
  | error e => exact reply_then_fail_stays _ _

theorem socks5_connect_stays {target : String}
    (hentry : ∀ t b, o.chainOrEmpty.entry env.toLibs t = some b → b = a)
    (h : ConnectCarried env.toLibs o a target) :
    (Socks5.handleConnect env o target).Emits (Stays a) := by
  refine connect_stays hentry h (reply_then_fail_stays _ _) (reply_stays _) fun r => ?_
  cases r with
  | ok cc => exact emits_bind (reply_stays _) fun _ => splice_stays cc
  | error e => exact reply_then_fail_stays _ _

theorem connect_last_stays (h : LastAt o a) :
    (env.connect o.chainOrEmpty.lastNode.addr).Emits (Stays a) := by
  refine envConnect_emits fun b hb d hd => ?_
  obtain rfl := h b hb
  exact (Option.some.inj hd).symm

theorem send_stays (conn : Conn) (bs : Bytes) : (send env conn bs).Emits (Stays a) :=
  emits_mapErr _ (emits_perform (stays_of_local rfl))

theorem socks4_bind_stays {target : String} {isSocks4a : Bool}
    (hne : o.chainOrEmpty.isEmpty = false)
    (h : o.allows "rtcp" target = false ∨ LastAt o a) :
    (Socks4.handleBind env o target isSocks4a).Emits (Stays a) := by
  refine can_bind_stays ?_
  rw [hne, if_neg Bool.false_ne_true]
  rcases h with h | h
  · rw [h, if_neg Bool.false_ne_true]
    exact reply_then_fail_stays _ _
  · refine emits_ite (emits_bind (emits_attempt (connect_last_stays h)) fun r => ?_)
      (reply_then_fail_stays _ _)
    split
    · exact reply_then_fail_stays _ _
    · exact reply_then_fail_stays _ _
    · refine emits_bind (emits_ofExcept _) fun x => ?_
      exact emits_bind (send_stays _ _) fun _ => splice_stays _

theorem forwardToLast_stays {negotiate : Bool} {what target : String} {cmd : UInt8}
    (h : LastAt o a) :
    (Socks5.forwardToLast env o.chainOrEmpty.lastNode negotiate what cmd target).Emits
      (Stays a) := by
  refine emits_bind (emits_attempt (connect_last_stays h)) fun r => ?_
  split
  · exact reply_then_fail_stays _ _
  · exact reply_then_fail_stays _ _
  · refine emits_bind (emits_when fun _ => ?_) fun _ => emits_bind (emits_ofExcept _) fun x => ?_
    · refine emits_bind (emits_attempt (emits_perform (stays_of_local rfl))) fun r => ?_
      cases r with
      | error f => exact reply_then_fail_stays _ _
      | ok u => exact emits_pure _
    · exact emits_bind (send_stays _ _) fun _ => splice_stays _

/-! The relay sends a datagram only if both rules let it pass. -/

theorem udpDstAllowed_run {ε : Type} (dst : String) (s : Bytes) (log : List Event) :
    ∃ new, (Socks5.udpDstAllowed o dst : Action ε Bool) s log = ⟨.ok (o.sends dst), s, new⟩ := by
  refine exists_bind_ok ⟨_, can_run o "udp" dst s log⟩ fun log => ?_
  unfold HandlerOptions.sends
  cases o.allows "udp" dst with
  | false => exact ⟨_, rfl⟩
  | true =>
    rw [if_pos rfl]
    exact exists_bind_ok ⟨_, bypassed_run o dst s log⟩ fun log => ⟨_, rfl⟩

theorem udpDstAllowed_stays {ε : Type} (dst : String) :
    (Socks5.udpDstAllowed o dst : Action ε Bool).Emits (Stays a) := by
  refine emits_bind (can_stays _ _) fun allowed => emits_ite ?_ (emits_pure _)
  exact emits_bind (bypassed_stays _) fun hit => emits_pure _

/-- A step on both rules, by their answer. -/
theorem udpDstAllowed_bind_stays {ε : Type} {dst : String} {f : Bool → Action ε Unit}
    (h : (f (o.sends dst)).Emits (Stays a)) :
    (Socks5.udpDstAllowed o dst >>= f).Emits (Stays a) :=
  emits_bind_of_ok (udpDstAllowed_stays _)
    (fun s log => ⟨s, udpDstAllowed_run dst s log⟩) h

theorem resolveUdpAddr_literal {ε : Type} {host : String} {ip : Net.IpAddr}
    (hip : Net.IpAddr.parse host = some ip) (port : UInt16) :
    (Socks5.resolveUdpAddr env host port : Action ε _) = pure (some ⟨ip, port⟩) := by
  unfold Socks5.resolveUdpAddr
  rw [hip]

theorem udpForward_stays {host : String} {port : UInt16}
    (h : o.sends (Socks5.joinHostPort host port) = true →
      ∃ ip, Net.IpAddr.parse host = some ip ∧
        ((Net.SocketAddr.mk ip port).text = Socks5.joinHostPort host port ∨
          o.sends (Net.SocketAddr.mk ip port).text = true →
            (Net.SocketAddr.mk ip port).text = a)) :
    (Socks5.udpForward env o host port).Emits (Stays a) := by
  have hsend {raddr : Net.SocketAddr} (ha : raddr.text = a) :
      (env.perform (.datagram raddr.text)).Emits (Stays a) := by
    refine emits_perform fun d hd => ?_
    cases hd
    exact congrArg Destination.addr ha
  refine udpDstAllowed_bind_stays ?_
  split_ifs with hdst
  · obtain ⟨ip, hip, hat⟩ := h hdst
    rw [resolveUdpAddr_literal hip]
    refine emits_bind_of_ok (emits_pure _) (fun s log => ⟨s, [], rfl⟩) ?_
    dsimp only
    split_ifs with hsame
    · exact hsend (hat (.inl hsame))
    · refine udpDstAllowed_bind_stays ?_
      split_ifs with hok
      · exact hsend (hat (.inr hok))
      · exact emits_pure _
  · exact emits_pure _

theorem fromPeer_stays (client : Option Net.SocketAddr) (bs : Bytes) (raddr : Net.SocketAddr) :
    (Socks5.fromPeer env o client bs raddr).Emits (Stays a) := by
  cases client with
  | none => exact emits_pure _
  | some c =>
    refine emits_bind (emits_bind (bypassed_stays _) fun _ => emits_pure _) fun back => ?_
    exact emits_ite (emits_perform (stays_of_local rfl)) (emits_pure _)

theorem transportUdp_stays (h : ∀ bs, (Socks5.fromClient env o bs).Emits (Stays a))
    (client : Option Net.SocketAddr) (arrivals : List Arrival) :
    (Socks5.transportUdp env o client arrivals).Emits (Stays a) := by
  induction arrivals generalizing client with
  | nil => exact emits_pure _
  | cons arrival rest ih =>
    cases arrival with
    | client bs laddr => exact emits_bind (emits_when fun _ => h bs) fun _ => ih _
    | peer bs raddr => exact emits_bind (fromPeer_stays client bs raddr) fun _ => ih _

theorem associate_stays {target : String} (h : AssociateCarried o a target) :
    (Socks5.handleUdpRelay env o target).Emits (Stays a) := by
  refine can_bind_stays ?_
  rcases h with h | h
  · rw [h, if_neg Bool.false_ne_true]
    exact reply_then_fail_stays _ _
  have hclient (bs : Bytes) : (Socks5.fromClient env o bs).Emits (Stays a) := by
    unfold Socks5.fromClient
    cases hp : Socks5.parseUdpDatagram bs with
    | none => exact emits_pure _
    | some x =>
      obtain ⟨frag, host, port, off⟩ := x
      dsimp only
      split_ifs with hfrag
      · subst hfrag
        exact udpForward_stays (h bs host port off hp)
      · exact emits_pure _
  refine emits_ite (emits_bind (emits_ask _) fun addr => ?_) (reply_then_fail_stays _ _)
  refine emits_bind (emits_attempt (emits_perform (stays_of_local rfl))) fun r => ?_
  cases r with
  | error f => exact reply_then_fail_stays _ _
  | ok u =>
    refine emits_bind (emits_ask _) fun relay => emits_bind (reply_stays _) fun _ => ?_
    refine emits_bind (emits_mapErr _ (emits_perform (stays_of_local rfl))) fun _ => ?_
    refine emits_bind (emits_attempt (transportUdp_stays hclient _ _)) fun _ => ?_
    exact emits_pure _

/-! The handlers. -/

theorem socks4_serve_stays {r : Socks4.Request} (hne : o.chainOrEmpty.isEmpty = false)
    (hentry : ∀ t b, o.chainOrEmpty.entry env.toLibs t = some b → b = a)
    (h : Carried4 env.toLibs o a r) : (Socks4.serve env o r).Emits (Stays a) := by
  unfold Carried4 at h
  unfold Socks4.serve
  split_ifs at h ⊢
  · exact socks4_connect_stays hentry h
  · exact socks4_bind_stays hne h
  · exact reply_then_fail_stays _ _

theorem socks5_serve_stays {r : Socks5.Request} (hne : o.chainOrEmpty.isEmpty = false)
    (hentry : ∀ t b, o.chainOrEmpty.entry env.toLibs t = some b → b = a)
    (h : Carried5 env.toLibs o a r) : (Socks5.serve env o r).Emits (Stays a) := by
  unfold Carried5 at h
  unfold Socks5.serve
  by_cases hconn : r.cmd = Socks5.CMD_CONNECT
  · rw [if_pos hconn] at h ⊢
    exact socks5_connect_stays hentry h
  rw [if_neg hconn] at h ⊢
  by_cases hbind : r.cmd = Socks5.CMD_BIND
  · rw [if_neg (by rw [hbind]; decide), if_pos (.inl hbind)] at h
    rw [if_pos hbind, Socks5.handleBind, hne, if_neg Bool.false_ne_true]
    exact forwardToLast_stays h
  rw [if_neg hbind]
  by_cases hmux : r.cmd = Socks5.CMD_MUX_BIND
  · rw [if_pos hmux, Socks5.handleMuxBind, hne, if_neg Bool.false_ne_true]
    exact reply_then_fail_stays _ _
  rw [if_neg hmux]
  by_cases hudp : r.cmd = Socks5.CMD_UDP_ASSOCIATE
  · rw [if_pos hudp] at h ⊢
    exact associate_stays h
  rw [if_neg hudp] at h ⊢
  by_cases htun : r.cmd = Socks5.CMD_UDP_TUN
  · rw [if_pos (.inr htun)] at h
    rw [if_pos htun, Socks5.handleUdpTunnel, hne, if_neg Bool.false_ne_true]
    exact forwardToLast_stays h
  rw [if_neg htun]
  exact reply_then_fail_stays _ _

end stays

/-! ## Something leaves if it does not -/

section leaks

variable {env : Env} {libs : Libs} {o : HandlerOptions} {a : String} {s : Bytes} {log : List Event}

theorem checked_contacts {target : String} {d : Destination} {forbidden bypass k : Action HandlerError Unit}
    (hall : o.allows "tcp" target = true) (hbyp : o.bypasses target = false)
    (h : ∀ log, Contacts k s log d) :
    Contacts (checked o target forbidden bypass k) s log d := by
  refine .bind_right (can_run o "tcp" target s log) ?_
  rw [hall, if_pos rfl]
  refine .bind_right (bypassed_run o target s _) ?_
  rw [hbyp, if_neg Bool.false_ne_true]
  exact h _

/-- A CONNECT that is not carried asks the system, or a name server at another address. -/
theorem socksDial_leaks {target : String} (h : ¬ ConnectCarried libs o a target) :
    o.allows "tcp" target = true ∧ o.bypasses target = false
      ∧ ∃ d, d ≠ .addr a ∧ ∀ s log, Contacts (socksDial (Env.calm libs) o target) s log d := by
  unfold ConnectCarried at h
  rw [not_or, not_or, Bool.not_eq_false, Bool.not_eq_true] at h
  obtain ⟨hall, hbyp, hlookup⟩ := h
  refine ⟨hall, hbyp, ?_⟩
  unfold LookupWithin at hlookup
  push Not at hlookup
  obtain ⟨host, port, hs, hh, r, hr, hleaks⟩ := hlookup
  have hdial {d : Destination} (hd : ∀ s log, Contacts (r.resolve (Env.calm libs) host) s log d)
      (s : Bytes) (log : List Event) : Contacts (socksDial (Env.calm libs) o target) s log d := by
    refine tries_contacts ?_ (retryCount_pos _ _) _
    refine .bind_right (b := ()) rfl (tries_contacts ?_ (retryCount_pos _ _) _)
    exact .bind_left (.attempt (dialOnce_contacts hs hh hr (hd _ _)))
  by_cases hsystem : r.asksSystem host = true
  · exact ⟨.system, nofun, hdial fun s log => resolver_asksSystem hsystem⟩
  · obtain ⟨hq, ns, hns, d, hd, hne⟩ := hleaks fun h => absurd h hsystem
    exact ⟨.addr d, hne, hdial fun s log => resolver_contacts hq hns hd⟩

theorem socks4_connect_leaks {target : String} (h : ¬ ConnectCarried libs o a target) :
    ∃ d, d ≠ .addr a ∧ ∀ s log, Contacts (Socks4.handleConnect (Env.calm libs) o target) s log d := by
  obtain ⟨hall, hbyp, d, hne, hd⟩ := socksDial_leaks h
  refine ⟨d, hne, fun s log => checked_contacts hall hbyp fun log => ?_⟩
  exact .bind_left (.attempt (hd s log))

theorem socks5_connect_leaks {target : String} (h : ¬ ConnectCarried libs o a target) :
    ∃ d, d ≠ .addr a ∧ ∀ s log, Contacts (Socks5.handleConnect (Env.calm libs) o target) s log d := by
  obtain ⟨hall, hbyp, d, hne, hd⟩ := socksDial_leaks h
  refine ⟨d, hne, fun s log => checked_contacts hall hbyp fun log => ?_⟩
  exact .bind_left (.attempt (hd s log))

/-- A last node that is not at the address is dialled. -/
theorem lastAt_leaks (libs : Libs) (h : ¬ LastAt o a) :
    ∃ d, d ≠ .addr a ∧
      ∀ s log, Contacts ((Env.calm libs).connect o.chainOrEmpty.lastNode.addr) s log d := by
  unfold LastAt at h
  push Not at h
  obtain ⟨b, hb, hne⟩ := h
  exact ⟨.addr b, fun heq => hne (Destination.addr.inj heq), fun s log => connect_contacts hb⟩

theorem socks4_bind_leaks {target : String} {isSocks4a : Bool} {d : Destination}
    (hne : o.chainOrEmpty.isEmpty = false) (hall : o.allows "rtcp" target = true)
    (h : ∀ s log, Contacts ((Env.calm libs).connect o.chainOrEmpty.lastNode.addr) s log d) :
    Contacts (Socks4.handleBind (Env.calm libs) o target isSocks4a) s log d := by
  refine .bind_right (can_run o "rtcp" target s log) ?_
  rw [hall, if_pos rfl, hne, if_neg Bool.false_ne_true]
  exact .bind_left (.attempt (h _ _))

theorem forwardToLast_leaks {node : Node} {negotiate : Bool} {what target : String} {cmd : UInt8}
    {d : Destination} (h : ∀ s log, Contacts ((Env.calm libs).connect node.addr) s log d) :
    Contacts (Socks5.forwardToLast (Env.calm libs) node negotiate what cmd target) s log d :=
  .bind_left (.attempt (h _ _))

/-- The calm world in which the client sends one datagram. -/
def Env.sending (libs : Libs) (bs : Bytes) : Env :=
  { Env.calm libs with arrivals := [.client bs ⟨.v4 .unspecified, 0⟩] }

/-- A datagram that passes the rules asks for its name, or goes to its address. -/
theorem udpForward_leaks (libs : Libs) (bs : Bytes) {host : String} {port : UInt16}
    (hdst : o.sends (Socks5.joinHostPort host port) = true)
    (h : ∀ ip, Net.IpAddr.parse host = some ip →
      ((Net.SocketAddr.mk ip port).text = Socks5.joinHostPort host port ∨
        o.sends (Net.SocketAddr.mk ip port).text = true) ∧ (Net.SocketAddr.mk ip port).text ≠ a) :
    ∃ d, d ≠ .addr a ∧
      ∀ s log, Contacts (Socks5.udpForward (Env.sending libs bs) o host port) s log d := by
  have hrule (dst : String) (s : Bytes) (log : List Event) :=
    udpDstAllowed_run (ε := Failure) (o := o) dst s log
  cases hip : Net.IpAddr.parse host with
  | none =>
    refine ⟨.system, nofun, fun s log => ?_⟩
    obtain ⟨new, hrun⟩ := hrule (Socks5.joinHostPort host port) s log
    refine .bind_right hrun ?_
    rw [hdst, if_pos rfl]
    unfold Socks5.resolveUdpAddr
    rw [hip]
    exact .bind_left (.bind_left ⟨.lookup host, List.mem_cons_self, rfl⟩)
  | some ip =>
    obtain ⟨hok, hne⟩ := h ip hip
    refine ⟨.addr (Net.SocketAddr.mk ip port).text, fun heq => hne (Destination.addr.inj heq),
      fun s log => ?_⟩
    obtain ⟨new, hrun⟩ := hrule (Socks5.joinHostPort host port) s log
    refine .bind_right hrun ?_
    rw [hdst, if_pos rfl, resolveUdpAddr_literal hip]
    refine .bind_right (b := some ⟨ip, port⟩) rfl ?_
    dsimp only
    split_ifs with hsame
    · exact ⟨_, List.mem_cons_self, rfl⟩
    · obtain ⟨new', hrun'⟩ := hrule (Net.SocketAddr.mk ip port).text s (log ++ new ++ [])
      refine .bind_right hrun' ?_
      rw [hok.resolve_left hsame, if_pos rfl]
      exact ⟨_, List.mem_cons_self, rfl⟩

theorem transportUdp_leaks {bs : Bytes} {host : String} {port : UInt16} {off : Nat}
    {d : Destination} (hparse : Socks5.parseUdpDatagram bs = some (0, host, port, off))
    (h : ∀ s log, Contacts (Socks5.udpForward (Env.sending libs bs) o host port) s log d) :
    Contacts (Socks5.transportUdp (Env.sending libs bs) o none (Env.sending libs bs).arrivals)
      s log d := by
  have hown : (none : Option Net.SocketAddr).getD ⟨.v4 .unspecified, 0⟩
      = ⟨.v4 .unspecified, 0⟩ := rfl
  refine .bind_left ?_
  rw [when, if_pos hown, Socks5.fromClient, hparse]
  exact h _ _

theorem associate_leaks (libs : Libs) {target : String} (h : ¬ AssociateCarried o a target) :
    ∃ d env, d ≠ .addr a ∧ env.toLibs = libs ∧ env.Unfailing
      ∧ ∀ s log, Contacts (Socks5.handleUdpRelay env o target) s log d := by
  unfold AssociateCarried at h
  rw [not_or, Bool.not_eq_false] at h
  obtain ⟨hall, h⟩ := h
  push Not at h
  obtain ⟨bs, host, port, off, hparse, hdst, hleaks⟩ := h
  obtain ⟨d, hne, hd⟩ := udpForward_leaks libs bs hdst hleaks
  refine ⟨d, Env.sending libs bs, hne, rfl, fun _ _ => ⟨rfl, rfl⟩, fun s log => ?_⟩
  refine .bind_right (can_run o "udp" target s log) ?_
  rw [hall, if_pos rfl]
  refine .bind_right (b := ⟨.v4 .unspecified, 0⟩) rfl (.bind_right (b := .ok ()) rfl ?_)
  refine .bind_right (b := ⟨.v4 .unspecified, 0⟩) rfl (.bind_right (b := ()) rfl ?_)
  refine .bind_right (b := ()) rfl (.bind_left (.attempt ?_))
  exact transportUdp_leaks hparse hd

/-- Serving a request that is not carried leaves the address in some world. -/
theorem socks4_serve_leaks {r : Socks4.Request} (hne : o.chainOrEmpty.isEmpty = false)
    (h : ¬ Carried4 libs o a r) :
    ∃ d, d ≠ .addr a ∧ ∀ s log, Contacts (Socks4.serve (Env.calm libs) o r) s log d := by
  unfold Carried4 at h
  unfold Socks4.serve
  split_ifs at h ⊢
  · exact socks4_connect_leaks h
  · rw [not_or, Bool.not_eq_false] at h
    obtain ⟨d, hd, hc⟩ := lastAt_leaks libs h.2
    exact ⟨d, hd, fun s log => socks4_bind_leaks hne h.1 hc⟩
  · exact absurd trivial h

theorem socks5_serve_leaks {r : Socks5.Request} (hne : o.chainOrEmpty.isEmpty = false)
    (h : ¬ Carried5 libs o a r) :
    ∃ d env, d ≠ .addr a ∧ env.toLibs = libs ∧ env.Unfailing
      ∧ ∀ s log, Contacts (Socks5.serve env o r) s log d := by
  unfold Carried5 at h
  unfold Socks5.serve
  split_ifs at h with hconn hudp hlast
  · obtain ⟨d, hd, hc⟩ := socks5_connect_leaks h
    refine ⟨d, Env.calm libs, hd, rfl, Env.unfailing_calm libs, fun s log => ?_⟩
    rw [if_pos hconn]
    exact hc s log
  · obtain ⟨d, env, hd, hlibs, hu, hc⟩ := associate_leaks libs h
    refine ⟨d, env, hd, hlibs, hu, fun s log => ?_⟩
    rw [hudp, if_neg (by decide), if_neg (by decide), if_neg (by decide), if_pos rfl]
    exact hc s log
  · obtain ⟨d, hd, hc⟩ := lastAt_leaks libs h
    refine ⟨d, Env.calm libs, hd, rfl, Env.unfailing_calm libs, fun s log => ?_⟩
    rcases hlast with hbind | htun
    · rw [hbind, if_neg (by decide), if_pos rfl, Socks5.handleBind, hne, if_neg Bool.false_ne_true]
      exact forwardToLast_leaks hc
    · rw [htun, if_neg (by decide), if_neg (by decide), if_neg (by decide), if_neg (by decide),
        if_pos rfl, Socks5.handleUdpTunnel, hne, if_neg Bool.false_ne_true]
      exact forwardToLast_leaks hc
  · exact absurd trivial h

end leaks

/-! ## The handlers -/

section

variable {libs : Libs} {o : HandlerOptions} {first : Node} {rest : List Node}

theorem chain_nonempty (hn : o.chainOrEmpty.nodes = first :: rest) :
    o.chainOrEmpty.isEmpty = false := by
  cases hg : o.chainOrEmpty.groups with
  | nil =>
    rw [Route.nodes, hg] at hn
    cases hn
  | cons g gs =>
    rw [Route.isEmpty, hg]
    rfl

theorem contained_of_carried {v : Socks} {stream : Bytes}
    (hn : o.chainOrEmpty.nodes = first :: rest) (h : Carried libs o first.addr v stream) :
    Contained libs o first.addr v stream := by
  have hne := chain_nonempty hn
  rintro env rfl e he
  have hentry (t b : String) (hb : o.chainOrEmpty.entry env.toLibs t = some b) :
      b = first.addr := by
    rw [entry_of_nonempty hne, hn, List.head?_cons, Option.filter_some] at hb
    split_ifs at hb <;> cases hb
    rfl
  cases v with
  | v4 =>
    cases hread : Socks4.readRequest stream with
    | error err =>
      rw [Socks.handle, Socks4.handle, bind_error (take_error hread)] at he
      cases he
    | ok x =>
      obtain ⟨r, tail⟩ := x
      rw [Socks.handle, Socks4.handle, bind_silent (take_ok hread)] at he
      exact socks4_serve_stays hne hentry (h r tail hread) _ _ e he
  | v5 =>
    rcases Socks5.mem_handle he with he | ⟨r, tail, log, hr, he⟩
    · exact Socks5.negotiate_emits (fun _ => stays_of_local rfl) (stays_of_local rfl)
        (fun _ _ _ _ => stays_of_local rfl) _ _ e he
    · exact socks5_serve_stays hne hentry (h r tail hr) _ _ e he

theorem carried_of_contained {v : Socks} {stream : Bytes}
    (hn : o.chainOrEmpty.nodes = first :: rest) (h : Contained libs o first.addr v stream) :
    Carried libs o first.addr v stream := by
  have hne := chain_nonempty hn
  cases v with
  | v4 =>
    intro r tail hread
    by_contra hr
    obtain ⟨d, hd, hc⟩ := socks4_serve_leaks hne hr
    obtain ⟨e, he, hdst⟩ := hc tail []
    refine hd (h (Env.calm libs) rfl e ?_ d hdst)
    rw [Socks.handle, Socks4.handle, bind_silent (take_ok hread)]
    exact he
  | v5 =>
    intro r tail hr
    by_contra hcarried
    obtain ⟨d, env, hd, rfl, hu, hc⟩ := socks5_serve_leaks hne hcarried
    obtain ⟨e, he, hdst⟩ := Socks5.mem_handle_of_serve [] hu hr fun log => hc tail log
    exact hd (h env rfl e he d hdst)

/-- All that a client's request sends goes to the first hop, whatever the world does,
if and only if the request is carried by the chain. -/
theorem contained_iff (libs : Libs) (o : HandlerOptions) (first : Node) (rest : List Node)
    (v : Socks) (stream : Bytes) (hn : o.chainOrEmpty.nodes = first :: rest) :
    Contained libs o first.addr v stream ↔ Carried libs o first.addr v stream :=
  ⟨carried_of_contained hn, contained_of_carried hn⟩

/-- The options of `-L socks5://:1080 -F socks5://a:1080 -F socks5://b:1080`. -/
def HandlerOptions.twoHops : HandlerOptions :=
  { HandlerOptions.empty with
    chain := some (Chain.ofNodes [("socks5", "tcp", "a:1080"), ("socks5", "tcp", "b:1080")]) }

/-- A CONNECT to 1.2.3.4:80. -/
theorem connect_contained :
    Contained .blank .twoHops "a:1080" .v5 [5, 1, 0, 5, 1, 0, 1, 1, 2, 3, 4, 0, 80] := by
  refine (contained_iff .blank .twoHops _ _ .v5 _ rfl).mpr fun r tail hr => ?_
  have hreq : Socks5.request? .blank .twoHops [5, 1, 0, 5, 1, 0, 1, 1, 2, 3, 4, 0, 80]
      = some (⟨Socks5.CMD_CONNECT, "1.2.3.4:80"⟩, []) := by decide
  cases hreq.symm.trans hr
  exact .inr (.inr fun _ _ _ _ r hr => nomatch hr)

/-- A BIND for 1.2.3.4:80 connects to the last hop. -/
theorem bind_not_contained :
    ¬ Contained .blank .twoHops "a:1080" .v5 [5, 1, 0, 5, 2, 0, 1, 1, 2, 3, 4, 0, 80] := by
  intro h
  have hreq : Socks5.request? .blank .twoHops [5, 1, 0, 5, 2, 0, 1, 1, 2, 3, 4, 0, 80]
      = some (⟨Socks5.CMD_BIND, "1.2.3.4:80"⟩, []) := by decide
  have hn : HandlerOptions.twoHops.chainOrEmpty.nodes
      = ⟨"a:1080", "a:1080", "socks5", "tcp", _, _, _⟩ ::
        [⟨"b:1080", "b:1080", "socks5", "tcp", _, _, _⟩] := rfl
  have hlast : LastAt .twoHops "a:1080" := carried_of_contained hn h _ _ hreq
  exact absurd (hlast "b:1080" (by decide)) (by decide)

end

end RtProxy
