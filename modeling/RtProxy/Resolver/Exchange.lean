import RtProxy.Lib.Transition
import RtProxy.Resolver.Cache
import RtProxy.Resolver.Rewrite

/-!
The calls of a resolver as they interleave (`resolver.rs`).

`exchange` answers a query packet and `resolve` looks up a host.  Both work on a copy of
the configuration that they take when they start; a step of a call is one lock or one
wait for a name server, with the local work up to the next one.  What a name server
answers is free.  A reload first replaces the configuration and then clears the cache.
-/

namespace RtProxy.Resolver

/-! ## Configuration -/

/-- What a configuration file says, with the defaults for what it does not say. -/
structure FileValues where
  servers : List NameServer
  domain : String
  ttl : Nat
  ttlNegative : Bool
  prefer : String
  srcIp : Option Net.IpAddr
deriving Repr, DecidableEq

/-- The values in force, and the options that override those of a file. -/
structure State where
  servers : List NameServer
  domain : String
  ttl : Nat
  ttlNegative : Bool
  prefer : String
  srcIp : Option Net.IpAddr
  optTtl : Nat
  optTtlNegative : Bool
  optPrefer : String
  optSrcIp : Option Net.IpAddr
deriving Repr, DecidableEq

namespace State

def applyOptions (st : State) : State :=
  { st with
    ttl := if st.optTtl ≠ 0 ∨ st.optTtlNegative then st.optTtl else st.ttl
    ttlNegative :=
      if st.optTtl ≠ 0 ∨ st.optTtlNegative then st.optTtlNegative else st.ttlNegative
    prefer := if st.optPrefer ≠ "" then st.optPrefer else st.prefer
    srcIp := if st.optSrcIp.isSome then st.optSrcIp else st.srcIp }

/-- What `reload_impl` writes. -/
def reload (st : State) (file : FileValues) : State :=
  applyOptions { st with
    servers := file.servers, domain := file.domain, ttl := file.ttl
    ttlNegative := file.ttlNegative, prefer := file.prefer, srcIp := file.srcIp }

/-- The queries of a lookup in their order: at each server one family of addresses and
then the other. -/
def plan (st : State) : List (NameServer × UInt16) :=
  st.servers.flatMap fun ns =>
    if st.prefer = "ipv6" then [(ns, TYPE_AAAA), (ns, TYPE_A)]
    else [(ns, TYPE_A), (ns, TYPE_AAAA)]

end State

/-! ## Messages of the calls -/

def Rr.asA (rr : Rr) : Option Net.IpAddr :=
  if rr.rtype = TYPE_A ∧ rr.rdata.length = 4 then some (.v4 (Net.Ipv4Addr.ofOctets rr.rdata))
  else none

def Rr.asAaaa (rr : Rr) : Option Net.IpAddr :=
  if rr.rtype = TYPE_AAAA ∧ rr.rdata.length = 16 then some (.v6 (Net.Ipv6Addr.ofOctets rr.rdata))
  else none

/-- The addresses of the answers. -/
def Message.answerIps (m : Message) : List Net.IpAddr :=
  m.answers.flatMap fun rr => rr.asAaaa.toList ++ rr.asA.toList

/-- The cache key of a message; only those with one question have one. -/
def Message.key (mq : Message) : String :=
  match mq.questions with
  | [q] => cacheKey q.name q.qclass q.qtype
  | _ => ""

/-- What `exchange` sends on. -/
def outbound (srcIp : Option Net.IpAddr) (packet : Bytes) (mq : Message) : Except String Bytes :=
  match srcIp with
  | some ip => rewrite ip mq
  | none => .ok packet

/-- The query that `query` sends. -/
def hostQuery (id : UInt16) (host : String) (qtype : UInt16) (srcIp : Option Net.IpAddr) :
    Message :=
  let mq := Message.query id (fqdn host) qtype
  match srcIp with
  | some ip => { mq with additionals := mq.additionals ++ [edns0SubnetOpt ip DEFAULT_UDP_SIZE] }
  | none => mq

def hostKey (host : String) (qtype : UInt16) : String := cacheKey (fqdn host) CLASS_IN qtype

/-! ## Calls -/

/-- The copy of the configuration a call works on; `gen` is history, the number of
reloads that had written theirs. -/
structure Snapshot where
  st : State
  gen : Nat
deriving Repr, DecidableEq

/-- A reply that can be decoded, and all that is known about it. -/
structure Answer where
  snap : Snapshot
  key : String
  server : NameServer
  asked : Bytes
  reply : Bytes
  msg : Message
deriving Repr, DecidableEq

/-- How an answer is handed to the cache. -/
def Answer.call (a : Answer) : StoreCall :=
  ⟨a.key, a.reply, a.msg, a.snap.st.ttl, a.snap.st.ttlNegative⟩

/-- Where a call stands.  `exchanged` and `resolved` have returned; `cached` is history,
that the result comes from the cache. -/
inductive Task
  | idle
  | exLook (snap : Snapshot) (packet : Bytes) (mq : Message)
  | exAsk (snap : Snapshot) (packet : Bytes) (mq : Message) (asked : Bytes) (ns : NameServer)
      (rest : List NameServer)
  | exStore (packet : Bytes) (mq : Message) (answer : Answer)
  | exchanged (packet : Bytes) (cached : Bool) (result : Except String Bytes)
  | reSystem (host prefer : String)
  | reLook (snap : Snapshot) (host : String) (ns : NameServer) (qtype : UInt16)
      (rest : List (NameServer × UInt16))
  | reAsk (snap : Snapshot) (host : String) (ns : NameServer) (qtype : UInt16)
      (rest : List (NameServer × UInt16)) (asked : Bytes)
  | reStore (host : String) (rest : List (NameServer × UInt16)) (answer : Answer)
  | resolved (result : Except String (List Net.IpAddr))

namespace Task

/-- `exchange` up to the copy of the configuration. -/
def exchange (snap : Snapshot) (packet : Bytes) : Task :=
  match Message.decode packet with
  | .error e => .exchanged packet false (.error e)
  | .ok mq =>
    if mq.questions = [] then .exchanged packet false (.error "empty question")
    else .exLook snap packet mq

/-- What follows when the cache has no reply. -/
def exMiss (snap : Snapshot) (packet : Bytes) (mq : Message) : Task :=
  match outbound snap.st.srcIp packet mq with
  | .error e => .exchanged packet false (.error e)
  | .ok asked =>
    match snap.st.servers with
    | [] => .exchanged packet false (.error "no name server configured")
    | ns :: rest => .exAsk snap packet mq asked ns rest

/-- A reply that cannot be decoded is passed on, but not stored. -/
def exReply (snap : Snapshot) (packet : Bytes) (mq : Message) (asked : Bytes) (ns : NameServer)
    (reply : Bytes) : Task :=
  match Message.decode reply with
  | .error _ => .exchanged packet false (.ok (setMsgId reply mq.id))
  | .ok mr => .exStore packet mq ⟨snap, mq.key, ns, asked, reply, mr⟩

/-- The next server is asked, or the last error is the result. -/
def exError (snap : Snapshot) (packet : Bytes) (mq : Message) (asked : Bytes) (e : String) :
    List NameServer → Task
  | [] => .exchanged packet false (.error e)
  | ns :: rest => .exAsk snap packet mq asked ns rest

/-- The next query of a lookup; what the last one came to is the result. -/
def reNext (snap : Snapshot) (host : String) (outcome : Except String (List Net.IpAddr)) :
    List (NameServer × UInt16) → Task
  | [] => .resolved outcome
  | (ns, qtype) :: rest => .reLook snap host ns qtype rest

/-- A lookup ends with the first addresses it finds. -/
def reDone (snap : Snapshot) (host : String) (rest : List (NameServer × UInt16))
    (outcome : Except String (List Net.IpAddr)) : Task :=
  match outcome with
  | .ok (ip :: ips) => .resolved (.ok (ip :: ips))
  | .ok [] => reNext snap host (.ok []) rest
  | .error e => reNext snap host (.error e) rest

/-- `resolve` up to its first query. -/
def resolve (snap : Snapshot) (host : String) : Task :=
  if host = "" then .resolved (.ok [])
  else
    match Net.IpAddr.parse host with
    | some ip => .resolved (.ok [ip])
    | none =>
      let host := if ¬ Text.contains host '.' ∧ snap.st.domain ≠ "" then
        s!"{host}.{snap.st.domain}" else host
      match snap.st.servers with
      | [] => .reSystem host snap.st.prefer
      | _ => reNext snap host (.ok []) snap.st.plan

/-- A reply from the cache that cannot be decoded is an error. -/
def reHit (snap : Snapshot) (host : String) (rest : List (NameServer × UInt16))
    (bytes : Bytes) : Task :=
  match Message.decode bytes with
  | .error e => reDone snap host rest (.error e)
  | .ok mr => reDone snap host rest (.ok mr.answerIps)

def reMiss (snap : Snapshot) (host : String) (ns : NameServer) (qtype : UInt16)
    (rest : List (NameServer × UInt16)) (id : UInt16) : Task :=
  match (hostQuery id host qtype snap.st.srcIp).encode with
  | .error e => reDone snap host rest (.error e)
  | .ok asked => .reAsk snap host ns qtype rest asked

def reReply (snap : Snapshot) (host : String) (ns : NameServer) (qtype : UInt16)
    (rest : List (NameServer × UInt16)) (asked reply : Bytes) : Task :=
  match Message.decode reply with
  | .error e => reDone snap host rest (.error e)
  | .ok mr => .reStore host rest ⟨snap, hostKey host qtype, ns, asked, reply, mr⟩

/-- The answer a call is about to store. -/
def storing : Task → Option Answer
  | .exStore _ _ answer => some answer
  | .reStore _ _ answer => some answer
  | _ => none

/-- What a call does once it has stored its answer. -/
def stored : Task → Task
  | .exStore packet mq answer => .exchanged packet false (.ok (setMsgId answer.reply mq.id))
  | .reStore host rest answer => reDone answer.snap host rest (.ok answer.msg.answerIps)
  | task => task

end Task

/-! ## Steps -/

/-- A reply and what it answers. -/
structure Reception where
  server : NameServer
  asked : Bytes
  reply : Bytes
deriving Repr, DecidableEq

/-- Where a reload stands: it has read its file, or it has replaced the configuration and
has yet to clear the cache. -/
inductive ReloadPc
  | idle
  | parsed (file : FileValues)
  | clearing
deriving Repr, DecidableEq

/-- A resolver, the calls on it and its reloads.  The last three fields are history: the
reloads that have written, the replies received, and the answer each entry of the cache
comes from. -/
structure Sys where
  state : State
  cache : ResolverCache
  stopped : Bool
  tasks : Nat → Task
  reloads : Nat → ReloadPc
  gen : Nat
  received : List Reception
  origin : String → Option Answer

namespace Sys

def init (st : State) : Sys :=
  { state := st, cache := ResolverCache.empty, stopped := false, tasks := fun _ => .idle
    reloads := fun _ => .idle, gen := 0, received := [], origin := fun _ => none }

def snap (s : Sys) : Snapshot := ⟨s.state, s.gen⟩

def setTask (s : Sys) (d : Nat) (task : Task) : Sys :=
  { s with tasks := Function.update s.tasks d task }

@[simp] theorem setTask_self (s : Sys) (d : Nat) (task : Task) : (s.setTask d task).tasks d = task :=
  Function.update_self _ _ _

@[simp] theorem setTask_other (s : Sys) {d e : Nat} (h : e ≠ d) (task : Task) :
    (s.setTask d task).tasks e = s.tasks e :=
  Function.update_of_ne h _ _

/-- The cache has been looked at. -/
def look (s : Sys) (key : String) (now : Nat) : Sys :=
  { s with cache := (s.cache.load key now).2 }

def receive (s : Sys) (r : Reception) : Sys := { s with received := s.received ++ [r] }

/-- An answer is stored, if the cache takes it. -/
def store (s : Sys) (a : Answer) (now : Nat) : Sys :=
  { s with
    cache := s.cache.apply now (.store a.call)
    origin := if a.key ≠ "" ∧ a.snap.st.ttlNegative = false then
      Function.update s.origin a.key (some a) else s.origin }

end Sys

inductive Action
  | exchange (d : Nat) (packet : Bytes)
  | resolve (d : Nat) (host : String)
  | system (d : Nat)
  | look (d : Nat)
  | reply (d : Nat)
  | fail (d : Nat)
  | store (d : Nat)
  | reload (i : Nat) (file : FileValues)
  | write (i : Nat)
  | clear (i : Nat)
  | stop
deriving Repr, DecidableEq

inductive Step (s : Sys) : Action → Sys → Prop
  | exchange {d : Nat} (packet : Bytes) (hidle : s.tasks d = .idle) :
      Step s (.exchange d packet) (s.setTask d (.exchange s.snap packet))
  | exHit {d : Nat} (now : Nat) {snap : Snapshot} {packet : Bytes} {mq : Message} {bytes : Bytes}
      (hpc : s.tasks d = .exLook snap packet mq) (hone : mq.questions.length = 1)
      (hhit : (s.cache.load mq.key now).1 = some bytes) :
      Step s (.look d) ((s.look mq.key now).setTask d
        (.exchanged packet true (.ok (setMsgId bytes mq.id))))
  | exMiss {d : Nat} (now : Nat) {snap : Snapshot} {packet : Bytes} {mq : Message}
      (hpc : s.tasks d = .exLook snap packet mq) (hone : mq.questions.length = 1)
      (hmiss : (s.cache.load mq.key now).1 = none) :
      Step s (.look d) ((s.look mq.key now).setTask d (.exMiss snap packet mq))
  | exMany {d : Nat} {snap : Snapshot} {packet : Bytes} {mq : Message}
      (hpc : s.tasks d = .exLook snap packet mq) (hmany : mq.questions.length ≠ 1) :
      Step s (.look d) (s.setTask d (.exMiss snap packet mq))
  | exReply {d : Nat} {snap : Snapshot} {packet : Bytes} {mq : Message} {asked : Bytes}
      {ns : NameServer} {rest : List NameServer} (reply : Bytes)
      (hpc : s.tasks d = .exAsk snap packet mq asked ns rest) :
      Step s (.reply d) ((s.receive ⟨ns, asked, reply⟩).setTask d
        (.exReply snap packet mq asked ns reply))
  | exError {d : Nat} {snap : Snapshot} {packet : Bytes} {mq : Message} {asked : Bytes}
      {ns : NameServer} {rest : List NameServer} (e : String)
      (hpc : s.tasks d = .exAsk snap packet mq asked ns rest) :
      Step s (.fail d) (s.setTask d (.exError snap packet mq asked e rest))
  | resolve {d : Nat} (host : String) (hidle : s.tasks d = .idle) :
      Step s (.resolve d host) (s.setTask d (.resolve s.snap host))
  | system {d : Nat} {host prefer : String} (result : Except String (List Net.IpAddr))
      (hpc : s.tasks d = .reSystem host prefer) :
      Step s (.system d) (s.setTask d (.resolved result))
  | reHit {d : Nat} (now : Nat) {snap : Snapshot} {host : String} {ns : NameServer} {qtype : UInt16}
      {rest : List (NameServer × UInt16)} {bytes : Bytes}
      (hpc : s.tasks d = .reLook snap host ns qtype rest)
      (hhit : (s.cache.load (hostKey host qtype) now).1 = some bytes) :
      Step s (.look d) ((s.look (hostKey host qtype) now).setTask d (.reHit snap host rest bytes))
  | reMiss {d : Nat} (now : Nat) {snap : Snapshot} {host : String} {ns : NameServer} {qtype : UInt16}
      {rest : List (NameServer × UInt16)} (id : UInt16)
      (hpc : s.tasks d = .reLook snap host ns qtype rest)
      (hmiss : (s.cache.load (hostKey host qtype) now).1 = none) :
      Step s (.look d) ((s.look (hostKey host qtype) now).setTask d
        (.reMiss snap host ns qtype rest id))
  | reReply {d : Nat} {snap : Snapshot} {host : String} {ns : NameServer} {qtype : UInt16}
      {rest : List (NameServer × UInt16)} {asked : Bytes} (reply : Bytes)
      (hpc : s.tasks d = .reAsk snap host ns qtype rest asked) :
      Step s (.reply d) ((s.receive ⟨ns, asked, reply⟩).setTask d
        (.reReply snap host ns qtype rest asked reply))
  | reError {d : Nat} {snap : Snapshot} {host : String} {ns : NameServer} {qtype : UInt16}
      {rest : List (NameServer × UInt16)} {asked : Bytes} (e : String)
      (hpc : s.tasks d = .reAsk snap host ns qtype rest asked) :
      Step s (.fail d) (s.setTask d (.reDone snap host rest (.error e)))
  | store {d : Nat} {answer : Answer} (now : Nat) (hpc : (s.tasks d).storing = some answer) :
      Step s (.store d) ((s.store answer now).setTask d (s.tasks d).stored)
  | reload {i : Nat} (file : FileValues) (hrun : s.stopped = false)
      (hidle : s.reloads i = .idle) :
      Step s (.reload i file) { s with reloads := Function.update s.reloads i (.parsed file) }
  | write {i : Nat} {file : FileValues} (hpc : s.reloads i = .parsed file) :
      Step s (.write i) { s with
        state := s.state.reload file, gen := s.gen + 1
        reloads := Function.update s.reloads i .clearing }
  | clear {i : Nat} (hpc : s.reloads i = .clearing) :
      Step s (.clear i) { s with
        cache := s.cache.clear, reloads := Function.update s.reloads i .idle }
  | stop : Step s .stop { s with stopped := true }

/-! ## What a call sends on -/

namespace Task

/-- `exchange` with a packet that the cache has no reply to, up to the first server. -/
def exUncached (snap : Snapshot) (packet : Bytes) : Task :=
  match exchange snap packet with
  | .exLook snap packet mq => exMiss snap packet mq
  | task => task

end Task

/-- The call ends with an error before it has asked a server, or what it sends on says what
the client's packet says. -/
def Preserves (snap : Snapshot) (packet : Bytes) (w : Dns.Message) : Prop :=
  (∃ e, Task.exUncached snap packet = .exchanged packet false (.error e))
    ∨ ∃ mq asked ns rest, Task.exUncached snap packet = .exAsk snap packet mq asked ns rest
      ∧ Carries packet asked w

/-- No server is asked: there is no question, a label has become too long for the encoder,
or there is no server. -/
def Silent (snap : Snapshot) (mq : Message) : Prop :=
  mq.questions = [] ∨ TooLong mq ∨ snap.st.servers = []

/-- A call that asks a server sends on the packet with a client subnet. -/
theorem exUncached_eq {snap : Snapshot} {ip : Net.IpAddr} {packet : Bytes} {w : Dns.Message}
    (hsrc : snap.st.srcIp = some ip) (hw : Dns.ReadsMessage packet w) :
    Silent snap (Message.ofWire w) ∧
        (∃ e, Task.exUncached snap packet = .exchanged packet false (.error e))
      ∨ ¬ Silent snap (Message.ofWire w) ∧ ∃ asked ns rest,
        rewrite ip (Message.ofWire w) = .ok asked ∧
          Task.exUncached snap packet = .exAsk snap packet (Message.ofWire w) asked ns rest := by
  have hdecode := Message.decode_eq_ok.mpr ⟨w, hw, rfl⟩
  by_cases hnone : (Message.ofWire w).questions = []
  · refine .inl ⟨.inl hnone, "empty question", ?_⟩
    simp only [Task.exUncached, Task.exchange, hdecode, if_pos hnone]
  have hmiss : Task.exUncached snap packet = Task.exMiss snap packet (Message.ofWire w) := by
    simp only [Task.exUncached, Task.exchange, hdecode, if_neg hnone]
  have hsent : outbound snap.st.srcIp packet (Message.ofWire w) = rewrite ip (Message.ofWire w) := by
    rw [hsrc]
    rfl
  rw [hmiss, Task.exMiss, hsent]
  have hok : (∃ out, rewrite ip (Message.ofWire w) = .ok out) ↔ _ := rewrite_ok_iff hw
  cases hout : rewrite ip (Message.ofWire w) with
  | error e =>
    have hlong : TooLong (Message.ofWire w) := by
      by_contra hfits
      obtain ⟨out, h⟩ := hok.mpr hfits
      rw [hout] at h
      cases h
    exact .inl ⟨.inr (.inl hlong), e, rfl⟩
  | ok asked =>
    have hfits : ¬ TooLong (Message.ofWire w) := hok.mp ⟨asked, hout⟩
    cases hservers : snap.st.servers with
    | nil => exact .inl ⟨.inr (.inr hservers), _, rfl⟩
    | cons ns rest =>
      refine .inr ⟨?_, asked, ns, rest, rfl, rfl⟩
      rintro (h | h | h)
      · exact hnone h
      · exact hfits h
      · rw [hservers] at h
        cases h

/-- A query for the address of a name. -/
def addressQuery (name : List Dns.Label) : Dns.Message :=
  { id := 7, flags := FLAG_RD, questions := [⟨name, TYPE_A, CLASS_IN⟩], answers := []
    authorities := [], additionals := [] }

def addressPacket (name : List Dns.Label) : Bytes :=
  (addressQuery name).header
    ++ (Dns.encodeLabels name ++ (Bytes.be 2 TYPE_A.toNat ++ Bytes.be 2 CLASS_IN.toNat))

theorem reads_addressPacket {name : List Dns.Label}
    (h : ∀ l ∈ name, 0 < l.length ∧ l.length < 64) :
    Dns.ReadsMessage (addressPacket name) (addressQuery name) := by
  have hat : Bytes.At (addressPacket name) 0 (addressPacket name) := List.prefix_rfl
  have hbody := Bytes.At.right hat
  rw [Dns.Message.length_header] at hbody
  have hquestion : Dns.ReadsQuestion (addressPacket name) 12 ⟨name, TYPE_A, CLASS_IN⟩
      (12 + (Dns.encodeLabels name).length + 4) :=
    ⟨_, .encode h hbody.left, rfl, hbody.right⟩
  have hzero : 0 < 65536 := by decide
  have hone : 1 < 65536 := by decide
  exact ⟨hone, hzero, hzero, hzero, hat.left, _, _, _, _,
    .cons hquestion (.nil _), .nil _, .nil _, .nil _⟩

theorem decode_addressPacket {name : List Dns.Label}
    (h : ∀ l ∈ name, 0 < l.length ∧ l.length < 64) :
    Message.decode (addressPacket name) = .ok (Message.ofWire (addressQuery name)) :=
  Message.decode_eq_ok.mpr ⟨_, reads_addressPacket h, rfl⟩

theorem exchange_addressPacket {name : List Dns.Label}
    (h : ∀ l ∈ name, 0 < l.length ∧ l.length < 64) (snap : Snapshot) :
    Task.exchange snap (addressPacket name)
      = .exLook snap (addressPacket name) (Message.ofWire (addressQuery name)) := by
  unfold Task.exchange
  rw [decode_addressPacket h]
  exact if_neg (List.cons_ne_nil _ _)

/-- A resolver with a client address and a server. -/
def subnetSnapshot : Snapshot :=
  { st :=
      { servers := [⟨"8.8.8.8:53", "udp", ""⟩], domain := "", ttl := 0, ttlNegative := false
        prefer := "", srcIp := some (.v4 ⟨127, 0, 0, 1⟩), optTtl := 0, optTtlNegative := false
        optPrefer := "", optSrcIp := none }
    gen := 0 }

end RtProxy.Resolver
