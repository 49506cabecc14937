import RtProxy.Chain.Wire
import RtProxy.Handler.Forward
import RtProxy.Handler.Http
import RtProxy.Handler.Socks4
import RtProxy.Handler.Socks5
import RtProxy.Http2.Serve
import RtProxy.Lib.Traces
import RtProxy.Server.Start

/-!
How often a target that cannot be reached is dialled.

The retry parameter of a listener is the count of its handler and, unless it is zero, that of
its chain, and the handlers that dial through a chain with a count of its own try as often
as the two multiplied.
-/

namespace RtProxy

open Act

/-! ## The chain -/

section chain

variable {env : Env} {chain : Chain} {t : String} {options : ChainOptions}
  {x : Action ChainError Conn} {k : Nat}

/-- Every call of `dial_once` for the target fails. -/
def Chain.Dead (env : Env) (chain : Chain) (t : String) : Prop :=
  (chain.dialOnce env t chain.defaultOptions).Fails

theorem fails_tries (h : x.Fails) (n : Nat) (last : ChainError) : (tries x n last).Fails := by
  induction n generalizing last with
  | zero => exact fails_fail last
  | succ n ih => exact fails_attempt_bind h fun e => ih e

theorem counts_tries {v : Event} (h : x.Fails) (hx : x.Counts v k) (n : Nat) (last : ChainError) :
    (tries x n last).Counts v (n * k) := by
  induction n generalizing last with
  | zero =>
    rw [Nat.zero_mul]
    exact counts_of_emits (emits_fail last)
  | succ n ih =>
    rw [Nat.succ_mul, Nat.add_comm (n * k) k]
    refine counts_attempt_bind h hx fun e => ?_
    exact ih e

theorem fails_noted (h : x.Fails) : (noted t x).Fails :=
  fails_attempt_bind h fun e _ _ => ⟨e, rfl⟩

theorem counts_noted (h : x.Fails) (hx : x.Counts (.failed t) k) :
    (noted t x).Counts (.failed t) (k + 1) := by
  refine counts_attempt_bind h hx fun e s log => ?_
  show [Event.failed t].count (.failed t) = 1
  exact List.count_singleton_self

/-- A call leaves its own trace only when it is over. -/
theorem counts_dialOnce : (chain.dialOnce env t options).Counts (.failed t) 0 := by
  refine counts_of_emits (Emits.mono (dialOnce_toward (D := fun _ => True) (fun _ _ _ => trivial)
    (lookupWithin_any _ _)) ?_)
  rintro e he rfl
  cases he.1

theorem fails_dialWithOptions (h : (chain.dialOnce env t options).Fails) :
    (chain.dialWithOptions env t options).Fails := by
  intro s log
  have hrun : (emit (.dial t) : Action ChainError Unit) s log = ⟨.ok (), s, [.dial t]⟩ := rfl
  rw [Chain.dialWithOptions, bind_ok hrun]
  exact fails_tries (fails_noted h) _ _ _ _

theorem counts_dialWithOptions (h : (chain.dialOnce env t options).Fails) :
    (chain.dialWithOptions env t options).Counts (.failed t)
      (retryCount chain.retries options.retries) := by
  intro s log
  have hrun : (emit (.dial t) : Action ChainError Unit) s log = ⟨.ok (), s, [.dial t]⟩ := rfl
  have htries := counts_tries (fails_noted h) (counts_noted h counts_dialOnce)
    (retryCount chain.retries options.retries) .emptyChain
  rw [Chain.dialWithOptions, count_bind_ok hrun htries]
  simp

theorem retryCount_eq (chain call : Nat) : retryCount chain call =
    if 0 < call then call else max 1 chain := by
  unfold retryCount
  split_ifs <;> omega

theorem Chain.Dead.fails (h : chain.Dead env t) : (chain.dial env t).Fails :=
  fails_dialWithOptions h

theorem Chain.Dead.counts (h : chain.Dead env t) :
    (chain.dial env t).Counts (.failed t) (max 1 chain.retries) := by
  have hcount : retryCount chain.retries chain.retries = max 1 chain.retries := by
    rw [retryCount_eq]
    split_ifs <;> omega
  rw [← hcount]
  exact counts_dialWithOptions h

/-- The chain with a count of one, as the SOCKS handlers dial through it, fails as well. -/
theorem Chain.Dead.socks {o : HandlerOptions} (h : o.chainOrEmpty.Dead env t) :
    (socksDial env o t).Fails ∧
      (socksDial env o t).Counts (.failed t) (retryCount o.chainOrEmpty.retries o.retries) := by
  have honce : ({ o.chainOrEmpty with retries := 1 }.dialOnce env t
      { retries := 1, hosts := o.chainOrEmpty.hosts, resolver := o.chainOrEmpty.resolver }).Fails :=
    h
  have hcounts := counts_tries (fails_dialWithOptions honce) (counts_dialWithOptions honce)
    (retryCount o.chainOrEmpty.retries o.retries) .emptyChain
  have hone : retryCount 1 1 = 1 := rfl
  rw [hone, Nat.mul_one] at hcounts
  exact ⟨fails_tries (fails_dialWithOptions honce) _ _, hcounts⟩

end chain

/-! ## The handlers -/

section handlers

variable {env : Env} {o : HandlerOptions} {t : String} {k : Nat}

/-- An answer that is the last thing a handler does. -/
theorem counts_reply_fail (bs : Bytes) (e : HandlerError) :
    (do reply env bs; fail e : Action HandlerError Unit).Counts (.failed t) 0 := by
  intro s log
  rw [reply_fail_events]
  simp

/-- A request that the checks let through. -/
theorem counts_checked {ε α : Type} {target : String} {forbidden bypass x : Action ε α}
    (hallows : o.allows "tcp" target = true) (hbypass : o.bypasses target = false)
    (hx : x.Counts (.failed t) k) :
    (checked o target forbidden bypass x).Counts (.failed t) k := by
  intro s log
  have hchecks : (checkEvents o target).count (.failed t) = 0 := by
    unfold checkEvents
    split_ifs <;> simp
  rw [checked_run]
  simp only [hallows, hbypass, if_true, Bool.false_eq_true, if_false, List.count_append, hchecks]
  rw [hx, Nat.zero_add]

/-- A target that is not bypassed. -/
theorem counts_bypassed {ε α : Type} {target : String} {f : Bool → Action ε α}
    (h : o.bypasses target = false) (hf : (f false).Counts (.failed t) k) :
    (bypassed o target >>= f).Counts (.failed t) k := by
  intro s log
  rw [← h] at hf
  rw [count_bind_ok (bypassed_run o target s log) hf]
  split_ifs <;> simp

/-- A client whose credentials are accepted. -/
theorem counts_authenticate {α : Type} {presented : Bool} {user password : String}
    {f : Bool → Action HandlerError α} (h : o.accepts user password = true)
    (hf : (f true).Counts (.failed t) k) :
    (authenticate o presented user password >>= f).Counts (.failed t) k := by
  intro s log
  rw [← h] at hf
  rw [count_bind_ok (authenticate_run o presented user password s log) hf]
  split_ifs <;> simp

theorem HttpHandler.counts_serve {r : HttpHandler.Request} {pipelined : Bytes}
    (hallows : o.allows "tcp" (r.host env.toLibs) = true)
    (hbypass : o.bypasses (r.host env.toLibs) = false)
    (haccepts : o.accepts (basicProxyAuth env.toLibs r.proxyAuth).1
      (basicProxyAuth env.toLibs r.proxyAuth).2.1 = true)
    (hdead : o.chainOrEmpty.Dead env (r.host env.toLibs)) :
    (HttpHandler.serve env o r pipelined).Counts (.failed (r.host env.toLibs))
      (max 1 o.retries * max 1 o.chainOrEmpty.retries) := by
  refine counts_checked hallows hbypass (counts_authenticate haccepts ?_)
  have hn : (if 0 < o.retries then o.retries else 1) = max 1 o.retries := by
    split_ifs <;> omega
  have hconnect := counts_tries hdead.fails hdead.counts
    (if 0 < o.retries then o.retries else 1) .emptyChain
  rw [hn] at hconnect
  rw [← hn, ← Nat.add_zero (_ * _)]
  refine counts_attempt_bind (fails_tries hdead.fails _ _) ?_ fun e => ?_
  · rw [hn]
    exact hconnect
  · exact counts_reply_fail _ _

theorem Http2Handler.counts_sendStatus {frames : Nat → List (String × String) → Bytes}
    (status : Nat) : (sendStatus env o frames status).Counts (.failed t) 0 := by
  refine counts_of_emits (emits_bind (emits_attempt ?_) fun _ => emits_pure _)
  exact emits_mapErr _ (emits_perform (by simp))

theorem Http2Handler.counts_serveRequest {frames : Nat → List (String × String) → Bytes}
    {engine : Sni.Engine} {request : Http2Request} {target : String}
    (htarget : requestTarget request = some target)
    (hbypass : o.bypasses (dialled request engine target) = false)
    (haccepts : o.accepts
      (basicProxyAuth env.toLibs (headerStr request "proxy-authorization")).1
      (basicProxyAuth env.toLibs (headerStr request "proxy-authorization")).2.1 = true)
    (hdead : o.chainOrEmpty.Dead env (dialled request engine target)) :
    (serveRequest env o frames engine request).Counts
      (.failed (dialled request engine target))
      (max 1 o.retries * max 1 o.chainOrEmpty.retries) := by
  unfold serveRequest
  rw [htarget]
  refine counts_bypassed hbypass ?_
  simp only [Bool.false_eq_true, if_false]
  refine counts_authenticate haccepts ?_
  rw [Nat.max_comm 1 o.retries, ← Nat.add_zero (_ * _)]
  refine counts_attempt_bind (fails_tries hdead.fails _ _)
    (counts_tries hdead.fails hdead.counts _ _) fun e => ?_
  exact counts_sendStatus 502

theorem Socks4.counts_handleConnect (hallows : o.allows "tcp" t = true)
    (hbypass : o.bypasses t = false) (hdead : o.chainOrEmpty.Dead env t) :
    (Socks4.handleConnect env o t).Counts (.failed t)
      (retryCount o.chainOrEmpty.retries o.retries) := by
  refine counts_checked hallows hbypass ?_
  rw [← Nat.add_zero (retryCount _ _)]
  refine counts_attempt_bind hdead.socks.1 hdead.socks.2 fun e => ?_
  exact counts_reply_fail _ _

theorem Socks5.counts_handleConnect (hallows : o.allows "tcp" t = true)
    (hbypass : o.bypasses t = false) (hdead : o.chainOrEmpty.Dead env t) :
    (Socks5.handleConnect env o t).Counts (.failed t)
      (retryCount o.chainOrEmpty.retries o.retries) := by
  refine counts_checked hallows hbypass ?_
  rw [← Nat.add_zero (retryCount _ _)]
  refine counts_attempt_bind hdead.socks.1 hdead.socks.2 fun e => ?_
  exact counts_reply_fail _ _

end handlers

/-! ## Port forwarding -/

namespace TcpDirectForwardHandler

variable {env : Env} {shared : Shared} {h : TcpDirectForwardHandler} {t : String}

/-- The group has its targets and its filters, whatever the marks. -/
def Serves (shared : Shared) (h : TcpDirectForwardHandler) : Prop :=
  ∀ log, (shared.group log).nodes.map (·.node) = h.group.nodes.map (·.node) ∧
    (shared.group log).selector.filters = h.group.selector.filters

/-- The handler has one target. -/
def Single (h : TcpDirectForwardHandler) (t : String) : Prop :=
  h.group.nodes.map (·.node.addr) = [t] ∧ HasPort t

/-- The only target is selected, however often it has failed. -/
theorem select_run {raddr : String} {ip : Option String} {b : Balancing} {o : HandlerOptions}
    (hh : h = .new raddr ip b o) (hserves : Serves shared h) (hsingle : h.Single t)
    (node : GroupNode) (s : Bytes) (log : List Event) :
    ∃ n, h.target n = t ∧ select shared node s log = ⟨.ok n, s, []⟩ := by
  obtain ⟨haddrs, hport⟩ := hsingle
  obtain ⟨hnodes, hfilters⟩ := hserves log
  have hmap : (shared.group log).nodes.map (·.node.addr) = [t] := by
    have heq := congrArg (List.map Node.addr) hnodes
    rw [List.map_map, List.map_map] at heq
    exact heq.trans haddrs
  obtain ⟨n, hn, hnt⟩ := List.map_eq_singleton_iff.mp hmap
  have hvalid : valid (shared.group log).nodes = [n] := by
    rw [hn, valid, List.filter_singleton, hnt, decide_eq_true hport]
    rfl
  have hne : (shared.group log).nodes ≠ [] := by
    rw [hn]
    exact List.cons_ne_nil n []
  have hnonempty : t ≠ "" := by
    rintro rfl
    exact absurd hport (by decide)
  refine ⟨n, by rw [target, hnt, if_neg hnonempty], ?_⟩
  unfold select
  rw [ask_bind, ask_bind, if_neg hne, NodeGroup.next_of_ne_nil hne]
  cases hsel : (shared.group log).selector with
  | default counter =>
    rw [hsel, hh] at hfilters
    cases hfilters
  | filter fs =>
    rw [hsel, hh] at hfilters
    have hfs : (fs.select (shared.surroundings log) (shared.group log).nodes).1 = .ok n :=
      FilterSelector.select_single (Option.some.inj hfilters) hvalid
    simp only [Selector.select, hfs]
    rfl

/-- The loop ends with an error, after all its dials. -/
theorem attempts_run {raddr : String} {ip : Option String} {b : Balancing} {o : HandlerOptions}
    (hh : h = .new raddr ip b o) (hserves : Serves shared h) (hsingle : h.Single t)
    (hdead : h.options.chainOrEmpty.Dead env t) (n : Nat) (node : GroupNode)
    (last : Option ChainError) (s : Bytes) (log : List Event) :
    ∃ last' s' new, attempts env shared h n node last s log = ⟨.ok (.error last'), s', new⟩ ∧
      new.count (.failed t) = n * max 1 h.options.chainOrEmpty.retries := by
  induction n generalizing node last s log with
  | zero => exact ⟨last, s, [], rfl, by simp⟩
  | succ n ih =>
    obtain ⟨m, hm, hselect⟩ := select_run hh hserves hsingle node s log
    obtain ⟨e, he⟩ := hdead.fails s log
    have hdial : (attempt (h.options.chainOrEmpty.dial env (h.target m)) :
        Action HandlerError _) s log = ⟨.ok (.error e),
          (h.options.chainOrEmpty.dial env t s log).state,
          (h.options.chainOrEmpty.dial env t s log).events⟩ := by
      rw [hm, attempt_run, he]
    obtain ⟨last', s', new, hrun, hcount⟩ := ih m (some e)
      (h.options.chainOrEmpty.dial env t s log).state
      (log ++ (h.options.chainOrEmpty.dial env t s log).events)
    refine ⟨last', s', (h.options.chainOrEmpty.dial env t s log).events ++ new, ?_, ?_⟩
    · unfold attempts
      rw [bind_silent hselect]
      exact bind_run hdial hrun
    · rw [List.count_append, hdead.counts, hcount, Nat.succ_mul, Nat.add_comm]

theorem counts_handle {raddr : String} {ip : Option String} {b : Balancing} {o : HandlerOptions}
    (hh : h = .new raddr ip b o) (hserves : Serves shared h) (hsingle : h.Single t)
    (hdead : h.options.chainOrEmpty.Dead env t) :
    (handle env shared h).Counts (.failed t)
      (max 1 h.options.retries * max 1 h.options.chainOrEmpty.retries) := by
  intro s log
  have hn : (if 0 < h.options.retries then h.options.retries else 1) = max 1 h.options.retries := by
    split_ifs <;> omega
  obtain ⟨last, s', new, hrun, hcount⟩ := attempts_run hh hserves hsingle hdead
    (if 0 < h.options.retries then h.options.retries else 1) .default none s log
  unfold handle
  have hend : (fail (.proxy s!"failed to connect to {h.raddr}: {lastText last}") :
      Action HandlerError Unit).Counts (.failed t) 0 := counts_of_emits (emits_fail _)
  rw [count_bind_ok hrun hend, hcount, hn, Nat.add_zero]

end TcpDirectForwardHandler

/-! ## The retry parameter -/

/-- A request to a listener, for the target that it names or that the listener has. -/
inductive Served
  | http (r : HttpHandler.Request) (pipelined : Bytes)
  | http2 (request : Http2Request)
  | socks4 (target : String)
  | socks5 (target : String)
  | forward (raddr : String) (ip : Option String) (b : Balancing)

namespace Served

section

variable (env : Env) (o : HandlerOptions) (shared : Shared) (engine : Sni.Engine)
  (frames : Nat → List (String × String) → Bytes) (t : String)

def run : Served → Action HandlerError Unit
  | http r pipelined => HttpHandler.serve env o r pipelined
  | http2 request => Http2Handler.serveRequest env o frames engine request
  | socks4 target => Socks4.handleConnect env o target
  | socks5 target => Socks5.handleConnect env o target
  | forward raddr ip b => TcpDirectForwardHandler.handle env shared (.new raddr ip b o)

/-- The request is for the target, and no check refuses it. -/
def Admitted : Served → Prop
  | http r _ => r.host env.toLibs = t ∧ o.allows "tcp" t = true ∧ o.bypasses t = false ∧
      o.accepts (basicProxyAuth env.toLibs r.proxyAuth).1
        (basicProxyAuth env.toLibs r.proxyAuth).2.1 = true
  | http2 request =>
      (Http2Handler.requestTarget request).map (Http2Handler.dialled request engine) = some t ∧
        o.bypasses t = false ∧
          o.accepts (basicProxyAuth env.toLibs
              (Http2Handler.headerStr request "proxy-authorization")).1
            (basicProxyAuth env.toLibs
              (Http2Handler.headerStr request "proxy-authorization")).2.1 = true
  | socks4 target => target = t ∧ o.allows "tcp" t = true ∧ o.bypasses t = false
  | socks5 target => target = t ∧ o.allows "tcp" t = true ∧ o.bypasses t = false
  | forward raddr ip b => TcpDirectForwardHandler.Serves shared (.new raddr ip b o) ∧
      (TcpDirectForwardHandler.new raddr ip b o).Single t

end

/-- The handler has a loop of its own around the retries of the chain. -/
def Nested : Served → Prop
  | http _ _ | http2 _ | forward _ _ _ => True
  | socks4 _ | socks5 _ => False

instance : (q : Served) → Decidable q.Nested
  | http _ _ | http2 _ | forward _ _ _ => isTrue trivial
  | socks4 _ | socks5 _ => isFalse id

/-- The dials of an unreachable target.  A zero leaves the count of the chain; a negative
number is one from `2 ^ 63` on. -/
def dialCount (q : Served) (r : Int) (chainRetries : Nat) : Nat :=
  if r = 0 then max 1 chainRetries
  else if q.Nested then Server.asUsize r * Server.asUsize r else Server.asUsize r

section

variable {env : Env} {o : HandlerOptions} {shared : Shared} {engine : Sni.Engine}
  {frames : Nat → List (String × String) → Bytes} {t : String} {q : Served}

/-- One loop in the other, or one for both. -/
theorem counts_run (hq : q.Admitted env o shared engine t) (hdead : o.chainOrEmpty.Dead env t) :
    (q.run env o shared engine frames).Counts (.failed t)
      (if q.Nested then max 1 o.retries * max 1 o.chainOrEmpty.retries
        else retryCount o.chainOrEmpty.retries o.retries) := by
  cases q with
  | http r pipelined =>
    obtain ⟨rfl, hallows, hbypass, haccepts⟩ := hq
    rw [if_pos (show (http r pipelined).Nested from trivial)]
    exact HttpHandler.counts_serve hallows hbypass haccepts hdead
  | http2 request =>
    obtain ⟨htarget, hbypass, haccepts⟩ := hq
    obtain ⟨target, hsome, rfl⟩ := Option.map_eq_some_iff.mp htarget
    rw [if_pos (show (http2 request).Nested from trivial)]
    exact Http2Handler.counts_serveRequest hsome hbypass haccepts hdead
  | socks4 target =>
    obtain ⟨rfl, hallows, hbypass⟩ := hq
    rw [if_neg (show ¬ (socks4 target).Nested from id)]
    exact Socks4.counts_handleConnect hallows hbypass hdead
  | socks5 target =>
    obtain ⟨rfl, hallows, hbypass⟩ := hq
    rw [if_neg (show ¬ (socks5 target).Nested from id)]
    exact Socks5.counts_handleConnect hallows hbypass hdead
  | forward raddr ip b =>
    rw [if_pos (show (forward raddr ip b).Nested from trivial)]
    exact TcpDirectForwardHandler.counts_handle rfl hq.1 hq.2 hdead

end

/-- Only zero is no count. -/
theorem asUsize_getInt (node : Node) (key : String) :
    Server.asUsize (node.getInt key) = 0 ↔ node.getInt key = 0 := by
  have hrange : -2 ^ 63 ≤ node.getInt key ∧ node.getInt key < 2 ^ 63 := by
    unfold Node.getInt
    cases h : (node.get key).bind Text.parseI64 with
    | none => decide
    | some r =>
      obtain ⟨v, -, hv⟩ := Option.bind_eq_some_iff.mp h
      exact Text.range_of_parseI64 hv
  unfold Server.asUsize
  omega

def unreachable : Env := { Env.calm Libs.blank with fails := fun _ _ => some .timeout }

/-- `-L tcp://:8080/a:1?retry=+3`. -/
def retryingListener : Node :=
  { Node.empty with addr := ":8080", host := ":8080", protocol := "tcp", values := [("retry", "+3")] }

def retryingOptions : HandlerOptions :=
  Server.buildHandlerOptions Server.plainPatterns (fun _ => none) none none retryingListener .empty

def oneTarget : TcpDirectForwardHandler := .new "a:1" none ⟨"round", 1, DEFAULT_FAIL_TIMEOUT, 0⟩ retryingOptions

def alone : Shared where
  group _ := oneTarget.group
  surroundings _ := FilterSelector.noon

end Served
end RtProxy
