import RtProxy.Chain.Wire
import RtProxy.Relay.Request

/-!
The relay server (`RelayHandler` in `relay.rs`).

A server may have targets of its own.  It then asks the rules about the address of the
request and dials one of the targets.
-/

namespace RtProxy
namespace Relay

open Act

structure RelayHandler where
  raddr : String
  group : List Node
  options : HandlerOptions

/-- The targets stand between commas. -/
def RelayHandler.new (raddr : String) (o : HandlerOptions) : RelayHandler where
  raddr := raddr
  group := ((Text.split raddr ',').filter (· ≠ "")).map fun addr => { Node.empty with addr := addr }
  options := o

/-- `NodeGroup::next` of a group without filters, on the `n`-th call. -/
def nextNode (nodes : List Node) (n : UInt64) : Option Node := nodes[n.toNat % nodes.length]?

/-- Where a request is sent to. -/
def RelayHandler.target (h : RelayHandler) (n : UInt64) (raddr : String) : String :=
  match nextNode h.group n with
  | some node => node.addr
  | none => raddr

def network (r : Request) : String := if r.udp then "udp" else "tcp"

def relayReply (status : UInt8) : Bytes := [RELAY_VERSION1, status, 0x00, 0x00]

section

variable (env : Env) (h : RelayHandler) (n : UInt64)

def sendRelayReply (status : UInt8) : Action HandlerError Unit := reply env (relayReply status)

/-- The dial.  The answer that it succeeded goes with the first bytes from the target. -/
def relayTo (target : String) : Action HandlerError Unit := do
  match ← attempt (h.options.chainOrEmpty.dial env target) with
  | .ok cc => splice cc
  | .error e =>
    sendRelayReply env RELAY_STATUS_SERVICE_UNAVAILABLE
    fail (.chain e)

def serve (r : Request) : Action HandlerError Unit := do
  if r.features.raddr = "" ∧ h.group = [] then
    sendRelayReply env RELAY_STATUS_BAD_REQUEST
    fail (.proxy "relay: no target address")
  else if ← can h.options (network r) r.features.raddr then
    relayTo env h (h.target n r.features.raddr)
  else
    sendRelayReply env RELAY_STATUS_FORBIDDEN
    fail .forbidden

/-- `handle`, if the group has been asked `n` times. -/
def handle : Action HandlerError Unit := do
  let r ← take readRequest
  if ← authenticate h.options (r.features.user ≠ "") r.features.user r.features.pass then
    serve env h n r
  else
    sendRelayReply env RELAY_STATUS_UNAUTHORIZED
    fail .authFailed

end

/-! ## What a request is promised -/

/-- What is dialled is allowed and is what was asked for, and a request that is not
served is told so. -/
structure AsAsked (o : HandlerOptions) (r : Request) (events : List Event) : Prop where
  dialled : ∀ t, .dial t ∈ events →
    o.allows (network r) t = true ∧ (r.features.raddr ≠ "" → t = r.features.raddr)
  refused : (∀ t, .dial t ∉ events) →
    ∃ status, status ≠ RELAY_STATUS_OK ∧ .reply (relayReply status) ∈ events

/-- The request is refused before a target is chosen, or the target whose turn it is will
do as well. -/
def Suits (h : RelayHandler) (n : UInt64) (r : Request) : Prop :=
  h.options.accepts r.features.user r.features.pass = false ∨
    h.options.allows (network r) r.features.raddr = false ∨
    ∀ node, nextNode h.group n = some node →
      h.options.allows (network r) node.addr = true ∧
        (r.features.raddr ≠ "" → node.addr = r.features.raddr)

section

variable {env : Env} {h : RelayHandler} {n : UInt64} {r : Request} {s : Bytes} {log : List Event}

theorem nextNode_eq_none {nodes : List Node} : nextNode nodes n = none ↔ nodes = [] := by
  unfold nextNode
  rw [List.getElem?_eq_none_iff]
  constructor
  · intro hlen
    by_contra hne
    have hpos := List.length_pos_of_ne_nil hne
    have hlt := Nat.mod_lt n.toNat hpos
    omega
  · rintro rfl
    exact Nat.zero_le _

/-- A dial begins with its target and with no other. -/
theorem dial_mem_iff {chain : Chain} {target t : String} :
    .dial t ∈ (chain.dial env target s log).events ↔ t = target := by
  constructor
  · have hall : (chain.dial env target).Emits fun e =>
        e = .dial target ∨ e = .failed target ∨ e.wire = true :=
      dialWithOptions_emits (D := fun _ => True) (.inl rfl) (.inr (.inl rfl))
        (fun e he => .inr (.inr he.1)) (fun _ _ _ => trivial) (lookupWithin_any _ _)
    intro hmem
    rcases hall s log _ hmem with heq | heq | hwire
    · cases heq
      rfl
    · cases heq
    · cases hwire
  · rintro rfl
    exact mem_bind_left List.mem_cons_self

theorem relayTo_dial_mem_iff {target t : String} :
    .dial t ∈ (relayTo env h target s log).events ↔ t = target := by
  constructor
  · have hall : (relayTo env h target).Emits fun e => ∀ t, e = .dial t → t = target := by
      refine emits_bind (emits_attempt fun s log e he t ht => ?_) fun res => ?_
      · subst ht
        exact dial_mem_iff.mp he
      · cases res with
        | ok cc =>
          refine emits_bind emits_get fun _ => emits_bind (emits_set _) fun _ => ?_
          exact emits_emit fun t ht => by cases ht
        | error e =>
          refine emits_bind (emits_mapErr _ (emits_perform fun t ht => ?_)) fun _ => emits_fail _
          cases ht
    exact fun hmem => hall s log _ hmem t rfl
  · rintro rfl
    exact mem_bind_left (dial_mem_iff.mpr rfl)

/-- A request that is told why it is not served is not connected anywhere. -/
theorem asAsked_of_refused {o : HandlerOptions} {events : List Event} {status : UInt8}
    (hok : status ≠ RELAY_STATUS_OK) (hquiet : ∀ t, .dial t ∉ events) :
    AsAsked o r (events ++ [.reply (relayReply status)]) where
  dialled t hmem := by
    rcases List.mem_append.mp hmem with hmem | hmem
    · exact absurd hmem (hquiet t)
    · cases List.mem_singleton.mp hmem
  refused _ := ⟨status, hok, List.mem_append_right _ (List.mem_singleton_self _)⟩

theorem asAsked_relayTo_iff {o : HandlerOptions} {new : List Event} (hquiet : ∀ t, .dial t ∉ new)
    {target : String} :
    AsAsked o r (new ++ (relayTo env h target s log).events) ↔
      o.allows (network r) target = true ∧ (r.features.raddr ≠ "" → target = r.features.raddr) := by
  have hmem (t : String) : .dial t ∈ new ++ (relayTo env h target s log).events ↔ t = target := by
    rw [List.mem_append, or_iff_right (hquiet t), relayTo_dial_mem_iff]
  constructor
  · exact fun hasked => hasked.dialled target ((hmem target).mpr rfl)
  · refine fun hok => ⟨fun t ht => ?_, fun hno => absurd ((hmem target).mpr rfl) (hno target)⟩
    rw [(hmem t).mp ht]
    exact hok

/-- For a request that is let in and whose address is allowed, only the target counts. -/
theorem suits_of_allowed (hacc : h.options.accepts r.features.user r.features.pass = true)
    (hall : h.options.allows (network r) r.features.raddr = true) :
    h.options.allows (network r) (h.target n r.features.raddr) = true ∧
        (r.features.raddr ≠ "" → h.target n r.features.raddr = r.features.raddr) ↔
      Suits h n r := by
  unfold Suits RelayHandler.target
  rw [hacc, hall]
  cases hnode : nextNode h.group n with
  | none => exact iff_of_true ⟨hall, fun _ => rfl⟩ (.inr (.inr fun node h => by cases h))
  | some node =>
    refine ⟨fun hok => .inr (.inr fun node' heq => ?_), fun hsuits => ?_⟩
    · cases heq
      exact hok
    · rcases hsuits with h | h | h
      · cases h
      · cases h
      · exact h node rfl

/-- The request and what it asks the rules, after the authentication. -/
theorem asAsked_serve_iff {new : List Event} (hquiet : ∀ t, .dial t ∉ new)
    (hacc : h.options.accepts r.features.user r.features.pass = true) :
    AsAsked h.options r (new ++ (serve env h n r s log).events) ↔ Suits h n r := by
  unfold serve
  split_ifs with hnone
  · have hsuits : Suits h n r := .inr (.inr fun node hnode => by
      rw [nextNode_eq_none.mpr hnone.2] at hnode
      cases hnode)
    rw [sendRelayReply, reply_fail_events]
    exact iff_of_true (asAsked_of_refused (by decide) hquiet) hsuits
  · have hcan := can_run (ε := HandlerError) h.options (network r) r.features.raddr s log
    rw [bind_ok hcan]
    have hquiet' : ∀ t, .dial t ∉ new ++
        [.can (network r) r.features.raddr (h.options.allows (network r) r.features.raddr)] := by
      intro t hmem
      rcases List.mem_append.mp hmem with hmem | hmem
      · exact hquiet t hmem
      · cases List.mem_singleton.mp hmem
    dsimp only
    rw [← List.append_assoc]
    by_cases hall : h.options.allows (network r) r.features.raddr = true
    · rw [if_pos hall, asAsked_relayTo_iff hquiet']
      exact suits_of_allowed hacc hall
    · rw [if_neg hall, sendRelayReply, reply_fail_events]
      exact iff_of_true (asAsked_of_refused (by decide) hquiet')
        (.inr (.inl (Bool.eq_false_iff.mpr hall)))

/-- A relay server dials what was asked for and allowed, or refuses, if and only if the
request is refused anyway or the target whose turn it is suits it. -/
theorem dials_as_asked_iff (env : Env) (h : RelayHandler) (n : UInt64) {s rest : Bytes}
    {r : Request} (hread : readRequest s = .ok (r, rest)) (log : List Event) :
    AsAsked h.options r (handle env h n s log).events ↔ Suits h n r := by
  unfold handle
  rw [bind_silent (take_ok hread), bind_ok (authenticate_run _ _ _ _ _ _)]
  dsimp only
  have hquiet : ∀ t, .dial t ∉ (if h.options.authenticator.isSome then
      [Event.auth (r.features.user ≠ "") r.features.user r.features.pass
        (h.options.accepts r.features.user r.features.pass)] else []) := by
    intro t hmem
    split_ifs at hmem
    · cases List.mem_singleton.mp hmem
    · cases hmem
  by_cases hacc : h.options.accepts r.features.user r.features.pass = true
  · rw [if_pos hacc]
    exact asAsked_serve_iff hquiet hacc
  · rw [if_neg hacc, sendRelayReply, reply_fail_events]
    exact iff_of_true (asAsked_of_refused (by decide) hquiet) (.inl (Bool.eq_false_iff.mpr hacc))

end

/-! A client asks for port 80 of `10.0.0.1`. -/

def askingAddr : Bytes := [ADDR_IPV4, 10, 0, 0, 1, 0, 80]

def asking : Bytes :=
  [RELAY_VERSION1, 0] ++ Bytes.be 2 (feature FEATURE_ADDR askingAddr).length ++
    feature FEATURE_ADDR askingAddr

def askingRequest : Request where
  udp := false
  features := { Features.empty with raddr := "10.0.0.1:80" }

theorem readRequest_asking : readRequest asking = .ok (askingRequest, []) := by
  have hparse : Features.empty.parse (feature FEATURE_ADDR askingAddr) =
      Features.empty.onFeature FEATURE_ADDR askingAddr := by
    have hdata : askingAddr.length < 65536 := by decide
    have hfeature := Features.parse_feature .empty hdata FEATURE_ADDR []
    rw [List.append_nil, Features.parse_nil] at hfeature
    exact hfeature
  have hon : Features.empty.onFeature FEATURE_ADDR askingAddr =
      { Features.empty with raddr := "10.0.0.1:80" } := by
    decide
  have hlen : (feature FEATURE_ADDR askingAddr).length < 65536 := by decide
  have hread := readRequest_eq 0 hlen []
  rw [List.append_nil, hparse, hon] at hread
  exact hread

/-- A server without targets, and then one with a target on a port that it forbids. -/
def freely : RelayHandler := .new "" .empty

def bound : RelayHandler :=
  .new "10.0.0.9:22" { HandlerOptions.empty with blacklist := some [⟨["tcp"], ["*"], [⟨22, 22⟩]⟩] }

theorem dials_as_asked_freely :
    AsAsked freely.options askingRequest (handle (Env.calm Libs.blank) freely 0 asking []).events := by
  have hgroup : freely.group = [] := by decide
  refine (dials_as_asked_iff (Env.calm Libs.blank) freely 0 readRequest_asking []).mpr
    (.inr (.inr fun node hnode => ?_))
  rw [nextNode_eq_none.mpr hgroup] at hnode
  cases hnode

/-- Neither is the target allowed nor is it what the client asked for. -/
theorem dials_elsewhere :
    readRequest asking = .ok (askingRequest, []) ∧
      .dial "10.0.0.9:22" ∈ (handle (Env.calm Libs.blank) bound 0 asking []).events ∧
      bound.options.allows (network askingRequest) "10.0.0.9:22" = false ∧
      ¬ AsAsked bound.options askingRequest (handle (Env.calm Libs.blank) bound 0 asking []).events := by
  have hdial : .dial "10.0.0.9:22" ∈ (handle (Env.calm Libs.blank) bound 0 asking []).events := by
    unfold handle
    rw [bind_silent (take_ok readRequest_asking)]
    decide
  have hforbidden : bound.options.allows (network askingRequest) "10.0.0.9:22" = false := by
    decide
  refine ⟨readRequest_asking, hdial, hforbidden, fun hasked => ?_⟩
  have hallowed := (hasked.dialled _ hdial).1
  rw [hforbidden] at hallowed
  cases hallowed

end Relay
end RtProxy
