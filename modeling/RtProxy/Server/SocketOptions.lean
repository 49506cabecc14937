import RtProxy.Chain.Unmarked
import RtProxy.Server.Options

/-!
The mark and the interface of a launch at the sockets of its dials.

They reach the sockets that the chain opens itself.  A launch without nodes has a chain
without settings, a session of the first hop opens its own socket, and so does a lookup
around the chain.
-/

namespace RtProxy
namespace Server

variable {libs : Libs} {launch : Launch} {chain : Chain} {hosts : Option Hosts}
  {resolver : Option Resolver} {node : Node} {address : String}

/-- The options that a launch configures. -/
def Launch.sockOpts (launch : Launch) : List Event := RtProxy.sockOpts launch.mark launch.interface

/-- A dial of the listener fails, or each socket that it opens has the options of the launch. -/
def AppliesOptions (libs : Libs) (launch : Launch) (chain : Chain) (address : String) : Prop :=
  ∀ env : Env, env.toLibs = libs → ∀ s log,
    (∃ e, (chain.dial env address s log).result = .error e) ∨
      Applied launch.sockOpts (chain.dial env address s log).events

/-- The chain through which the resolver of a listener dials has the settings of the listener. -/
theorem resolver_chain {r : Resolver} (hr : r ∈ (listenerChain hosts resolver node chain).resolver)
    {route : Route} (hroute : route ∈ r.chain) :
    (route.OpensFirst ↔ chain.OpensFirst) ∧ route.sockOpts = chain.sockOpts := by
  obtain ⟨r', -, rfl⟩ := Option.map_eq_some_iff.mp hr
  obtain rfl := Option.some.inj hroute
  exact ⟨Iff.rfl, rfl⟩

theorem appliesOptions_of_opensFirst (h : launch.chain libs.urlParse = .ok chain) (hne : launch.nodes ≠ [])
    (hopens : chain.OpensFirst)
    (hdirect : ¬ (listenerChain hosts resolver node chain).AsksDirectly libs.urlParse address) :
    AppliesOptions libs launch (listenerChain hosts resolver node chain) address := by
  obtain ⟨-, hmark, hinterface, -⟩ := chain_of_nodes_ne_nil h hne
  have hopts : (listenerChain hosts resolver node chain).sockOpts = launch.sockOpts := by
    show RtProxy.sockOpts chain.mark chain.interface = _
    rw [hmark, hinterface]
    rfl
  have hroute : ∀ r ∈ (listenerChain hosts resolver node chain).resolver, ∀ route ∈ r.chain,
      route.OpensFirst ∧ route.sockOpts = (listenerChain hosts resolver node chain).sockOpts := by
    intro r hr route hroute
    obtain ⟨hiff, hsame⟩ := resolver_chain hr hroute
    exact ⟨hiff.mpr hopens, hsame⟩
  have hfirst : (listenerChain hosts resolver node chain).OpensFirst := hopens
  intro env henv s log
  rw [← henv] at hdirect
  have happlied := dial_applied hfirst hroute hdirect s log
  rw [hopts] at happlied
  exact .inr happlied

/-- A launch without nodes, or with a first hop that has sessions, opens its first connection
without options. -/
theorem opensBare_of_not (h : launch.chain libs.urlParse = .ok chain)
    (hnot : ¬ (launch.nodes ≠ [] ∧ chain.OpensFirst)) :
    (listenerChain hosts resolver node chain).OpensBare := by
  by_cases hnil : launch.nodes = []
  · obtain rfl := chain_of_nodes_eq_nil h hnil
    exact .inl ⟨rfl, rfl⟩
  · exact .inr fun hopens => hnot ⟨hnil, hopens⟩

/-- A launch applies its options to every socket of its dials exactly if it has none, or has
nodes, whose first opens no session, and asks no server around them, or if no dial can
succeed. -/
theorem applies_options_iff (h : launch.chain libs.urlParse = .ok chain) (hosts : Option Hosts)
    (resolver : Option Resolver) (node : Node) (address : String) :
    AppliesOptions libs launch (listenerChain hosts resolver node chain) address ↔
      (launch.mark = 0 ∧ launch.interface = "") ∨
      ((launch.nodes ≠ [] ∧ chain.OpensFirst) ∧
        ¬ (listenerChain hosts resolver node chain).AsksDirectly libs.urlParse address) ∨
      ¬ ∃ t, (listenerChain hosts resolver node chain).Resolves address t ∧
        chain.passes libs t = true := by
  constructor
  · intro happlies
    by_contra hno
    simp only [not_or, not_not] at hno
    obtain ⟨hset, hcond, t, hresolves, hpasses⟩ := hno
    rw [← sockOpts_eq_nil_iff] at hset
    by_cases hbare : launch.nodes ≠ [] ∧ chain.OpensFirst
    · have hasks := not_not.mp fun hno => hcond ⟨hbare, hno⟩
      obtain ⟨env, henv, conn, s', new, hrun, hnot⟩ := exists_direct_dial hset
        (fun r hr route hroute => (resolver_chain hr hroute).1.mpr hbare.2) hasks hresolves hpasses
      have hdial := happlies env henv [] []
      rw [hrun] at hdial
      exact hnot (hdial.resolve_left nofun)
    · have hfirst : (listenerChain hosts resolver node chain).OpensBare := opensBare_of_not h hbare
      obtain ⟨env, henv, conn, s', new, hrun, hnot⟩ := exists_bare_dial hset libs hfirst hresolves
        hpasses
      have hdial := happlies env henv [] []
      rw [hrun] at hdial
      exact hnot (hdial.resolve_left nofun)
  · rintro (hnone | ⟨⟨hne, hopens⟩, hdirect⟩ | hfails)
    · intro env henv s log
      rw [Launch.sockOpts, sockOpts_eq_nil_iff.mpr hnone]
      exact .inr fun _ _ _ _ => List.nil_suffix
    · exact appliesOptions_of_opensFirst h hne hopens hdirect
    · intro env henv s log
      rcases hrun : (listenerChain hosts resolver node chain).dial env address s log with
        ⟨e | conn, s', new⟩
      · exact .inl ⟨e, rfl⟩
      · have hpasses := passes_of_dial hrun
        rw [henv] at hpasses
        exact absurd hpasses hfails

/-- `-M 100 -F http+tls://127.0.0.1:8443`. -/
theorem tls_node_applies_mark : ∃ chain,
    Launch.chain plainUrl (.cli ⟨["http+tls://127.0.0.1:8443"], 100, none⟩) = .ok chain ∧
      AppliesOptions { Libs.blank with urlParse := plainUrl }
        (.cli ⟨["http+tls://127.0.0.1:8443"], 100, none⟩)
        (listenerChain none none Node.empty chain) "example.com:80" := by
  have hchain : Launch.chain plainUrl (.cli ⟨["http+tls://127.0.0.1:8443"], 100, none⟩) =
      .ok { Chain.new [Node.ofUrl "http+tls://127.0.0.1:8443" (localUrl "http+tls")] with
        mark := 100 } := by decide
  refine ⟨_, hchain, (applies_options_iff hchain none none Node.empty "example.com:80").mpr
    (.inr (.inl ⟨⟨by decide, ?_⟩, ?_⟩))⟩
  · intro first hfirst
    cases hfirst
    decide
  · rintro ⟨host, port, r, ns, -, -, hr, -⟩
    cases hr

/-- `-M 100` alone: the socket of a direct dial is not marked. -/
theorem direct_dial_unmarked :
    Launch.chain plainUrl (.cli ⟨[], 100, none⟩) = .ok .empty ∧
      (listenerChain none none Node.empty .empty).dial (Env.calm .blank) "127.0.0.1:80" [] [] =
        ⟨.ok (.tcp "127.0.0.1:80"), [], [.dial "127.0.0.1:80", .connect "127.0.0.1:80"]⟩ ∧
      ¬ Applied (Launch.sockOpts (.cli ⟨[], 100, none⟩))
        [.dial "127.0.0.1:80", .connect "127.0.0.1:80"] := by
  refine ⟨rfl, rfl, fun happ => ?_⟩
  have hsuffix := happ [.dial "127.0.0.1:80"] "127.0.0.1:80" [] rfl
  revert hsuffix
  decide

end Server
end RtProxy
