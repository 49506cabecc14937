import RtProxy.Chain.Dial
import RtProxy.Handler.Basic
import RtProxy.Selector.Group

/-!
Direct TCP forwarding (`TcpDirectForwardHandler` in `forward.rs`).

The requests of a handler share its group and set the marks in it, so what stands in the
group is asked of the world, as it is when a target is selected.
-/

namespace RtProxy

open Act

def SelectError.text : SelectError → String
  | .noneAvailable => "no node available"

/-- The group as it stands, and what a selection reads besides. -/
structure Shared where
  group : List Event → NodeGroup
  surroundings : List Event → Surroundings

namespace TcpDirectForwardHandler

section

variable (env : Env) (shared : Shared) (h : TcpDirectForwardHandler)

/-- The address of the node, or that of the handler. -/
def target (node : GroupNode) : String := if node.node.addr = "" then h.raddr else node.node.addr

/-- `next` of the group, if there are targets. -/
def select (node : GroupNode) : Action HandlerError GroupNode := do
  let group ← ask shared.group
  let surroundings ← ask shared.surroundings
  if group.nodes = [] then pure node
  else
    match (group.next surroundings).1 with
    | .ok node => pure node
    | .error e => fail (.proxy e.text)

/-- The loop of `handle`, with `n` attempts left: a connection, or the last error. -/
def attempts : Nat → GroupNode → Option ChainError →
    Action HandlerError (Except (Option ChainError) Conn)
  | 0, _, last => pure (.error last)
  | n + 1, node, _ => do
    let node ← select shared node
    match ← attempt (h.options.chainOrEmpty.dial env (h.target node)) with
    | .ok cc => pure (.ok cc)
    | .error e => attempts n node (some e)

/-- An error is reported by its text. -/
def lastText (last : Option ChainError) : String := (last.map ChainError.text).getD ""

def handle : Action HandlerError Unit := do
  match ← attempts env shared h (if 0 < h.options.retries then h.options.retries else 1)
    .default none with
  | .ok cc => splice cc
  | .error last => fail (.proxy s!"failed to connect to {h.raddr}: {lastText last}")

end

end TcpDirectForwardHandler
end RtProxy
