import RtProxy.Lib.Net
import RtProxy.Permissions

/-!
Addresses that are not to be proxied (`bypass.rs`).

The `glob_match` and `ipnet` crates are parameters.
-/

namespace RtProxy

/-- `dyn Matcher`. -/
abbrev Matcher := String → Bool

/-- The crates that patterns are matched with. -/
structure Patterns where
  globMatch : String → String → Bool
  /-- the addresses of a network -/
  ipNet : String → Option (Net.IpAddr → Bool)

/-- Strips a port above zero. -/
def stripPort (addr : String) : String :=
  match Permissions.splitHostPort addr with
  | .ok (host, port) =>
    if host ≠ "" ∧ port ≠ "" then
      match Text.parseI64 port with
      | some p => if 0 < p then host else addr
      | none => addr
    else addr
  | .error _ => addr

def matchIp (p : Net.IpAddr → Bool) : Matcher := fun v =>
  match Net.IpAddr.parse v with
  | some ip => p ip
  | none => false

/-- A leading dot stands for any subdomain, and matches the domain itself. -/
def matchDomain (pats : Patterns) (pattern : String) : Matcher := fun domain =>
  match Text.dropStart pattern "." with
  | some plain => domain = plain || pats.globMatch s!"*.{plain}" domain
  | none => domain = pattern || pats.globMatch pattern domain

def newMatcher (pats : Patterns) (pattern : String) : Option Matcher :=
  if pattern = "" then none
  else
    match Net.IpAddr.parse pattern with
    | some ip => some (matchIp (· = ip))
    | none =>
      match pats.ipNet pattern with
      | some net => some (matchIp net)
      | none => some (matchDomain pats pattern)

structure Bypass where
  matchers : List Matcher
  reversed : Bool

namespace Bypass

def fromPatterns (pats : Patterns) (reversed : Bool) (patterns : List String) : Bypass :=
  { matchers := patterns.filterMap (newMatcher pats), reversed := reversed }

def contains (bypass : Bypass) (addr : String) : Bool :=
  if addr = "" ∨ bypass.matchers.isEmpty then false
  else bypass.matchers.any (· (stripPort addr)) != bypass.reversed

end Bypass

end RtProxy
