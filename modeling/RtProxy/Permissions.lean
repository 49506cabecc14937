import RtProxy.Lib.Text

/-!
Whitelists and blacklists (`permissions.rs`).
-/

namespace RtProxy

inductive AddrError
  | missingPort (addr : String)
  | tooManyColons (addr : String)
  | missingRBracket (addr : String)
  | unexpectedLBracket (addr : String)
  | unexpectedRBracket (addr : String)
deriving Repr, DecidableEq

inductive PermissionError
  | invalidPort (s : String)
  | emptyPort
  | emptyString
  | invalidFormat (s : String)
deriving Repr, DecidableEq

structure PortRange where
  min : Int
  max : Int
deriving Repr, DecidableEq

namespace PortRange

/-- The bounds of a range are clamped; a single port has to be one. -/
def parse (s : String) : Except PermissionError PortRange :=
  if s = "*" then .ok ⟨0, 65535⟩
  else
    match Text.splitOnce s '-' with
    | some (a, b) =>
      match Text.parseI64 a, Text.parseI64 b with
      | some x, some y => .ok ⟨Max.max (Min.min x y) 0, Min.min (Max.max x y) 65535⟩
      | _, _ => .error (.invalidPort s)
    | none =>
      match Text.parseI64 s with
      | some port => if 0 ≤ port ∧ port ≤ 65535 then .ok ⟨port, port⟩ else .error (.invalidPort s)
      | none => .error (.invalidPort s)

def contains (r : PortRange) (port : UInt16) : Bool :=
  decide (r.min ≤ port.toNat ∧ (port.toNat : Int) ≤ r.max)

end PortRange

abbrev PortSet := List PortRange

namespace PortSet

def parse (s : String) : Except PermissionError PortSet :=
  if s = "" then .error .emptyPort
  else (Text.split s ',').mapM fun r => PortRange.parse (Text.trim r)

def contains (ports : PortSet) (port : UInt16) : Bool := ports.any (·.contains port)

end PortSet

/-- What is left of the subject after the parts between two stars, each found at its
first place. -/
def globMiddle : List (List Char) → List Char → Option (List Char)
  | [], subj => some subj
  | part :: parts, subj =>
    match Text.cutSub part subj with
    | some (_, rest) => globMiddle parts rest
    | none => none

/-- `go_glob`, in which only the star is special.  A star at the front or at the end
of the pattern makes the first or the last part empty, and that matches. -/
def goGlob (pattern subj : String) : Bool :=
  match Text.pieces '*' pattern.toList with
  | first :: part :: parts =>
    first.isPrefixOf subj.toList &&
      match globMiddle (part :: parts).dropLast (subj.toList.drop first.length) with
      | some rest => ((part :: parts).getLastD []).isSuffixOf rest
      | none => false
  | _ => subj = pattern

abbrev StringSet := List String

namespace StringSet

def parse (s : String) : Except PermissionError StringSet :=
  if s = "" then .error .emptyString else .ok (Text.split s ',')

def contains (set : StringSet) (subj : String) : Bool := set.any (goGlob · subj)

end StringSet

structure Permission where
  actions : StringSet
  hosts : StringSet
  ports : PortSet
deriving Repr, DecidableEq

/-- One rule, `actions:hosts:ports`. -/
def Permission.parse (s : String) : Except PermissionError Permission := do
  match Text.split s ':' with
  | [actions, hosts, ports] =>
    return { actions := ← StringSet.parse actions, hosts := ← StringSet.parse hosts
             ports := ← PortSet.parse ports }
  | _ => .error (.invalidFormat s)

abbrev Permissions := List Permission

namespace Permissions

/-- The rules stand between single spaces. -/
def parse (s : String) : Except PermissionError Permissions :=
  if s = "" then .ok [] else (Text.split s ' ').mapM Permission.parse

def can (ps : Permissions) (action host : String) (port : UInt16) : Bool :=
  ps.any fun p => p.actions.contains action && p.hosts.contains host && p.ports.contains port

/-- `split_host_port` of `permissions.rs`, which is Go's `net.SplitHostPort`. -/
def splitHostPort (addr : String) : Except AddrError (String × String) :=
  match Text.cutLast ':' addr.toList with
  | none => .error (.missingPort addr)
  | some (before, port) =>
    match addr.toList with
    | '[' :: tail =>
      match Text.cutFirst ']' tail with
      | none => .error (.missingRBracket addr)
      | some (host, after) =>
        if after = [] then .error (.missingPort addr)
        else if host.length + 2 = before.length then
          if '[' ∈ tail then .error (.unexpectedLBracket addr)
          else if ']' ∈ after then .error (.unexpectedRBracket addr)
          else .ok (String.ofList host, String.ofList port)
        else if after.head? = some ':' then .error (.tooManyColons addr)
        else .error (.missingPort addr)
    | cs =>
      if ':' ∈ before then .error (.tooManyColons addr)
      else if '[' ∈ cs then .error (.unexpectedLBracket addr)
      else if ']' ∈ cs then .error (.unexpectedRBracket addr)
      else .ok (String.ofList before, String.ofList port)

end Permissions

/-- `Can`.  An address that does not split into a host and a port is refused. -/
def Can (action addr : String) (whitelist blacklist : Option Permissions) : Bool :=
  match Permissions.splitHostPort (if Text.contains addr ':' then addr else s!"{addr}:80") with
  | .error _ => false
  | .ok (host, port) =>
    match Text.parseUnsigned (2 ^ 16) port with
    | none => false
    | some n =>
      (match whitelist with
        | none => true
        | some ps => ps.can action host (UInt16.ofNat n)) &&
      (match blacklist with
        | none => true
        | some ps => !ps.can action host (UInt16.ofNat n))

example : Can "tcp" "[::1]:22" none (some [⟨["tcp"], ["::1"], [⟨22, 22⟩]⟩]) = false := by
  decide

end RtProxy
