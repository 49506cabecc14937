import RtProxy.Io
import RtProxy.Lib.Text

/-!
Users and passwords (`auth.rs`).
-/

namespace RtProxy

/-- `dyn Authenticator`. -/
structure Authenticator where
  authenticate : String → String → Bool

/-- The pairs of a table, in the order they were inserted; a later one replaces an
earlier one of the same user. -/
structure LocalAuthenticator where
  kvs : List (String × String)
deriving Repr, DecidableEq

/-- The words of a line of a secrets file.  A line is a comment only if it begins
with the sign for one. -/
def splitAuthLine (line : String) : List String :=
  let line := Text.trim (String.ofList (line.toList.map fun c => if c = '\t' then ' ' else c))
  if Text.startsWith line "#" then []
  else ((Text.split line ' ').map Text.trim).filter (· ≠ "")

namespace LocalAuthenticator

/-- The pair that a line of a secrets file adds. -/
def pair? (line : String) : Option (String × String) :=
  match splitAuthLine line with
  | [] => none
  | user :: rest => if user = "reload" then none else some (user, rest.headD "")

/-- `reload` of an authenticator that has not been stopped. -/
def reload (content : Bytes) : Except IoError LocalAuthenticator :=
  match Text.lines? [] content with
  | none => .error ⟨.invalidData, "stream did not contain valid UTF-8"⟩
  | some lines => .ok { kvs := lines.filterMap pair? }

def get (au : LocalAuthenticator) (user : String) : Option String :=
  (au.kvs.reverse.find? (·.1 = user)).map (·.2)

/-- An empty table accepts everybody, and an empty password every password. -/
def authenticate (au : LocalAuthenticator) (user password : String) : Bool :=
  if au.kvs = [] then true
  else
    match au.get user with
    | some v => v = "" || password = v
    | none => false

def toAuthenticator (au : LocalAuthenticator) : Authenticator := ⟨au.authenticate⟩

end LocalAuthenticator

end RtProxy
