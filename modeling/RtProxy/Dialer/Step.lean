import RtProxy.Lib.Transition
import Mathlib.Data.Finset.Card
import Mathlib.Data.Finset.Range
import Mathlib.Logic.Function.Basic

/-!
A dialer that keeps one session and rebuilds it under a lock (`MuxDialer` in
`mux_transport.rs`; `QuicDialer` in `quic_transport.rs` follows it line by line).

Any number of `dial` calls run at once.  One step of a call is one acquisition of
`cached` or `build_lock`, or one `await`, together with the local work up to the
next one.  Sessions are numbered by the order in which they are built; the number
plays the part of the `Arc`.  What builds a session is a parameter, and what a
session answers to an `open_stream` is free, since sessions die and refuse streams
at any moment.
-/

namespace RtProxy
namespace Dialer

variable {ε : Type}

/-- A session as its dialer sees it.  `closed` is `is_closed` (`!is_live` for a QUIC
connection); the other two are history: how many streams it opened, and the errors
it refused streams with. -/
structure Session (ε : Type) where
  closed : Bool
  opened : Nat
  refusals : List ε

namespace Session

def fresh : Session ε := { closed := false, opened := 0, refusals := [] }

/-- The session has died or has refused a stream. -/
def spent (x : Session ε) : Bool := x.closed || !x.refusals.isEmpty

/-- What one `open_stream` leaves behind. -/
def answer (x : Session ε) : Except ε Unit → Session ε
  | .ok () => { x with opened := x.opened + 1 }
  | .error e => { x with refusals := x.refusals ++ [e] }

def close (x : Session ε) : Session ε := { x with closed := true }

end Session

/-! ## Program counters -/

/-- One call of `dial`.  `warm`, `reopen` and `first` wait for an `open_stream`: on
the cached session without the lock, on the cached session with it, and on the
session just built.  `leave` is the drop of the guard with the result at hand. -/
inductive Pc (ε : Type)
  | start
  | warm (i : Nat)
  | lock
  | recheck
  | reopen (i : Nat)
  | build
  | first (i : Nat)
  | publish (i : Nat)
  | leave (r : Except ε Nat)
  | done (r : Except ε Nat)

namespace Pc

def afterStart : Option Nat → Pc ε
  | some i => .warm i
  | none => .lock

def afterWarm (i : Nat) : Except ε Unit → Pc ε
  | .ok () => .done (.ok i)
  | .error _ => .lock

def afterRecheck : Option Nat → Pc ε
  | some i => .reopen i
  | none => .build

def afterReopen (i : Nat) : Except ε Unit → Pc ε
  | .ok () => .leave (.ok i)
  | .error _ => .build

def afterFirst (i : Nat) : Except ε Unit → Pc ε
  | .ok () => .publish i
  | .error e => .leave (.error e)

/-- The call holds `build_lock`. -/
def inside : Pc ε → Bool
  | .recheck | .reopen _ | .build | .first _ | .publish _ | .leave _ => true
  | _ => false

/-- The session the call is working on. -/
def session? : Pc ε → Option Nat
  | .warm i | .reopen i | .first i | .publish i => some i
  | _ => none

/-- A session that is built and not yet published. -/
def unpublished? : Pc ε → Option Nat
  | .first i | .publish i => some i
  | _ => none

/-- Once the call knows that a new session is needed: the one session that may
still be in use, if any. -/
def spare? : Pc ε → Option (Option Nat)
  | .build => some none
  | .reopen i | .first i | .publish i => some (some i)
  | _ => none

/-- An upper bound on the steps a call has left. -/
def rank : Pc ε → Nat
  | .start => 9
  | .warm _ => 8
  | .lock => 7
  | .recheck => 6
  | .reopen _ => 5
  | .build => 4
  | .first _ => 3
  | .publish _ => 2
  | .leave _ => 1
  | .done _ => 0

end Pc

/-- A call with the rebuilds it made, in order: the number of the session, or the
error of the attempt. -/
structure Dial (ε : Type) where
  pc : Pc ε
  rebuilds : List (Except ε Nat)

/-! ## States -/

/-- `buildLock` is the call that holds the lock.  Calls that have not been made yet
stand at `start`. -/
structure State (ε : Type) where
  cached : Option Nat
  buildLock : Option Nat
  built : Nat
  session : Nat → Session ε
  dials : Nat → Dial ε

namespace State

def init : State ε :=
  { cached := none
    buildLock := none
    built := 0
    session := fun _ => .fresh
    dials := fun _ => { pc := .start, rebuilds := [] } }

/-- `live_session`: the cached session if it is still usable.  A dead one is evicted
on the way past. -/
def liveSession (s : State ε) : Option Nat × State ε :=
  match s.cached with
  | some i => if (s.session i).closed then (none, { s with cached := none }) else (some i, s)
  | none => (none, s)

def put (s : State ε) (d : Nat) (x : Dial ε) : State ε :=
  { s with dials := Function.update s.dials d x }

def goto (s : State ε) (d : Nat) (pc : Pc ε) : State ε :=
  s.put d { s.dials d with pc := pc }

theorem put_self (s : State ε) (d : Nat) (x : Dial ε) : (s.put d x).dials d = x := by
  show Function.update s.dials d x d = x
  rw [Function.update_self]

theorem put_of_ne (s : State ε) {d e : Nat} (hne : e ≠ d) (x : Dial ε) :
    (s.put d x).dials e = s.dials e := by
  show Function.update s.dials d x e = s.dials e
  rw [Function.update_of_ne hne]

def openStream (s : State ε) (i : Nat) (r : Except ε Unit) : State ε :=
  { s with session := Function.update s.session i ((s.session i).answer r) }

def die (s : State ε) (i : Nat) : State ε :=
  { s with session := Function.update s.session i (s.session i).close }

/-- A rebuild that failed before there was a session. -/
def buildFailed (s : State ε) (d : Nat) (e : ε) : State ε :=
  s.put d { pc := .leave (.error e), rebuilds := (s.dials d).rebuilds ++ [.error e] }

/-- A session was built; it is counted before it opens its first stream. -/
def buildDone (s : State ε) (d : Nat) : State ε :=
  State.put
    { s with
      built := s.built + 1
      session := Function.update s.session s.built .fresh } d
    { pc := .first s.built, rebuilds := (s.dials d).rebuilds ++ [.ok s.built] }

/-- `close`, which leaves the dead session in the cache. -/
def closeCached (s : State ε) : State ε :=
  match s.cached with
  | some i => s.die i
  | none => s

end State

/-- Who moves: a `dial` call, a session that dies, a caller of `close`, or a caller of
`has_live_session` or `num_streams`. -/
inductive Label
  | dial (d : Nat)
  | die (i : Nat)
  | close
  | look
deriving Repr, DecidableEq

/-- The steps of a dialer whose session builds give what `builds` admits. -/
inductive Step (builds : Except ε Unit → Prop) : State ε → Label → State ε → Prop
  | start {s : State ε} {d : Nat} (h : (s.dials d).pc = .start) :
      Step builds s (.dial d) (s.liveSession.2.goto d (.afterStart s.liveSession.1))
  | warm {s : State ε} {d i : Nat} (h : (s.dials d).pc = .warm i) (r : Except ε Unit) :
      Step builds s (.dial d) ((s.openStream i r).goto d (.afterWarm i r))
  | lock {s : State ε} {d : Nat} (h : (s.dials d).pc = .lock) (hfree : s.buildLock = none) :
      Step builds s (.dial d) ({ s with buildLock := some d }.goto d .recheck)
  | recheck {s : State ε} {d : Nat} (h : (s.dials d).pc = .recheck) :
      Step builds s (.dial d) (s.liveSession.2.goto d (.afterRecheck s.liveSession.1))
  | reopen {s : State ε} {d i : Nat} (h : (s.dials d).pc = .reopen i) (r : Except ε Unit) :
      Step builds s (.dial d) ((s.openStream i r).goto d (.afterReopen i r))
  | buildFailed {s : State ε} {d : Nat} {e : ε} (h : (s.dials d).pc = .build)
      (hb : builds (.error e)) : Step builds s (.dial d) (s.buildFailed d e)
  | buildDone {s : State ε} {d : Nat} (h : (s.dials d).pc = .build) (hb : builds (.ok ())) :
      Step builds s (.dial d) (s.buildDone d)
  | first {s : State ε} {d i : Nat} (h : (s.dials d).pc = .first i) (r : Except ε Unit) :
      Step builds s (.dial d) ((s.openStream i r).goto d (.afterFirst i r))
  | publish {s : State ε} {d i : Nat} (h : (s.dials d).pc = .publish i) :
      Step builds s (.dial d) ({ s with cached := some i }.goto d (.leave (.ok i)))
  | leave {s : State ε} {d : Nat} {r : Except ε Nat} (h : (s.dials d).pc = .leave r) :
      Step builds s (.dial d) ({ s with buildLock := none }.goto d (.done r))
  | die {s : State ε} {i : Nat} (hi : i < s.built) : Step builds s (.die i) (s.die i)
  | close {s : State ε} : Step builds s .close s.closeCached
  | look {s : State ε} : Step builds s .look s.liveSession.2

end Dialer
end RtProxy
