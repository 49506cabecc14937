import RtProxy.Dialer.Completion
import RtProxy.Lib.Net
import RtProxy.Mux.Frame

/-!
The two dialers that keep a session: `MuxDialer` (`mux_transport.rs`) and
`QuicDialer` (`quic_transport.rs`).

They share `dial` and `live_session` and differ in what builds a session.  The
transport factory, and the lookup, socket and handshake of a QUIC connection, are
outside: each is given by the results it may have.
-/

namespace RtProxy

open Net Transition

/-! ## Over smux -/

/-- What a `BoxError` of `MuxDialer::dial` can hold: the factory's error, or one of the
session's own. -/
inductive MuxDialError (ε : Type)
  | transport (e : ε)
  | io (e : IoError)

/-- `config` is verified up front. -/
structure MuxDialer (ε τ : Type) where
  config : Mux.MuxConfig
  factory : Except ε τ → Prop
  verified : config.verify = .ok ()

namespace MuxDialer

variable {ε τ : Type}

def new (config : Mux.MuxConfig) (factory : Except ε τ → Prop) :
    Except IoError (MuxDialer ε τ) :=
  match h : config.verify with
  | .ok () => .ok { config := config, factory := factory, verified := h }
  | .error e => .error e

/-- `(self.factory)().await?` and `MuxSession::client`, which fails only where
`verify` does. -/
def build (m : MuxDialer ε τ) (transport : Except ε τ) : Except (MuxDialError ε) Unit := do
  let _ ← transport.mapError .transport
  m.config.verify.mapError .io

def Builds (m : MuxDialer ε τ) (r : Except (MuxDialError ε) Unit) : Prop :=
  ∃ transport, m.factory transport ∧ m.build transport = r

def Step (m : MuxDialer ε τ) := Dialer.Step m.Builds

end MuxDialer

/-! ## Over QUIC -/

/-- What a `BoxError` of `QuicDialer::dial` can hold: an error of the libraries, or
one of the two that `resolve` and `connect` make themselves. -/
inductive QuicDialError (ε : Type)
  | other (e : ε)
  | addrNotAvailable (msg : String)
  | timedOut (msg : String)

/-- One attempt to connect.  `lookup` is what `lookup_host` finds, and `handshake` is
`none` when it does not finish before the deadline (or at all, when there is none). -/
structure QuicAttempt (ε : Type) where
  lookup : Except ε (List SocketAddr)
  endpoint : SocketAddr → Except ε Unit
  connecting : SocketAddr → Except ε Unit
  handshake : Option (Except ε Unit)

/-- `timeout` is in nanoseconds and `timeoutText` is its `Debug` text. -/
structure QuicDialer (ε : Type) where
  addr : String
  timeout : Nat
  timeoutText : String
  attempt : QuicAttempt ε → Prop

namespace QuicDialer

variable {ε : Type}

def resolve (q : QuicDialer ε) (lookup : Except ε (List SocketAddr)) :
    Except (QuicDialError ε) SocketAddr := do
  match (← lookup.mapError .other).head? with
  | some remote => .ok remote
  | none => .error (.addrNotAvailable s!"quic: {q.addr} resolved to no address")

/-- The unspecified address of the remote's family. -/
def bind (remote : SocketAddr) : SocketAddr :=
  match remote.ip with
  | .v6 _ => ⟨.v6 (Ipv6Addr.ofSegments []), 0⟩
  | .v4 _ => ⟨.v4 Ipv4Addr.unspecified, 0⟩

/-- `connect` up to the handshake. -/
def begin (q : QuicDialer ε) (a : QuicAttempt ε) : Except (QuicDialError ε) Unit := do
  let remote ← q.resolve a.lookup
  (a.endpoint (bind remote)).mapError .other
  (a.connecting remote).mapError .other

/-- `connect`; `none` where it does not return. -/
def connect (q : QuicDialer ε) (a : QuicAttempt ε) : Option (Except (QuicDialError ε) Unit) :=
  match q.begin a with
  | .error e => some (.error e)
  | .ok () =>
    match a.handshake with
    | some r => some (r.mapError .other)
    | none =>
      if q.timeout = 0 then none
      else
        some (.error (.timedOut
          s!"quic: the handshake with {q.addr} did not finish within {q.timeoutText}"))

def Builds (q : QuicDialer ε) (r : Except (QuicDialError ε) Unit) : Prop :=
  ∃ a, q.attempt a ∧ q.connect a = some r

def Step (q : QuicDialer ε) := Dialer.Step q.Builds

end QuicDialer

/-! ## One session per need -/

namespace Dialer

variable {ε : Type} {builds : Except ε Unit → Prop} {s t : State ε}

/-- What a dialer that builds at most one session per need has to show in a state. -/
structure PerNeed (builds : Except ε Unit → Prop) (s : State ε) : Prop where
  /-- Beyond the first, every session was built in place of one that had died or had
  refused a stream. -/
  built_le : s.built ≤ 1 + s.spentSessions.card
  /-- The next step puts a session in the cache only if it has opened a stream. -/
  opened : ∀ l t i, Step builds s l t → t.cached = some i →
    s.cached = some i ∨ 0 < (s.session i).opened
  cached : ∀ i, s.cached = some i → i < s.built ∧ 0 < (s.session i).opened
  result : ∀ d r, (s.dials d).pc = .done r → Result s (s.dials d).rebuilds r
  /-- If builds return, every call can be brought to its end by `dial` calls alone. -/
  completes : (∃ r, builds r) → ∀ d,
    ∃ t, Reaches (Step builds) ByCalls s t ∧ ∃ r, (t.dials d).pc = .done r

theorem cached_of_liveSession {i : Nat} (h : s.liveSession.2.cached = some i) :
    s.cached = some i := by
  rcases liveSession_cases s with ⟨j, -, hl⟩ | ⟨hl, -⟩
  · rw [hl] at h
    exact h
  · rw [hl] at h
    cases h

theorem Inv.perNeed (h : Inv s) : PerNeed builds s where
  built_le := h.built_le
  opened := by
    intro l t i hstep hi
    cases hstep with
    | @publish d j hpc =>
      have hacc := h.account d
      rw [hpc] at hacc
      cases hi
      exact .inr hacc.2
    | start | recheck | look => exact .inl (cached_of_liveSession hi)
    | close =>
      unfold State.closeCached at hi
      cases hc : s.cached <;> rw [hc] at hi <;> exact .inl (hc ▸ hi)
    | _ => exact .inl hi
  cached := h.cached
  result := by
    intro d r hpc
    have hacc := h.account d
    rw [hpc] at hacc
    exact hacc
  completes hb d := exists_done hb h d

end Dialer

/-- Whatever the interleaving of the `dial` calls of a dialer, and whenever its
sessions die or refuse streams, it builds one session per need. -/
theorem dialers_build_per_need {ε τ : Type} (m : MuxDialer ε τ) (q : QuicDialer ε) :
    (∀ s, Reaches m.Step anyStep Dialer.State.init s → Dialer.PerNeed m.Builds s) ∧
      (∀ s, Reaches q.Step anyStep Dialer.State.init s → Dialer.PerNeed q.Builds s) := by
  constructor
  · intro s hrun
    exact (Dialer.inv_of_reaches hrun).perNeed
  · intro s hrun
    exact (Dialer.inv_of_reaches hrun).perNeed

/-- Two first dials at once: the second waits for the first and takes its session. -/
theorem dialers_build_per_need_twice :
    let m : MuxDialer Unit Unit :=
      { config := .default, factory := fun _ => True, verified := rfl }
    let q : QuicDialer Unit :=
      { addr := "[::1]:443", timeout := 5 * 10 ^ 9, timeoutText := "5s"
        attempt := fun _ => True }
    ∃ s, s.built = 1 ∧ (s.dials 0).pc = .done (.ok 0) ∧ (s.dials 1).pc = .done (.ok 0) ∧
      Dialer.PerNeed m.Builds s ∧ Dialer.PerNeed q.Builds .init := by
  intro m q
  have hbuilds : m.Builds (.ok ()) := ⟨.ok (), trivial, rfl⟩
  have h0 : Reaches m.Step anyStep Dialer.State.init Dialer.State.init := .refl
  have h1 := h0.tail trivial (Dialer.Step.start (d := 0) rfl)
  have h2 := h1.tail trivial (Dialer.Step.start (d := 1) rfl)
  have h3 := h2.tail trivial (Dialer.Step.lock (d := 0) rfl rfl)
  have h4 := h3.tail trivial (Dialer.Step.recheck (d := 0) rfl)
  have h5 := h4.tail trivial (Dialer.Step.buildDone (d := 0) rfl hbuilds)
  have h6 := h5.tail trivial (Dialer.Step.first (d := 0) rfl (.ok ()))
  have h7 := h6.tail trivial (Dialer.Step.publish (d := 0) rfl)
  have h8 := h7.tail trivial (Dialer.Step.leave (d := 0) rfl)
  have h9 := h8.tail trivial (Dialer.Step.lock (d := 1) rfl rfl)
  have h10 := h9.tail trivial (Dialer.Step.recheck (d := 1) rfl)
  have h11 := h10.tail trivial (Dialer.Step.reopen (d := 1) rfl (.ok ()))
  have h12 := h11.tail trivial (Dialer.Step.leave (d := 1) rfl)
  obtain ⟨hm, hq⟩ := dialers_build_per_need m q
  exact ⟨_, rfl, rfl, rfl, hm _ h12, hq _ .refl⟩

end RtProxy
