import RtProxy.Socks5.Tunnel
import RtProxy.Transport

/-!
A UDP tunnel over a transport (`Socks5UdpTunnelConn` in `socks5.rs`).

A call that is still pending may be polled again or dropped.  `recv_from` keeps
nothing outside the connection, so a run of polls is a run of calls however many of
them are dropped; `send_to` has its datagram queued or not when it is dropped.
-/

namespace RtProxy
namespace Socks5

open ByteStream

/-! ## Receiving -/

namespace TunnelReader

/-- The match of `poll_datagram` on a complete block. -/
def onFrame (state : ReadState) (buf : Bytes) : Turn :=
  match state with
  | .body hlen dlen _ => onBody hlen dlen buf []
  | _ => onHead buf []

/-- A block that is put aside leaves less to do. -/
theorem work_onFrame {r r' : TunnelReader} {buf rest : Bytes} {src src' : Inbound IoError}
    (h : ByteStream.fill r.state.need r.buf src = (.full, buf, src')) (hs : r.state ≠ .eof)
    (ht : onFrame r.state buf = .again r' rest) : r'.work src'.content < r.work src.content := by
  cases filling_of_eq h with
  | @full got _ hg hge _ =>
    have hlen : (r.buf ++ got).length + src'.content.length
        = r.buf.length + src.content.length := by
      rw [hg.content, List.length_append, List.length_append]
      omega
    cases hstate : r.state with
    | eof => exact absurd hstate hs
    | body hlen dlen pos =>
      rw [hstate, onFrame, onBody] at ht
      rw [hstate] at hge
      change hlen + dlen ≤ _ at hge
      split at ht
      · cases ht
      · split_ifs at ht
        cases ht
        simp only [work, new, List.length_nil, if_true, hstate, reduceCtorEq, if_false]
        omega
    | head =>
      rw [hstate] at ht
      simp only [onFrame, onHead] at ht
      split at ht
      · cases ht
      · cases ht
        simp only [work, hstate, reduceCtorEq, if_false, if_true]
        omega

/-- `poll_recv_from`. -/
def poll (r : TunnelReader) (src : Inbound IoError) :
    Poll Received × TunnelReader × Inbound IoError :=
  if _hs : r.state = .eof then (.ready .closed, r, src)
  else
    match _h : ByteStream.fill r.state.need r.buf src with
    | (.pending, buf, src') => (.pending, { r with buf := buf }, src')
    | (.error e, buf, src') => (.ready (.failed e), { r with buf := buf }, src')
    | (.ended, buf, src') =>
      -- only a close on a frame boundary is a normal end
      if buf = [] ∧ r.state = .head then (.ready .closed, { r with state := .eof, buf := buf }, src')
      else (.ready (.failed truncatedErr), { r with buf := buf }, src')
    | (.full, buf, src') =>
      match _ht : onFrame r.state buf with
      | .stop (some out) r' _ => (.ready out, r', src')
      | .stop none r' _ => (.pending, r', src')
      | .again r' _ => r'.poll src'
termination_by r.work src.content
decreasing_by exact work_onFrame _h _hs _ht

end TunnelReader

/-! ## The connection -/

structure Socks5UdpTunnelConn where
  inner : Transport
  /-- `read_state` and `read_buf`. -/
  reader : TunnelReader
  out : Cursor

/-- How a call of `send_to` ends, and whether its datagram was queued by then. -/
inductive Sent
  | waiting
  | refused (e : IoError)
  | queued (result : Poll (Except IoError Unit))
deriving Repr, DecidableEq

/-- What the caller sees. -/
def Sent.result : Sent → Poll (Except IoError Unit)
  | .waiting => .pending
  | .refused e => .ready (.error e)
  | .queued result => result

/-- Polls until ready, at most `polls` times; the poll that is ready goes on. -/
def pollFn {S α : Type} (poll : S → Poll α × S) : Nat → S → Poll α × Nat × S
  | 0, s => (.pending, 0, s)
  | polls + 1, s =>
    match poll s with
    | (.ready a, s) => (.ready a, polls + 1, s)
    | (.pending, s) => pollFn poll polls s

namespace Socks5UdpTunnelConn

def new (inner : Transport) : Socks5UdpTunnelConn :=
  { inner := inner, reader := .new, out := .empty }

def pollRecvFrom (c : Socks5UdpTunnelConn) : Poll Received × Socks5UdpTunnelConn :=
  match c.reader.poll c.inner.inbound with
  | (a, reader, inbound) => (a, { c with reader := reader, inner := { c.inner with inbound := inbound } })

def pollFlushOut (c : Socks5UdpTunnelConn) : Poll (Except IoError Unit) × Socks5UdpTunnelConn :=
  match drainOut writeZeroErr c.out c.inner.outbound with
  | (a, out, outbound) => (a, { c with out := out, inner := { c.inner with outbound := outbound } })

def tooLongErr (data : Bytes) : IoError :=
  ⟨.other, s!"socks5: datagram of {data.length} bytes exceeds the {UDP_TUN_MAX_PAYLOAD}-byte tunnel maximum"⟩

def queueDatagram (d : Datagram) (c : Socks5UdpTunnelConn) :
    Except IoError Unit × Socks5UdpTunnelConn :=
  if d.data.length > UDP_TUN_MAX_PAYLOAD then (.error (tooLongErr d.data), c)
  else (.ok (), { c with out := c.out.append (encodeUdpTunnelDatagram d) })

/-- `send_to`, polled at most `polls` times and dropped if it is pending then. -/
def sendTo (polls : Nat) (d : Datagram) (c : Socks5UdpTunnelConn) : Sent × Socks5UdpTunnelConn :=
  match pollFn pollFlushOut polls c with
  | (.pending, _, c) => (.waiting, c)
  | (.ready (.error e), _, c) => (.refused e, c)
  | (.ready (.ok ()), polls, c) =>
    match c.queueDatagram d with
    | (.error e, c) => (.refused e, c)
    | (.ok (), c) =>
      match pollFn pollFlushOut polls c with
      | (result, _, c) => (.queued result, c)

/-- Sends in order and returns how each call ended. -/
def sendAll : List (Nat × Datagram) → Socks5UdpTunnelConn →
    List (Datagram × Sent) × Socks5UdpTunnelConn
  | [], c => ([], c)
  | (polls, d) :: rest, c =>
    match c.sendTo polls d with
    | (sent, c) => ((d, sent) :: (sendAll rest c).1, (sendAll rest c).2)

/-- Polls `recv_from` so often, or until the stream ends or fails. -/
def recvAll : Nat → Socks5UdpTunnelConn → List Datagram × Outcome IoError × Socks5UdpTunnelConn
  | 0, c => ([], .running, c)
  | polls + 1, c =>
    match c.pollRecvFrom with
    | (.pending, c) => recvAll polls c
    | (.ready (.datagram d), c) => (d :: (recvAll polls c).1, (recvAll polls c).2)
    | (.ready .closed, c) => ([], .ended, c)
    | (.ready (.failed e), c) => ([], .failed e, c)

/-! ## What sending does to the bytes on their way -/

/-- The bytes handed to the transport and those still queued for it. -/
def produced (c : Socks5UdpTunnelConn) : Bytes := c.inner.outbound.sent ++ c.out.rest

@[simp] theorem produced_pollFlushOut (c : Socks5UdpTunnelConn) :
    c.pollFlushOut.2.produced = c.produced :=
  drainOut_spec writeZeroErr c.out c.inner.outbound

@[simp] theorem produced_pollFn (polls : Nat) (c : Socks5UdpTunnelConn) :
    (pollFn pollFlushOut polls c).2.2.produced = c.produced := by
  induction polls generalizing c with
  | zero => rfl
  | succ polls ih =>
    have hp := c.produced_pollFlushOut
    rw [pollFn]
    revert hp
    rcases c.pollFlushOut with ⟨a, c'⟩
    cases a with
    | ready a => exact id
    | pending => exact fun hp => (ih c').trans hp

/-- The datagrams that were queued. -/
def queued (log : List (Datagram × Sent)) : List Datagram :=
  log.filterMap fun
    | (d, .queued _) => some d
    | _ => none

theorem sendTo_spec (polls : Nat) (d : Datagram) (c : Socks5UdpTunnelConn) :
    ((c.sendTo polls d).2.produced = c.produced ∧ queued [(d, (c.sendTo polls d).1)] = [])
      ∨ ((c.sendTo polls d).2.produced = c.produced ++ encodeUdpTunnelDatagram d
        ∧ queued [(d, (c.sendTo polls d).1)] = [d] ∧ d.data.length ≤ UDP_TUN_MAX_PAYLOAD) := by
  have hp := produced_pollFn polls c
  unfold sendTo
  revert hp
  rcases pollFn pollFlushOut polls c with ⟨a, polls', c'⟩
  match a with
  | .pending | .ready (.error e) => exact fun hp => .inl ⟨hp, rfl⟩
  | .ready (.ok ()) =>
    intro hp
    simp only at hp
    by_cases hlong : d.data.length > UDP_TUN_MAX_PAYLOAD
    · simp only [queueDatagram, if_pos hlong]
      exact .inl ⟨hp, rfl⟩
    · simp only [queueDatagram, if_neg hlong, produced_pollFn]
      refine .inr ⟨?_, rfl, Nat.le_of_not_lt hlong⟩
      simp only [produced] at hp ⊢
      rw [Cursor.rest_append, ← List.append_assoc, hp]

/-- A drain that ends has handed over all that was queued, however often it was polled. -/
theorem sent_of_flushed {polls : Nat} {c : Socks5UdpTunnelConn}
    (h : (pollFn pollFlushOut polls c).1 = .ready (.ok ())) :
    (pollFn pollFlushOut polls c).2.2.inner.outbound.sent = c.produced := by
  induction polls generalizing c with
  | zero => cases h
  | succ polls ih =>
    have hp := c.produced_pollFlushOut
    have hdone : c.pollFlushOut.1 = .ready (.ok ()) → c.pollFlushOut.2.out.rest = [] := drainOut_done
    rw [pollFn] at h ⊢
    revert h hp hdone
    rcases c.pollFlushOut with ⟨a, c'⟩
    cases a with
    | ready a =>
      intro h hp hdone
      rw [← hp, produced, hdone h, List.append_nil]
    | pending => exact fun h hp _ => (ih h).trans hp

/-- A transport that takes something at every poll lets a drain end with the first. -/
theorem flushed_ready {polls m : Nat} {c : Socks5UdpTunnelConn} (hpos : 0 < polls)
    (h : c.inner.outbound.Ready (c.out.rest.length + m)) :
    (pollFn pollFlushOut polls c).1 = .ready (.ok ())
      ∧ (pollFn pollFlushOut polls c).2.1 = polls
      ∧ (pollFn pollFlushOut polls c).2.2.out.rest = []
      ∧ (pollFn pollFlushOut polls c).2.2.inner.outbound.Ready m := by
  obtain ⟨polls, rfl⟩ := Nat.exists_eq_succ_of_ne_zero (Nat.ne_of_gt hpos)
  obtain ⟨hdone, hmore⟩ := drainOut_ready writeZeroErr h
  have hflush : c.pollFlushOut.1 = .ready (.ok ()) := hdone
  have hrest : c.pollFlushOut.2.out.rest = [] := drainOut_done hdone
  have hready : c.pollFlushOut.2.inner.outbound.Ready m := hmore
  rw [pollFn]
  revert hflush hrest hready
  rcases c.pollFlushOut with ⟨a, c'⟩
  intro hflush hrest hready
  dsimp only at hflush
  subst hflush
  exact ⟨rfl, rfl, hrest, hready⟩

/-- A call that returns `Ok` has handed over its datagram and all that was queued before. -/
theorem sent_of_ok {polls : Nat} {d : Datagram} {c : Socks5UdpTunnelConn}
    (h : (c.sendTo polls d).1.result = .ready (.ok ())) :
    (c.sendTo polls d).2.inner.outbound.sent = c.produced ++ encodeUdpTunnelDatagram d := by
  have hp := produced_pollFn polls c
  unfold sendTo at h ⊢
  revert h hp
  rcases pollFn pollFlushOut polls c with ⟨a, polls', c'⟩
  match a with
  | .pending | .ready (.error e) => exact fun h => by cases h
  | .ready (.ok ()) =>
    intro h hp
    by_cases hlong : d.data.length > UDP_TUN_MAX_PAYLOAD
    · simp only [queueDatagram, if_pos hlong] at h
      cases h
    · simp only [queueDatagram, if_neg hlong] at h ⊢
      rw [sent_of_flushed h]
      simp only [produced] at hp ⊢
      rw [Cursor.rest_append, ← List.append_assoc, hp]

theorem sendTo_ready {polls : Nat} {d : Datagram} {c : Socks5UdpTunnelConn} (hpos : 0 < polls)
    (hlen : d.data.length ≤ UDP_TUN_MAX_PAYLOAD)
    (h : c.inner.outbound.Ready (c.produced ++ encodeUdpTunnelDatagram d).length) :
    (c.sendTo polls d).1.result = .ready (.ok ()) := by
  have hfirst : c.inner.outbound.Ready
      (c.out.rest.length + (encodeUdpTunnelDatagram d).length) := by
    refine h.mono ?_
    simp only [produced, List.length_append]
    omega
  obtain ⟨hdone, hpolls, hrest, hready⟩ := flushed_ready hpos hfirst
  unfold sendTo
  revert hdone hpolls hrest hready
  rcases pollFn pollFlushOut polls c with ⟨a, polls', c'⟩
  intro hdone hpolls hrest hready
  dsimp only at hdone hpolls hrest hready
  subst hdone hpolls
  simp only [queueDatagram, if_neg (Nat.not_lt.mpr hlen)]
  refine (flushed_ready (m := 0) hpos ?_).1
  simp only [Cursor.rest_append, hrest, List.nil_append, Nat.add_zero]
  exact hready

theorem queued_cons (x : Datagram × Sent) (log : List (Datagram × Sent)) :
    queued (x :: log) = queued [x] ++ queued log := by
  rw [queued, queued, queued, ← List.filterMap_append]
  rfl

/-- Sending produces one frame for each datagram queued, in order, whichever calls are
dropped. -/
theorem sendAll_spec (sends : List (Nat × Datagram)) (c : Socks5UdpTunnelConn) :
    (sendAll sends c).2.produced
        = c.produced ++ (queued (sendAll sends c).1).flatMap encodeUdpTunnelDatagram
      ∧ (∀ d ∈ queued (sendAll sends c).1, d.data.length ≤ UDP_TUN_MAX_PAYLOAD)
      ∧ (queued (sendAll sends c).1).Sublist (sends.map Prod.snd) := by
  induction sends generalizing c with
  | nil => simp [sendAll, queued]
  | cons x rest ih =>
    obtain ⟨polls, d⟩ := x
    obtain ⟨hprod, hlen, hsub⟩ := ih (c.sendTo polls d).2
    rw [sendAll, queued_cons]
    rcases c.sendTo_spec polls d with ⟨hp, hq⟩ | ⟨hp, hq, hd⟩
    · simp only [hq, List.nil_append, List.map_cons]
      exact ⟨hprod.trans (by rw [hp]), hlen, hsub.cons d⟩
    · simp only [hq, List.singleton_append, List.map_cons, List.flatMap_cons]
      refine ⟨hprod.trans (by rw [hp, List.append_assoc]), fun d' hd' => ?_, hsub.cons_cons d⟩
      rcases List.mem_cons.mp hd' with rfl | hd'
      · exact hd
      · exact hlen d' hd'

theorem sendAll_map_fst (sends : List (Nat × Datagram)) (c : Socks5UdpTunnelConn) :
    (sendAll sends c).1.map Prod.fst = sends.map Prod.snd := by
  induction sends generalizing c with
  | nil => rfl
  | cons x rest ih =>
    rw [sendAll]
    exact congrArg (x.2 :: ·) (ih _)

/-- Calls that all return `Ok` have queued all their datagrams. -/
theorem queued_of_ok {log : List (Datagram × Sent)}
    (h : ∀ x ∈ log, x.2.result = .ready (.ok ())) : queued log = log.map Prod.fst := by
  induction log with
  | nil => rfl
  | cons x log ih =>
    obtain ⟨d, sent⟩ := x
    have hx := h (d, sent) (by simp)
    rw [queued_cons, ih fun y hy => h y (List.mem_cons_of_mem _ hy)]
    cases sent with
    | waiting | refused => cases hx
    | queued => rfl

end Socks5UdpTunnelConn

end Socks5
end RtProxy
