import Mathlib.Data.List.Chain
import RtProxy.Udp.Listener

/-!
What the connections of a UDP listener deliver: each datagram through one of them at most,
in the order in which the datagrams of its peer came, and whole.
-/

namespace RtProxy
namespace Udp

open Net Transition

/-! ## The reads of a connection -/

/-- The datagrams whose first bytes have been read. -/
def begun (reads : List Read) : List Datagram :=
  (reads.filter (·.start == 0)).map (·.datagram)

/-- `q` goes on where `r` has stopped, or `r` has ended its datagram and `q` begins one. -/
def Follows (r q : Read) : Prop :=
  q.datagram = r.datagram ∧ q.start = r.stop ∧ r.stop < r.datagram.payload.length
    ∨ q.start = 0 ∧ r.stop = r.datagram.payload.length

/-- The reads take datagrams one after the other: a read returns bytes of one datagram, as
many as there are and its buffer holds, and the next one is begun when the last has been
returned in full. -/
structure Assembled (reads : List Read) (pending : Option (Datagram × Nat)) : Prop where
  slices : ∀ r ∈ reads, r.start < r.datagram.payload.length ∧ 0 < r.room
    ∧ r.bytes = (r.datagram.payload.drop r.start).take r.room
  first : ∀ r, reads.head? = some r → r.start = 0
  begins : ∀ r ∈ reads, r.datagram ∈ begun reads
  follows : reads.IsChain Follows
  whole : pending = none → ∀ r, reads.getLast? = some r → r.stop = r.datagram.payload.length
  part : ∀ d pos, pending = some (d, pos) → pos < d.payload.length
    ∧ ∃ r, reads.getLast? = some r ∧ r.datagram = d ∧ r.stop = pos

/-- The datagrams it has been sent, but for empty ones it has skipped. -/
def UdpServerConn.trace (c : UdpServerConn) : List Datagram := begun c.reads ++ c.rx

theorem begun_append (reads more : List Read) : begun (reads ++ more) = begun reads ++ begun more := by
  unfold begun
  rw [List.filter_append, List.map_append]

theorem stop_pos {r : Read} (hstart : r.start < r.datagram.payload.length) (hroom : 0 < r.room)
    (hbytes : r.bytes = (r.datagram.payload.drop r.start).take r.room) : 0 < r.stop := by
  have hlen : r.bytes.length = min r.room (r.datagram.payload.length - r.start) := by
    rw [hbytes, List.length_take, List.length_drop]
  unfold Read.stop
  omega

theorem put_bytes (d : Datagram) (pos room : Nat) :
    (d.payload.drop pos).take (min room (d.payload.length - pos))
      = (d.payload.drop pos).take room := by
  rw [List.take_eq_take_iff, List.length_drop]
  omega

namespace Assembled

theorem nil : Assembled [] none where
  slices _ hr := absurd hr List.not_mem_nil
  first _ hr := nomatch hr
  begins _ hr := absurd hr List.not_mem_nil
  follows := .nil
  whole _ _ hr := nomatch hr
  part _ _ hpending := nomatch hpending

/-- A read that goes on where the last one has stopped. -/
theorem put {c : UdpServerConn} {d : Datagram} {pos room : Nat} (hroom : 0 < room)
    (h : Assembled c.reads c.pending) (hpos : pos < d.payload.length)
    (hnext : c.pending = some (d, pos) ∨ c.pending = none ∧ pos = 0) :
    Assembled (c.put d pos room).1.reads (c.put d pos room).1.pending := by
  have hbytes := put_bytes d pos room
  have hlen : ((d.payload.drop pos).take (min room (d.payload.length - pos))).length
      = min room (d.payload.length - pos) := by
    rw [List.length_take, List.length_drop]
    omega
  constructor
  case slices =>
    intro r hr
    rcases List.mem_append.mp hr with hr | hr
    · exact h.slices r hr
    · rw [List.mem_singleton.mp hr]
      exact ⟨hpos, hroom, hbytes⟩
  case first =>
    intro r hr
    rcases hnext with hpend | ⟨-, rfl⟩
    · obtain ⟨-, q, hq, -⟩ := h.part d pos hpend
      have hne : c.reads ≠ [] := by
        rintro hnil
        rw [hnil] at hq
        cases hq
      apply h.first r
      rwa [show (c.put d pos room).1.reads = c.reads ++ _ from rfl,
        List.head?_append_of_ne_nil _ hne] at hr
    · cases hreads : c.reads with
      | nil =>
        rw [show (c.put d 0 room).1.reads = c.reads ++ _ from rfl, hreads] at hr
        cases hr
        rfl
      | cons q rest =>
        apply h.first r
        rw [show (c.put d 0 room).1.reads = c.reads ++ _ from rfl, hreads] at hr
        rw [hreads]
        exact hr
  case begins =>
    intro r hr
    rw [show (c.put d pos room).1.reads = c.reads ++ _ from rfl, begun_append]
    rcases List.mem_append.mp hr with hr | hr
    · exact List.mem_append_left _ (h.begins r hr)
    · rw [List.mem_singleton.mp hr]
      rcases hnext with hpend | ⟨-, rfl⟩
      · obtain ⟨-, q, hq, rfl, -⟩ := h.part d pos hpend
        exact List.mem_append_left _ (h.begins q (List.mem_of_getLast? hq))
      · exact List.mem_append_right _ List.mem_cons_self
  case follows =>
    refine h.follows.append (.singleton _) fun q hq r hr => ?_
    cases hr
    rcases hnext with hpend | ⟨hnone, rfl⟩
    · obtain ⟨-, q', hq', hd, hstop⟩ := h.part d pos hpend
      cases hq'.symm.trans hq
      exact .inl ⟨hd.symm, hstop.symm, by rw [hstop, hd]; exact hpos⟩
    · exact .inr ⟨rfl, h.whole hnone q hq⟩
  case whole =>
    intro hnone r hr
    rw [show (c.put d pos room).1.reads = c.reads ++ [_] from rfl, List.getLast?_concat] at hr
    cases hr
    have hend : d.payload.length ≤ pos + min room (d.payload.length - pos) := by
      by_contra hmore
      rw [show (c.put d pos room).1.pending = _ from if_neg hmore] at hnone
      cases hnone
    refine (congrArg (pos + ·) hlen).trans ?_
    show pos + min room (d.payload.length - pos) = d.payload.length
    omega
  case part =>
    intro d' pos' hsome
    have hmore : ¬ d.payload.length ≤ pos + min room (d.payload.length - pos) := by
      intro hend
      rw [show (c.put d pos room).1.pending = _ from if_pos hend] at hsome
      cases hsome
    rw [show (c.put d pos room).1.pending = _ from if_neg hmore] at hsome
    cases hsome
    exact ⟨by omega, _, List.getLast?_concat, rfl, congrArg (pos + ·) hlen⟩

end Assembled

/-! ## What steps do to a connection -/

/-- `c'` is `c` later on, without another datagram sent to it. -/
structure Keeps (c c' : UdpServerConn) : Prop where
  peer : c'.peer = c.peer
  created : c'.created = c.created
  trace : c'.trace.Sublist c.trace
  reads : Assembled c.reads c.pending → Assembled c'.reads c'.pending

theorem Keeps.rfl {c : UdpServerConn} : Keeps c c := ⟨by rfl, by rfl, .refl _, id⟩

/-- Token, phase and activity do not matter. -/
theorem Keeps.of_eq {c c' : UdpServerConn} (hpeer : c'.peer = c.peer)
    (hcreated : c'.created = c.created) (hrx : c'.rx = c.rx) (hpending : c'.pending = c.pending)
    (hreads : c'.reads = c.reads) : Keeps c c' := by
  refine ⟨hpeer, hcreated, ?_, fun h => ?_⟩
  · unfold UdpServerConn.trace
    rw [hreads, hrx]
  · rwa [hreads, hpending]

theorem keeps_put {c : UdpServerConn} {d : Datagram} {pos room : Nat} (hroom : 0 < room)
    (hpending : c.pending = some (d, pos)) (h : Assembled c.reads c.pending) :
    Keeps c (c.put d pos room).1 := by
  obtain ⟨hpos, r, hr, hd, hstop⟩ := h.part d pos hpending
  refine ⟨by rfl, by rfl, ?_, fun _ => h.put hroom hpos (.inl hpending)⟩
  obtain ⟨hstart, hr0, hbytes⟩ := h.slices r (List.mem_of_getLast? hr)
  have hne : pos ≠ 0 := by
    have hpos := stop_pos hstart hr0 hbytes
    omega
  show List.Sublist (begun (c.reads ++ [_]) ++ c.rx) (begun c.reads ++ c.rx)
  rw [begun_append, show begun [(⟨d, pos, room, _⟩ : Read)] = [] by simp [begun, hne],
    List.append_nil]

/-- A round of `poll_read` loses an empty datagram at most. -/
theorem keeps_pollRead {c : UdpServerConn} (room : Nat) (senders : Bool) (now : Nat)
    (h : Assembled c.reads c.pending) : Keeps c (c.pollRead room senders now).1 := by
  unfold UdpServerConn.pollRead
  by_cases hroom : room = 0
  · rw [if_pos hroom]
    exact .rfl
  rw [if_neg hroom]
  cases hpending : c.pending with
  | some p => exact keeps_put (Nat.pos_of_ne_zero hroom) hpending h
  | none =>
    cases hrx : c.rx with
    | nil =>
      cases senders
      · exact .rfl
      · exact .rfl
    | cons d rest =>
      by_cases hempty : d.payload = []
      · simp only [hempty, if_true]
        refine ⟨by rfl, by rfl, ?_, fun hc => hpending ▸ hc⟩
        show (begun c.reads ++ rest).Sublist (begun c.reads ++ c.rx)
        rw [hrx]
        exact (List.sublist_cons_self d rest).append_left _
      · simp only [hempty, if_false]
        have hpos : 0 < d.payload.length := List.length_pos_iff.mpr hempty
        refine ⟨by rfl, by rfl, ?_, fun _ => ?_⟩
        · show (begun (c.reads ++ [_]) ++ rest).Sublist (begun c.reads ++ c.rx)
          rw [begun_append, hrx, List.append_assoc]
          exact .refl _
        · exact Assembled.put (c := { c with rx := rest, activity := now })
            (Nat.pos_of_ne_zero hroom) h hpos (.inr ⟨hpending, by rfl⟩)

theorem keeps_conn {now : Nat} {senders : Bool} {c c' : UdpServerConn} {a : ConnAction}
    (h : Assembled c.reads c.pending) (hstep : ConnStep now senders c a c') : Keeps c c' := by
  cases hstep with
  | poll room hphase => exact keeps_pollRead room senders now h
  | _ => exact .of_eq (by rfl) (by rfl) (by rfl) (by rfl) (by rfl)

theorem trySend_ok {c c' : UdpServerConn} {size : Nat} {d : Datagram}
    (h : c.trySend size d = .ok c') : c' = { c with rx := c.rx ++ [d] } := by
  unfold UdpServerConn.trySend at h
  by_cases hgone : c.phase = .gone
  · rw [if_pos hgone] at h
    cases h
  rw [if_neg hgone] at h
  by_cases hroom : c.rx.length < size
  · rw [if_pos hroom] at h
    cases h
    rfl
  · rw [if_neg hroom] at h
    cases h

/-! ## The invariant -/

namespace Demux

/-- The datagram in the loop's hands. -/
def hand : Demux → Option Datagram
  | received d | sending d _ | evicting d | fresh d | offered d _ => some d
  | _ => none

/-- The connection the loop is about to send to or to insert, and the source it is for. -/
def toward : Demux → Option (SocketAddr × Nat)
  | sending d k | offered d k => some (d.src, k)
  | registering src k => some (src, k)
  | _ => none

end Demux

namespace Sys

/-- What was received and is no longer in the loop's hands. -/
def routed (s : Sys) : List Datagram :=
  if s.demux.hand.isSome then s.arrivals.dropLast else s.arrivals

/-- What came from `src` after the first `n`. -/
def receivedFrom (arrivals : List Datagram) (src : SocketAddr) (n : Nat) : List Datagram :=
  (arrivals.drop n).filter fun d => d.src = src

end Sys

structure ConnOk (s : Sys) (k : Nat) (c : UdpServerConn) : Prop where
  id : k < s.nextId
  created : c.created ≤ s.routed.length
  made : ∃ d, s.arrivals[c.created]? = some d ∧ d.src = c.peer
  inOrder : c.trace.Sublist (Sys.receivedFrom s.routed c.peer c.created)
  reads : Assembled c.reads c.pending

structure Routed (s : Sys) : Prop where
  numbered : ∀ (i : Nat) (d : Datagram), s.arrivals[i]? = some d → d.number = i
  hand : ∀ d, s.demux.hand = some d → s.arrivals = s.routed ++ [d]
  peers : ∀ src handle, s.peers src = some handle →
    ∃ c, s.conns handle.id = some c ∧ c.peer = src
  toward : ∀ src k, s.demux.toward = some (src, k) → ∃ c, s.conns k = some c ∧ c.peer = src
  conns : ∀ k c, s.conns k = some c → ConnOk s k c
  once : ∀ k l c e d, s.conns k = some c → s.conns l = some e → d ∈ c.trace → d ∈ e.trace →
    k = l

/-- Connections change and nothing is sent to one. -/
def Kept (s t : Sys) : Prop :=
  (∀ k c, s.conns k = some c → ∃ c', t.conns k = some c' ∧ Keeps c c')
    ∧ ∀ k c', t.conns k = some c' → ∃ c, s.conns k = some c ∧ Keeps c c'

theorem Kept.of_eq {s t : Sys} (h : t.conns = s.conns) : Kept s t := by
  refine ⟨fun k c hc => ⟨c, ?_, .rfl⟩, fun k c hc => ⟨c, ?_, .rfl⟩⟩
  · rw [h]
    exact hc
  · rw [← h]
    exact hc

theorem Kept.setConn {s t : Sys} {k : Nat} {c c' : UdpServerConn} (hc : s.conns k = some c)
    (h : Keeps c c') (ht : t.conns = Function.update s.conns k (some c')) : Kept s t := by
  constructor
  · intro l e he
    rw [ht]
    by_cases hl : l = k
    · subst hl
      cases hc.symm.trans he
      exact ⟨c', Function.update_self _ _ _, h⟩
    · rw [Function.update_of_ne hl]
      exact ⟨e, he, .rfl⟩
  · intro l e he
    rw [ht] at he
    by_cases hl : l = k
    · subst hl
      rw [Function.update_self] at he
      cases he
      exact ⟨c, hc, h⟩
    · rw [Function.update_of_ne hl] at he
      exact ⟨e, he, .rfl⟩

/-- Token and phase of a connection change. -/
theorem Kept.marks {s t : Sys} {k : Nat} {c : UdpServerConn} {closed : Bool} {phase : Phase}
    (hc : s.conns k = some c)
    (ht : t.conns = Function.update s.conns k (some { c with closed := closed, phase := phase })) :
    Kept s t := by
  have hkeeps : Keeps c { c with closed := closed, phase := phase } := .of_eq rfl rfl rfl rfl rfl
  exact .setConn hc hkeeps ht

namespace Routed

variable {s t : Sys}

/-- What is in the hands is the last datagram; letting go of it adds it to what has been
routed. -/
theorem routed_prefix (h : Routed s) (harrivals : t.arrivals = s.arrivals)
    (hhand : t.demux.hand = none ∨ t.demux.hand = s.demux.hand) :
    ∃ more, t.routed = s.routed ++ more := by
  unfold Sys.routed
  rcases hhand with hnone | hsame
  · rw [hnone, harrivals]
    cases hd : s.demux.hand with
    | none => exact ⟨[], (List.append_nil _).symm⟩
    | some d =>
      refine ⟨[d], ?_⟩
      have hlast := h.hand d hd
      unfold Sys.routed at hlast
      rw [hd] at hlast
      exact hlast
  · rw [hsame, harrivals]
    exact ⟨[], (List.append_nil _).symm⟩

theorem receivedFrom_mono {arrivals more : List Datagram} {src : SocketAddr} {n : Nat} :
    (Sys.receivedFrom arrivals src n).Sublist (Sys.receivedFrom (arrivals ++ more) src n) := by
  unfold Sys.receivedFrom
  exact ((List.sublist_append_left arrivals more).drop n).filter _

/-- Steps that send nothing to a connection and make none. -/
theorem frame (h : Routed s) (harrivals : t.arrivals = s.arrivals) (hid : t.nextId = s.nextId)
    (hhand : t.demux.hand = none ∨ t.demux.hand = s.demux.hand) (hkept : Kept s t)
    (hpeers : ∀ src handle, t.peers src = some handle →
      ∃ c, s.conns handle.id = some c ∧ c.peer = src)
    (htoward : ∀ src k, t.demux.toward = some (src, k) → ∃ c, s.conns k = some c ∧ c.peer = src) :
    Routed t := by
  obtain ⟨more, hmore⟩ := h.routed_prefix harrivals hhand
  have keep {k : Nat} {src : SocketAddr} (hc : ∃ c, s.conns k = some c ∧ c.peer = src) :
      ∃ c, t.conns k = some c ∧ c.peer = src := by
    obtain ⟨c, hc, hpeer⟩ := hc
    obtain ⟨c', hc', hkeeps⟩ := hkept.1 k c hc
    exact ⟨c', hc', hkeeps.peer.trans hpeer⟩
  constructor
  case numbered =>
    rw [harrivals]
    exact h.numbered
  case hand =>
    intro d hd
    rcases hhand with hnone | hsame
    · rw [hnone] at hd
      cases hd
    · rw [hsame] at hd
      unfold Sys.routed
      rw [harrivals, hsame]
      exact h.hand d hd
  case peers =>
    intro src handle hpeer
    exact keep (hpeers src handle hpeer)
  case toward =>
    intro src k hk
    exact keep (htoward src k hk)
  case conns =>
    intro k c' hc'
    obtain ⟨c, hc, hkeeps⟩ := hkept.2 k c' hc'
    have hok := h.conns k c hc
    constructor
    case id => rw [hid]; exact hok.id
    case created =>
      rw [hkeeps.created, hmore, List.length_append]
      exact Nat.le_trans hok.created (Nat.le_add_right _ _)
    case made =>
      rw [hkeeps.created, harrivals, hkeeps.peer]
      exact hok.made
    case inOrder =>
      rw [hkeeps.created, hkeeps.peer, hmore]
      exact (hkeeps.trace.trans hok.inOrder).trans receivedFrom_mono
    case reads => exact hkeeps.reads hok.reads
  case once =>
    intro k l c' e' d hc' he' hd hd'
    obtain ⟨c, hc, hkc⟩ := hkept.2 k c' hc'
    obtain ⟨e, he, hke⟩ := hkept.2 l e' he'
    exact h.once k l c e d hc he (hkc.trace.subset hd) (hke.trace.subset hd')

theorem routed_number (h : Routed s) {d : Datagram} (hd : d ∈ s.routed) :
    d.number < s.routed.length := by
  obtain ⟨i, hi⟩ := List.mem_iff_getElem?.mp hd
  have hlt := (List.getElem?_eq_some_iff.mp hi).1
  have harrival : s.arrivals[i]? = some d := by
    unfold Sys.routed at hi
    split_ifs at hi
    · rw [List.getElem?_dropLast] at hi
      split_ifs at hi
      exact hi
    · exact hi
  rw [h.numbered i d harrival]
  exact hlt

theorem hand_number (h : Routed s) {d : Datagram} (hd : s.demux.hand = some d) :
    s.arrivals[s.routed.length]? = some d ∧ d.number = s.routed.length := by
  have hlast : s.arrivals[s.routed.length]? = some d := by
    rw [h.hand d hd]
    exact List.getElem?_concat_length
  exact ⟨hlast, h.numbered _ d hlast⟩

theorem trace_lt (h : Routed s) {k : Nat} {c : UdpServerConn} {d : Datagram}
    (hc : s.conns k = some c) (hd : d ∈ c.trace) : d.number < s.routed.length := by
  have hmem := (h.conns k c hc).inOrder.subset hd
  exact h.routed_number (List.mem_of_mem_drop (List.mem_filter.mp hmem).1)

/-- The datagram in the hands goes to a connection of its source. -/
theorem deliver (h : Routed s) {k : Nat} {c : UdpServerConn} {d : Datagram}
    (hd : s.demux.hand = some d) (hc : s.conns k = some c) (hpeer : c.peer = d.src)
    (harrivals : t.arrivals = s.arrivals) (hid : t.nextId = s.nextId)
    (hhand : t.demux.hand = none)
    (hconns : t.conns = Function.update s.conns k (some { c with rx := c.rx ++ [d] }))
    (hpeers : t.peers = s.peers)
    (htoward : ∀ src k, t.demux.toward = some (src, k) → s.demux.toward = some (src, k)) :
    Routed t := by
  obtain ⟨hlast, hnumber⟩ := h.hand_number hd
  have hrouted : t.routed = s.routed ++ [d] := by
    unfold Sys.routed
    rw [hhand, harrivals]
    exact h.hand d hd
  have htrace : UdpServerConn.trace { c with rx := c.rx ++ [d] } = c.trace ++ [d] :=
    (List.append_assoc _ _ _).symm
  have keep {l : Nat} {src : SocketAddr} (hl : ∃ e, s.conns l = some e ∧ e.peer = src) :
      ∃ e, t.conns l = some e ∧ e.peer = src := by
    obtain ⟨e, he, hsrc⟩ := hl
    rw [hconns]
    by_cases hl : l = k
    · subst hl
      cases hc.symm.trans he
      exact ⟨_, Function.update_self _ _ _, hsrc⟩
    · rw [Function.update_of_ne hl]
      exact ⟨e, he, hsrc⟩
  -- a connection of `t` is one of `s`, or `k` with the datagram added
  have back {l : Nat} {e : UdpServerConn} (he : t.conns l = some e) :
      s.conns l = some e ∨ l = k ∧ e = { c with rx := c.rx ++ [d] } := by
    rw [hconns] at he
    by_cases hl : l = k
    · subst hl
      rw [Function.update_self] at he
      cases he
      exact .inr ⟨rfl, rfl⟩
    · rw [Function.update_of_ne hl] at he
      exact .inl he
  constructor
  case numbered =>
    rw [harrivals]
    exact h.numbered
  case hand =>
    intro x hx
    rw [hhand] at hx
    cases hx
  case peers =>
    intro src handle hhandle
    rw [hpeers] at hhandle
    exact keep (h.peers src handle hhandle)
  case toward =>
    intro src l hl
    exact keep (h.toward src l (htoward src l hl))
  case conns =>
    intro l e he
    rcases back he with he | ⟨rfl, rfl⟩
    · have hok := h.conns l e he
      constructor
      case id => rw [hid]; exact hok.id
      case created =>
        rw [hrouted, List.length_append]
        exact Nat.le_trans hok.created (Nat.le_add_right _ _)
      case made => rw [harrivals]; exact hok.made
      case inOrder =>
        rw [hrouted]
        exact hok.inOrder.trans receivedFrom_mono
      case reads => exact hok.reads
    · have hok := h.conns l c hc
      constructor
      case id => rw [hid]; exact hok.id
      case created =>
        rw [hrouted, List.length_append]
        exact Nat.le_trans hok.created (Nat.le_add_right _ _)
      case made => rw [harrivals]; exact hok.made
      case inOrder =>
        rw [hrouted, htrace]
        unfold Sys.receivedFrom
        rw [List.drop_append_of_le_length hok.created, List.filter_append,
          List.filter_singleton, decide_eq_true hpeer.symm]
        exact hok.inOrder.append (.refl _)
      case reads => exact hok.reads
  case once =>
    intro l m e f x he hf hxe hxf
    have fresh {j : Nat} {g : UdpServerConn} (hg : s.conns j = some g) : d ∉ g.trace := by
      intro hmem
      have hlt := h.trace_lt hg hmem
      omega
    have old {j : Nat} {g : UdpServerConn} (hg : s.conns j = some g) (hx : x ∈ g.trace)
        (hxc : x ∈ (c.trace ++ [d])) : j = k := by
      rcases List.mem_append.mp hxc with hxc | hxd
      · exact h.once j k g c x hg hc hx hxc
      · rw [List.mem_singleton.mp hxd] at hx
        exact absurd hx (fresh hg)
    rcases back he with he | ⟨rfl, rfl⟩
    · rcases back hf with hf | ⟨rfl, rfl⟩
      · exact h.once l m e f x he hf hxe hxf
      · exact old he hxe (htrace ▸ hxf)
    · rcases back hf with hf | ⟨rfl, rfl⟩
      · exact (old hf hxf (htrace ▸ hxe)).symm
      · rfl

/-- A connection is made for the datagram in the hands. -/
theorem create (h : Routed s) {d : Datagram} (phase : Phase) (hd : s.demux.hand = some d)
    (harrivals : t.arrivals = s.arrivals)
    (hid : t.nextId = s.nextId + 1)
    (hhand : t.demux.hand = none ∨ t.demux.hand = s.demux.hand)
    (hconns : t.conns = Function.update s.conns s.nextId (some (.new d s.now phase)))
    (hpeers : t.peers = s.peers)
    (htoward : ∀ src k, t.demux.toward = some (src, k) → k = s.nextId ∧ src = d.src) :
    Routed t := by
  obtain ⟨hlast, hnumber⟩ := h.hand_number hd
  obtain ⟨more, hmore⟩ := h.routed_prefix harrivals hhand
  have back {l : Nat} {e : UdpServerConn} (he : t.conns l = some e) :
      s.conns l = some e ∨ l = s.nextId ∧ e = .new d s.now phase := by
    rw [hconns] at he
    by_cases hl : l = s.nextId
    · subst hl
      rw [Function.update_self] at he
      cases he
      exact .inr ⟨rfl, rfl⟩
    · rw [Function.update_of_ne hl] at he
      exact .inl he
  constructor
  case numbered =>
    rw [harrivals]
    exact h.numbered
  case hand =>
    intro x hx
    rcases hhand with hnone | hsame
    · rw [hnone] at hx
      cases hx
    · rw [hsame] at hx
      unfold Sys.routed
      rw [harrivals, hsame]
      exact h.hand x hx
  case peers =>
    intro src handle hhandle
    rw [hpeers] at hhandle
    obtain ⟨c, hc, hpeer⟩ := h.peers src handle hhandle
    refine ⟨c, ?_, hpeer⟩
    rw [hconns, Function.update_of_ne (Nat.ne_of_lt (h.conns _ _ hc).id)]
    exact hc
  case toward =>
    intro src k hk
    obtain ⟨rfl, rfl⟩ := htoward src k hk
    rw [hconns]
    exact ⟨_, Function.update_self _ _ _, rfl⟩
  case conns =>
    intro l e he
    rcases back he with he | ⟨rfl, rfl⟩
    · have hok := h.conns l e he
      constructor
      case id => rw [hid]; exact Nat.lt_succ_of_lt hok.id
      case created =>
        rw [hmore, List.length_append]
        exact Nat.le_trans hok.created (Nat.le_add_right _ _)
      case made => rw [harrivals]; exact hok.made
      case inOrder =>
        rw [hmore]
        exact hok.inOrder.trans receivedFrom_mono
      case reads => exact hok.reads
    · constructor
      case id => rw [hid]; exact Nat.lt_succ_self _
      case created =>
        rw [hmore, List.length_append]
        exact Nat.le_trans (Nat.le_of_eq hnumber) (Nat.le_add_right _ _)
      case made =>
        refine ⟨d, ?_, rfl⟩
        rw [harrivals, show (UdpServerConn.new d s.now phase).created = d.number from rfl, hnumber]
        exact hlast
      case inOrder => exact List.nil_sublist _
      case reads => exact .nil
  case once =>
    intro l m e f x he hf hxe hxf
    rcases back he with he | ⟨-, rfl⟩
    · rcases back hf with hf | ⟨-, rfl⟩
      · exact h.once l m e f x he hf hxe hxf
      · exact absurd hxf List.not_mem_nil
    · exact absurd hxe List.not_mem_nil

theorem receive (h : Routed s) (src : SocketAddr) (payload : Bytes) (hidle : s.demux = .idle) :
    Routed (s.receive src payload) := by
  have hs : s.routed = s.arrivals := by
    unfold Sys.routed
    rw [hidle]
    rfl
  have ht : (s.receive src payload).routed = s.arrivals := List.dropLast_concat
  constructor
  case numbered =>
    intro i d hd
    rcases Nat.lt_trichotomy i s.arrivals.length with hlt | heq | hgt
    · have hd' : (s.arrivals ++ [(⟨s.arrivals.length, src, payload⟩ : Datagram)])[i]? = some d := hd
      rw [List.getElem?_append_left hlt] at hd'
      exact h.numbered i d hd'
    · have hd' : (s.arrivals ++ [(⟨s.arrivals.length, src, payload⟩ : Datagram)])[i]? = some d := hd
      rw [heq, List.getElem?_concat_length] at hd'
      cases hd'
      exact heq.symm
    · have hlen := (List.getElem?_eq_some_iff.mp hd).1
      have hlen' : i < (s.arrivals ++ [(⟨s.arrivals.length, src, payload⟩ : Datagram)]).length := hlen
      rw [List.length_append, List.length_singleton] at hlen'
      omega
  case hand =>
    intro d hd
    cases hd
    rw [ht]
    rfl
  case peers => exact h.peers
  case toward =>
    intro src k hk
    cases hk
  case conns =>
    intro k c hc
    have hok := h.conns k c hc
    constructor
    case id => exact hok.id
    case created => rw [ht, ← hs]; exact hok.created
    case made =>
      obtain ⟨d, hd, hpeer⟩ := hok.made
      refine ⟨d, ?_, hpeer⟩
      show (s.arrivals ++ [_])[c.created]? = some d
      rw [List.getElem?_append_left (List.getElem?_eq_some_iff.mp hd).1]
      exact hd
    case inOrder => rw [ht, ← hs]; exact hok.inOrder
    case reads => exact hok.reads
  case once => exact h.once

/-- Only connections change. -/
theorem conns_kept (h : Routed s) (harrivals : t.arrivals = s.arrivals) (hid : t.nextId = s.nextId)
    (hdemux : t.demux = s.demux) (hkept : Kept s t)
    (hpeers : ∀ src handle, t.peers src = some handle → s.peers src = some handle) : Routed t := by
  refine h.frame harrivals hid (.inr (congrArg Demux.hand hdemux)) hkept
    (fun src handle hhandle => h.peers src handle (hpeers src handle hhandle)) fun src k hk => ?_
  rw [hdemux] at hk
  exact h.toward src k hk

/-- The loop goes on to a place where it has no datagram and no connection in view. -/
theorem go_on (h : Routed s) (harrivals : t.arrivals = s.arrivals) (hid : t.nextId = s.nextId)
    (hhand : t.demux.hand = none) (htoward : t.demux.toward = none) (hkept : Kept s t)
    (hpeers : ∀ src handle, t.peers src = some handle →
      ∃ c, s.conns handle.id = some c ∧ c.peer = src) : Routed t := by
  refine h.frame harrivals hid (.inl hhand) hkept hpeers fun src k hk => ?_
  rw [htoward] at hk
  cases hk

theorem step {config : UdpListenConfig} {a : Action} (h : Routed s) (hstep : Step config s a t) :
    Routed t := by
  cases hstep with
  | recv src payload hdemux hlen => exact h.receive src payload hdemux
  | recvError hdemux => exact h
  | known hdemux hpeer =>
    refine h.frame rfl rfl (.inr ?_) (.of_eq rfl) h.peers fun src k hk => ?_
    · rw [hdemux]
      rfl
    · cases hk
      exact h.peers _ _ hpeer
  | unknown hdemux hpeer =>
    refine h.frame rfl rfl (.inr ?_) (.of_eq rfl) h.peers fun src k hk => nomatch hk
    rw [hdemux]
    rfl
  | @send d k c c' hdemux hc hsend =>
    obtain ⟨e, he, hpeer⟩ := h.toward d.src k (by rw [hdemux]; rfl)
    cases hc.symm.trans he
    obtain rfl := trySend_ok hsend
    exact h.deliver (by rw [hdemux]; rfl) hc hpeer rfl rfl rfl rfl rfl fun src k hk => nomatch hk
  | sendFull hdemux hc hsend => exact h.go_on rfl rfl rfl rfl (.of_eq rfl) h.peers
  | sendClosed hdemux hc hsend =>
    refine h.frame rfl rfl (.inr ?_) (.of_eq rfl) h.peers fun src k hk => nomatch hk
    rw [hdemux]
    rfl
  | @evict d hdemux =>
    refine h.frame rfl rfl (.inr ?_) (.of_eq rfl) (fun src handle hhandle => ?_)
      fun src k hk => nomatch hk
    · rw [hdemux]
      rfl
    · by_cases hsrc : src = d.src
      · subst hsrc
        have hnone : Function.update s.peers d.src none d.src = some handle := hhandle
        rw [Function.update_self] at hnone
        cases hnone
      · have hold : Function.update s.peers d.src none src = some handle := hhandle
        rw [Function.update_of_ne hsrc] at hold
        exact h.peers src handle hold
  | @offer d hdemux hoffer =>
    refine h.create .queued (by rw [hdemux]; rfl) rfl rfl (.inr ?_) rfl rfl fun src k hk => ?_
    · rw [hdemux]
      rfl
    · cases hk
      exact ⟨rfl, rfl⟩
  | refused hdemux hoffer =>
    exact h.create .dropping (by rw [hdemux]; rfl) rfl rfl (.inl rfl) rfl rfl
      fun src k hk => nomatch hk
  | @refuse k e c hdemux hc hgone =>
    refine h.go_on rfl rfl ?_ ?_ (.of_eq rfl) h.peers
    · cases e <;> rfl
    · cases e <;> rfl
  | @first d k c hdemux hc =>
    obtain ⟨e, he, hpeer⟩ := h.toward d.src k (by rw [hdemux]; rfl)
    cases hc.symm.trans he
    have htoward : s.demux.toward = some (d.src, k) := by
      rw [hdemux]
      rfl
    cases hsend : c.trySend config.normalized.queueSize d with
    | ok c' =>
      obtain rfl := trySend_ok hsend
      refine h.deliver (by rw [hdemux]; rfl) hc hpeer rfl rfl rfl rfl rfl fun src l hl => ?_
      cases hl
      exact htoward
    | error e =>
      refine h.frame rfl rfl (.inl rfl) (.setConn hc .rfl rfl) h.peers fun src l hl => ?_
      cases hl
      exact h.toward _ _ htoward
  | @insert src k c hdemux hc =>
    refine h.go_on rfl rfl rfl rfl (.of_eq rfl) fun src' handle hhandle => ?_
    by_cases hsrc : src' = src
    · subst hsrc
      have hself : Function.update s.peers src' (some ⟨k⟩) src' = some handle := hhandle
      rw [Function.update_self] at hself
      cases hself
      exact h.toward src' k (by rw [hdemux]; rfl)
    · have hold : Function.update s.peers src (some ⟨k⟩) src' = some handle := hhandle
      rw [Function.update_of_ne hsrc] at hold
      exact h.peers src' handle hold
  | spawn hdemux => exact h.go_on rfl rfl rfl rfl (.of_eq rfl) h.peers
  | cancelled hdemux hcancel => exact h.go_on rfl rfl rfl rfl (.of_eq rfl) h.peers
  | drain hdemux => exact h.go_on rfl rfl rfl rfl (.of_eq rfl) fun src handle hnone => nomatch hnone
  | cancelHandle hdemux hhandle hc =>
    exact h.go_on rfl rfl rfl rfl (.marks hc rfl) h.peers
  | finish hdemux hnone => exact h.go_on rfl rfl rfl rfl (.of_eq rfl) h.peers
  | accept hlisten hbacklog hc =>
    exact h.conns_kept rfl rfl rfl (.marks hc rfl)
      fun src handle hhandle => hhandle
  | closeListener => exact h.conns_kept rfl rfl rfl (.of_eq rfl) fun src handle hhandle => hhandle
  | dropListener hcancel =>
    exact h.conns_kept rfl rfl rfl (.of_eq rfl) fun src handle hhandle => hhandle
  | discard hlisten hbacklog hc =>
    exact h.conns_kept rfl rfl rfl (.marks hc rfl)
      fun src handle hhandle => hhandle
  | conn hc hconn =>
    exact h.conns_kept rfl rfl rfl (.setConn hc (keeps_conn (h.conns _ _ hc).reads hconn) rfl)
      fun src handle hhandle => hhandle
  | closed hunlocked hc hphase =>
    exact h.conns_kept rfl rfl rfl (.marks hc rfl)
      fun src handle hhandle => (removePeer_eq_some hhandle).1
  | dropped hunlocked hc hphase =>
    exact h.conns_kept rfl rfl rfl (.marks hc rfl)
      fun src handle hhandle => (removePeer_eq_some hhandle).1
  | watch hc hwatch => exact h.conns_kept rfl rfl rfl (.of_eq rfl) fun src handle hhandle => hhandle
  | expire hunlocked hc hwatch =>
    exact h.conns_kept rfl rfl rfl (.of_eq rfl) fun src handle hhandle =>
      (removePeer_eq_some hhandle).1
  | expired hc hwatch =>
    exact h.conns_kept rfl rfl rfl (.marks hc rfl)
      fun src handle hhandle => hhandle
  | tick => exact h.conns_kept rfl rfl rfl (.of_eq rfl) fun src handle hhandle => hhandle

theorem init : Routed Sys.init where
  numbered _ _ hd := nomatch hd
  hand _ hd := nomatch hd
  peers _ _ hhandle := nomatch hhandle
  toward _ _ hk := nomatch hk
  conns _ _ hc := nomatch hc
  once _ _ _ _ _ hc := nomatch hc

end Routed

/-! ## What is delivered -/

/-- Datagrams are numbered as they come.  One that a connection has, read or queued, no
other connection has; it came from the connection's peer, not before the one the
connection was made for, and they stand in the order of their arrival.  The reads return
them one at a time and in full. -/
structure Delivered (s : Sys) : Prop where
  numbered : ∀ (i : Nat) (d : Datagram), s.arrivals[i]? = some d → d.number = i
  once : ∀ k l c e d, s.conns k = some c → s.conns l = some e → d ∈ c.trace → d ∈ e.trace →
    k = l
  made : ∀ k c, s.conns k = some c → ∃ d, s.arrivals[c.created]? = some d ∧ d.src = c.peer
  inOrder : ∀ k c, s.conns k = some c →
    c.trace.Sublist (Sys.receivedFrom s.arrivals c.peer c.created)
  reads : ∀ k c, s.conns k = some c → Assembled c.reads c.pending

theorem Routed.delivered {s : Sys} (h : Routed s) : Delivered s where
  numbered := h.numbered
  once := h.once
  made k c hc := (h.conns k c hc).made
  inOrder k c hc := by
    refine (h.conns k c hc).inOrder.trans ?_
    cases hd : s.demux.hand with
    | none =>
      unfold Sys.routed
      rw [hd]
      exact .refl _
    | some d =>
      rw [h.hand d hd]
      exact Routed.receivedFrom_mono
  reads k c hc := (h.conns k c hc).reads

theorem listener_delivers (config : UdpListenConfig) {s : Sys}
    (h : Reaches (Step config) anyStep Sys.init s) : Delivered s :=
  (h.invariant Routed.init fun _ _ _ ht _ hstep => ht.step hstep).delivered

/-! ### A run -/

def sampleConfig : UdpListenConfig := { ttl := 0, backlog := 0, queueSize := 0 }

def sampleSrc : SocketAddr := ⟨.v4 ⟨127, 0, 0, 1⟩, 5300⟩

/-- Three bytes are read into a buffer of two. -/
theorem listener_delivers_split : ∃ s c, Reaches (Step sampleConfig) anyStep Sys.init s
    ∧ s.conns 1 = some c ∧ c.reads.map (·.bytes) = [[1, 2], [3]] ∧ Delivered s := by
  have h0 : Reaches (Step sampleConfig) anyStep Sys.init Sys.init := .refl
  have h1 := h0.tail trivial (Step.recv sampleSrc [1, 2, 3] rfl (by decide))
  have h2 := h1.tail trivial (Step.unknown rfl rfl)
  have h3 := h2.tail trivial (Step.offer rfl rfl)
  have h4 := h3.tail trivial (Step.first rfl rfl)
  have h5 := h4.tail trivial (Step.accept rfl rfl rfl)
  have h6 := h5.tail trivial (Step.conn (k := 1) rfl (.poll 2 rfl))
  have h7 := h6.tail trivial (Step.conn (k := 1) rfl (.poll 2 rfl))
  exact ⟨_, _, h7, rfl, rfl, listener_delivers sampleConfig h7⟩

end Udp
end RtProxy
