import RtProxy.Lib.Bytes
import Mathlib.Logic.Function.Basic
import Mathlib.Data.List.Infix

/-!
The smux protocol between two peers, over messages.

A `Peer` is what one end of a session knows of the protocol: the ids it has
handed out, the streams it has, what it has written to each, and the messages it
has sent and consumed.  Two peers of different parity talk over two lossless
first-in first-out channels, so what one has consumed is a prefix of what the
other has sent.

`Joined` collects what holds of two such peers whatever order they move in, as
long as neither has run out of ids.  Its consequence is
`Joined.payload_isPrefix`: the payload a peer has consumed for an id is a prefix
of what the other has written to its stream of that id, and all of it once the
FIN has been consumed.
-/

namespace RtProxy
namespace Mux

inductive Msg
  | syn (sid : UInt32)
  | psh (sid : UInt32) (data : Bytes)
  | fin (sid : UInt32)
deriving Repr, DecidableEq

namespace Msg

def sid : Msg → UInt32
  | .syn sid | .psh sid _ | .fin sid => sid

def data : Msg → Bytes
  | .psh _ data => data
  | _ => []

/-- The id a message asks to open. -/
def opens : Msg → Option UInt32
  | .syn sid => some sid
  | _ => none

/-- The messages for one stream. -/
def onId (i : UInt32) (l : List Msg) : List Msg := l.filter (·.sid = i)

/-- The payload for one stream, in order. -/
def payload (i : UInt32) (l : List Msg) : Bytes := (onId i l).flatMap data

@[simp] theorem onId_append (i : UInt32) (l l' : List Msg) :
    onId i (l ++ l') = onId i l ++ onId i l' := List.filter_append l l'

@[simp] theorem payload_append (i : UInt32) (l l' : List Msg) :
    payload i (l ++ l') = payload i l ++ payload i l' := by
  simp [payload]

theorem mem_onId {i : UInt32} {l : List Msg} {m : Msg} : m ∈ onId i l ↔ m ∈ l ∧ m.sid = i := by
  simp [onId]

theorem onId_isPrefix {l l' : List Msg} (h : l <+: l') (i : UInt32) : onId i l <+: onId i l' :=
  h.filter _

end Msg

/-- How far an `open_stream` call has come: it has an id, or it has inserted its
stream and not sent the SYN. -/
inductive Opening
  | none
  | insert (sid : UInt32)
  | pushSyn (r : Nat)
deriving Repr, DecidableEq

/-- One end of the protocol.  `given r` says that stream `r` has been handed to
the application, `syn` is the SYN being processed. -/
structure Peer where
  par : Nat
  next : UInt32
  «over» : Bool
  opens : Nat → Opening
  count : Nat
  ids : Nat → UInt32
  given : Nat → Bool
  put : Nat → Bytes
  fin : Nat → Bool
  syn : Option UInt32
  sent : List (Nat × Msg)
  parsed : List Msg

inductive PeerStep (p : Peer) : Peer → Prop
  | idle : PeerStep p p
  | alloc {k : Nat} (h : p.opens k = .none) (hw : p.next + 2 ≠ (p.next + 2) % 2) :
      PeerStep p
        { p with next := p.next + 2, opens := Function.update p.opens k (.insert (p.next + 2)) }
  | exhaust : PeerStep p { p with next := p.next + 2, «over» := true }
  | insertOpen {k : Nat} {sid : UInt32} (h : p.opens k = .insert sid) :
      PeerStep p
        { p with
          ids := Function.update p.ids p.count sid, count := p.count + 1
          opens := Function.update p.opens k (.pushSyn p.count) }
  | pushSyn {k r : Nat} (h : p.opens k = .pushSyn r) (hg : p.given r = false) :
      PeerStep p
        { p with
          given := Function.update p.given r true, sent := p.sent ++ [(r, .syn (p.ids r))]
          opens := Function.update p.opens k .none }
  | unwind {k r : Nat} (h : p.opens k = .pushSyn r) :
      PeerStep p { p with opens := Function.update p.opens k .none }
  | insertSyn {sid : UInt32} (h : p.syn = some sid) :
      PeerStep p
        { p with
          ids := Function.update p.ids p.count sid, count := p.count + 1
          given := Function.update p.given p.count true, syn := none }
  | skipSyn : PeerStep p { p with syn := none }
  | pushPsh {r : Nat} (data : Bytes) (hg : p.given r = true) (hf : p.fin r = false) :
      PeerStep p
        { p with
          put := Function.update p.put r (p.put r ++ data)
          sent := p.sent ++ [(r, .psh (p.ids r) data)] }
  | pushFin {r : Nat} (hg : p.given r = true) (hf : p.fin r = false) :
      PeerStep p
        { p with
          fin := Function.update p.fin r true, sent := p.sent ++ [(r, .fin (p.ids r))] }
  | setFin {r : Nat} (hg : p.given r = true) :
      PeerStep p { p with fin := Function.update p.fin r true }
  | consume (m : Msg) (h : p.syn = none) :
      PeerStep p { p with parsed := p.parsed ++ [m], syn := m.opens }

namespace Peer

/-- The messages sent for stream `r`. -/
def script (p : Peer) (r : Nat) : List Msg := (p.sent.filter (·.1 = r)).map (·.2)

/-- Stream `r` was opened at this end. -/
def Own (p : Peer) (r : Nat) : Prop := (p.ids r).toNat % 2 = p.par

instance (p : Peer) (r : Nat) : Decidable (p.Own r) :=
  inferInstanceAs (Decidable ((p.ids r).toNat % 2 = p.par))

/-- What has been sent for a stream: its SYN if it was opened here, then the
bytes written, then at most one FIN. -/
structure Scripted (p : Peer) (r : Nat) : Prop where
  shape : ∃ (pushes : List Bytes) (close : List Msg),
    p.script r = (if p.given r ∧ p.Own r then [Msg.syn (p.ids r)] else [])
      ++ pushes.map (Msg.psh (p.ids r)) ++ close
      ∧ pushes.flatten = p.put r
      ∧ (close = [] ∨ close = [Msg.fin (p.ids r)] ∧ p.fin r = true)
  silent : p.given r = false → p.script r = [] ∧ p.fin r = false

/-- What a peer knows by itself. -/
structure Local (p : Peer) : Prop where
  parity : p.next.toNat % 2 = p.par
  inflight : ∀ k sid, p.opens k = .insert sid →
    sid.toNat ≤ p.next.toNat ∧ sid.toNat % 2 = p.par ∧ (∀ r < p.count, p.ids r ≠ sid)
      ∧ ∀ k', p.opens k' = .insert sid → k' = k
  opening : ∀ k r, p.opens k = .pushSyn r → r < p.count ∧ p.Own r
  ownLe : ∀ r < p.count, p.Own r → (p.ids r).toNat ≤ p.next.toNat
  vacant : ∀ r, p.count ≤ r → p.given r = false
  sentIds : ∀ x ∈ p.sent, x.1 < p.count ∧ x.2.sid = p.ids x.1
  unique : ∀ r r', r < p.count → r' < p.count → p.ids r = p.ids r' → r = r'
  scripted : ∀ r, p.Scripted r

/-- What a peer `p` knows of the other end `q`. -/
structure Hears (p q : Peer) : Prop where
  channel : p.parsed <+: q.sent.map (·.2)
  foreign : ∀ r < p.count, ¬ p.Own r → Msg.syn (p.ids r) ∈ p.parsed
  handling : ∀ sid, p.syn = some sid →
    Msg.onId sid p.parsed = [.syn sid] ∧ ∀ r < p.count, p.ids r ≠ sid

end Peer

/-- Two ends of one session, neither of which has run out of ids. -/
structure Joined (p q : Peer) : Prop where
  parity : p.par ≠ q.par
  left : p.Local
  right : q.Local
  leftHears : p.Hears q
  rightHears : q.Hears p

theorem Joined.symm {p q : Peer} (h : Joined p q) : Joined q p :=
  ⟨h.parity.symm, h.right, h.left, h.rightHears, h.leftHears⟩

namespace Peer

variable {p q : Peer} {r : Nat}

/-- The messages sent under the id of a stream are the ones that stream sent. -/
theorem Local.onId_sent (hp : p.Local) (hr : r < p.count) :
    Msg.onId (p.ids r) (p.sent.map (·.2)) = p.script r := by
  unfold Msg.onId script
  rw [List.filter_map]
  congr 1
  refine List.filter_congr fun x hx => ?_
  obtain ⟨hlt, hsid⟩ := hp.sentIds x hx
  have hiff : x.2.sid = p.ids r ↔ x.1 = r := by
    rw [hsid]
    exact ⟨fun h => hp.unique _ _ hlt hr h, fun h => by rw [h]⟩
  simp [Function.comp, hiff]

/-- A message under some id was sent by a stream of that id. -/
theorem Local.exists_sender (hp : p.Local) {m : Msg} (hm : m ∈ p.sent.map (·.2)) :
    ∃ r < p.count, p.ids r = m.sid ∧ m ∈ p.script r := by
  obtain ⟨x, hx, rfl⟩ := List.mem_map.mp hm
  obtain ⟨hlt, hsid⟩ := hp.sentIds x hx
  refine ⟨x.1, hlt, hsid.symm, ?_⟩
  unfold script
  exact List.mem_map.mpr ⟨x, List.mem_filter.mpr ⟨hx, by simp⟩, rfl⟩

/-- The shape of a script of a stream that has sent something. -/
theorem Scripted.syn_mem (hs : p.Scripted r) {sid : UInt32} (h : Msg.syn sid ∈ p.script r) :
    p.Own r ∧ sid = p.ids r := by
  obtain ⟨pushes, close, hshape, -, hclose⟩ := hs.shape
  rw [hshape] at h
  by_cases hown : p.given r ∧ p.Own r
  · simp only [hown, and_self, if_true] at h
    rcases hclose with rfl | ⟨rfl, -⟩ <;> simp_all
  · simp only [hown, if_false] at h
    rcases hclose with rfl | ⟨rfl, -⟩ <;> simp_all

/-- A SYN comes from a stream opened at its sender. -/
theorem Local.syn_sender (hp : p.Local) {sid : UInt32} (hm : Msg.syn sid ∈ p.sent.map (·.2)) :
    ∃ r < p.count, p.ids r = sid ∧ p.Own r := by
  obtain ⟨r, hr, hid, hmem⟩ := hp.exists_sender hm
  exact ⟨r, hr, hid, ((hp.scripted r).syn_mem hmem).1⟩

theorem Scripted.congr {p' : Peer} (hs : p.Scripted r) (hpar : p'.par = p.par)
    (hid : p'.ids r = p.ids r) (hg : p'.given r = p.given r) (hput : p'.put r = p.put r)
    (hfin : p'.fin r = p.fin r) (hscript : p'.script r = p.script r) : p'.Scripted r := by
  have hown : p'.Own r ↔ p.Own r := by
    unfold Own
    rw [hid, hpar]
  obtain ⟨pushes, close, hshape, hflat, hclose⟩ := hs.shape
  refine ⟨⟨pushes, close, ?_, ?_, ?_⟩, fun h => ?_⟩
  · rw [hscript, hshape, hid, hg]
    simp only [hown]
  · rw [hput, hflat]
  · rw [hid, hfin]
    exact hclose
  · rw [hg] at h
    rw [hscript, hfin]
    exact hs.silent h

/-- A stream that nobody has been given has been written nothing. -/
theorem Scripted.put_eq_nil (hs : p.Scripted r) (h : p.given r = false) : p.put r = [] := by
  obtain ⟨pushes, close, hshape, hflat, -⟩ := hs.shape
  rw [(hs.silent h).1, h] at hshape
  have hnil : pushes = [] := by
    have hlen := congrArg List.length hshape
    simp only [Bool.false_eq_true, false_and, if_false, List.nil_append, List.length_append,
      List.length_map, List.length_nil] at hlen
    exact List.length_eq_zero_iff.mp (by omega)
  rw [← hflat, hnil]
  rfl

/-- A stream that has sent nothing and is not opened here, or has not been given
to anybody. -/
theorem Scripted.fresh (hscript : p.script r = []) (hput : p.put r = [])
    (hown : ¬ (p.given r ∧ p.Own r)) (hfin : p.given r = false → p.fin r = false) :
    p.Scripted r := by
  refine ⟨⟨[], [], ?_, ?_, .inl rfl⟩, fun h => ⟨hscript, hfin h⟩⟩
  · rw [hscript, if_neg hown]
    rfl
  · rw [hput]
    rfl

theorem script_eq_nil (hp : p.Local) (hr : p.count ≤ r) : p.script r = [] := by
  unfold script
  rw [List.map_eq_nil_iff, List.filter_eq_nil_iff]
  intro x hx
  have hlt := (hp.sentIds x hx).1
  simp only [decide_eq_true_eq]
  omega

theorem script_push_self {p' : Peer} {m : Msg} (h : p'.sent = p.sent ++ [(r, m)]) :
    p'.script r = p.script r ++ [m] := by
  unfold script
  rw [h, List.filter_append, List.map_append]
  simp

theorem script_push_of_ne {p' : Peer} {m : Msg} {r' : Nat} (h : p'.sent = p.sent ++ [(r, m)])
    (hne : r' ≠ r) : p'.script r' = p.script r' := by
  unfold script
  rw [h, List.filter_append, List.map_append]
  simp [Ne.symm hne]

/-! ## Id allocation -/

theorem toNat_next {next : UInt32} (hw : next + 2 ≠ (next + 2) % 2) :
    (next + 2).toNat = next.toNat + 2 := by
  have hlt := next.toNat_lt
  by_contra hne
  apply hw
  apply UInt32.toNat_inj.mp
  rw [UInt32.toNat_mod]
  rw [UInt32.toNat_add] at hne ⊢
  have h2 : (2 : UInt32).toNat = 2 := rfl
  rw [h2] at hne ⊢
  omega

theorem Local.alloc (hp : p.Local) {k : Nat} (hw : p.next + 2 ≠ (p.next + 2) % 2)
    (h : p.opens k = .none) :
    Local { p with
      next := p.next + 2, opens := Function.update p.opens k (.insert (p.next + 2)) } := by
  have hnext := toNat_next hw
  have hpar := hp.parity
  have hnew : ∀ r < p.count, p.ids r ≠ p.next + 2 := by
    intro r hr he
    by_cases hown : p.Own r
    · have hle := hp.ownLe r hr hown
      rw [he, hnext] at hle
      omega
    · apply hown
      unfold Own
      rw [he, hnext]
      omega
  have hold : ∀ k', p.opens k' ≠ .insert (p.next + 2) := by
    intro k' hk'
    have hle := (hp.inflight k' _ hk').1
    rw [hnext] at hle
    omega
  refine ⟨?_, ?_, ?_, ?_, hp.vacant, hp.sentIds, hp.unique,
    fun r => (hp.scripted r).congr rfl rfl rfl rfl rfl rfl⟩
  · show (p.next + 2).toNat % 2 = p.par
    rw [hnext]
    omega
  · intro k' sid hk'
    change Function.update p.opens k _ k' = _ at hk'
    by_cases hkk : k' = k
    · subst hkk
      rw [Function.update_self] at hk'
      cases hk'
      have hsid : (p.next + 2).toNat % 2 = p.par := by
        rw [hnext]
        omega
      refine ⟨Nat.le_refl _, hsid, hnew, fun k'' hk'' => ?_⟩
      by_contra hne
      change Function.update p.opens k' _ k'' = _ at hk''
      rw [Function.update_of_ne hne] at hk''
      exact hold k'' hk''
    · rw [Function.update_of_ne hkk] at hk'
      obtain ⟨hle, hsid, hfree, honly⟩ := hp.inflight k' sid hk'
      refine ⟨?_, hsid, hfree, fun k'' hk'' => ?_⟩
      · show sid.toNat ≤ (p.next + 2).toNat
        omega
      · change Function.update p.opens k _ k'' = _ at hk''
        by_cases hkk'' : k'' = k
        · subst hkk''
          rw [Function.update_self] at hk''
          cases hk''
          exact absurd hk' (hold k')
        · rw [Function.update_of_ne hkk''] at hk''
          exact honly k'' hk''
  · intro k' r hk'
    change Function.update p.opens k _ k' = _ at hk'
    by_cases hkk : k' = k
    · subst hkk
      rw [Function.update_self] at hk'
      cases hk'
    · rw [Function.update_of_ne hkk] at hk'
      exact hp.opening k' r hk'
  · intro r hr hown
    show (p.ids r).toNat ≤ (p.next + 2).toNat
    have hle := hp.ownLe r hr hown
    omega

/-- A new stream under an id that is free here. -/
theorem Local.insert {p' : Peer} {sid : UInt32} (hp : p.Local) (hpar : p'.par = p.par)
    (hnext : p'.next = p.next) (hcount : p'.count = p.count + 1)
    (hids : p'.ids = Function.update p.ids p.count sid) (hput : p'.put = p.put)
    (hfin : p'.fin = p.fin) (hsent : p'.sent = p.sent) (hfree : ∀ r < p.count, p.ids r ≠ sid)
    (hgiven : p'.given = p.given ∨
      p'.given = Function.update p.given p.count true ∧ sid.toNat % 2 ≠ p.par)
    (hown : sid.toNat % 2 = p.par → sid.toNat ≤ p.next.toNat)
    (hins : ∀ k i, p'.opens k = .insert i → p.opens k = .insert i ∧ i ≠ sid)
    (hpush : ∀ k r, p'.opens k = .pushSyn r →
      p.opens k = .pushSyn r ∨ r = p.count ∧ sid.toNat % 2 = p.par) : p'.Local := by
  have hnew : p'.ids p.count = sid := by rw [hids, Function.update_self]
  have hold : ∀ r, r ≠ p.count → p'.ids r = p.ids r := fun r hr => by
    rw [hids, Function.update_of_ne hr]
  have holdGiven : ∀ r, r ≠ p.count → p'.given r = p.given r := by
    intro r hr
    rcases hgiven with h | ⟨h, -⟩
    · rw [h]
    · rw [h, Function.update_of_ne hr]
  have holdOwn : ∀ r, r ≠ p.count → (p'.Own r ↔ p.Own r) := fun r hr => by
    unfold Own
    rw [hold r hr, hpar]
  have hscript : ∀ r, p'.script r = p.script r := fun r => by
    unfold script
    rw [hsent]
  refine ⟨by rw [hnext, hpar]; exact hp.parity, ?_, ?_, ?_, ?_, ?_, ?_, ?_⟩
  · intro k i hk
    obtain ⟨hk', hne⟩ := hins k i hk
    obtain ⟨hle, hi, hfreei, honly⟩ := hp.inflight k i hk'
    refine ⟨by rw [hnext]; exact hle, by rw [hpar]; exact hi, fun r hr => ?_, fun k' hk'' => ?_⟩
    · by_cases hrc : r = p.count
      · rw [hrc, hnew]
        exact hne.symm
      · rw [hold r hrc]
        exact hfreei r (by omega)
    · exact honly k' (hins k' i hk'').1
  · intro k r hk
    rcases hpush k r hk with hk' | ⟨rfl, hsid⟩
    · obtain ⟨hr, hownr⟩ := hp.opening k r hk'
      have hne : r ≠ p.count := Nat.ne_of_lt hr
      exact ⟨by omega, (holdOwn r hne).mpr hownr⟩
    · refine ⟨by omega, ?_⟩
      unfold Own
      rw [hnew, hpar, hsid]
  · intro r hr hownr
    by_cases hrc : r = p.count
    · subst hrc
      unfold Own at hownr
      rw [hnew, hpar] at hownr
      rw [hnew, hnext]
      exact hown hownr
    · rw [hold r hrc, hnext]
      exact hp.ownLe r (by omega) ((holdOwn r hrc).mp hownr)
  · intro r hr
    rw [holdGiven r (by omega)]
    exact hp.vacant r (by omega)
  · intro x hx
    rw [hsent] at hx
    obtain ⟨hlt, hsid⟩ := hp.sentIds x hx
    rw [hold x.1 (Nat.ne_of_lt hlt)]
    exact ⟨by omega, hsid⟩
  · intro r r' hr hr' he
    by_cases hrc : r = p.count <;> by_cases hrc' : r' = p.count
    · rw [hrc, hrc']
    · rw [hrc, hnew, hold r' hrc'] at he
      exact absurd he.symm (hfree r' (by omega))
    · rw [hrc', hnew, hold r hrc] at he
      exact absurd he (hfree r (by omega))
    · rw [hold r hrc, hold r' hrc'] at he
      exact hp.unique r r' (by omega) (by omega) he
  · intro r
    by_cases hrc : r = p.count
    · subst hrc
      have hvac := hp.vacant p.count (Nat.le_refl _)
      refine Scripted.fresh ?_ ?_ ?_ ?_
      · rw [hscript]
        exact script_eq_nil hp (Nat.le_refl _)
      · rw [hput]
        exact (hp.scripted p.count).put_eq_nil hvac
      · rintro ⟨hg, hownr⟩
        rcases hgiven with h | ⟨-, hsid⟩
        · rw [h, hvac] at hg
          cases hg
        · unfold Own at hownr
          rw [hnew, hpar] at hownr
          exact hsid hownr
      · intro _
        rw [hfin]
        exact ((hp.scripted p.count).silent hvac).2
    · exact (hp.scripted r).congr hpar (hold r hrc) (holdGiven r hrc) (by rw [hput])
        (by rw [hfin]) (hscript r)

/-- A step that makes no stream and no id, and may send for a stream there is. -/
theorem Local.write {p' : Peer} (hp : p.Local) (hpar : p'.par = p.par) (hnext : p'.next = p.next)
    (hcount : p'.count = p.count) (hids : p'.ids = p.ids)
    (hopens : ∀ k, p'.opens k = p.opens k ∨ p'.opens k = .none)
    (hgiven : ∀ r, p.count ≤ r → p'.given r = false)
    (hsent : ∀ x ∈ p'.sent, x ∈ p.sent ∨ x.1 < p.count ∧ x.2.sid = p.ids x.1)
    (hscripted : ∀ r, p'.Scripted r) : p'.Local := by
  have hown : ∀ r, p'.Own r ↔ p.Own r := fun r => by
    unfold Own
    rw [hids, hpar]
  have hopen : ∀ k o, o ≠ .none → p'.opens k = o → p.opens k = o := by
    intro k o ho hk
    rcases hopens k with h | h
    · rw [← h, hk]
    · exact absurd (hk.symm.trans h) ho
  refine ⟨by rw [hnext, hpar]; exact hp.parity, ?_, ?_, ?_, ?_, ?_, ?_, hscripted⟩
  · intro k i hk
    obtain ⟨hle, hi, hfree, honly⟩ := hp.inflight k i (hopen k _ nofun hk)
    rw [hnext, hpar, hids, hcount]
    exact ⟨hle, hi, hfree, fun k' hk' => honly k' (hopen k' _ nofun hk')⟩
  · intro k r hk
    obtain ⟨hr, ho⟩ := hp.opening k r (hopen k _ nofun hk)
    rw [hcount]
    exact ⟨hr, (hown r).mpr ho⟩
  · intro r hr ho
    rw [hcount] at hr
    rw [hids, hnext]
    exact hp.ownLe r hr ((hown r).mp ho)
  · intro r hr
    rw [hcount] at hr
    exact hgiven r hr
  · intro x hx
    rw [hcount, hids]
    rcases hsent x hx with h | h
    · exact hp.sentIds x h
    · exact h
  · rw [hcount, hids]
    exact hp.unique

/-! ## What a push does to a script -/

theorem Scripted.pushSyn {p' : Peer} (hs : p.Scripted r) (hg : p.given r = false) (hown : p.Own r)
    (hpar : p'.par = p.par) (hids : p'.ids = p.ids) (hg' : p'.given r = true)
    (hput : p'.put = p.put) (hsent : p'.sent = p.sent ++ [(r, .syn (p.ids r))]) :
    p'.Scripted r := by
  have hown' : p'.Own r := by
    unfold Own
    rw [hids, hpar]
    exact hown
  refine ⟨⟨[], [], ?_, ?_, .inl rfl⟩, fun h => ?_⟩
  · rw [script_push_self hsent, (hs.silent hg).1, hids, if_pos ⟨hg', hown'⟩]
    rfl
  · rw [hput, hs.put_eq_nil hg]
    rfl
  · rw [hg'] at h
    cases h

theorem Scripted.pushPsh {p' : Peer} {data : Bytes} (hs : p.Scripted r) (hg : p.given r = true)
    (hf : p.fin r = false) (hpar : p'.par = p.par) (hids : p'.ids = p.ids)
    (hg' : p'.given = p.given) (hput : p'.put r = p.put r ++ data)
    (hsent : p'.sent = p.sent ++ [(r, .psh (p.ids r) data)]) : p'.Scripted r := by
  have hown : p'.Own r ↔ p.Own r := by
    unfold Own
    rw [hids, hpar]
  obtain ⟨pushes, close, hshape, hflat, hclose⟩ := hs.shape
  have hnil : close = [] := by
    rcases hclose with h | ⟨-, h⟩
    · exact h
    · rw [hf] at h
      cases h
  refine ⟨⟨pushes ++ [data], [], ?_, ?_, .inl rfl⟩, fun h => ?_⟩
  · rw [script_push_self hsent, hshape, hnil, hids, hg']
    simp only [hown, List.append_nil, List.map_append, List.append_assoc, List.map_cons,
      List.map_nil]
  · rw [hput, ← hflat]
    simp
  · rw [hg', hg] at h
    cases h

theorem Scripted.pushFin {p' : Peer} (hs : p.Scripted r) (hg : p.given r = true)
    (hf : p.fin r = false) (hpar : p'.par = p.par) (hids : p'.ids = p.ids)
    (hg' : p'.given = p.given) (hput : p'.put = p.put) (hfin : p'.fin r = true)
    (hsent : p'.sent = p.sent ++ [(r, .fin (p.ids r))]) : p'.Scripted r := by
  have hown : p'.Own r ↔ p.Own r := by
    unfold Own
    rw [hids, hpar]
  obtain ⟨pushes, close, hshape, hflat, hclose⟩ := hs.shape
  have hnil : close = [] := by
    rcases hclose with h | ⟨-, h⟩
    · exact h
    · rw [hf] at h
      cases h
  refine ⟨⟨pushes, [.fin (p.ids r)], ?_, ?_, ?_⟩, fun h => ?_⟩
  · rw [script_push_self hsent, hshape, hnil, hids, hg']
    simp only [hown, List.append_nil]
  · rw [hput, hflat]
  · rw [hids]
    exact .inr ⟨rfl, hfin⟩
  · rw [hg', hg] at h
    cases h

theorem Scripted.setFin {p' : Peer} (hs : p.Scripted r) (hg : p.given r = true)
    (hpar : p'.par = p.par) (hids : p'.ids = p.ids) (hg' : p'.given = p.given)
    (hput : p'.put = p.put) (hfin : p'.fin r = true) (hsent : p'.sent = p.sent) :
    p'.Scripted r := by
  have hown : p'.Own r ↔ p.Own r := by
    unfold Own
    rw [hids, hpar]
  have hscript : p'.script r = p.script r := by
    unfold script
    rw [hsent]
  obtain ⟨pushes, close, hshape, hflat, hclose⟩ := hs.shape
  refine ⟨⟨pushes, close, ?_, ?_, ?_⟩, fun h => ?_⟩
  · rw [hscript, hshape, hids, hg']
    simp only [hown]
  · rw [hput, hflat]
  · rw [hids]
    exact hclose.imp id fun h => ⟨h.1, hfin⟩
  · rw [hg', hg] at h
    cases h

end Peer

/-! ## What the other end has heard -/

namespace Joined

open Peer

variable {p p' q : Peer} {r : Nat}

/-- A SYN that `p` has consumed was sent by a stream that `q` opened. -/
theorem syn_sender (hj : Joined p q) {sid : UInt32} (h : Msg.syn sid ∈ p.parsed) :
    ∃ r < q.count, q.ids r = sid ∧ q.Own r :=
  hj.right.syn_sender (hj.leftHears.channel.subset h)

/-- Consuming a SYN: it is the first message `p` has seen for its id. -/
theorem onId_of_consume_syn (hj : Joined p q) {sid : UInt32}
    (h : p.parsed ++ [.syn sid] <+: q.sent.map (·.2)) : Msg.onId sid p.parsed = [] := by
  have hmem : Msg.syn sid ∈ q.sent.map (·.2) := h.subset (by simp)
  obtain ⟨r, hr, hid, hscript⟩ := hj.right.exists_sender hmem
  change q.ids r = sid at hid
  subst hid
  have hpre := Msg.onId_isPrefix h (q.ids r)
  rw [hj.right.onId_sent hr, Msg.onId_append] at hpre
  obtain ⟨pushes, close, hshape, -, hclose⟩ := (hj.right.scripted r).shape
  have hown : q.given r ∧ q.Own r := by
    by_contra hno
    rw [hshape, if_neg hno] at hscript
    rcases hclose with rfl | ⟨rfl, -⟩ <;> simp at hscript
  rw [hshape, if_pos hown] at hpre
  cases hl : Msg.onId (q.ids r) p.parsed with
  | nil => rfl
  | cons m l =>
    -- past the first place of the script there is no SYN
    rw [hl] at hpre
    have htail : l ++ [Msg.syn (q.ids r)] <+: pushes.map (Msg.psh (q.ids r)) ++ close := by
      have hon : Msg.onId (q.ids r) [Msg.syn (q.ids r)] = [.syn (q.ids r)] := by
        simp [Msg.onId, Msg.sid]
      rw [hon] at hpre
      exact (List.cons_prefix_cons.mp hpre).2
    have hin : Msg.syn (q.ids r) ∈ pushes.map (Msg.psh (q.ids r)) ++ close :=
      htail.subset (by simp)
    rcases hclose with rfl | ⟨rfl, -⟩ <;> simp at hin

/-- An id that a call of `p` is about to use has never been heard of. -/
theorem unheard_of_inflight (hj : Joined p q) {k : Nat} {sid : UInt32}
    (h : p.opens k = .insert sid) : Msg.onId sid p.parsed = [] := by
  obtain ⟨-, hpar, hfree, -⟩ := hj.left.inflight k sid h
  rw [Msg.onId, List.filter_eq_nil_iff]
  intro m hm hsid
  simp only [decide_eq_true_eq] at hsid
  obtain ⟨r, hr, hid, -⟩ := hj.right.exists_sender (hj.leftHears.channel.subset hm)
  have hforeign : ¬ q.Own r := by
    unfold Own
    rw [hid, hsid, hpar]
    exact hj.parity
  have hsyn := hj.rightHears.foreign r hr hforeign
  rw [hid, hsid] at hsyn
  obtain ⟨r', hr', hid', -⟩ := hj.symm.syn_sender hsyn
  exact hfree r' hr' hid'

/-- The speaker may go on speaking. -/
theorem hears_extend (h : q.Hears p) (hsent : p.sent <+: p'.sent) : q.Hears p' :=
  ⟨h.channel.trans (hsent.map _), h.foreign, h.handling⟩

/-- The listener may change anything it has not heard. -/
theorem hears_congr (h : p.Hears q) (hpar : p'.par = p.par) (hcount : p'.count = p.count)
    (hids : p'.ids = p.ids) (hsyn : p'.syn = p.syn ∨ p'.syn = none)
    (hparsed : p'.parsed = p.parsed) : p'.Hears q := by
  refine ⟨by rw [hparsed]; exact h.channel, fun r hr hown => ?_, fun sid hsid => ?_⟩
  · rw [hcount] at hr
    unfold Own at hown
    rw [hids, hpar] at hown
    rw [hids, hparsed]
    exact h.foreign r hr hown
  · rw [hparsed, hcount, hids]
    rcases hsyn with hs | hs
    · rw [hs] at hsid
      exact h.handling sid hsid
    · rw [hs] at hsid
      cases hsid

/-- A new stream: opened here, or one whose SYN has been consumed. -/
theorem hears_insert (h : p.Hears q) {sid : UInt32} (hpar : p'.par = p.par)
    (hcount : p'.count = p.count + 1) (hids : p'.ids = Function.update p.ids p.count sid)
    (hparsed : p'.parsed = p.parsed)
    (hsid : sid.toNat % 2 = p.par ∨ Msg.syn sid ∈ p.parsed)
    (hsyn : ∀ i, p'.syn = some i → p.syn = some i ∧ i ≠ sid) : p'.Hears q := by
  have hold : ∀ r, r ≠ p.count → p'.ids r = p.ids r := fun r hr => by
    rw [hids, Function.update_of_ne hr]
  have hnew : p'.ids p.count = sid := by rw [hids, Function.update_self]
  refine ⟨by rw [hparsed]; exact h.channel, fun r hr hown => ?_, fun i hi => ?_⟩
  · rw [hparsed]
    unfold Own at hown
    by_cases hrc : r = p.count
    · rw [hrc, hnew]
      rw [hrc, hnew, hpar] at hown
      exact hsid.resolve_left hown
    · rw [hold r hrc]
      rw [hold r hrc, hpar] at hown
      exact h.foreign r (by omega) hown
  · obtain ⟨hi', hne⟩ := hsyn i hi
    obtain ⟨honly, hfree⟩ := h.handling i hi'
    refine ⟨by rw [hparsed]; exact honly, fun r hr => ?_⟩
    by_cases hrc : r = p.count
    · rw [hrc, hnew]
      exact hne.symm
    · rw [hold r hrc]
      exact hfree r (by omega)

/-- A push that keeps the scripts keeps the peers joined. -/
theorem push (hj : Joined p q) (hpar : p'.par = p.par) (hnext : p'.next = p.next)
    (hcount : p'.count = p.count) (hids : p'.ids = p.ids)
    (hopens : ∀ k, p'.opens k = p.opens k ∨ p'.opens k = .none)
    (hgiven : ∀ r, p.count ≤ r → p'.given r = false)
    (hsent : p'.sent = p.sent ∨
      ∃ r m, p'.sent = p.sent ++ [(r, m)] ∧ r < p.count ∧ m.sid = p.ids r)
    (hsyn : p'.syn = p.syn ∨ p'.syn = none) (hparsed : p'.parsed = p.parsed)
    (hscripted : ∀ r, p'.Scripted r) : Joined p' q := by
  have hprefix : p.sent <+: p'.sent := by
    rcases hsent with h | ⟨r, m, h, -⟩
    · rw [h]
    · rw [h]
      exact List.prefix_append _ _
  refine ⟨by rw [hpar]; exact hj.parity,
    hj.left.write hpar hnext hcount hids hopens hgiven (fun x hx => ?_) hscripted, hj.right,
    hears_congr hj.leftHears hpar hcount hids hsyn hparsed, hears_extend hj.rightHears hprefix⟩
  rcases hsent with h | ⟨r, m, h, hr, hm⟩
  · rw [h] at hx
    exact .inl hx
  · rw [h, List.mem_append, List.mem_singleton] at hx
    rcases hx with hx | rfl
    · exact .inl hx
    · exact .inr ⟨hr, hm⟩

theorem update_none (f : Nat → Opening) (k k' : Nat) :
    Function.update f k .none k' = f k' ∨ Function.update f k .none k' = .none := by
  by_cases h : k' = k
  · rw [h, Function.update_self]
    exact .inr rfl
  · rw [Function.update_of_ne h]
    exact .inl rfl

/-- One step of either end, seen from the end that moves. -/
theorem step (hj : Joined p q) (h : PeerStep p p') (hover : p'.over = false)
    (hchannel : p'.parsed <+: q.sent.map (·.2)) : Joined p' q := by
  have hlt : ∀ {r}, p.given r = true → r < p.count := by
    intro r hg
    by_contra hge
    rw [hj.left.vacant r (Nat.le_of_not_lt hge)] at hg
    cases hg
  have hsame : ∀ r, p.count ≤ r → p.given r = false := hj.left.vacant
  cases h
  case idle => exact hj
  case alloc k h hw =>
    exact ⟨hj.parity, hj.left.alloc hw h, hj.right,
      hears_congr hj.leftHears rfl rfl rfl (.inl rfl) rfl, hears_extend hj.rightHears (List.prefix_refl _)⟩
  case exhaust => cases hover
  case insertOpen k sid h =>
    obtain ⟨hle, hpar, hfree, honly⟩ := hj.left.inflight k sid h
    refine ⟨hj.parity, hj.left.insert rfl rfl rfl rfl rfl rfl rfl hfree (.inl rfl) (fun _ => hle)
      (fun k' i hk' => ?_) (fun k' r hk' => ?_), hj.right,
      hears_insert hj.leftHears rfl rfl rfl rfl (.inl hpar) (fun i hi => ⟨hi, ?_⟩),
      hears_extend hj.rightHears (List.prefix_refl _)⟩
    · change Function.update p.opens k _ k' = _ at hk'
      by_cases hkk : k' = k
      · rw [hkk, Function.update_self] at hk'
        cases hk'
      · rw [Function.update_of_ne hkk] at hk'
        refine ⟨hk', ?_⟩
        rintro rfl
        exact hkk (honly k' hk')
    · change Function.update p.opens k _ k' = _ at hk'
      by_cases hkk : k' = k
      · rw [hkk, Function.update_self] at hk'
        cases hk'
        exact .inr ⟨rfl, hpar⟩
      · rw [Function.update_of_ne hkk] at hk'
        exact .inl hk'
    · -- the SYN being handled has an id of the other parity
      rintro rfl
      have honid := (hj.leftHears.handling i hi).1
      rw [hj.unheard_of_inflight h] at honid
      cases honid
  case insertSyn sid h =>
    obtain ⟨honid, hfree⟩ := hj.leftHears.handling sid h
    have hsyn : Msg.syn sid ∈ p.parsed := by
      have hmem : Msg.syn sid ∈ Msg.onId sid p.parsed := by
        rw [honid]
        exact List.mem_singleton_self _
      exact (Msg.mem_onId.mp hmem).1
    obtain ⟨r, -, hid, hown⟩ := hj.syn_sender hsyn
    have hpar : sid.toNat % 2 ≠ p.par := by
      unfold Own at hown
      rw [hid] at hown
      rw [hown]
      exact hj.parity.symm
    refine ⟨hj.parity, hj.left.insert rfl rfl rfl rfl rfl rfl rfl hfree (.inr ⟨rfl, hpar⟩)
      (fun he => absurd he hpar) (fun k i hk => ⟨hk, ?_⟩) (fun k r hk => .inl hk), hj.right,
      hears_insert hj.leftHears rfl rfl rfl rfl (.inr hsyn) (fun i hi => nomatch hi),
      hears_extend hj.rightHears (List.prefix_refl _)⟩
    rintro rfl
    exact hpar (hj.left.inflight k i hk).2.1
  case skipSyn =>
    exact hj.push rfl rfl rfl rfl (fun _ => .inl rfl) hsame (.inl rfl) (.inr rfl) rfl
      fun r => (hj.left.scripted r).congr rfl rfl rfl rfl rfl rfl
  case unwind k r h =>
    exact hj.push rfl rfl rfl rfl (update_none _ _) hsame (.inl rfl) (.inl rfl) rfl
      fun r => (hj.left.scripted r).congr rfl rfl rfl rfl rfl rfl
  case pushSyn k r h hg =>
    obtain ⟨hr, hown⟩ := hj.left.opening k r h
    refine hj.push rfl rfl rfl rfl (update_none _ _) (fun r' hr' => ?_)
      (.inr ⟨r, _, rfl, hr, rfl⟩) (.inl rfl) rfl fun r' => ?_
    · show Function.update p.given r true r' = false
      rw [Function.update_of_ne (by omega)]
      exact hsame r' hr'
    · by_cases hrr : r' = r
      · subst hrr
        exact (hj.left.scripted r').pushSyn hg hown rfl rfl (Function.update_self _ _ _) rfl rfl
      · exact (hj.left.scripted r').congr rfl rfl (Function.update_of_ne hrr _ _) rfl rfl
          (script_push_of_ne rfl hrr)
  case pushPsh r data hg hf =>
    refine hj.push rfl rfl rfl rfl (fun _ => .inl rfl) hsame (.inr ⟨r, _, rfl, hlt hg, rfl⟩)
      (.inl rfl) rfl fun r' => ?_
    by_cases hrr : r' = r
    · subst hrr
      exact (hj.left.scripted r').pushPsh hg hf rfl rfl rfl (Function.update_self _ _ _) rfl
    · exact (hj.left.scripted r').congr rfl rfl rfl (Function.update_of_ne hrr _ _) rfl
        (script_push_of_ne rfl hrr)
  case pushFin r hg hf =>
    refine hj.push rfl rfl rfl rfl (fun _ => .inl rfl) hsame (.inr ⟨r, _, rfl, hlt hg, rfl⟩)
      (.inl rfl) rfl fun r' => ?_
    by_cases hrr : r' = r
    · subst hrr
      exact (hj.left.scripted r').pushFin hg hf rfl rfl rfl rfl (Function.update_self _ _ _) rfl
    · exact (hj.left.scripted r').congr rfl rfl rfl rfl (Function.update_of_ne hrr _ _)
        (script_push_of_ne rfl hrr)
  case setFin r hg =>
    refine hj.push rfl rfl rfl rfl (fun _ => .inl rfl) hsame (.inl rfl) (.inl rfl) rfl
      fun r' => ?_
    by_cases hrr : r' = r
    · subst hrr
      exact (hj.left.scripted r').setFin hg rfl rfl rfl rfl (Function.update_self _ _ _) rfl
    · exact (hj.left.scripted r').congr rfl rfl rfl rfl (Function.update_of_ne hrr _ _) rfl
  case consume m h =>
    refine ⟨hj.parity,
      hj.left.write rfl rfl rfl rfl (fun _ => .inl rfl) hsame (fun x hx => .inl hx)
        (fun r => (hj.left.scripted r).congr rfl rfl rfl rfl rfl rfl), hj.right,
      ⟨hchannel, fun r hr hown => ?_, fun sid hsid => ?_⟩, hears_extend hj.rightHears (List.prefix_refl _)⟩
    · exact List.mem_append_left _ (hj.leftHears.foreign r hr hown)
    · obtain rfl : m = .syn sid := by
        cases m <;> cases hsid
        rfl
      have hnil := hj.onId_of_consume_syn hchannel
      refine ⟨?_, fun r hr hid => ?_⟩
      · show Msg.onId sid (p.parsed ++ [.syn sid]) = _
        rw [Msg.onId_append, hnil]
        simp [Msg.onId, Msg.sid]
      · change p.ids r = sid at hid
        by_cases hown : p.Own r
        · have hsent : Msg.syn sid ∈ q.sent.map (·.2) :=
            hchannel.subset (List.mem_append_right _ (List.mem_singleton_self _))
          obtain ⟨r', -, hid', hown'⟩ := hj.right.syn_sender hsent
          unfold Own at hown hown'
          rw [hid, ← hid', hown'] at hown
          exact hj.parity hown.symm
        · have hsyn := hj.leftHears.foreign r hr hown
          rw [hid] at hsyn
          have hmem : Msg.syn sid ∈ Msg.onId sid p.parsed := Msg.mem_onId.mpr ⟨hsyn, rfl⟩
          rw [hnil] at hmem
          cases hmem

/-! ## Delivery -/

/-- The payload consumed for an id is a prefix of what the other end has written
to its stream of that id, and is all of it once the FIN has been consumed. -/
theorem payload_isPrefix (hj : Joined p q) (hr : r < q.count) :
    Msg.payload (q.ids r) p.parsed <+: q.put r
      ∧ (Msg.fin (q.ids r) ∈ p.parsed →
        Msg.payload (q.ids r) p.parsed = q.put r ∧ q.fin r = true) := by
  have hpre := Msg.onId_isPrefix hj.leftHears.channel (q.ids r)
  rw [hj.right.onId_sent hr] at hpre
  obtain ⟨pushes, close, hshape, hflat, hclose⟩ := (hj.right.scripted r).shape
  have hdata : (q.script r).flatMap Msg.data = q.put r := by
    have hpsh : (pushes.map (Msg.psh (q.ids r))).flatMap Msg.data = pushes.flatten := by
      rw [List.flatMap_map]
      exact List.flatMap_id'
    have hclosed : close.flatMap Msg.data = [] := by
      rcases hclose with rfl | ⟨rfl, -⟩ <;> rfl
    rw [hshape, List.flatMap_append, List.flatMap_append, hpsh, hclosed, hflat]
    split_ifs <;> simp [Msg.data]
  obtain ⟨rest, hrest⟩ := hpre
  have hsplit : q.put r = Msg.payload (q.ids r) p.parsed ++ rest.flatMap Msg.data := by
    rw [← hdata, ← hrest, List.flatMap_append]
    rfl
  refine ⟨⟨_, hsplit.symm⟩, fun hfin => ?_⟩
  have hmem : Msg.fin (q.ids r) ∈ Msg.onId (q.ids r) p.parsed := Msg.mem_onId.mpr ⟨hfin, rfl⟩
  rcases hclose with rfl | ⟨rfl, hqfin⟩
  · have hin : Msg.fin (q.ids r) ∈ q.script r := by
      rw [← hrest]
      exact List.mem_append_left _ hmem
    rw [hshape] at hin
    split_ifs at hin <;> simp at hin
  · -- the FIN is the last message of the script, so nothing is left after it
    have hnil : rest = [] := by
      rcases List.eq_nil_or_concat rest with h | ⟨init, last, h⟩
      · exact h
      · exfalso
        rw [hshape, h, List.concat_eq_append, ← List.append_assoc] at hrest
        have hhead := (List.append_inj' hrest rfl).1
        have hin : Msg.fin (q.ids r) ∈ (if q.given r = true ∧ q.Own r then [Msg.syn (q.ids r)]
            else []) ++ pushes.map (Msg.psh (q.ids r)) := by
          rw [← hhead]
          exact List.mem_append_left _ hmem
        split_ifs at hin <;> simp at hin
    rw [hnil] at hsplit
    exact ⟨by rw [hsplit]; simp, hqfin⟩

/-- Nothing has been consumed for an id the other end has no stream for. -/
theorem payload_eq_nil (hj : Joined p q) {sid : UInt32} (h : ∀ r < q.count, q.ids r ≠ sid) :
    Msg.onId sid p.parsed = [] := by
  rw [Msg.onId, List.filter_eq_nil_iff]
  intro m hm hsid
  simp only [decide_eq_true_eq] at hsid
  obtain ⟨r, hr, hid, -⟩ := hj.right.exists_sender (hj.leftHears.channel.subset hm)
  exact h r hr (hid.trans hsid)

end Joined

end Mux
end RtProxy
