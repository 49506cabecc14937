/-
DNS messages on the wire (RFC 1035, section 4).

A name is a sequence of labels that may end in a pointer to another place of the
message, so what a name reads as depends on the whole buffer.  `NameIn n` counts the
labels and pointers that are followed: since no place is visited twice, a name that
can be read at all is read in no more steps than the buffer has bytes.

The data of some types of records hold names (RFC 1035, section 3.3), and a name in a record
may be compressed like any other.  Data are therefore read in the message they stand in: the
same bytes elsewhere mean the same only if no pointer was followed.

A compressed name is read from offset to offset: past a label, or to where a pointer points.
The walk is over the offsets of the message, so one with more steps than offsets comes back to
an offset, and one that comes back never ends.
-/
import Mathlib.Data.Finset.Card
import Mathlib.Data.Finset.Range
import Mathlib.Data.Fintype.Card
import Mathlib.Logic.Relation
import RtProxy.Lib.Offsets

namespace Dns

open Bytes

/-- A label is some bytes; a dot among them is a byte like any other. -/
abbrev Label := Bytes

/-! ## Names -/

/-- The labels read from offset `p` in `n` steps, and the offset after the name where
it stands.  Pointers are followed only if `ptr` holds. -/
inductive NameIn (buf : Bytes) (ptr : Prop) : Nat → Nat → List Label → Nat → Prop
  | root {p : Nat} (h : At buf p [0]) : NameIn buf ptr 1 p [] (p + 1)
  | label {n p q : Nat} {l : Label} {ls : List Label} (hpos : 0 < l.length)
      (hlen : l.length < 64) (h : At buf p (UInt8.ofNat l.length :: l))
      (more : NameIn buf ptr n (p + 1 + l.length) ls q) : NameIn buf ptr (n + 1) p (l :: ls) q
  | pointer {n p q : Nat} {hi lo : UInt8} {ls : List Label} (hptr : ptr) (hhi : 0xC0 ≤ hi)
      (h : At buf p [hi, lo])
      (more : NameIn buf ptr n ((hi.toNat - 0xC0) * 256 + lo.toNat) ls q) :
      NameIn buf ptr (n + 1) p ls (p + 2)

def ReadsName (buf : Bytes) (ptr : Prop) (p : Nat) (ls : List Label) (q : Nat) : Prop :=
  ∃ n, NameIn buf ptr n p ls q

namespace NameIn

variable {buf : Bytes} {ptr : Prop} {n m p q r : Nat} {ls ls' : List Label}

theorem lt_length (h : NameIn buf ptr n p ls q) : p < buf.length := by
  have of_cons {x : UInt8} {xs : Bytes} (hat : At buf p (x :: xs)) : p < buf.length := by
    have hle := hat.length_le
    rw [List.length_cons] at hle
    omega
  cases h with
  | root hat => exact of_cons hat
  | label _ _ hat _ => exact of_cons hat
  | pointer _ _ hat _ => exact of_cons hat

theorem first_eq {x y : UInt8} {xs ys : Bytes} (h : At buf p (x :: xs))
    (h' : At buf p (y :: ys)) : x = y := by
  have hx := (At.cons_iff.mp h).1
  rw [(At.cons_iff.mp h').1] at hx
  exact (Option.some_inj.mp hx).symm

theorem toNat_length {l : Label} (hlen : l.length < 64) : (UInt8.ofNat l.length).toNat = l.length :=
  UInt8.toNat_ofNat_of_lt' (by show _ < 256; omega)

/-- The first byte tells the three kinds of step apart. -/
theorem unique (h : NameIn buf ptr n p ls q) (h' : NameIn buf ptr m p ls' r) :
    n = m ∧ ls = ls' ∧ q = r := by
  induction h generalizing m ls' r with
  | root hat =>
    cases h' with
    | root => exact ⟨rfl, rfl, rfl⟩
    | label hpos hlen hat' _ =>
      have hx := congrArg UInt8.toNat (first_eq hat hat')
      rw [toNat_length hlen] at hx
      exact absurd hx.symm (by rw [UInt8.toNat_zero]; omega)
    | pointer _ hhi hat' _ =>
      rw [← first_eq hat hat'] at hhi
      exact absurd hhi (by decide)
  | label hpos hlen hat _ ih =>
    have hx := toNat_length hlen
    cases h' with
    | root hat' =>
      rw [first_eq hat hat', UInt8.toNat_zero] at hx
      omega
    | label _ hlen' hat' more' =>
      have hlens := congrArg UInt8.toNat (first_eq hat hat')
      rw [hx, toNat_length hlen'] at hlens
      have hl := (At.cons_iff.mp hat).2.unique (At.cons_iff.mp hat').2 hlens
      subst hl
      obtain ⟨rfl, rfl, rfl⟩ := ih more'
      exact ⟨rfl, rfl, rfl⟩
    | pointer _ hhi hat' _ =>
      rw [← first_eq hat hat', UInt8.le_iff_toNat_le, hx] at hhi
      have hC0 : (0xC0 : UInt8).toNat = 0xC0 := rfl
      omega
  | pointer _ hhi hat _ ih =>
    cases h' with
    | root hat' =>
      rw [first_eq hat hat'] at hhi
      exact absurd hhi (by decide)
    | label _ hlen hat' _ =>
      rw [first_eq hat hat', UInt8.le_iff_toNat_le, toNat_length hlen] at hhi
      have hC0 : (0xC0 : UInt8).toNat = 0xC0 := rfl
      omega
    | pointer _ _ hat' more' =>
      have hbytes := hat.unique hat' rfl
      cases hbytes
      obtain ⟨rfl, rfl, -⟩ := ih more'
      exact ⟨rfl, rfl, rfl⟩

/-- The places a name is read through, one for every number of steps left. -/
theorem visits (h : NameIn buf ptr n p ls q) :
    ∀ k < n, ∃ p' ls' q', NameIn buf ptr (k + 1) p' ls' q' := by
  induction h with
  | root hat =>
    intro k hk
    obtain rfl : k = 0 := by omega
    exact ⟨_, _, _, .root hat⟩
  | @label n _ _ _ _ hpos hlen hat more ih =>
    intro k hk
    rcases Nat.lt_succ_iff_lt_or_eq.mp hk with hlt | rfl
    · exact ih k hlt
    · exact ⟨_, _, _, .label hpos hlen hat more⟩
  | @pointer n _ _ _ _ _ hptr hhi hat more ih =>
    intro k hk
    rcases Nat.lt_succ_iff_lt_or_eq.mp hk with hlt | rfl
    · exact ih k hlt
    · exact ⟨_, _, _, .pointer hptr hhi hat more⟩

/-- Different numbers of steps left mean different places, so there are no more steps
than bytes. -/
theorem steps_le (h : NameIn buf ptr n p ls q) : n ≤ buf.length := by
  have hplace := h.visits
  choose! place names after hread using hplace
  have hcard := Finset.card_le_card_of_injOn place (s := Finset.range n)
    (t := Finset.range buf.length)
    (fun k hk => Finset.mem_coe.mpr (Finset.mem_range.mpr
      (hread k (Finset.mem_range.mp (Finset.mem_coe.mp hk))).lt_length))
    (fun i hi j hj hij => by
      have hi' := hread i (Finset.mem_range.mp (Finset.mem_coe.mp hi))
      have hj' := hread j (Finset.mem_range.mp (Finset.mem_coe.mp hj))
      rw [hij] at hi'
      exact Nat.succ_inj.mp (hi'.unique hj').1)
  rwa [Finset.card_range, Finset.card_range] at hcard

theorem labels (h : NameIn buf ptr n p ls q) : ∀ l ∈ ls, 0 < l.length ∧ l.length < 64 := by
  induction h with
  | root => exact fun l hl => absurd hl List.not_mem_nil
  | label hpos hlen _ _ ih =>
    intro l hl
    rcases List.mem_cons.mp hl with rfl | hl
    · exact ⟨hpos, hlen⟩
    · exact ih l hl
  | pointer _ _ _ _ ih => exact ih

end NameIn

/-- A name without pointers. -/
def encodeLabels : List Label → Bytes
  | [] => [0]
  | l :: ls => UInt8.ofNat l.length :: l ++ encodeLabels ls

namespace ReadsName

variable {buf : Bytes} {ptr : Prop} {p q r : Nat} {ls ls' : List Label}

theorem unique (h : ReadsName buf ptr p ls q) (h' : ReadsName buf ptr p ls' r) :
    ls = ls' ∧ q = r := by
  obtain ⟨n, h⟩ := h
  obtain ⟨m, h'⟩ := h'
  exact (h.unique h').2

theorem labels (h : ReadsName buf ptr p ls q) : ∀ l ∈ ls, 0 < l.length ∧ l.length < 64 := by
  obtain ⟨n, h⟩ := h
  exact h.labels

/-- An encoded name reads as its labels wherever it stands. -/
theorem encode (hls : ∀ l ∈ ls, 0 < l.length ∧ l.length < 64) (h : At buf p (encodeLabels ls)) :
    ReadsName buf ptr p ls (p + (encodeLabels ls).length) := by
  induction ls generalizing p with
  | nil => exact ⟨1, .root h⟩
  | cons l ls ih =>
    obtain ⟨hpos, hlen⟩ := hls l List.mem_cons_self
    rw [encodeLabels] at h
    have hmore := h.right
    rw [List.length_cons, ← Nat.add_assoc, Nat.add_right_comm] at hmore
    obtain ⟨n, hn⟩ := ih (fun l hl => hls l (List.mem_cons_of_mem _ hl)) hmore
    refine ⟨n + 1, ?_⟩
    have hq : p + (encodeLabels (l :: ls)).length
        = p + 1 + l.length + (encodeLabels ls).length := by
      rw [encodeLabels, List.length_append, List.length_cons]
      omega
    rw [hq]
    exact .label hpos hlen h.left hn

/-- A name read without following a pointer is the encoding of its labels. -/
theorem plain (h : ReadsName buf False p ls q) :
    At buf p (encodeLabels ls) ∧ q = p + (encodeLabels ls).length := by
  obtain ⟨n, h⟩ := h
  induction h with
  | root hat => exact ⟨hat, rfl⟩
  | label hpos hlen hat more ih =>
    obtain ⟨hmore, rfl⟩ := ih
    constructor
    · rw [encodeLabels]
      refine At.append_iff.mpr ⟨hat, ?_⟩
      rw [List.length_cons, ← Nat.add_assoc, Nat.add_right_comm]
      exact hmore
    · rw [encodeLabels, List.length_append, List.length_cons]
      omega
  | pointer hptr => exact hptr.elim

end ReadsName

/-! ## Messages -/

structure Question where
  name : List Label
  qtype : UInt16
  qclass : UInt16
deriving Repr, DecidableEq

/-- A record, with the offset its data has in the message. -/
structure Record where
  name : List Label
  rtype : UInt16
  rclass : UInt16
  ttl : UInt32
  rdata : Bytes
  start : Nat
deriving Repr, DecidableEq

structure Message where
  id : UInt16
  flags : UInt16
  questions : List Question
  answers : List Record
  authorities : List Record
  additionals : List Record
deriving Repr, DecidableEq

def ReadsQuestion (buf : Bytes) (p : Nat) (q : Question) (r : Nat) : Prop :=
  ∃ e, ReadsName buf True p q.name e ∧ r = e + 4
    ∧ At buf e (be 2 q.qtype.toNat ++ be 2 q.qclass.toNat)

/-- What stands between the name of a record and its data. -/
def Record.fixed (rr : Record) : Bytes :=
  be 2 rr.rtype.toNat ++ be 2 rr.rclass.toNat ++ be 4 rr.ttl.toNat ++ be 2 rr.rdata.length

def ReadsRecord (buf : Bytes) (p : Nat) (rr : Record) (r : Nat) : Prop :=
  rr.rdata.length < 65536 ∧ ∃ e, ReadsName buf True p rr.name e ∧ rr.start = e + 10
    ∧ r = e + 10 + rr.rdata.length ∧ At buf e (rr.fixed ++ rr.rdata)

/-- The twelve bytes in front of the sections. -/
def Message.header (m : Message) : Bytes :=
  be 2 m.id.toNat ++ be 2 m.flags.toNat ++ be 2 m.questions.length ++ be 2 m.answers.length
    ++ be 2 m.authorities.length ++ be 2 m.additionals.length

/-- A message at the front of a buffer; what comes after it is ignored. -/
structure ReadsMessage (buf : Bytes) (m : Message) : Prop where
  questions : m.questions.length < 65536
  answers : m.answers.length < 65536
  authorities : m.authorities.length < 65536
  additionals : m.additionals.length < 65536
  header : At buf 0 m.header
  body : ∃ p q r s, Items (ReadsQuestion buf) 12 m.questions p
    ∧ Items (ReadsRecord buf) p m.answers q ∧ Items (ReadsRecord buf) q m.authorities r
    ∧ Items (ReadsRecord buf) r m.additionals s

theorem be_inj {k a b : Nat} (ha : a < 256 ^ k) (hb : b < 256 ^ k) (h : be k a = be k b) :
    a = b := by
  rw [← beNat_be ha, h, beNat_be hb]

theorem be16_inj {x y : UInt16} (h : be 2 x.toNat = be 2 y.toNat) : x = y :=
  UInt16.toNat_inj.mp (be_inj x.toNat_lt y.toNat_lt h)

theorem be32_inj {x y : UInt32} (h : be 4 x.toNat = be 4 y.toNat) : x = y :=
  UInt32.toNat_inj.mp (be_inj x.toNat_lt y.toNat_lt h)

theorem ReadsQuestion.unique {buf : Bytes} {p : Nat} {a : Question} {q : Nat} {b : Question}
    {r : Nat} (ha : ReadsQuestion buf p a q) (hb : ReadsQuestion buf p b r) : a = b ∧ q = r := by
  obtain ⟨na, ta, ca⟩ := a
  obtain ⟨nb, tb, cb⟩ := b
  obtain ⟨e, hname, rfl, hat⟩ := ha
  obtain ⟨e', hname', rfl, hat'⟩ := hb
  obtain ⟨hn, he⟩ := hname.unique hname'
  dsimp only at hn
  subst hn he
  have hbytes := hat.unique hat' (by simp)
  obtain ⟨ht, hc⟩ := List.append_inj hbytes (by simp)
  obtain rfl : ta = tb := be16_inj ht
  obtain rfl : ca = cb := be16_inj hc
  exact ⟨rfl, rfl⟩

@[simp] theorem Record.length_fixed (rr : Record) : rr.fixed.length = 10 := by
  simp [fixed]

theorem ReadsRecord.unique {buf : Bytes} {p : Nat} {a : Record} {q : Nat} {b : Record}
    {r : Nat} (ha : ReadsRecord buf p a q) (hb : ReadsRecord buf p b r) : a = b ∧ q = r := by
  obtain ⟨na, ta, ca, la, da, sa⟩ := a
  obtain ⟨nb, tb, cb, lb, db, sb⟩ := b
  obtain ⟨hlen, e, hname, hs, rfl, hat⟩ := ha
  obtain ⟨hlen', e', hname', hs', rfl, hat'⟩ := hb
  obtain ⟨hn, he⟩ := hname.unique hname'
  dsimp only at hn hs hs' hlen hlen'
  subst hn he hs hs'
  have hfixed := hat.left.unique hat'.left (by simp)
  obtain ⟨hfields, hl⟩ := List.append_inj hfixed (by simp)
  obtain ⟨hfields, httl⟩ := List.append_inj hfields (by simp)
  obtain ⟨ht, hc⟩ := List.append_inj hfields (by simp)
  have hdlen : da.length = db.length := be_inj hlen hlen' hl
  have hd : da = db := by
    have hdata := hat.right
    have hdata' := hat'.right
    rw [Record.length_fixed] at hdata hdata'
    exact hdata.unique hdata' hdlen
  subst hd
  obtain rfl : ta = tb := be16_inj ht
  obtain rfl : ca = cb := be16_inj hc
  obtain rfl : la = lb := be32_inj httl
  exact ⟨rfl, rfl⟩

@[simp] theorem Message.length_header (m : Message) : m.header.length = 12 := by
  simp [header]

theorem unique_records {buf : Bytes} {p q r : Nat} {as bs : List Record}
    (h : Items (ReadsRecord buf) p as q) (h' : Items (ReadsRecord buf) p bs r)
    (hlen : as.length = bs.length) : as = bs ∧ q = r :=
  h.unique (fun p _ _ _ _ (ha : ReadsRecord buf p _ _) hb => ha.unique hb) h' hlen

/-- A buffer holds one message at most. -/
theorem ReadsMessage.unique {buf : Bytes} {a b : Message} (ha : ReadsMessage buf a)
    (hb : ReadsMessage buf b) : a = b := by
  have hheader := ha.header.unique hb.header (by simp)
  obtain ⟨hheader, hxc⟩ := List.append_inj hheader (by simp)
  obtain ⟨hheader, hnc⟩ := List.append_inj hheader (by simp)
  obtain ⟨hheader, hac⟩ := List.append_inj hheader (by simp)
  obtain ⟨hheader, hqc⟩ := List.append_inj hheader (by simp)
  obtain ⟨hid, hflags⟩ := List.append_inj hheader (by simp)
  obtain ⟨p, q, r, s, hq, han, hns, har⟩ := ha.body
  obtain ⟨p', q', r', s', hq', han', hns', har'⟩ := hb.body
  obtain ⟨hq, hp⟩ := hq.unique
    (fun p _ _ _ _ (h : ReadsQuestion buf p _ _) h' => h.unique h') hq'
    (be_inj ha.questions hb.questions hqc)
  subst hp
  obtain ⟨han, hp⟩ := unique_records han han'
    (be_inj ha.answers hb.answers hac)
  subst hp
  obtain ⟨hns, hp⟩ := unique_records hns hns'
    (be_inj ha.authorities hb.authorities hnc)
  subst hp
  obtain ⟨har, -⟩ := unique_records har har'
    (be_inj ha.additionals hb.additionals hxc)
  obtain ⟨ia, fa, qa, aa, na, xa⟩ := a
  obtain ⟨ib, fb, qb, ab, nb, xb⟩ := b
  dsimp only at hq han hns har hid hflags
  rw [be16_inj hid, be16_inj hflags, hq, han, hns, har]

/-! ## The data of records -/

/-- How many bytes, and after them how many names, the data of a type start with. -/
def rdataLayout (t : UInt16) : Nat × Nat :=
  if t ∈ [2, 3, 4, 5, 7, 8, 9, 12] then (0, 1)
  else if t ∈ [6, 14] then (0, 2)
  else if t = 15 then (2, 1)
  else (0, 0)

structure Rdata where
  front : Bytes
  names : List (List Label)
  back : Bytes
deriving Repr, DecidableEq

/-- The data of a record in the buffer, pointers followed only if `ptr` holds. -/
def Record.Holds (buf : Bytes) (ptr : Prop) (rr : Record) (d : Rdata) : Prop :=
  d.front = rr.rdata.take (rdataLayout rr.rtype).1 ∧ d.front.length = (rdataLayout rr.rtype).1
    ∧ d.names.length = (rdataLayout rr.rtype).2
    ∧ ∃ n, Items (ReadsName buf ptr) (rr.start + (rdataLayout rr.rtype).1) d.names (rr.start + n)
      ∧ n ≤ rr.rdata.length ∧ d.back = rr.rdata.drop n

/-- Two records, each in its buffer, that say the same: their data read the same, and those
that cannot be read are the same bytes. -/
def SameRecord (buf buf' : Bytes) (rr rr' : Record) : Prop :=
  rr'.name = rr.name ∧ rr'.rtype = rr.rtype ∧ rr'.rclass = rr.rclass ∧ rr'.ttl = rr.ttl
    ∧ (∀ d, rr.Holds buf True d ↔ rr'.Holds buf' True d)
    ∧ ((∀ d, ¬ rr.Holds buf True d) → rr'.rdata = rr.rdata)

/-- Labels, one after another, without an end. -/
def spell (ls : List Label) : Bytes := ls.flatMap fun l => UInt8.ofNat l.length :: l

/-- Reading so many names from an offset, one comes to a pointer that ends before `e`. -/
def MeetsPointer (buf : Bytes) (p count e : Nat) : Prop :=
  ∃ (names : List (List Label)) (ls : List Label) (hi lo : UInt8), names.length < count
    ∧ (∀ name ∈ names, ∀ l ∈ name, 0 < l.length ∧ l.length < 64)
    ∧ (∀ l ∈ ls, 0 < l.length ∧ l.length < 64) ∧ 0xC0 ≤ hi
    ∧ At buf p (names.flatMap encodeLabels ++ spell ls ++ [hi, lo])
    ∧ p + (names.flatMap encodeLabels ++ spell ls ++ [hi, lo]).length ≤ e

/-- Reading the names in the data of the record, one comes to a pointer. -/
def Record.Compressed (rr : Record) : Prop :=
  MeetsPointer rr.rdata (rdataLayout rr.rtype).1 (rdataLayout rr.rtype).2 rr.rdata.length

/-- A name that ends before a pointer is met is read without one. -/
theorem NameIn.plain {buf : Bytes} {n p q e : Nat} {ls : List Label} (h : NameIn buf True n p ls q)
    (hq : q ≤ e) (hno : ¬ MeetsPointer buf p 1 e) : NameIn buf False n p ls q := by
  have hone (front : List Label) (hi lo : UInt8) (hfront : ∀ l ∈ front, 0 < l.length ∧ l.length < 64)
      (hhi : 0xC0 ≤ hi) (hat : At buf p (spell front ++ [hi, lo])) :
      ¬ p + (spell front ++ [hi, lo]).length ≤ e :=
    fun hle => hno ⟨[], front, hi, lo, Nat.one_pos, List.forall_mem_nil _, hfront, hhi, hat, hle⟩
  clear hno
  induction h with
  | root hat => exact .root hat
  | @label n p q l ls hpos hlen hat more ih =>
    refine .label hpos hlen hat (ih hq fun front hi lo hfront hhi hat' hle => ?_)
    refine hone (l :: front) hi lo (List.forall_mem_cons.mpr ⟨⟨hpos, hlen⟩, hfront⟩) hhi ?_ ?_
    · rw [spell, List.flatMap_cons, List.append_assoc]
      refine At.append_iff.mpr ⟨hat, ?_⟩
      rwa [List.length_cons, ← Nat.add_assoc, Nat.add_right_comm]
    · simp only [spell, List.flatMap_cons, List.length_append, List.length_cons] at hle ⊢
      omega
  | pointer _ hhi hat _ => exact absurd hq (hone [] _ _ (List.forall_mem_nil _) hhi hat)

theorem NameIn.lt_end {buf : Bytes} {ptr : Prop} {n p q : Nat} {ls : List Label}
    (h : NameIn buf ptr n p ls q) : p < q := by
  induction h <;> omega

/-- So are names, one after another. -/
theorem items_plain_of_not_meets {buf : Bytes} {p q e : Nat} {names : List (List Label)}
    (h : Items (ReadsName buf True) p names q) (hq : q ≤ e)
    (hno : ¬ MeetsPointer buf p names.length e) : Items (ReadsName buf False) p names q := by
  induction h with
  | nil p => exact .nil p
  | @cons p m q ls names first more ih =>
    obtain ⟨n, hn⟩ := first
    have hm : m ≤ q := by
      clear ih hno hn
      induction more with
      | nil => exact Nat.le_refl _
      | cons first _ ih =>
        obtain ⟨_, h⟩ := first
        exact Nat.le_trans (Nat.le_of_lt h.lt_end) (ih hq)
    have hplain : ReadsName buf False p ls m := by
      refine ⟨n, hn.plain (Nat.le_trans hm hq) fun hmeets => hno ?_⟩
      obtain ⟨names', front, hi, lo, hlen, hrest⟩ := hmeets
      exact ⟨names', front, hi, lo, Nat.lt_of_lt_of_le hlen (Nat.succ_pos _), hrest⟩
    refine .cons hplain (ih hq fun hmeets => hno ?_)
    obtain ⟨names', front, hi, lo, hlen, hnames, hfront, hhi, hat, hle⟩ := hmeets
    obtain ⟨hfirst, rfl⟩ := hplain.plain
    refine ⟨ls :: names', front, hi, lo, Nat.succ_lt_succ hlen,
      List.forall_mem_cons.mpr ⟨hplain.labels, hnames⟩, hfront, hhi, ?_, ?_⟩
    · rw [List.flatMap_cons, List.append_assoc, List.append_assoc]
      refine At.append_iff.mpr ⟨hfirst, ?_⟩
      rwa [← List.append_assoc]
    · simp only [List.flatMap_cons, List.length_append] at hle ⊢
      omega

/-- Names without pointers are their encodings, one after the other. -/
theorem items_plain {buf : Bytes} {p q : Nat} {names : List (List Label)}
    (h : Items (ReadsName buf False) p names q) :
    At buf p (names.flatMap encodeLabels) ∧ q = p + (names.flatMap encodeLabels).length
      ∧ ∀ ls ∈ names, ∀ l ∈ ls, 0 < l.length ∧ l.length < 64 := by
  induction h with
  | nil p => exact ⟨List.nil_prefix, rfl, fun ls hls => absurd hls List.not_mem_nil⟩
  | cons first _ ih =>
    obtain ⟨hmore, rfl, hlabels⟩ := ih
    obtain ⟨hat, rfl⟩ := first.plain
    rw [List.flatMap_cons, List.length_append]
    refine ⟨At.append_iff.mpr ⟨hat, hmore⟩, (Nat.add_assoc _ _ _).symm ▸ rfl, ?_⟩
    rw [List.forall_mem_cons]
    exact ⟨first.labels, hlabels⟩

theorem items_encode {buf : Bytes} {ptr : Prop} {p : Nat} {names : List (List Label)}
    (hlabels : ∀ ls ∈ names, ∀ l ∈ ls, 0 < l.length ∧ l.length < 64)
    (h : At buf p (names.flatMap encodeLabels)) :
    Items (ReadsName buf ptr) p names (p + (names.flatMap encodeLabels).length) := by
  induction names generalizing p with
  | nil => exact .nil p
  | cons ls names ih =>
    rw [List.flatMap_cons] at h ⊢
    obtain ⟨hfirst, hrest⟩ := List.forall_mem_cons.mp hlabels
    rw [List.length_append, ← Nat.add_assoc]
    exact .cons (.encode hfirst h.left) (ih hrest h.right)

/-- Data that are not compressed are read without pointers. -/
theorem Record.Holds.plain {buf : Bytes} {rr : Record} {d : Rdata} (h : rr.Holds buf True d)
    (hno : ¬ rr.Compressed) (hat : At buf rr.start rr.rdata) : rr.Holds buf False d := by
  obtain ⟨hfront, hlen, hnames, n, hitems, hn, hback⟩ := h
  refine ⟨hfront, hlen, hnames, n, items_plain_of_not_meets (e := rr.start + rr.rdata.length) hitems
    (by omega) fun hmeets => hno ?_, hn, hback⟩
  obtain ⟨names, front, hi, lo, hcount, hlabels, hfronts, hhi, hat', hle⟩ := hmeets
  refine ⟨names, front, hi, lo, hnames ▸ hcount, hlabels, hfronts, hhi, ?_, by omega⟩
  rw [Nat.add_assoc] at hle
  exact hat.within hat' (Nat.le_of_add_le_add_left hle)

/-- Data that are not compressed mean the same wherever they stand. -/
theorem Record.Holds.moved {buf buf' : Bytes} {rr rr' : Record} {d : Rdata}
    (hd : rr.Holds buf True d) (hno : ¬ rr.Compressed) (htype : rr'.rtype = rr.rtype)
    (hdata : rr'.rdata = rr.rdata) (hat : At buf rr.start rr.rdata)
    (hat' : At buf' rr'.start rr'.rdata) : rr'.Holds buf' True d := by
  obtain ⟨hfront, hlen, hnames, n, hitems, hn, hback⟩ := hd.plain hno hat
  obtain ⟨hplain, hend, hlabels⟩ := items_plain hitems
  unfold Record.Holds
  rw [htype, hdata]
  refine ⟨hfront, hlen, hnames, n, ?_, hn, hback⟩
  rw [hdata] at hat'
  have hinside := hat.within hplain (by omega)
  have hmoved : Items (ReadsName buf' True) _ d.names _ :=
    items_encode hlabels (hat'.inner hinside (by omega))
  have hstop : rr'.start + n
      = rr'.start + (rdataLayout rr.rtype).1 + (d.names.flatMap encodeLabels).length := by omega
  rw [hstop]
  exact hmoved

theorem Record.holds_iff {buf buf' : Bytes} {rr rr' : Record} (hno : ¬ rr.Compressed)
    (htype : rr'.rtype = rr.rtype) (hdata : rr'.rdata = rr.rdata) (hat : At buf rr.start rr.rdata)
    (hat' : At buf' rr'.start rr'.rdata) (d : Rdata) :
    rr.Holds buf True d ↔ rr'.Holds buf' True d := by
  have hno' : ¬ rr'.Compressed := by
    unfold Record.Compressed
    rw [htype, hdata]
    exact hno
  exact ⟨fun h => h.moved hno htype hdata hat hat',
    fun h => h.moved hno' htype.symm hdata.symm hat' hat⟩

end Dns

open Relation

/-! ## Walks that come back -/

/-- The walk from a place comes back to a place it has been at. -/
def Revisits {α : Type} (r : α → α → Prop) (a : α) : Prop :=
  ∃ b, ReflTransGen r a b ∧ TransGen r b b

/-- A walk that comes back goes on. -/
theorem Revisits.step {α : Type} {r : α → α → Prop} {a : α} (h : Revisits r a) :
    ∃ b, r a b ∧ Revisits r b := by
  obtain ⟨c, hreach, hback⟩ := h
  rcases hreach.cases_head with rfl | ⟨b, hab, hbc⟩
  · obtain ⟨b, hab, hba⟩ := TransGen.head'_iff.mp hback
    exact ⟨b, hab, a, hba, hback⟩
  · exact ⟨b, hab, c, hbc, hback⟩

theorem reflTransGen_of_steps {α : Type} {r : α → α → Prop} {f : Nat → α} {i k : Nat}
    (h : ∀ j, i ≤ j → j < i + k → r (f j) (f (j + 1))) : ReflTransGen r (f i) (f (i + k)) := by
  induction k with
  | zero => exact .refl
  | succ k ih =>
    exact (ih fun j hi hj => h j hi (by omega)).tail (h (i + k) (by omega) (by omega))

/-- A walk with more steps than places comes back. -/
theorem revisits_of_steps {r : Nat → Nat → Prop} {f : Nat → Nat} {n : Nat}
    (hstep : ∀ i < n + 1, r (f i) (f (i + 1))) (hlt : ∀ i < n + 1, f i < n) :
    Revisits r (f 0) := by
  obtain ⟨x, hx, y, hy, hne, heq⟩ :=
    Finset.exists_ne_map_eq_of_card_lt_of_maps_to (s := Finset.range (n + 1)) (t := Finset.range n)
      (by rw [Finset.card_range, Finset.card_range]; omega)
      (fun i hi => Finset.mem_coe.mpr (Finset.mem_range.mpr
        (hlt i (Finset.mem_range.mp (Finset.mem_coe.mp hi)))))
  rw [Finset.mem_range] at hx hy
  obtain ⟨i, j, hij, hj, heq⟩ : ∃ i j, i < j ∧ j < n + 1 ∧ f i = f j := by
    rcases Nat.lt_or_gt_of_ne hne with hlt | hlt
    · exact ⟨x, y, hlt, hy, heq⟩
    · exact ⟨y, x, hlt, hx, heq.symm⟩
  obtain ⟨k, rfl⟩ := Nat.exists_eq_add_of_lt hij
  have hreach : ReflTransGen r (f 0) (f (0 + i)) :=
    reflTransGen_of_steps fun j _ hj => hstep j (by omega)
  rw [Nat.zero_add] at hreach
  have hback : ReflTransGen r (f (i + 1)) (f (i + 1 + k)) :=
    reflTransGen_of_steps fun j _ hj => hstep j (by omega)
  rw [Nat.add_right_comm, ← heq] at hback
  exact ⟨f i, hreach, TransGen.head' (hstep i (by omega)) hback⟩

/-! ## Labels and pointers -/

namespace Dns

open Bytes

/-- One label, or one pointer if `ptr` holds, that lies in the message and leads from an
offset to another. -/
inductive Follows (buf : Bytes) (ptr : Prop) : Nat → Nat → Prop
  | label {p : Nat} {l : Label} (hpos : 0 < l.length) (hlen : l.length < 64)
      (h : At buf p (UInt8.ofNat l.length :: l)) : Follows buf ptr p (p + 1 + l.length)
  | pointer {p : Nat} {hi lo : UInt8} (hptr : ptr) (hhi : 0xC0 ≤ hi) (h : At buf p [hi, lo])
      (hin : (hi.toNat - 0xC0) * 256 + lo.toNat < buf.length) :
      Follows buf ptr p ((hi.toNat - 0xC0) * 256 + lo.toNat)

/-- The walk reaches a zero byte. -/
def ReachesZero (buf : Bytes) (p : Nat) : Prop :=
  ∃ z, ReflTransGen (Follows buf True) p z ∧ buf[z]? = some 0

/-- The offset is the one just past the first pointer, or the zero byte if there is none. -/
def EndsAt (buf : Bytes) (p e : Nat) : Prop :=
  ∃ z, ReflTransGen (Follows buf False) p z ∧
    (buf[z]? = some 0 ∧ e = z + 1 ∨ (∃ hi lo, 0xC0 ≤ hi ∧ At buf z [hi, lo]) ∧ e = z + 2)

section

variable {buf : Bytes} {ptr : Prop} {n p q : Nat} {ls : List Label}

theorem Follows.lt_length (h : Follows buf ptr p q) : p < buf.length := by
  cases h with
  | label _ _ hat | pointer _ _ hat =>
    have hle := hat.length_le
    rw [List.length_cons] at hle
    omega

theorem NameIn.reachesZero (h : NameIn buf True n p ls q) : ReachesZero buf p := by
  induction h with
  | root hat => exact ⟨_, .refl, At.singleton_iff.mp hat⟩
  | label hpos hlen hat _ ih =>
    obtain ⟨z, hreach, hz⟩ := ih
    exact ⟨z, hreach.head (.label hpos hlen hat), hz⟩
  | pointer hptr hhi hat more ih =>
    obtain ⟨z, hreach, hz⟩ := ih
    exact ⟨z, hreach.head (.pointer hptr hhi hat more.lt_length), hz⟩

/-- A name can be read exactly where the walk reaches a zero byte. -/
theorem reads_iff_reachesZero : (∃ ls q, ReadsName buf True p ls q) ↔ ReachesZero buf p := by
  constructor
  · rintro ⟨ls, q, n, h⟩
    exact h.reachesZero
  · rintro ⟨z, hreach, hz⟩
    induction hreach using ReflTransGen.head_induction_on with
    | refl => exact ⟨[], z + 1, 1, .root (At.singleton_iff.mpr hz)⟩
    | head hstep _ ih =>
      obtain ⟨ls, q, n, hmore⟩ := ih
      cases hstep with
      | label hpos hlen hat => exact ⟨_, _, _, .label hpos hlen hat hmore⟩
      | pointer hptr hhi hat _ => exact ⟨_, _, _, .pointer hptr hhi hat hmore⟩

theorem ReadsName.endsAt (h : ReadsName buf ptr p ls q) : EndsAt buf p q := by
  obtain ⟨n, h⟩ := h
  induction h with
  | root hat => exact ⟨_, .refl, .inl ⟨At.singleton_iff.mp hat, rfl⟩⟩
  | label hpos hlen hat _ ih =>
    obtain ⟨z, hreach, hz⟩ := ih
    exact ⟨z, hreach.head (.label hpos hlen hat), hz⟩
  | pointer _ hhi hat _ _ => exact ⟨_, .refl, .inr ⟨⟨_, _, hhi, hat⟩, rfl⟩⟩

theorem EndsAt.le_length {e : Nat} (h : EndsAt buf p e) : e ≤ buf.length := by
  obtain ⟨z, -, ⟨hz, rfl⟩ | ⟨⟨hi, lo, -, hat⟩, rfl⟩⟩ := h
  · obtain ⟨hlt, -⟩ := List.getElem?_eq_some_iff.mp hz
    omega
  · have hle := hat.length_le
    rw [List.length_cons, List.length_cons, List.length_nil] at hle
    omega

end

end Dns
