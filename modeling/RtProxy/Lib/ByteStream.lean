/-
Byte streams that are polled.

A transport is given by what it is going to answer.  For reads these are the
arrivals in order and whether the stream ends after them; for writes they are the
grants in order, each of which takes as many bytes as it likes.  A poll uses up one
answer, and a transport without an answer is pending.

`Cursor` is a buffer with a read position, which both a reader that hands out bytes
piecemeal and a writer that drains a queue keep.
-/
import RtProxy.Lib.Bytes

namespace ByteStream

inductive Poll (α : Type)
  | ready (a : α)
  | pending
deriving Repr, DecidableEq

variable {ε : Type}

/-! ## Reading -/

/-- One answer to a poll for reading.  Bytes that arrive are at least one, since a
read of no bytes is the end of the stream. -/
inductive Arrival (ε : Type)
  | bytes (b : UInt8) (bs : Bytes)
  | pending
  | error (e : ε)
deriving Repr, DecidableEq

namespace Arrival

def content : Arrival ε → Bytes
  | .bytes b bs => b :: bs
  | _ => []

def ofBytes : Bytes → List (Arrival ε)
  | [] => []
  | b :: bs => [.bytes b bs]

/-- Whether the answer is to wait. -/
def waits : Arrival ε → Bool
  | .pending => true
  | _ => false

end Arrival

structure Inbound (ε : Type) where
  arrivals : List (Arrival ε)
  closed : Bool
deriving Repr, DecidableEq

namespace Inbound

/-- All the bytes that are going to arrive. -/
def content (src : Inbound ε) : Bytes := src.arrivals.flatMap Arrival.content

/-- How often the transport is going to be pending. -/
def waits (src : Inbound ε) : Nat := src.arrivals.countP Arrival.waits

/-- A poll for reading with room for `cap` bytes. -/
def read (src : Inbound ε) (cap : Nat) : Poll (Except ε Bytes) × Inbound ε :=
  match src.arrivals with
  | [] => (if src.closed then .ready (.ok []) else .pending, src)
  | .pending :: rest => (.pending, { src with arrivals := rest })
  | .error e :: rest => (.ready (.error e), { src with arrivals := rest })
  | .bytes b bs :: rest =>
    (.ready (.ok ((b :: bs).take cap)),
      { src with arrivals := Arrival.ofBytes ((b :: bs).drop cap) ++ rest })

/-- The transport brings exactly these bytes without a failure and then ends. -/
structure Delivers (src : Inbound ε) (bs : Bytes) : Prop where
  content : src.content = bs
  unfailing : ∀ e, .error e ∉ src.arrivals
  closed : src.closed = true

/-- What is left of a transport after it gave some bytes. -/
structure Gives (src : Inbound ε) (got : Bytes) (src' : Inbound ε) : Prop where
  content : src.content = got ++ src'.content
  closed : src'.closed = src.closed
  errors : ∀ e, .error e ∈ src'.arrivals → .error e ∈ src.arrivals
  waits : src'.waits ≤ src.waits

theorem Gives.rfl {src : Inbound ε} : src.Gives [] src := ⟨by simp, by simp, by simp, by simp⟩

theorem Gives.trans {src mid dst : Inbound ε} {a b : Bytes} (h : src.Gives a mid)
    (h' : mid.Gives b dst) : src.Gives (a ++ b) dst := by
  refine ⟨?_, h'.closed.trans h.closed, fun e he => h.errors e (h'.errors e he),
    Nat.le_trans h'.waits h.waits⟩
  rw [h.content, h'.content, List.append_assoc]

theorem Gives.unfailing {src src' : Inbound ε} {got : Bytes} (h : src.Gives got src')
    (hu : ∀ e, .error e ∉ src.arrivals) (e : ε) : .error e ∉ src'.arrivals :=
  fun he => hu e (h.errors e he)

@[simp] theorem content_ofBytes (bs : Bytes) (rest : List (Arrival ε)) (closed : Bool) :
    content ⟨Arrival.ofBytes bs ++ rest, closed⟩ = bs ++ content ⟨rest, closed⟩ := by
  cases bs <;> simp [content, Arrival.ofBytes, Arrival.content]

@[simp] theorem waits_ofBytes (bs : Bytes) (rest : List (Arrival ε)) (closed : Bool) :
    waits ⟨Arrival.ofBytes bs ++ rest, closed⟩ = waits ⟨rest, closed⟩ := by
  cases bs <;> simp [waits, Arrival.ofBytes, Arrival.waits]

/-- Bytes cut into pieces at will are delivered. -/
theorem delivers_ofBytes (bs : Bytes) : Delivers (ε := ε) ⟨Arrival.ofBytes bs, true⟩ bs := by
  refine ⟨?_, ?_, rfl⟩
  · simpa [content] using content_ofBytes (ε := ε) bs [] true
  · cases bs <;> simp [Arrival.ofBytes]

/-- What a poll with room for some byte does. -/
inductive Reading (src : Inbound ε) (cap : Nat) : Poll (Except ε Bytes) → Inbound ε → Prop
  | waits {src' : Inbound ε} (h : src.Gives [] src') (hw : src'.waits < src.waits) :
      Reading src cap .pending src'
  | idle (hnil : src.arrivals = []) (hopen : src.closed = false) : Reading src cap .pending src
  | failed {src' : Inbound ε} {e : ε} (h : src.Gives [] src') (he : .error e ∈ src.arrivals) :
      Reading src cap (.ready (.error e)) src'
  | ended (hnil : src.arrivals = []) (hclosed : src.closed = true) :
      Reading src cap (.ready (.ok [])) src
  | bytes {src' : Inbound ε} {b : UInt8} {bs : Bytes} (h : src.Gives (b :: bs) src')
      (hle : bs.length < cap) : Reading src cap (.ready (.ok (b :: bs))) src'

theorem reading (src : Inbound ε) (cap : Nat) (hcap : 0 < cap) :
    src.Reading cap (src.read cap).1 (src.read cap).2 := by
  obtain ⟨arrivals, closed⟩ := src
  cases arrivals with
  | nil =>
    cases closed with
    | false => exact .idle rfl rfl
    | true => exact .ended rfl rfl
  | cons a rest =>
    cases a with
    | pending =>
      refine .waits ⟨by simp [content, Arrival.content, read], rfl, fun e he => ?_, ?_⟩ ?_
      · exact List.mem_cons_of_mem _ he
      · simp [waits, read, List.countP_cons, Arrival.waits]
      · simp [waits, read, List.countP_cons, Arrival.waits]
    | error e =>
      refine .failed ⟨by simp [content, Arrival.content, read], rfl, fun e he => ?_, ?_⟩ ?_
      · exact List.mem_cons_of_mem _ he
      · simp [waits, read, Arrival.waits]
      · simp
    | bytes b bs =>
      obtain ⟨k, rfl⟩ : ∃ k, cap = k + 1 := ⟨cap - 1, by omega⟩
      have hgive : Gives ⟨.bytes b bs :: rest, closed⟩ (b :: bs.take k)
          ⟨Arrival.ofBytes (bs.drop k) ++ rest, closed⟩ := by
        refine ⟨?_, rfl, fun e he => ?_, ?_⟩
        · rw [content_ofBytes, List.cons_append, ← List.append_assoc, List.take_append_drop]
          simp [content, Arrival.content]
        · rw [List.mem_append] at he
          rcases he with he | he
          · cases hd : bs.drop k <;> simp [hd, Arrival.ofBytes] at he
          · exact List.mem_cons_of_mem _ he
        · rw [waits_ofBytes]
          simp [waits, Arrival.waits]
      exact .bytes hgive (by rw [List.length_take]; omega)

theorem error_mem_of_read {src : Inbound ε} {cap : Nat} {e : ε}
    (h : (src.read cap).1 = .ready (.error e)) : .error e ∈ src.arrivals := by
  obtain ⟨arrivals, closed⟩ := src
  cases arrivals with
  | nil => cases closed <;> cases h
  | cons a rest =>
    cases a with
    | pending | bytes => cases h
    | error e' =>
      cases h
      exact List.mem_cons_self

/-- What a poll gives comes off the front of the bytes to come. -/
theorem gives_read (src : Inbound ε) (cap : Nat) : ∃ got, src.Gives got (src.read cap).2 := by
  cases cap with
  | succ cap =>
    have h := src.reading (cap + 1) (by omega)
    revert h
    generalize src.read (cap + 1) = x
    obtain ⟨a, src'⟩ := x
    intro h
    cases h with
    | waits h | failed h | bytes h => exact ⟨_, h⟩
    | idle | ended => exact ⟨[], .rfl⟩
  | zero =>
    obtain ⟨arrivals, closed⟩ := src
    refine ⟨[], ?_⟩
    cases arrivals with
    | nil => exact .rfl
    | cons a rest =>
      cases a with
      | pending | error =>
        refine ⟨rfl, rfl, fun e he => List.mem_cons_of_mem _ he, ?_⟩
        simp [waits, read, List.countP_cons]
      | bytes b bs => exact .rfl

end Inbound

/-! ## Filling a buffer -/

/-- How an attempt to fill a buffer ends. -/
inductive Filled (ε : Type)
  | full
  | ended
  | pending
  | error (e : ε)
deriving Repr, DecidableEq

/-- Reads until the buffer holds `need` bytes. -/
def fill (need : Nat) (buf : Bytes) (src : Inbound ε) : Filled ε × Bytes × Inbound ε :=
  if buf.length < need then
    match src.read (need - buf.length) with
    | (.pending, src') => (.pending, buf, src')
    | (.ready (.error e), src') => (.error e, buf, src')
    | (.ready (.ok []), src') => (.ended, buf, src')
    | (.ready (.ok (b :: bs)), src') => fill need (buf ++ b :: bs) src'
  else (.full, buf, src)
termination_by need - buf.length
decreasing_by
  rw [List.length_append, List.length_cons]
  omega

/-- What filling does: it appends what it reads, and stops short of `need` bytes for
one of three reasons only. -/
inductive Filling (need : Nat) (buf : Bytes) (src : Inbound ε) :
    Filled ε → Bytes → Inbound ε → Prop
  | full {got : Bytes} {src' : Inbound ε} (h : src.Gives got src')
      (hge : need ≤ (buf ++ got).length) (hle : (buf ++ got).length ≤ max need buf.length) :
      Filling need buf src .full (buf ++ got) src'
  | waits {got : Bytes} {src' : Inbound ε} (h : src.Gives got src')
      (hlt : (buf ++ got).length < need) (hw : src'.waits < src.waits) :
      Filling need buf src .pending (buf ++ got) src'
  | idle {got : Bytes} {src' : Inbound ε} (h : src.Gives got src')
      (hlt : (buf ++ got).length < need) (hnil : src'.arrivals = []) (hopen : src.closed = false) :
      Filling need buf src .pending (buf ++ got) src'
  | failed {got : Bytes} {src' : Inbound ε} {e : ε} (h : src.Gives got src')
      (hlt : (buf ++ got).length < need) (he : .error e ∈ src.arrivals) :
      Filling need buf src (.error e) (buf ++ got) src'
  | ended {got : Bytes} {src' : Inbound ε} (h : src.Gives got src')
      (hlt : (buf ++ got).length < need) (hnil : src'.arrivals = []) (hclosed : src.closed = true) :
      Filling need buf src .ended (buf ++ got) src'

/-- What a later part of the filling does, the whole of it does. -/
theorem Filling.after {need : Nat} {buf got : Bytes} {src mid src' : Inbound ε} {out : Filled ε}
    {buf' : Bytes} (hlt : buf.length < need) (hle : (buf ++ got).length ≤ need)
    (hg : src.Gives got mid) (h : Filling need (buf ++ got) mid out buf' src') :
    Filling need buf src out buf' src' := by
  cases h with
  | full h hge hle' =>
    rw [List.append_assoc] at hge hle' ⊢
    exact .full (hg.trans h) hge (by omega)
  | waits h hlt' hw =>
    rw [List.append_assoc] at hlt' ⊢
    exact .waits (hg.trans h) hlt' (Nat.lt_of_lt_of_le hw hg.waits)
  | idle h hlt' hnil hopen =>
    rw [List.append_assoc] at hlt' ⊢
    exact .idle (hg.trans h) hlt' hnil (hg.closed ▸ hopen)
  | failed h hlt' he =>
    rw [List.append_assoc] at hlt' ⊢
    exact .failed (hg.trans h) hlt' (hg.errors _ he)
  | ended h hlt' hnil hclosed =>
    rw [List.append_assoc] at hlt' ⊢
    exact .ended (hg.trans h) hlt' hnil (hg.closed ▸ hclosed)

theorem filling (need : Nat) (buf : Bytes) (src : Inbound ε) :
    Filling need buf src (fill need buf src).1 (fill need buf src).2.1
      (fill need buf src).2.2 := by
  induction hn : need - buf.length using Nat.strong_induction_on generalizing buf src with
  | _ n ih =>
    subst hn
    rw [fill]
    by_cases hlt : buf.length < need
    · rw [if_pos hlt]
      have hread := src.reading (need - buf.length) (by omega)
      have hnone : (buf ++ []).length < need := by simpa using hlt
      revert hread
      generalize src.read (need - buf.length) = r
      obtain ⟨a, src'⟩ := r
      intro hread
      cases hread with
      | waits h hw => simpa using Filling.waits h hnone hw
      | idle hnil hopen => simpa using Filling.idle .rfl hnone hnil hopen
      | failed h he => simpa using Filling.failed h hnone he
      | ended hnil hclosed => simpa using Filling.ended .rfl hnone hnil hclosed
      | @bytes _ b bs h hle =>
        have hlen : (buf ++ b :: bs).length ≤ need := by
          rw [List.length_append, List.length_cons]
          omega
        refine Filling.after hlt hlen h (ih _ ?_ (buf ++ b :: bs) src' rfl)
        rw [List.length_append, List.length_cons]
        omega
    · rw [if_neg hlt]
      have hge : need ≤ (buf ++ []).length := by simpa using Nat.le_of_not_lt hlt
      have h : Filling need buf src .full (buf ++ []) src := .full .rfl hge (by simp)
      simpa using h

theorem filling_of_eq {need : Nat} {buf buf' : Bytes} {src src' : Inbound ε} {out : Filled ε}
    (h : fill need buf src = (out, buf', src')) : Filling need buf src out buf' src' := by
  have hf := filling need buf src
  rw [h] at hf
  exact hf

/-- A transport that brings some bytes in one piece and ends. -/
def Inbound.piece (bs : Bytes) : Inbound ε := ⟨Arrival.ofBytes bs, true⟩

theorem Inbound.read_piece {bs : Bytes} (hne : bs ≠ []) (cap : Nat) :
    (piece bs : Inbound ε).read cap = (.ready (.ok (bs.take cap)), piece (bs.drop cap)) := by
  cases bs with
  | nil => exact absurd rfl hne
  | cons b bs => simp [piece, Arrival.ofBytes, read]

theorem fill_piece {need : Nat} {bs : Bytes} (hpos : 0 < need) (hlen : need ≤ bs.length) :
    fill need [] (.piece bs : Inbound ε) = (.full, bs.take need, .piece (bs.drop need)) := by
  have hne : bs ≠ [] := by
    rintro rfl
    exact absurd hlen (Nat.not_le.mpr hpos)
  have hwhole : ¬ (bs.take need).length < need := by
    rw [List.length_take]
    omega
  rw [fill, if_pos (by simpa using hpos), List.length_nil, Nat.sub_zero, Inbound.read_piece hne]
  cases htake : bs.take need with
  | nil => simp [htake, hpos] at hwhole
  | cons b rest =>
    rw [htake] at hwhole
    show fill need ([] ++ b :: rest) _ = _
    rw [List.nil_append, fill, if_neg hwhole]

theorem fill_piece_short {need : Nat} {bs : Bytes} (hlt : bs.length < need) :
    fill need [] (.piece bs : Inbound ε) = (.ended, bs, .piece []) := by
  have hpos : 0 < need := by omega
  have hend (buf : Bytes) (hbuf : buf.length < need) :
      fill need buf (.piece [] : Inbound ε) = (.ended, buf, .piece []) := by
    rw [fill, if_pos hbuf]
    rfl
  by_cases hne : bs = []
  · subst hne
    exact hend [] hlt
  · rw [fill, if_pos (by simpa using hpos), List.length_nil, Nat.sub_zero, Inbound.read_piece hne,
      List.take_of_length_le (by omega), List.drop_of_length_le (by omega)]
    cases bs with
    | nil => exact absurd rfl hne
    | cons b bs => exact hend (b :: bs) hlt

/-- The bytes of a filled buffer are a whole block. -/
theorem length_of_full {need : Nat} {buf got : Bytes} (hlt : buf.length < need)
    (hge : need ≤ (buf ++ got).length) (hle : (buf ++ got).length ≤ max need buf.length) :
    (buf ++ got).length = need := by
  omega

/-! ## A buffer with a position -/

structure Cursor where
  data : Bytes
  pos : Nat
  pos_le : pos ≤ data.length
deriving Repr, DecidableEq

namespace Cursor

theorem zero_le_length (bs : Bytes) : 0 ≤ bs.length := Nat.zero_le _

def empty : Cursor := ⟨[], 0, zero_le_length []⟩

def ofBytes (bs : Bytes) : Cursor := ⟨bs, 0, zero_le_length bs⟩

/-- The bytes from the position on. -/
def rest (c : Cursor) : Bytes := c.data.drop c.pos

def append (c : Cursor) (bs : Bytes) : Cursor :=
  ⟨c.data ++ bs, c.pos, by
    have h := c.pos_le
    rw [List.length_append]
    omega⟩

/-- Moves on by `n` bytes; a buffer that is used up is cleared. -/
def advance (c : Cursor) (n : Nat) : Cursor :=
  if h : c.pos + n < c.data.length then ⟨c.data, c.pos + n, Nat.le_of_lt h⟩ else empty

/-- Hands out at most `cap` bytes. -/
def take (c : Cursor) (cap : Nat) : Bytes × Cursor :=
  (c.rest.take (min cap (c.data.length - c.pos)), c.advance (min cap (c.data.length - c.pos)))

@[simp] theorem rest_empty : empty.rest = [] := rfl

@[simp] theorem rest_ofBytes (bs : Bytes) : (ofBytes bs).rest = bs := rfl

theorem length_rest (c : Cursor) : c.rest.length = c.data.length - c.pos := by
  simp [rest]

theorem rest_eq_nil {c : Cursor} : c.rest = [] ↔ ¬ c.pos < c.data.length := by
  rw [← List.length_eq_zero_iff, length_rest]
  omega

@[simp] theorem rest_append (c : Cursor) (bs : Bytes) : (c.append bs).rest = c.rest ++ bs :=
  List.drop_append_of_le_length c.pos_le

@[simp] theorem rest_advance (c : Cursor) (n : Nat) : (c.advance n).rest = c.rest.drop n := by
  unfold advance
  split
  · simp [rest, List.drop_drop]
  · rename_i h
    have hlen := c.length_rest
    rw [rest_empty, List.drop_of_length_le (by omega)]

theorem take_spec (c : Cursor) (cap : Nat) :
    c.rest = (c.take cap).1 ++ (c.take cap).2.rest := by
  rw [take, rest_advance, List.take_append_drop]

theorem take_ne_nil {c : Cursor} {cap : Nat} (h : c.pos < c.data.length) (hcap : 0 < cap) :
    (c.take cap).1 ≠ [] := by
  have hlen := c.length_rest
  rw [take, ← List.length_pos_iff, List.length_take]
  omega

end Cursor

/-! ## Writing -/

/-- One answer to a poll for writing: the transport takes at most `k` of the bytes it
is offered. -/
inductive Grant (ε : Type)
  | accept (k : Nat)
  | pending
  | error (e : ε)
deriving Repr, DecidableEq

structure Outbound (ε : Type) where
  grants : List (Grant ε)
  /-- What the transport has taken so far. -/
  sent : Bytes
deriving Repr, DecidableEq

/-- A poll for writing. -/
def Outbound.write (dst : Outbound ε) (bs : Bytes) : Poll (Except ε Nat) × Outbound ε :=
  match dst.grants with
  | [] => (.pending, dst)
  | .pending :: gs => (.pending, { dst with grants := gs })
  | .error e :: gs => (.ready (.error e), { dst with grants := gs })
  | .accept k :: gs =>
    (.ready (.ok (min k bs.length)), { grants := gs, sent := dst.sent ++ bs.take (min k bs.length) })

/-- A poll for flushing or shutting down what the transport itself holds. -/
def Outbound.finish (dst : Outbound ε) : Poll (Except ε Unit) × Outbound ε :=
  match dst.grants with
  | [] => (.pending, dst)
  | .pending :: gs => (.pending, { dst with grants := gs })
  | .error e :: gs => (.ready (.error e), { dst with grants := gs })
  | .accept _ :: gs => (.ready (.ok ()), { dst with grants := gs })

@[simp] theorem Outbound.sent_finish (dst : Outbound ε) : dst.finish.2.sent = dst.sent := by
  unfold finish
  split <;> rfl

/-- How an attempt to drain a buffer ends; `zero` is a transport that takes nothing. -/
inductive Flushed (ε : Type)
  | done
  | pending
  | zero
  | error (e : ε)
deriving Repr, DecidableEq

/-- Offers the rest of the buffer until the transport has taken all of it. -/
def flush (c : Cursor) (dst : Outbound ε) : Flushed ε × Cursor × Outbound ε :=
  if c.pos < c.data.length then
    match dst.write c.rest with
    | (.pending, dst') => (.pending, c, dst')
    | (.ready (.error e), dst') => (.error e, c, dst')
    | (.ready (.ok 0), dst') => (.zero, c, dst')
    | (.ready (.ok (n + 1)), dst') => flush (c.advance (n + 1)) dst'
  else (.done, .empty, dst)
termination_by c.data.length - c.pos
decreasing_by
  have h := (c.advance (n + 1)).length_rest
  rw [Cursor.rest_advance, List.length_drop, c.length_rest] at h
  omega

/-- Draining moves bytes from the buffer to the transport, in order and without loss,
however it ends. -/
theorem flush_spec (c : Cursor) (dst : Outbound ε) :
    (flush c dst).2.2.sent ++ (flush c dst).2.1.rest = dst.sent ++ c.rest
      ∧ ((flush c dst).1 = .done → (flush c dst).2.1.rest = [])
      ∧ (∀ g ∈ (flush c dst).2.2.grants, g ∈ dst.grants) := by
  induction hn : c.data.length - c.pos using Nat.strong_induction_on generalizing c dst with
  | _ n ih =>
    subst hn
    rw [flush]
    by_cases hlt : c.pos < c.data.length
    · rw [if_pos hlt]
      obtain ⟨grants, sent⟩ := dst
      cases grants with
      | nil => simp [Outbound.write]
      | cons g gs =>
        cases g with
        | pending | error e => simp +contextual [Outbound.write]
        | accept k =>
          have hlen := c.length_rest
          simp only [Outbound.write]
          cases hm : min k c.rest.length with
          | zero => simp +contextual
          | succ m =>
            have hadv := (c.advance (m + 1)).length_rest
            rw [Cursor.rest_advance, List.length_drop] at hadv
            obtain ⟨hsent, hdone, hgs⟩ := ih _ (by omega) (c.advance (m + 1))
              ⟨gs, sent ++ c.rest.take (m + 1)⟩ rfl
            refine ⟨?_, hdone, fun g hg => List.mem_cons_of_mem _ (hgs g hg)⟩
            rw [hsent, Cursor.rest_advance, List.append_assoc, List.take_append_drop]
    · rw [if_neg hlt]
      have hnil := Cursor.rest_eq_nil.mpr hlt
      simp [hnil]

/-- A drain keeps the bytes it has handed over in the buffer, until none is left. -/
theorem flush_data (c : Cursor) (dst : Outbound ε) :
    (flush c dst).2.1.data = c.data ∨ (flush c dst).2.1 = .empty := by
  induction hn : c.data.length - c.pos using Nat.strong_induction_on generalizing c dst with
  | _ n ih =>
    subst hn
    rw [flush]
    by_cases hlt : c.pos < c.data.length
    · rw [if_pos hlt]
      split
      · exact .inl rfl
      · exact .inl rfl
      · exact .inl rfl
      · rename_i m dst' _
        by_cases hmore : c.pos + (m + 1) < c.data.length
        · have hadv : c.advance (m + 1) = ⟨c.data, c.pos + (m + 1), Nat.le_of_lt hmore⟩ :=
            dif_pos hmore
          rw [hadv]
          exact ih _ (by simp only; omega) ⟨c.data, c.pos + (m + 1), Nat.le_of_lt hmore⟩ dst' rfl
        · have hadv : c.advance (m + 1) = .empty := dif_neg hmore
          have hnone : ¬ Cursor.empty.pos < Cursor.empty.data.length := Nat.lt_irrefl 0
          rw [hadv, flush, if_neg hnone]
          exact .inr rfl
    · rw [if_neg hlt]
      exact .inr rfl

/-- A drain that ends leaves the buffer cleared. -/
theorem flush_done {c : Cursor} {dst : Outbound ε} (h : (flush c dst).1 = .done) :
    (flush c dst).2.1 = .empty := by
  induction hn : c.data.length - c.pos using Nat.strong_induction_on generalizing c dst with
  | _ n ih =>
    subst hn
    rw [flush] at h ⊢
    by_cases hlt : c.pos < c.data.length
    · rw [if_pos hlt] at h ⊢
      split at h
      · cases h
      · cases h
      · cases h
      · rename_i m dst' hw
        have hlen := (c.advance (m + 1)).length_rest
        rw [Cursor.rest_advance, List.length_drop, c.length_rest] at hlen
        exact ih _ (by omega) h rfl
    · rw [if_neg hlt]

/-- The transport fails, or takes nothing, before it has taken `n` bytes. -/
def Breaks : List (Grant ε) → Nat → Prop
  | [], _ => False
  | .pending :: _, _ => False
  | .error _ :: _, n => 0 < n
  | .accept k :: gs, n => 0 < n ∧ (k = 0 ∨ Breaks gs (n - k))

theorem not_breaks_zero (gs : List (Grant ε)) : ¬ Breaks gs 0 := by
  cases gs with
  | nil => exact id
  | cons g gs => cases g <;> simp [Breaks]

/-- A drain fails if and only if the transport does before the buffer is empty. -/
theorem flush_breaks (c : Cursor) (dst : Outbound ε) :
    ((flush c dst).1 = .zero ∨ ∃ e, (flush c dst).1 = .error e) ↔
      Breaks dst.grants c.rest.length := by
  induction hn : c.data.length - c.pos using Nat.strong_induction_on generalizing c dst with
  | _ n ih =>
    subst hn
    have hlen := c.length_rest
    rw [flush]
    by_cases hlt : c.pos < c.data.length
    · rw [if_pos hlt]
      obtain ⟨grants, sent⟩ := dst
      cases grants with
      | nil => simp [Outbound.write, Breaks]
      | cons g gs =>
        cases g with
        | pending => simp [Outbound.write, Breaks]
        | error e =>
          simp only [Outbound.write, Breaks]
          exact iff_of_true (.inr ⟨e, rfl⟩) (by omega)
        | accept k =>
          simp only [Outbound.write, Breaks]
          cases hm : min k c.rest.length with
          | zero => exact iff_of_true (.inl rfl) ⟨by omega, .inl (by omega)⟩
          | succ m =>
            have hadv := (c.advance (m + 1)).length_rest
            rw [Cursor.rest_advance, List.length_drop] at hadv
            have hrest : (c.advance (m + 1)).rest.length = c.rest.length - k := by
              rw [Cursor.rest_advance, List.length_drop]
              omega
            simp only
            rw [ih _ (by omega) (c.advance (m + 1)) _ rfl, hrest]
            exact ⟨fun h => ⟨by omega, .inr h⟩, fun h => h.2.resolve_left (by omega)⟩
    · rw [if_neg hlt]
      have hzero : c.rest.length = 0 := by omega
      rw [hzero]
      exact iff_of_false (by simp) (not_breaks_zero _)

/-- The answers that are left once `n` bytes have been taken. -/
def remaining : List (Grant ε) → Nat → List (Grant ε)
  | gs, 0 => gs
  | [], _ + 1 => []
  | .accept k :: gs, n + 1 => remaining gs (n + 1 - k)
  | g :: gs, _ + 1 => g :: gs

theorem remaining_zero (gs : List (Grant ε)) : remaining gs 0 = gs := by
  cases gs with
  | nil => rfl
  | cons g gs => cases g <;> rfl

/-- A drain that ends leaves the answers behind the bytes of the buffer. -/
theorem flush_remaining {c : Cursor} {dst : Outbound ε} (h : (flush c dst).1 = .done) :
    (flush c dst).2.2.grants = remaining dst.grants c.rest.length := by
  induction hn : c.data.length - c.pos using Nat.strong_induction_on generalizing c dst with
  | _ n ih =>
    subst hn
    have hlen := c.length_rest
    rw [flush] at h ⊢
    by_cases hlt : c.pos < c.data.length
    · rw [if_pos hlt] at h ⊢
      obtain ⟨grants, sent⟩ := dst
      obtain ⟨l, hl⟩ : ∃ l, c.rest.length = l + 1 := ⟨c.rest.length - 1, by omega⟩
      cases grants with
      | nil => cases h
      | cons g gs =>
        cases g with
        | pending | error => cases h
        | accept k =>
          simp only [Outbound.write] at h ⊢
          revert h
          cases hm : min k c.rest.length with
          | zero => exact fun h => by cases h
          | succ m =>
            intro h
            have hadv := (c.advance (m + 1)).length_rest
            rw [Cursor.rest_advance, List.length_drop] at hadv
            have hrest : (c.advance (m + 1)).rest.length = l + 1 - k := by
              rw [Cursor.rest_advance, List.length_drop]
              omega
            rw [ih _ (by omega) h rfl, hrest, hl]
            rfl
    · rw [if_neg hlt]
      have hzero : c.rest.length = 0 := by omega
      rw [hzero, remaining_zero]

/-- A transport that never fails and always takes something ends a drain in one of
two ways. -/
def Outbound.Willing (dst : Outbound ε) : Prop :=
  ∀ g ∈ dst.grants, g = .pending ∨ ∃ k, g = .accept (k + 1)

theorem flush_willing {c : Cursor} {dst : Outbound ε} (h : dst.Willing) :
    (flush c dst).1 = .done ∨ (flush c dst).1 = .pending := by
  induction hn : c.data.length - c.pos using Nat.strong_induction_on generalizing c dst with
  | _ n ih =>
    subst hn
    rw [flush]
    by_cases hlt : c.pos < c.data.length
    · rw [if_pos hlt]
      obtain ⟨grants, sent⟩ := dst
      cases grants with
      | nil => simp [Outbound.write]
      | cons g gs =>
        have hlen := c.length_rest
        rcases h g (by simp) with rfl | ⟨k, rfl⟩
        · simp [Outbound.write]
        · simp only [Outbound.write]
          obtain ⟨m, hm⟩ : ∃ m, min (k + 1) c.rest.length = m + 1 :=
            ⟨min (k + 1) c.rest.length - 1, by omega⟩
          have hadv := (c.advance (m + 1)).length_rest
          rw [Cursor.rest_advance, List.length_drop] at hadv
          rw [hm]
          exact ih _ (by omega) (fun g hg => h g (List.mem_cons_of_mem _ hg)) rfl
    · rw [if_neg hlt]
      exact .inl rfl

/-- A transport that takes something at each of the next `n` polls. -/
def Outbound.Ready (n : Nat) (dst : Outbound ε) : Prop :=
  ∃ ks gs, dst.grants = List.map (fun k => .accept (k + 1)) ks ++ gs ∧ n ≤ ks.length

theorem Outbound.Ready.mono {dst : Outbound ε} {m n : Nat} (h : dst.Ready n) (hle : m ≤ n) :
    dst.Ready m := by
  obtain ⟨ks, gs, hgrants, hks⟩ := h
  exact ⟨ks, gs, hgrants, Nat.le_trans hle hks⟩

/-- A transport that takes the whole buffer at once. -/
theorem flush_whole {bs : Bytes} {k : Nat} (hne : bs ≠ []) (hlen : bs.length ≤ k)
    (gs : List (Grant ε)) (sent : Bytes) :
    flush (.ofBytes bs) ⟨.accept k :: gs, sent⟩ = (.done, .empty, ⟨gs, sent ++ bs⟩) := by
  have hpos : 0 < bs.length := List.length_pos_of_ne_nil hne
  obtain ⟨n, hn⟩ : ∃ n, bs.length = n + 1 := ⟨bs.length - 1, by omega⟩
  have hwrite : Outbound.write ⟨.accept k :: gs, sent⟩ (Cursor.ofBytes bs).rest =
      (.ready (.ok (n + 1)), (⟨gs, sent ++ bs⟩ : Outbound ε)) := by
    rw [← hn]
    simp [Outbound.write, Cursor.ofBytes, Cursor.rest, Nat.min_eq_right hlen]
  unfold flush
  rw [if_pos (show (Cursor.ofBytes bs).pos < (Cursor.ofBytes bs).data.length from hpos), hwrite]
  dsimp only
  unfold flush
  have hdone : ¬ ((Cursor.ofBytes bs).advance (n + 1)).pos <
      ((Cursor.ofBytes bs).advance (n + 1)).data.length := by
    simp [Cursor.advance, Cursor.ofBytes, Cursor.empty, hn]
  rw [if_neg hdone]

/-- A poll for each byte is enough for a drain. -/
theorem flush_ready {c : Cursor} {dst : Outbound ε} {m : Nat}
    (h : dst.Ready (c.rest.length + m)) : (flush c dst).1 = .done ∧ (flush c dst).2.2.Ready m := by
  induction hn : c.data.length - c.pos using Nat.strong_induction_on generalizing c dst with
  | _ n ih =>
    subst hn
    have hlen := c.length_rest
    rw [flush]
    by_cases hlt : c.pos < c.data.length
    · rw [if_pos hlt]
      obtain ⟨grants, sent⟩ := dst
      obtain ⟨ks, gs, hgrants, hks⟩ := h
      cases ks with
      | nil =>
        rw [List.length_nil] at hks
        omega
      | cons k ks =>
        change grants = .accept (k + 1) :: (List.map _ ks ++ gs) at hgrants
        subst hgrants
        simp only [Outbound.write]
        obtain ⟨n, hn⟩ : ∃ n, min (k + 1) c.rest.length = n + 1 :=
          ⟨min (k + 1) c.rest.length - 1, by omega⟩
        have hadv := (c.advance (n + 1)).length_rest
        rw [Cursor.rest_advance, List.length_drop] at hadv
        rw [hn]
        refine ih _ (by omega) ⟨ks, gs, rfl, ?_⟩ rfl
        rw [Cursor.rest_advance, List.length_drop]
        rw [List.length_cons] at hks
        omega
    · rw [if_neg hlt]
      obtain ⟨ks, gs, hgrants, hks⟩ := h
      exact ⟨rfl, ks, gs, hgrants, by omega⟩

theorem Outbound.Ready.finish {dst : Outbound ε} (h : dst.Ready 1) :
    dst.finish.1 = .ready (.ok ()) := by
  obtain ⟨ks, gs, hgrants, hks⟩ := h
  cases ks with
  | nil => exact absurd hks (Nat.not_succ_le_zero _)
  | cons k ks =>
    unfold Outbound.finish
    rw [hgrants]
    rfl

theorem Outbound.Willing.flush {c : Cursor} {dst : Outbound ε} (h : dst.Willing) :
    (ByteStream.flush c dst).2.2.Willing :=
  fun g hg => h g ((flush_spec c dst).2.2 g hg)

end ByteStream
