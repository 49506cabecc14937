import RtProxy.Io
import RtProxy.Lib.Awaiting

/-!
Reading ahead and pushing back (`conn.rs`).

A connection keeps the bytes it has read ahead before the stream it wraps.  Looking ahead
adds behind the position in these bytes, pushing back begins them anew, and reading moves on
in them.  To its callers it is a queue of bytes.
-/

namespace RtProxy

open ByteStream

structure ProxyConn where
  /-- `prefix` and `prefix_pos` -/
  prefixBuf : Cursor
  inner : Inbound IoError
deriving Repr, DecidableEq

namespace ProxyConn

def new (inner : Inbound IoError) : ProxyConn := { prefixBuf := .empty, inner := inner }

/-- `buffered`. -/
def buffered (c : ProxyConn) : Bytes := c.prefixBuf.rest

/-- A poll of `peek` into a buffer of `cap` bytes; what it has read ahead it keeps. -/
def pollPeek (cap : Nat) (c : ProxyConn) : Poll (Except IoError Bytes) × ProxyConn :=
  let (out, buf, inner) := fill cap c.buffered c.inner
  let c' : ProxyConn := ⟨c.prefixBuf.append (buf.drop c.buffered.length), inner⟩
  match out with
  | .pending => (.pending, c')
  | .error e => (.ready (.error e), c')
  | .full | .ended => (.ready (.ok (c'.buffered.take cap)), c')

def unread (bytes : Bytes) (c : ProxyConn) : ProxyConn :=
  if bytes = [] then c else { c with prefixBuf := .ofBytes (bytes ++ c.buffered) }

/-- `poll_read` into a buffer with `cap` bytes remaining. -/
def pollRead (cap : Nat) (c : ProxyConn) : Poll (Except IoError Bytes) × ProxyConn :=
  if c.prefixBuf.pos < c.prefixBuf.data.length then
    (.ready (.ok (c.prefixBuf.take cap).1), { c with prefixBuf := (c.prefixBuf.take cap).2 })
  else ((c.inner.read cap).1, { c with inner := (c.inner.read cap).2 })

/-- All the bytes that are going to be read. -/
def content (c : ProxyConn) : Bytes := c.buffered ++ c.inner.content

end ProxyConn

/-! ## Calls -/

inductive ConnOp
  | peek (cap : Nat)
  | unread (bytes : Bytes)
  | read (cap : Nat)
deriving Repr, DecidableEq

namespace ProxyConn

def poll (c : ProxyConn) : ConnOp → Poll (Except IoError Bytes) × ProxyConn
  | .peek cap => c.pollPeek cap
  | .unread bytes => (.ready (.ok []), c.unread bytes)
  | .read cap => c.pollRead cap

/-- One poll after another; a call that is pending may be polled again, or given up. -/
def run : ProxyConn → List ConnOp → List (Poll (Except IoError Bytes)) × ProxyConn
  | c, [] => ([], c)
  | c, op :: ops =>
    let (out, c) := c.poll op
    let (outs, c) := run c ops
    (out :: outs, c)

end ProxyConn

/-- A queue of the bytes that are going to be read. -/
structure Queue where
  bytes : Bytes
  /-- how often it is still going to be waited for more of them -/
  waits : Nat
  /-- whether the stream ends behind them -/
  closed : Bool
deriving Repr, DecidableEq

/-- How many bytes a call waits for. -/
def ConnOp.needs : ConnOp → Nat
  | .peek cap => cap
  | .unread _ => 0
  | .read _ => 1

/-- What a poll does to a queue. -/
def QueueStep (q : Queue) (op : ConnOp) (out : Poll (Except IoError Bytes)) (q' : Queue) : Prop :=
  q'.closed = q.closed ∧ q'.waits ≤ q.waits ∧
    match op, out with
    | .unread bytes, out => out = .ready (.ok []) ∧ q'.bytes = bytes ++ q.bytes
    | op, .pending =>
      q'.bytes = q.bytes ∧
        (q'.waits < q.waits ∨ q.bytes.length < op.needs ∧ q.closed = false)
    | _, .ready (.error _) => q'.bytes = q.bytes
    | .peek cap, .ready (.ok got) =>
      got = q.bytes.take cap ∧ q'.bytes = q.bytes ∧ (got.length < cap → q.closed = true)
    | .read cap, .ready (.ok got) =>
      q.bytes = got ++ q'.bytes ∧ got.length ≤ cap ∧
        (0 < cap → got = [] → q.bytes = [] ∧ q.closed = true)

inductive QueueRun : Queue → List ConnOp → List (Poll (Except IoError Bytes)) → Queue → Prop
  | nil (q : Queue) : QueueRun q [] [] q
  | cons {q q' q'' : Queue} {op : ConnOp} {ops : List ConnOp} {out : Poll (Except IoError Bytes)}
      {outs : List (Poll (Except IoError Bytes))} (h : QueueStep q op out q')
      (more : QueueRun q' ops outs q'') : QueueRun q (op :: ops) (out :: outs) q''

/-! ## One poll -/

namespace ProxyConn

variable {c c' : ProxyConn} {out : Poll (Except IoError Bytes)} {cap : Nat} {bytes : Bytes}

/-- The queue a connection is to its callers. -/
def queue (c : ProxyConn) : Queue := ⟨c.content, c.inner.waits, c.inner.closed⟩

/-- A poll fails only as the stream does. -/
structure Fails (c : ProxyConn) (out : Poll (Except IoError Bytes)) (c' : ProxyConn) : Prop where
  kept : ∀ e, .error e ∈ c'.inner.arrivals → .error e ∈ c.inner.arrivals
  failed : ∀ e, out = .ready (.error e) → .error e ∈ c.inner.arrivals

theorem content_unread (bytes : Bytes) (c : ProxyConn) :
    (c.unread bytes).content = bytes ++ c.content := by
  unfold unread content buffered
  split_ifs with h
  · simp [h]
  · rw [Cursor.rest_ofBytes, List.append_assoc]

theorem inner_unread (bytes : Bytes) (c : ProxyConn) : (c.unread bytes).inner = c.inner := by
  unfold unread
  split_ifs <;> rfl

theorem content_of_exhausted (hnil : c.inner.arrivals = []) : c.content = c.buffered := by
  simp [content, Inbound.content, hnil]

theorem pollRead_spec (cap : Nat) (c : ProxyConn) :
    QueueStep c.queue (.read cap) (c.pollRead cap).1 (c.pollRead cap).2.queue ∧
      Fails c (c.pollRead cap).1 (c.pollRead cap).2 := by
  unfold pollRead
  by_cases hpos : c.prefixBuf.pos < c.prefixBuf.data.length
  · rw [if_pos hpos]
    refine ⟨⟨rfl, Nat.le_refl _, ?_, ?_, fun hcap hnil => absurd hnil (Cursor.take_ne_nil hpos hcap)⟩,
      ⟨fun e he => he, fun e he => (by cases he)⟩⟩
    · show c.prefixBuf.rest ++ _ = _ ++ ((c.prefixBuf.take cap).2.rest ++ _)
      rw [← List.append_assoc, ← Cursor.take_spec]
    · show ((c.prefixBuf.take cap).1).length ≤ cap
      rw [Cursor.take, List.length_take]
      omega
  · rw [if_neg hpos]
    have hnil : c.buffered = [] := Cursor.rest_eq_nil.mpr hpos
    have hcontent (inner : Inbound IoError) :
        ({ c with inner := inner } : ProxyConn).content = inner.content := by
      show c.buffered ++ _ = _
      simp [hnil]
    have hsame : c.content = c.inner.content := hcontent c.inner
    have hend (harrivals : c.inner.arrivals = []) : c.content = [] := by
      rw [content_of_exhausted harrivals, hnil]
    rcases c.inner.read_cases cap with ⟨src', hread, h, hw⟩ | ⟨e, src', hread, h, he⟩ |
      ⟨got, src', hread, h, hle, hgot⟩
    · rw [hread]
      refine ⟨⟨h.closed, h.waits, ?_, hw.imp_right fun hw => ⟨?_, hw.2⟩⟩,
        ⟨h.errors, fun e he => (by cases he)⟩⟩
      · show content _ = content _
        rw [hcontent, hsame, h.content, List.nil_append]
      · show c.content.length < 1
        simp [hend hw.1]
    · rw [hread]
      refine ⟨⟨h.closed, h.waits, ?_⟩, ⟨h.errors, fun e' he' => ?_⟩⟩
      · show content _ = content _
        rw [hcontent, hsame, h.content, List.nil_append]
      · cases he'
        exact he
    · rw [hread]
      refine ⟨⟨h.closed, h.waits, ?_, hle, fun hcap hnil => ?_⟩,
        ⟨h.errors, fun e he => (by cases he)⟩⟩
      · show c.content = got ++ content _
        rw [hsame, h.content]
        exact congrArg (got ++ ·) (hcontent src').symm
      · obtain ⟨harrivals, hclosed⟩ := hgot hcap hnil
        exact ⟨hend harrivals, hclosed⟩

theorem pollPeek_spec (cap : Nat) (c : ProxyConn) :
    QueueStep c.queue (.peek cap) (c.pollPeek cap).1 (c.pollPeek cap).2.queue ∧
      Fails c (c.pollPeek cap).1 (c.pollPeek cap).2 := by
  have hkept {got : Bytes} {src' : Inbound IoError} (h : c.inner.Gives got src') :
      (⟨c.prefixBuf.append got, src'⟩ : ProxyConn).content = c.content := by
    show (c.prefixBuf.append got).rest ++ _ = c.buffered ++ _
    rw [Cursor.rest_append, h.content, List.append_assoc]
    rfl
  have hbuffered (got : Bytes) (src' : Inbound IoError) :
      (⟨c.prefixBuf.append got, src'⟩ : ProxyConn).buffered = c.buffered ++ got :=
    Cursor.rest_append _ _
  have hall {got : Bytes} {src' : Inbound IoError} (h : c.inner.Gives got src')
      (hnil : src'.arrivals = []) : c.content = c.buffered ++ got := by
    rw [← hkept h, content_of_exhausted hnil, hbuffered]
  have hahead (got : Bytes) : (c.buffered ++ got).drop c.buffered.length = got :=
    List.drop_left
  rcases hx : fill cap c.buffered c.inner with ⟨out, buf, inner⟩
  unfold pollPeek
  rw [hx]
  have hfill := filling_of_eq hx
  clear hx
  cases hfill with
  | full h hge hle =>
    simp only [hahead]
    have hsame := hkept h
    refine ⟨⟨h.closed, h.waits, ?_, hsame, fun hshort => ?_⟩, ⟨h.errors, fun e he => (by cases he)⟩⟩
    · show _ = c.content.take cap
      rw [hbuffered, ← hsame, content, hbuffered, List.take_append_of_le_length hge]
    · rw [hbuffered, List.length_take] at hshort
      omega
  | waits h hlt hw =>
    simp only [hahead]
    exact ⟨⟨h.closed, h.waits, hkept h, .inl hw⟩, ⟨h.errors, fun e he => (by cases he)⟩⟩
  | idle h hlt hnil hopen =>
    simp only [hahead]
    refine ⟨⟨h.closed, h.waits, hkept h, .inr ⟨?_, hopen⟩⟩, ⟨h.errors, fun e he => (by cases he)⟩⟩
    show c.content.length < cap
    rwa [hall h hnil]
  | failed h hlt he =>
    simp only [hahead]
    refine ⟨⟨h.closed, h.waits, hkept h⟩, ⟨h.errors, fun e' he' => ?_⟩⟩
    cases he'
    exact he
  | ended h hlt hnil hclosed =>
    simp only [hahead]
    refine ⟨⟨h.closed, h.waits, ?_, hkept h, fun _ => hclosed⟩, ⟨h.errors, fun e he => (by cases he)⟩⟩
    show _ = c.content.take cap
    rw [hbuffered, hall h hnil]

/-- A poll is a step of the queue. -/
theorem poll_spec (op : ConnOp) (c : ProxyConn) :
    QueueStep c.queue op (c.poll op).1 (c.poll op).2.queue ∧
      Fails c (c.poll op).1 (c.poll op).2 := by
  cases op with
  | peek cap => exact pollPeek_spec cap c
  | read cap => exact pollRead_spec cap c
  | unread bytes =>
    have hinner := inner_unread bytes c
    have hcontent := content_unread bytes c
    have hstep : QueueStep c.queue (.unread bytes) (.ready (.ok [])) (c.unread bytes).queue := by
      simp [QueueStep, queue, hinner, hcontent]
    refine ⟨hstep, ⟨fun e he => ?_, fun e he => (by cases he)⟩⟩
    change _ ∈ (c.unread bytes).inner.arrivals at he
    rwa [hinner] at he

/-- A run is a run of the queue, and fails only as the stream does. -/
theorem run_spec (ops : List ConnOp) (c : ProxyConn) :
    QueueRun c.queue ops (c.run ops).1 (c.run ops).2.queue ∧
      ∀ e, .ready (.error e) ∈ (c.run ops).1 → .error e ∈ c.inner.arrivals := by
  induction ops generalizing c with
  | nil => exact ⟨.nil _, fun e he => absurd he List.not_mem_nil⟩
  | cons op ops ih =>
    obtain ⟨hstep, hfails⟩ := poll_spec op c
    obtain ⟨hrun, herrors⟩ := ih (c.poll op).2
    refine ⟨.cons hstep hrun, fun e he => ?_⟩
    rcases List.mem_cons.mp he with he | he
    · exact hfails.failed e he.symm
    · exact hfails.kept e (herrors e he)

/-! ## Reads that wait -/

open AsyncRead

instance : AsyncRead ProxyConn IoError where
  pollRead := pollRead
  content := content
  waits c := c.inner.waits
  closed c := c.inner.closed
  fails c e := .error e ∈ c.inner.arrivals

instance : AsyncRead.Lawful ProxyConn IoError where
  polled {cap} hcap c := by
    have h := pollRead_spec cap c
    revert h
    show QueueStep c.queue (.read cap) (c.pollRead cap).1 (c.pollRead cap).2.queue ∧ _ →
      Polled cap c (c.pollRead cap).1 (c.pollRead cap).2
    rcases c.pollRead cap with ⟨out, c'⟩
    rintro ⟨⟨hclosed, _, hout⟩, hfails⟩
    have hreads {got : Bytes} (hcontent : c.content = got ++ c'.content) : Reads c got c' :=
      ⟨hcontent, hclosed, hfails.kept⟩
    cases out with
    | pending =>
      obtain ⟨hcontent, hw | ⟨hshort, hopen⟩⟩ := hout
      · exact .waits (hreads hcontent.symm) hw
      · have hnil : c.content = [] := List.length_eq_zero_iff.mp (Nat.lt_one_iff.mp hshort)
        exact .idle (hreads hcontent.symm) hnil hopen
    | ready out =>
      cases out with
      | error e => exact .failed (hreads hout.symm) (hfails.failed e rfl)
      | ok got =>
        obtain ⟨hcontent, hle, hend⟩ := hout
        cases got with
        | nil =>
          obtain ⟨hnil, hended⟩ := hend hcap rfl
          exact .ended (hreads hcontent) hnil hended
        | cons b bs => exact .bytes (hreads hcontent) hle

end ProxyConn

end RtProxy
