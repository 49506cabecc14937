/-
Lines of what is read in chunks.

A chunk is read only where the line is not whole yet.  So how far a reader has gone beyond
the lines it gave depends on the chunks, and is told by the reads that bring the lines.

Where a stream is given by its pieces, of at least one byte each, the lines do not depend on
them.
-/
import RtProxy.Lib.Awaiting
import RtProxy.Lib.Cut

namespace ByteStream

open AsyncRead Text

variable {σ ε : Type} [AsyncRead σ ε]

namespace AsyncRead

/-! ## Reads that bring so many bytes -/

/-- What the first reads that bring `n` bytes bring, and what is left behind them. -/
def pull (cap : Nat) : Nat → σ → Bytes × σ
  | 0, s => ([], s)
  | n + 1, s =>
    match read cap s with
    | (some (.ok (b :: bs)), s') =>
      (b :: bs ++ (pull cap (n - bs.length) s').1, (pull cap (n - bs.length) s').2)
    | (_, s') => ([], s')
termination_by n => n

theorem pull_succ {cap : Nat} {s s' : σ} {b : UInt8} {bs : Bytes}
    (h : read cap s = (some (.ok (b :: bs)), s')) (n : Nat) :
    pull cap (n + 1) s =
      (b :: bs ++ (pull cap (n - bs.length) s').1, (pull cap (n - bs.length) s').2) := by
  rw [pull, h]

section

variable [AsyncRead.Lawful σ ε] {cap n : Nat} {s : σ}

/-- Bytes that are to come without a failure are read. -/
theorem exists_read (hcap : 0 < cap) (hmore : content s ≠ []) (hunfailing : ∀ e, ¬ fails s e) :
    ∃ b bs s', read cap s = (some (.ok (b :: bs)), s') ∧ Reads s (b :: bs) s' ∧
      bs.length < cap := by
  have h := reading hcap s
  revert h
  rcases read cap s with ⟨out, s'⟩
  intro h
  cases h with
  | idle _ hnil | ended _ hnil => exact absurd hnil hmore
  | failed _ he => exact absurd he (hunfailing _)
  | @bytes _ b bs h hle => exact ⟨b, bs, s', rfl, h, hle⟩

theorem pull_spec (hcap : 0 < cap) (hn : n ≤ (content s).length) (hunfailing : ∀ e, ¬ fails s e) :
    Reads s (pull cap n s).1 (pull cap n s).2 ∧ n ≤ (pull cap n s).1.length := by
  induction n using Nat.strong_induction_on generalizing s with
  | _ n ih =>
    cases n with
    | zero => simp [pull, Reads.rfl]
    | succ n =>
      have hmore : content s ≠ [] := List.ne_nil_of_length_pos (by omega)
      obtain ⟨b, bs, s', hread, hreads, _⟩ := exists_read hcap hmore hunfailing
      have hlen := congrArg List.length hreads.content
      simp only [List.length_append, List.length_cons] at hlen
      obtain ⟨hrest, hle⟩ := ih (n - bs.length) (by omega) (s := s') (by omega)
        fun e he => hunfailing e (hreads.fails e he)
      rw [pull_succ hread]
      refine ⟨hreads.trans hrest, ?_⟩
      rw [List.length_append, List.length_cons]
      omega

/-- More bytes are brought by more reads, if there are not enough of them yet. -/
theorem pull_add (hcap : 0 < cap) (hn : n ≤ (content s).length) (hunfailing : ∀ e, ¬ fails s e)
    (m : Nat) :
    pull cap (n + m) s =
      ((pull cap n s).1 ++ (pull cap (n + m - (pull cap n s).1.length) (pull cap n s).2).1,
        (pull cap (n + m - (pull cap n s).1.length) (pull cap n s).2).2) := by
  induction n using Nat.strong_induction_on generalizing s m with
  | _ n ih =>
    cases n with
    | zero => simp [pull]
    | succ n =>
      have hmore : content s ≠ [] := List.ne_nil_of_length_pos (by omega)
      obtain ⟨b, bs, s', hread, hreads, _⟩ := exists_read hcap hmore hunfailing
      have hlen := congrArg List.length hreads.content
      simp only [List.length_append, List.length_cons] at hlen
      have hrest := ih (n - bs.length) (by omega) (s := s') (by omega)
        (fun e he => hunfailing e (hreads.fails e he)) (n + m - bs.length - (n - bs.length))
      rw [show n + 1 + m = n + m + 1 by omega, pull_succ hread, pull_succ hread,
        show n + m - bs.length = n - bs.length + (n + m - bs.length - (n - bs.length)) by omega,
        hrest]
      simp only [List.length_append, List.length_cons, List.append_assoc]
      rw [show n + m + 1 - (bs.length + 1 + (pull cap (n - bs.length) s').1.length) =
        n - bs.length + (n + m - bs.length - (n - bs.length)) -
          (pull cap (n - bs.length) s').1.length by omega]

end

end AsyncRead

/-! ## Lines -/

/-- `BufReader::new` reads so many bytes at most. -/
def DEFAULT_BUF_SIZE : Nat := 8 * 1024

/-- A `BufReader`: what it has read ahead, and what it reads. -/
structure LineReader (σ : Type) where
  buf : Bytes
  inner : σ

namespace LineReader

def new (inner : σ) : LineReader σ := ⟨[], inner⟩

/-- All the bytes still to be read. -/
def content (r : LineReader σ) : Bytes := r.buf ++ AsyncRead.content r.inner

/-- The loop of `read_until`, for a line feed. -/
def lineLoop [AsyncRead.Lawful σ ε] (acc : Bytes) (r : LineReader σ) :
    Option (Except ε Bytes) × LineReader σ :=
  if 0x0A ∈ r.buf then
    (some (.ok (acc ++ (cutLine r.buf).1)), { r with buf := (cutLine r.buf).2 })
  else
    match _h : read DEFAULT_BUF_SIZE r.inner with
    | (none, inner) => (none, new inner)
    | (some (.error e), inner) => (some (.error e), new inner)
    | (some (.ok []), inner) => (some (.ok (acc ++ r.buf)), new inner)
    | (some (.ok (b :: bs)), inner) => lineLoop (acc ++ r.buf) ⟨b :: bs, inner⟩
termination_by (AsyncRead.content r.inner).length
decreasing_by
  have hcap : 0 < DEFAULT_BUF_SIZE := by decide
  have hreading := reading hcap r.inner
  rw [_h] at hreading
  cases hreading with
  | bytes h =>
    simp only [h.content, List.length_append, List.length_cons]
    omega

/-- A line with its line feed, or what there is before the end. -/
def readLine [AsyncRead.Lawful σ ε] (r : LineReader σ) :
    Option (Except ε Bytes) × LineReader σ :=
  lineLoop [] r

/-- A reader that has given `k` bytes. -/
def after (k : Nat) (s : σ) : LineReader σ :=
  ⟨(pull DEFAULT_BUF_SIZE k s).1.drop k, (pull DEFAULT_BUF_SIZE k s).2⟩

theorem new_eq_after (s : σ) : new s = after 0 s := by
  simp [new, after, pull]

section

variable [AsyncRead.Lawful σ ε]

theorem lineLoop_more {acc : Bytes} {r : LineReader σ} {b : UInt8} {bs : Bytes} {inner : σ}
    (h : 0x0A ∉ r.buf) (hread : read DEFAULT_BUF_SIZE r.inner = (some (.ok (b :: bs)), inner)) :
    lineLoop acc r = lineLoop (acc ++ r.buf) ⟨b :: bs, inner⟩ := by
  rw [lineLoop, if_neg h]
  split <;> rename_i heq <;> rw [hread] at heq <;> cases heq
  rfl

/-- A line is given whole, and what is read for it are the reads that bring it. -/
theorem lineLoop_line {line rest : Bytes} (hline : 0x0A ∉ line) {r : LineReader σ}
    (hcontent : r.content = line ++ 0x0A :: rest) (hunfailing : ∀ e, ¬ fails r.inner e)
    (acc : Bytes) :
    lineLoop acc r = (some (.ok (acc ++ line ++ [0x0A])),
      ⟨(r.buf ++ (pull DEFAULT_BUF_SIZE (line.length + 1 - r.buf.length) r.inner).1).drop
          (line.length + 1),
        (pull DEFAULT_BUF_SIZE (line.length + 1 - r.buf.length) r.inner).2⟩) := by
  induction hn : (AsyncRead.content r.inner).length using Nat.strong_induction_on
    generalizing r line acc with
  | _ n ih =>
    subst hn
    obtain ⟨buf, inner⟩ := r
    change buf ++ AsyncRead.content inner = _ at hcontent
    by_cases hmem : 0x0A ∈ buf
    · -- the whole line has been read ahead
      have hcut := cutLine_append_of_mem hmem (AsyncRead.content inner)
      rw [hcontent, cutLine_append_of_not_mem hline, cutLine, if_pos rfl] at hcut
      have hfirst : line ++ [0x0A] = (cutLine buf).1 := congrArg Prod.fst hcut
      have hbuf : line ++ [0x0A] ++ (cutLine buf).2 = buf := by
        rw [hfirst, cutLine_eq_append]
      have hlen : line.length + 1 ≤ buf.length := by
        rw [← hbuf]
        simp
      have hdrop : buf.drop (line.length + 1) = (cutLine buf).2 := by
        conv_lhs => rw [← hbuf]
        exact List.drop_left' (by simp)
      rw [lineLoop]
      simp only [if_pos hmem, ← hfirst]
      rw [Nat.sub_eq_zero_of_le hlen]
      simp [pull, hdrop]
    · -- what has been read ahead is the front of the line
      obtain ⟨more, hlineMore, hinner⟩ : ∃ more, line = buf ++ more ∧
          AsyncRead.content inner = more ++ 0x0A :: rest := by
        rcases List.append_eq_append_iff.mp hcontent with ⟨more, hbuf, hinner⟩ | ⟨more, hbuf, hinner⟩
        · exact ⟨more, hbuf, hinner⟩
        · cases more with
          | nil => exact ⟨[], by simp [hbuf], by simpa using hinner.symm⟩
          | cons b more =>
            cases hinner
            exact absurd (hbuf ▸ List.mem_append_right _ List.mem_cons_self) hmem
      have hmore : 0x0A ∉ more := fun h => hline (hlineMore ▸ List.mem_append_right _ h)
      have hsome : AsyncRead.content inner ≠ [] := by simp [hinner]
      have hcap : 0 < DEFAULT_BUF_SIZE := by decide
      obtain ⟨b, bs, inner', hread, hreads, _⟩ := exists_read hcap hsome hunfailing
      have hlen := congrArg List.length hreads.content
      simp only [List.length_append, List.length_cons] at hlen
      have hrec := ih (AsyncRead.content inner').length (by simp only; omega) hmore
        (r := ⟨b :: bs, inner'⟩) (hreads.content.symm.trans hinner)
        (fun e he => hunfailing e (hreads.fails e he)) (acc ++ buf) rfl
      have hneed : line.length + 1 - buf.length = more.length + 1 := by
        rw [hlineMore, List.length_append]
        omega
      have hpull : more.length + 1 - (b :: bs).length = more.length - bs.length := by
        rw [List.length_cons]
        omega
      have hline' : line.length + 1 = buf.length + (more.length + 1) := by
        rw [hlineMore, List.length_append]
        omega
      simp only [hpull] at hrec
      rw [lineLoop_more (r := ⟨buf, inner⟩) hmem hread, hrec]
      simp only [hneed]
      rw [pull_succ hread, hline', List.drop_length_add_append, hlineMore, List.append_assoc acc]

/-- What is still to be read behind `k` bytes. -/
theorem content_after {k : Nat} {s : σ} (hk : k ≤ (AsyncRead.content s).length)
    (hunfailing : ∀ e, ¬ fails s e) : (after k s).content = (AsyncRead.content s).drop k := by
  have hcap : 0 < DEFAULT_BUF_SIZE := by decide
  obtain ⟨hreads, hle⟩ := pull_spec hcap hk hunfailing
  rw [hreads.content, List.drop_append_of_le_length hle]
  rfl

/-- Behind `pre` a line is read whole, and no more reads are made than it takes. -/
theorem readLine_after {s : σ} {pre line rest : Bytes} (hline : 0x0A ∉ line)
    (hcontent : AsyncRead.content s = pre ++ (line ++ 0x0A :: rest))
    (hunfailing : ∀ e, ¬ fails s e) :
    readLine (after pre.length s) =
      (some (.ok (line ++ [0x0A])), after (pre.length + (line.length + 1)) s) := by
  have hpos : 0 < DEFAULT_BUF_SIZE := by decide
  have hshort : pre.length ≤ (AsyncRead.content s).length := by simp [hcontent]
  obtain ⟨hreads, hle⟩ := pull_spec hpos hshort hunfailing
  have hadd := pull_add hpos hshort hunfailing (line.length + 1)
  have hrest : (after pre.length s).content = line ++ 0x0A :: rest := by
    rw [content_after hshort hunfailing, hcontent, List.drop_left]
  rw [readLine, lineLoop_line hline hrest (fun e he => hunfailing e (hreads.fails e he)) []]
  unfold after
  rw [hadd]
  simp only [List.length_drop, List.nil_append]
  rw [show line.length + 1 - ((pull DEFAULT_BUF_SIZE pre.length s).1.length - pre.length) =
      pre.length + (line.length + 1) - (pull DEFAULT_BUF_SIZE pre.length s).1.length by omega,
    ← List.drop_append_of_le_length hle, List.drop_drop]

end

end LineReader

end ByteStream

/-! ## A stream given by its pieces -/

open Text

/-- What one read of the underlying stream brings. -/
abbrev Piece := { bs : Bytes // bs ≠ [] }

structure BufReader where
  buf : Bytes
  /-- What the reads still to come will bring. -/
  reads : List Piece

namespace BufReader

def new (reads : List Piece) : BufReader := { buf := [], reads := reads }

def bytes (reads : List Piece) : Bytes := reads.flatMap Subtype.val

/-- All the bytes still to be read. -/
def content (r : BufReader) : Bytes := r.buf ++ bytes r.reads

def lineFrom (acc buf : Bytes) : List Piece → Bytes × BufReader
  | [] => (acc ++ (cutLine buf).1, { buf := (cutLine buf).2, reads := [] })
  | piece :: reads =>
    if 0x0A ∈ buf then (acc ++ (cutLine buf).1, { buf := (cutLine buf).2, reads := piece :: reads })
    else lineFrom (acc ++ buf) piece.1 reads

/-- A line with its line feed, or what there is before the end. -/
def readLine (r : BufReader) : Bytes × BufReader := lineFrom [] r.buf r.reads

/-- What the reads of the rest bring: the buffer first, if there is something in it. -/
def rest (r : BufReader) : List Bytes :=
  (if r.buf = [] then [] else [r.buf]) ++ r.reads.map Subtype.val

@[simp] theorem content_new (reads : List Piece) : (new reads).content = bytes reads := rfl

theorem flatten_rest (r : BufReader) : r.rest.flatten = r.content := by
  unfold rest content bytes
  rw [List.flatten_append, List.flatMap_def]
  by_cases h : r.buf = []
  · rw [if_pos h, h]
    rfl
  · rw [if_neg h, List.flatten_singleton]

theorem lineFrom_spec (acc buf : Bytes) (reads : List Piece) :
    (lineFrom acc buf reads).1 = acc ++ (cutLine (buf ++ bytes reads)).1 ∧
      (lineFrom acc buf reads).2.content = (cutLine (buf ++ bytes reads)).2 := by
  induction reads generalizing acc buf with
  | nil =>
    have hnil : bytes [] = [] := rfl
    rw [lineFrom, hnil, List.append_nil]
    exact ⟨rfl, List.append_nil _⟩
  | cons piece reads ih =>
    have hcons : bytes (piece :: reads) = piece.1 ++ bytes reads := rfl
    rw [lineFrom]
    split_ifs with h
    · rw [cutLine_append_of_mem h]
      exact ⟨rfl, rfl⟩
    · obtain ⟨hline, hrest⟩ := ih (acc ++ buf) piece.1
      rw [cutLine_append_of_not_mem h, hcons, hline, hrest, List.append_assoc]
      exact ⟨rfl, rfl⟩

/-- The next line and the bytes behind it, whatever the pieces. -/
theorem readLine_spec (r : BufReader) :
    r.readLine.1 = (cutLine r.content).1 ∧ r.readLine.2.content = (cutLine r.content).2 :=
  lineFrom_spec [] r.buf r.reads

/-- A line is read whole, with its line feed. -/
theorem readLine_of_line {r : BufReader} {line rest : Bytes} (h : 0x0A ∉ line)
    (hr : r.content = line ++ 0x0A :: rest) :
    r.readLine.1 = line ++ [0x0A] ∧ r.readLine.2.content = rest := by
  obtain ⟨hline, hrest⟩ := r.readLine_spec
  rw [hr, cutLine_append_of_not_mem h, cutLine, if_pos rfl] at hline hrest
  exact ⟨hline, hrest⟩

end BufReader
