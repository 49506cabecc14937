import RtProxy.Kcp.SnappyFrames

/-!
What a snappy reader hands out of a byte string that is cut into reads at will.

`decode_chunks` gives up at a bad chunk, and the chunks that the same read brought before
it stay behind until after the error.  It looks for the identifier after it has put the
bytes of a chunk in the output, so the bytes of an early chunk come out after the error
too.  `reads_alike_iff` says of which byte strings neither is true.
-/

namespace RtProxy
namespace Kcp

open ByteStream SnappyReader

variable {snap : Snap}

/-! ## Chunks, good or bad -/

/-- A whole chunk with its header, of a length that the decoder takes. -/
structure Whole (chunk : Bytes) : Prop where
  length : chunk.length = 4 + (head chunk).2
  small : ¬ ((head chunk).1 ≤ 0x01 ∧ (head chunk).2 > SNAPPY_MAX_CHUNK)

/-- The front of the buffer as one round of `decode_chunks` leaves it: a chunk goes even if
it is bad, and what it adds to the output stands beside its error. -/
def nextPiece (snap : Snap) (sawMagic : Bool) (bs : Bytes) :
    Next Bool IoError (Option IoError × Bytes) :=
  if bs.length < 4 then .more
  else if (head bs).1 ≤ 0x01 ∧ (head bs).2 > SNAPPY_MAX_CHUNK then
    .fail (oversizedErr (head bs).2)
  else if bs.length < 4 + (head bs).2 then .more
  else
    match onChunk snap (head bs).1 ((bs.drop 4).take (head bs).2) sawMagic with
    | (err, sawMagic, plain) => .unit sawMagic (err, plain) (bs.drop (4 + (head bs).2))

/-- A reader that stops at the first bad chunk. -/
theorem nextChunk_eq (sawMagic : Bool) (bs : Bytes) :
    nextChunk snap sawMagic bs = match nextPiece snap sawMagic bs with
      | .more => .more
      | .fail e => .fail e
      | .unit _ (some e, _) _ => .fail e
      | .unit s (none, plain) rest => .unit s plain rest := by
  unfold nextChunk nextPiece
  split_ifs
  · rfl
  · rfl
  · rfl
  · rcases onChunk snap (head bs).1 ((bs.drop 4).take (head bs).2) sawMagic with ⟨_ | e, s, plain⟩
    · rfl
    · rfl

/-- A chunk is found whatever stands behind it. -/
theorem nextPiece_whole {chunk : Bytes} (h : Whole chunk) (sawMagic : Bool) (more : Bytes) :
    nextPiece snap sawMagic (chunk ++ more)
      = .unit (onChunk snap (head chunk).1 (chunk.drop 4) sawMagic).2.1
          ((onChunk snap (head chunk).1 (chunk.drop 4) sawMagic).1,
            (onChunk snap (head chunk).1 (chunk.drop 4) sawMagic).2.2) more := by
  have hlen := h.length
  have hhead : head (chunk ++ more) = head chunk := head_append (by omega) more
  have hbody : ((chunk ++ more).drop 4).take (head chunk).2 = chunk.drop 4 := by
    rw [List.drop_append_of_le_length (by omega), List.take_left']
    rw [List.length_drop]
    omega
  have hrest : (chunk ++ more).drop (4 + (head chunk).2) = more := List.drop_left' hlen
  have hge : ¬ (chunk ++ more).length < 4 + (head chunk).2 := by
    rw [List.length_append]
    omega
  rw [nextPiece, hhead, if_neg (by omega), if_neg h.small, if_neg hge, hbody, hrest]

/-- A part of a chunk waits for the rest. -/
theorem nextPiece_part {chunk part : Bytes} (h : Whole chunk) (hpart : part <+: chunk)
    (hne : part ≠ chunk) (sawMagic : Bool) : nextPiece snap sawMagic part = .more := by
  have hlt := length_lt_of_isPrefix hpart hne
  have hlen := h.length
  have hsmall := h.small
  obtain ⟨rest, rfl⟩ := hpart
  rw [nextPiece]
  by_cases hshort : part.length < 4
  · rw [if_pos hshort]
  · rw [head_append (by omega)] at hlen hsmall
    rw [if_neg hshort, if_neg hsmall, if_pos (by omega)]

theorem nextPiece_unit {sawMagic s : Bool} {bs rest : Bytes} {p : Option IoError × Bytes}
    (h : nextPiece snap sawMagic bs = .unit s p rest) :
    ∃ chunk, Whole chunk ∧ bs = chunk ++ rest
      ∧ onChunk snap (head chunk).1 (chunk.drop 4) sawMagic = (p.1, s, p.2) := by
  have hwhole : Whole (bs.take (4 + (head bs).2)) ∧ rest = bs.drop (4 + (head bs).2) := by
    unfold nextPiece at h
    split_ifs at h with hshort hbig hpart
    have hhead : head (bs.take (4 + (head bs).2)) = head bs := by
      have hfour : 4 ≤ (bs.take (4 + (head bs).2)).length := by
        rw [List.length_take]
        omega
      have happ := head_append hfour (bs.drop (4 + (head bs).2))
      rw [List.take_append_drop] at happ
      exact happ.symm
    have hlen : (bs.take (4 + (head bs).2)).length = 4 + (head bs).2 := by
      rw [List.length_take]
      omega
    injection h with _ _ hrest
    refine ⟨⟨?_, ?_⟩, hrest.symm⟩
    · rw [hhead]
      exact hlen
    · rw [hhead]
      exact hbig
  obtain ⟨hw, hrest⟩ := hwhole
  have hbs : bs = bs.take (4 + (head bs).2) ++ rest := by rw [hrest, List.take_append_drop]
  have hnext : nextPiece snap sawMagic (bs.take (4 + (head bs).2) ++ rest) = _ :=
    nextPiece_whole hw sawMagic rest
  rw [← hbs, h] at hnext
  injection hnext with hs hp _
  exact ⟨_, hw, hbs, by rw [hs, hp]⟩

theorem nextPiece_fail_append {sawMagic : Bool} {bs : Bytes} {e : IoError}
    (h : nextPiece snap sawMagic bs = .fail e) (more : Bytes) :
    nextPiece snap sawMagic (bs ++ more) = .fail e := by
  unfold nextPiece at h ⊢
  split_ifs at h with hshort hbig
  · have hlong : ¬ (bs ++ more).length < 4 := by
      rw [List.length_append]
      omega
    rw [head_append (by omega), if_neg hlong, if_pos hbig]
    exact h

def pieceFraming (snap : Snap) : Framing Bool IoError (Option IoError × Bytes) where
  next := nextPiece snap
  shrinks := by
    intro s bs s' p rest h
    obtain ⟨chunk, hw, rfl, -⟩ := nextPiece_unit h
    have hlen := hw.length
    rw [List.length_append]
    omega
  unit_append := by
    intro s bs s' p rest h more
    obtain ⟨chunk, hw, rfl, hon⟩ := nextPiece_unit h
    rw [List.append_assoc, nextPiece_whole hw, hon]
  fail_append := nextPiece_fail_append

theorem pieceFraming_exact : (pieceFraming snap).Exact := by
  intro s bs s' p rest h
  obtain ⟨chunk, hw, rfl, hon⟩ := nextPiece_unit h
  refine ⟨chunk, rfl, fun more => ?_⟩
  show nextPiece snap s (chunk ++ more) = _
  rw [nextPiece_whole hw, hon]

/-- What the chunks add to the output. -/
def plains (ps : List (Option IoError × Bytes)) : Bytes := ps.flatMap Prod.snd

/-- What the chunks add that pass every check. -/
def propers (ps : List (Option IoError × Bytes)) : Bytes :=
  plains (ps.filter fun p => p.1.isNone)

/-! ## Good chunks -/

/-- A good chunk is found whatever stands behind it, and a part of it waits for the rest. -/
theorem nextChunk_unit {sawMagic s : Bool} {bs plain rest : Bytes}
    (h : nextChunk snap sawMagic bs = .unit s plain rest) :
    ∃ chunk, bs = chunk ++ rest ∧ chunk ≠ []
      ∧ (∀ more, nextChunk snap sawMagic (chunk ++ more) = .unit s plain more)
      ∧ ∀ part, part <+: chunk → part ≠ chunk → nextChunk snap sawMagic part = .more := by
  have hpiece : nextPiece snap sawMagic bs = .unit s (none, plain) rest := by
    rw [nextChunk_eq] at h
    split at h
    · cases h
    · cases h
    · cases h
    · rename_i heq
      rw [heq]
      injection h with hs hplain hrest
      rw [hs, hplain, hrest]
  obtain ⟨chunk, hw, rfl, hon⟩ := nextPiece_unit hpiece
  have hlen := hw.length
  refine ⟨chunk, rfl, fun hnil => ?_, fun more => ?_, fun part hpart hne => ?_⟩
  · rw [hnil, List.length_nil] at hlen
    omega
  · rw [nextChunk_eq, nextPiece_whole hw, hon]
  · rw [nextChunk_eq, nextPiece_part hw hpart hne]

/-! ## Reading on after an error -/

/-- The bytes that a call of `poll_read` hands out. -/
def handed : Poll (Except IoError Bytes) → Bytes
  | .ready (.ok bs) => bs
  | _ => []

/-- Calls `poll_read` with room for the given numbers of bytes, whatever it answers. -/
def readAll (snap : Snap) : List Nat → SnappyStream → Bytes × SnappyStream
  | [], c => ([], c)
  | cap :: caps, c =>
    (handed (c.pollRead snap cap).1 ++ (readAll snap caps (c.pollRead snap cap).2).1,
      (readAll snap caps (c.pollRead snap cap).2).2)

/-- A reader of `total` that has handed out `log` and has `src` before it. -/
structure Dealt (snap : Snap) (total log : Bytes) (r : SnappyReader) (src : Inbound IoError) :
    Prop where
  pieces : ∃ ps, (pieceFraming snap).Reads false total ps r.sawMagic (r.inBuf ++ src.content)
    ∧ log ++ r.dec.rest = plains ps

/-- The rounds of `decode_chunks`. -/
theorem decodeChunks_eq (snap : Snap) (progress : Bool) (r : SnappyReader) :
    decodeChunks snap progress r = match nextPiece snap r.sawMagic r.inBuf with
      | .more => (.ok progress, r)
      | .fail e => (.error e, r)
      | .unit s (some e, plain) rest =>
        (.error e, { r with inBuf := rest, dec := r.dec.append plain, sawMagic := s })
      | .unit s (none, plain) rest =>
        decodeChunks snap true { r with inBuf := rest, dec := r.dec.append plain, sawMagic := s } := by
  rw [decodeChunks, nextPiece]
  split_ifs
  · rfl
  · rfl
  · rfl
  · rcases onChunk snap (head r.inBuf).1 ((r.inBuf.drop 4).take (head r.inBuf).2) r.sawMagic with
      ⟨_ | e, s, plain⟩
    · rfl
    · rfl

/-- Decoding takes chunks out of the buffer, the last of which may be bad. -/
theorem decodes (snap : Snap) (progress : Bool) (r : SnappyReader) :
    ∃ ps, (pieceFraming snap).Reads r.sawMagic r.inBuf ps
        (decodeChunks snap progress r).2.sawMagic (decodeChunks snap progress r).2.inBuf
      ∧ (decodeChunks snap progress r).2.dec.rest = r.dec.rest ++ plains ps := by
  induction hn : r.inBuf.length using Nat.strong_induction_on generalizing progress r with
  | _ n ih =>
    subst hn
    rw [decodeChunks_eq]
    cases hnext : nextPiece snap r.sawMagic r.inBuf with
    | more => exact ⟨[], .refl, by simp [plains]⟩
    | fail e => exact ⟨[], .refl, by simp [plains]⟩
    | unit s p rest =>
      obtain ⟨err, plain⟩ := p
      cases err with
      | some e => exact ⟨[(some e, plain)], .unit hnext .refl, by simp [plains]⟩
      | none =>
        have hless : rest.length < r.inBuf.length := (pieceFraming snap).shrinks hnext
        obtain ⟨ps, hreads, hrest⟩ := ih _ hless true
          { r with inBuf := rest, dec := r.dec.append plain, sawMagic := s } rfl
        refine ⟨(none, plain) :: ps, .unit hnext hreads, ?_⟩
        rw [hrest, Cursor.rest_append, List.append_assoc]
        rfl

/-- What a read brings is no longer to come. -/
theorem gives_read {src src' : Inbound IoError} {a : Poll (Except IoError Bytes)}
    (h : src.read SCRATCH = (a, src')) : src.Gives (handed a) src' := by
  have hread := src.reading SCRATCH (by decide)
  rw [h] at hread
  cases hread with
  | waits hg _ => exact hg
  | idle _ _ => exact .rfl
  | failed hg _ => exact hg
  | ended _ _ => exact .rfl
  | bytes hg _ => exact hg

/-- A read that brings nothing leaves the reader as it is. -/
theorem Dealt.gives {total log : Bytes} {r : SnappyReader} {src src' : Inbound IoError}
    (h : Dealt snap total log r src) (hg : src.Gives [] src') : Dealt snap total log r src' := by
  obtain ⟨ps, hreads, hlog⟩ := h.pieces
  rw [hg.content, List.nil_append] at hreads
  exact ⟨⟨ps, hreads, hlog⟩⟩

/-- Bytes that were read are decoded. -/
theorem Dealt.decodes {total log got : Bytes} {r : SnappyReader} {src src' : Inbound IoError}
    (h : Dealt snap total log r src) (hg : src.Gives got src') :
    Dealt snap total log (decodeChunks snap false { r with inBuf := r.inBuf ++ got }).2 src' := by
  obtain ⟨ps, hreads, hlog⟩ := h.pieces
  obtain ⟨more, hmore, hrest⟩ := Kcp.decodes snap false { r with inBuf := r.inBuf ++ got }
  rw [hg.content, ← List.append_assoc] at hreads
  refine ⟨⟨ps ++ more, hreads.trans (hmore.append _), ?_⟩⟩
  rw [hrest, ← List.append_assoc, hlog, plains, plains, plains, List.flatMap_append]

theorem Dealt.quiet {total log : Bytes} {r : SnappyReader} {src : Inbound IoError}
    (h : Dealt snap total log r src) : Dealt snap total (log ++ []) r src := by
  rw [List.append_nil]
  exact h

theorem Dealt.poll {total log : Bytes} {r : SnappyReader} {src : Inbound IoError}
    (h : Dealt snap total log r src) (cap : Nat) :
    Dealt snap total (log ++ handed (r.poll snap cap src).1) (r.poll snap cap src).2.1
      (r.poll snap cap src).2.2 := by
  fun_induction SnappyReader.poll snap cap r src with
  | case1 r src hdec =>
    obtain ⟨ps, hreads, hlog⟩ := h.pieces
    refine ⟨⟨ps, hreads, ?_⟩⟩
    rw [← hlog, r.dec.take_spec cap, List.append_assoc]
    rfl
  | case2 r src hdec heof => exact h.quiet
  | case3 r src hdec heof src' hread => exact (h.gives (gives_read hread)).quiet
  | case4 r src hdec heof e src' hread => exact (h.gives (gives_read hread)).quiet
  | case5 r src hdec heof src' hread =>
    obtain ⟨ps, hreads, hlog⟩ := (h.gives (gives_read hread)).pieces
    exact Dealt.quiet ⟨⟨ps, hreads, hlog⟩⟩
  | case6 r src hdec heof b bs src' hread e r' hdecode =>
    have hnext := h.decodes (gives_read hread)
    rw [handed, hdecode] at hnext
    exact hnext.quiet
  | case7 r src hdec heof b bs src' hread p r' hdecode ih =>
    have hnext := h.decodes (gives_read hread)
    rw [handed, hdecode] at hnext
    exact ih hnext

theorem Dealt.readAll {total log : Bytes} {c : SnappyStream}
    (h : Dealt snap total log c.reader c.inner.inbound) (caps : List Nat) :
    Dealt snap total (log ++ (readAll snap caps c).1) (readAll snap caps c).2.reader
      (readAll snap caps c).2.inner.inbound := by
  induction caps generalizing log c with
  | nil => exact h.quiet
  | cons cap caps ih =>
    have hnext := ih (c := (c.pollRead snap cap).2) (h.poll cap)
    rw [List.append_assoc] at hnext
    exact hnext

/-- What is handed out comes from chunks that were read, in their order. -/
theorem readAll_isPrefix (snap : Snap) (inner : Transport) (caps : List Nat) {got left : Bytes}
    (hgot : inner.inbound.content
      = got ++ (readAll snap caps (.new inner)).2.inner.inbound.content)
    {ps : List (Option IoError × Bytes)} {s : Bool}
    (hreads : (pieceFraming snap).Reads false got ps s left)
    (hstuck : (pieceFraming snap).Stuck s left) :
    (readAll snap caps (.new inner)).1 <+: plains ps := by
  have hnew : Dealt snap inner.inbound.content [] (SnappyStream.new inner).reader
      (SnappyStream.new inner).inner.inbound := ⟨⟨[], .refl, rfl⟩⟩
  obtain ⟨qs, hq, hlog⟩ := (hnew.readAll caps).pieces
  obtain ⟨used, hused, hexact⟩ := hq.exact pieceFraming_exact
  rw [hgot, ← List.append_assoc] at hused
  have hq' := hexact (readAll snap caps (.new inner)).2.reader.inBuf
  rw [← List.append_cancel_right hused] at hq'
  obtain ⟨more, rfl, -⟩ := hq'.continues hreads hstuck
  rw [plains, List.flatMap_append, ← plains, ← hlog, List.nil_append, List.append_assoc]
  exact List.prefix_append _ _

/-! ## Chunks before the identifier -/

/-- No call hands out bytes but those of the chunks received that pass every check, whatever
the calls before it answered. -/
def OnlyProper (snap : Snap) (bs : Bytes) : Prop :=
  ∀ (inner : Transport) (caps : List Nat) (got : Bytes), inner.inbound.content = bs →
    bs = got ++ (readAll snap caps (.new inner)).2.inner.inbound.content →
    ∀ ps s left, (pieceFraming snap).Reads false got ps s left → (pieceFraming snap).Stuck s left →
      (readAll snap caps (.new inner)).1 <+: propers ps

/-- A chunk of data that is not empty, and that its checksum fits, stands before the
identifier. -/
def Early (snap : Snap) (bs : Bytes) : Prop :=
  ∃ ps chunk rest plain, (pieceFraming snap).Reads false bs ps false (chunk ++ rest)
    ∧ Whole chunk ∧ (head chunk).1 ≤ 0x01
    ∧ onData snap (head chunk).1 (chunk.drop 4) = .ok plain ∧ plain ≠ []

/-- Only a chunk of data adds to the output, and it leaves the flag alone. -/
theorem onKind_ne_nil {kind : UInt8} {body plain : Bytes} {sawMagic s : Bool} {err : Option IoError}
    (h : onKind snap kind body sawMagic = (err, s, plain)) (hne : plain ≠ []) :
    err = none ∧ s = sawMagic ∧ kind ≤ 0x01 ∧ onData snap kind body = .ok plain := by
  unfold onKind at h
  by_cases hkind : kind ≤ 0x01
  · rw [if_pos hkind] at h
    cases hdata : onData snap kind body with
    | error e =>
      rw [hdata] at h
      cases h
      exact absurd rfl hne
    | ok plain' =>
      rw [hdata] at h
      cases h
      exact ⟨rfl, rfl, hkind, rfl⟩
  · rw [if_neg hkind] at h
    split_ifs at h <;> cases h <;> exact absurd rfl hne

/-- A bad chunk adds to the output only if it is early. -/
theorem onChunk_bad {kind : UInt8} {body plain : Bytes} {sawMagic s : Bool} {e : IoError}
    (h : onChunk snap kind body sawMagic = (some e, s, plain)) (hne : plain ≠ []) :
    sawMagic = false ∧ kind ≤ 0x01 ∧ onData snap kind body = .ok plain := by
  rw [onChunk] at h
  rcases hk : onKind snap kind body sawMagic with ⟨_ | e', s', plain'⟩
  · rw [hk] at h
    dsimp only at h
    split_ifs at h with hearly
    · cases h
      obtain ⟨-, hs, hkind, hdata⟩ := onKind_ne_nil hk hne
      exact ⟨hs ▸ hearly.1, hkind, hdata⟩
    · cases h
  · rw [hk] at h
    cases h
    exact absurd (onKind_ne_nil hk hne).1 (Option.some_ne_none e)

theorem early_of_bad {bs mid rest plain : Bytes} {ps : List (Option IoError × Bytes)}
    {sawMagic s : Bool} {e : IoError} (hreads : (pieceFraming snap).Reads false bs ps sawMagic mid)
    (h : nextPiece snap sawMagic mid = .unit s (some e, plain) rest) (hne : plain ≠ []) :
    Early snap bs := by
  obtain ⟨chunk, hw, rfl, hon⟩ := nextPiece_unit h
  obtain ⟨rfl, hkind, hdata⟩ := onChunk_bad hon hne
  exact ⟨ps, chunk, rest, plain, hreads, hw, hkind, hdata, hne⟩

/-- An early chunk is bad, and in the output all the same. -/
theorem nextPiece_early {chunk plain : Bytes} (hw : Whole chunk) (hkind : (head chunk).1 ≤ 0x01)
    (hdata : onData snap (head chunk).1 (chunk.drop 4) = .ok plain) (more : Bytes) :
    ∃ e, nextPiece snap false (chunk ++ more) = .unit false (some e, plain) more := by
  have hne : (head chunk).1 ≠ 0xFF := by
    intro heq
    rw [heq] at hkind
    exact absurd hkind (by decide)
  rw [nextPiece_whole hw, onChunk, onKind, if_pos hkind, hdata]
  dsimp only
  rw [if_pos ⟨rfl, hne⟩]
  exact ⟨_, rfl⟩

/-- Only the identifier sets the flag. -/
theorem onKind_false {kind : UInt8} {body plain : Bytes} {sawMagic : Bool} {err : Option IoError}
    (h : onKind snap kind body sawMagic = (err, false, plain)) :
    sawMagic = false ∧ (err = none → kind ≠ 0xFF) := by
  unfold onKind at h
  by_cases hkind : kind ≤ 0x01
  · have hne : kind ≠ 0xFF := by
      intro heq
      rw [heq] at hkind
      exact absurd hkind (by decide)
    rw [if_pos hkind] at h
    cases hdata : onData snap kind body with
    | error e =>
      rw [hdata] at h
      cases h
      exact ⟨rfl, fun _ => hne⟩
    | ok plain' =>
      rw [hdata] at h
      cases h
      exact ⟨rfl, fun _ => hne⟩
  · rw [if_neg hkind] at h
    split_ifs at h with hmagic hbody hlow
    · cases h
      exact ⟨rfl, fun hnone => by cases hnone⟩
    · cases h
    · cases h
      exact ⟨rfl, fun _ => hmagic⟩
    · cases h
      exact ⟨rfl, fun _ => hmagic⟩

/-- Before the identifier every chunk but it is bad. -/
theorem err_of_false {sawMagic : Bool} {bs rest : Bytes} {p : Option IoError × Bytes}
    (h : nextPiece snap sawMagic bs = .unit false p rest) : sawMagic = false ∧ p.1 ≠ none := by
  obtain ⟨chunk, -, -, hon⟩ := nextPiece_unit h
  rw [onChunk] at hon
  rcases hk : onKind snap (head chunk).1 (chunk.drop 4) sawMagic with ⟨_ | e, s', plain'⟩
  · rw [hk] at hon
    dsimp only at hon
    split_ifs at hon with hearly
    · injection hon with herr hrest
      injection hrest with hs _
      subst hs
      exact ⟨(onKind_false hk).1, fun hnone => by rw [hnone] at herr; cases herr⟩
    · injection hon with herr hrest
      injection hrest with hs _
      subst hs
      exact absurd ⟨rfl, (onKind_false hk).2 rfl⟩ hearly
  · rw [hk] at hon
    injection hon with herr hrest
    injection hrest with hs _
    subst hs
    exact ⟨(onKind_false hk).1, fun hnone => by rw [hnone] at herr; cases herr⟩

theorem propers_eq {ps : List (Option IoError × Bytes)} (h : ∀ p ∈ ps, p.1 ≠ none → p.2 = []) :
    propers ps = plains ps := by
  induction ps with
  | nil => rfl
  | cons p ps ih =>
    have hrest := ih fun q hq => h q (List.mem_cons_of_mem _ hq)
    obtain ⟨err, plain⟩ := p
    cases err with
    | none =>
      show plain ++ propers ps = plain ++ plains ps
      rw [hrest]
    | some e =>
      have hnil : plain = [] := h (some e, plain) (by simp) (Option.some_ne_none e)
      rw [hnil]
      exact hrest

theorem onlyProper_of_not_early {bs : Bytes} (h : ¬ Early snap bs) : OnlyProper snap bs := by
  intro inner caps got hcontent hgot ps s left hreads hstuck
  have hout := readAll_isPrefix snap inner caps (hcontent.trans hgot) hreads hstuck
  have hbad : ∀ p ∈ ps, p.1 ≠ none → p.2 = [] := by
    intro p hp herr
    by_contra hne
    obtain ⟨err, plain⟩ := p
    obtain ⟨e, rfl⟩ := Option.ne_none_iff_exists'.mp herr
    obtain ⟨qs, qs', rfl⟩ := List.append_of_mem hp
    obtain ⟨s₁, mid, s₂, rest, hfront, hmid, -⟩ := hreads.split
    rw [hgot] at h
    exact h (early_of_bad (hfront.append _) ((pieceFraming snap).unit_append hmid _) hne)
  rw [propers_eq hbad]
  exact hout

/-! ## An early chunk comes out -/

theorem read_ofBytes {x : Bytes} (hne : x ≠ []) (tail : List (Arrival IoError)) (closed : Bool) :
    ∃ b bs, x.take SCRATCH = b :: bs ∧ Inbound.read ⟨Arrival.ofBytes x ++ tail, closed⟩ SCRATCH
      = (.ready (.ok (b :: bs)), ⟨Arrival.ofBytes (x.drop SCRATCH) ++ tail, closed⟩) := by
  cases x with
  | nil => exact absurd rfl hne
  | cons b bs => exact ⟨b, bs.take (SCRATCH - 1), rfl, rfl⟩

/-- A poll of a reader at the start of a bad chunk, with nothing to hand out, takes the
chunk and returns its error. -/
theorem poll_bad {r : SnappyReader} {x plain : Bytes} {s : Bool} {e : IoError}
    (hdec : r.dec.rest = []) (heof : r.readEof = false) (hw : Whole (r.inBuf ++ x)) (hne : x ≠ [])
    (hnext : nextPiece snap r.sawMagic (r.inBuf ++ x) = .unit s (some e, plain) [])
    (tail : List (Arrival IoError)) (closed : Bool) (cap : Nat) :
    r.poll snap cap ⟨Arrival.ofBytes x ++ tail, closed⟩
      = (.ready (.error e), { r with inBuf := [], dec := r.dec.append plain, sawMagic := s },
          ⟨tail, closed⟩) := by
  induction hn : x.length using Nat.strong_induction_on generalizing r x with
  | _ n ih =>
    subst hn
    have hpos : 0 < x.length := List.length_pos_iff.mpr hne
    have hnone : ¬ r.dec.pos < r.dec.data.length := Cursor.rest_eq_nil.mp hdec
    obtain ⟨b, y, htake, hread⟩ := read_ofBytes hne tail closed
    rw [SnappyReader.poll, if_neg hnone, if_neg (by simp [heof]), hread]
    dsimp only
    rw [decodeChunks_eq]
    dsimp only
    rw [← htake]
    by_cases hlast : x.drop SCRATCH = []
    · have hall : x.take SCRATCH = x := by
        have happ := List.take_append_drop SCRATCH x
        rw [hlast, List.append_nil] at happ
        exact happ
      rw [hall, hnext, hlast]
      rfl
    · have hsplit : r.inBuf ++ x = (r.inBuf ++ x.take SCRATCH) ++ x.drop SCRATCH := by
        rw [List.append_assoc, List.take_append_drop]
      have hpart : nextPiece snap r.sawMagic (r.inBuf ++ x.take SCRATCH) = .more := by
        refine nextPiece_part hw ⟨x.drop SCRATCH, hsplit.symm⟩ (fun heq => hlast ?_) _
        rw [← heq] at hsplit
        exact List.append_right_eq_self.mp hsplit.symm
      rw [hpart]
      dsimp only
      have hless : (x.drop SCRATCH).length < x.length := by
        rw [List.length_drop, SCRATCH]
        omega
      rw [hsplit] at hw hnext
      exact ih _ hless (r := { r with inBuf := r.inBuf ++ x.take SCRATCH }) hdec heof hw hlast hnext rfl

/-- A stream that has answered a bad chunk with an error and has `plain` to hand out. -/
def struck (plain : Bytes) (inner : Transport) : SnappyStream :=
  { SnappyStream.new inner with reader := { SnappyReader.new with dec := .ofBytes plain } }

theorem pollRead_eq {c : SnappyStream} {cap : Nat} {a : Poll (Except IoError Bytes)}
    {reader : SnappyReader} {inbound : Inbound IoError}
    (h : c.reader.poll snap cap c.inner.inbound = (a, reader, inbound)) :
    c.pollRead snap cap
      = (a, { c with reader := reader, inner := { c.inner with inbound := inbound } }) := by
  rw [SnappyStream.pollRead, h]

theorem pollRead_bad {chunk plain : Bytes} {e : IoError} (hw : Whole chunk)
    (hnext : nextPiece snap false chunk = .unit false (some e, plain) [])
    (tail : List (Arrival IoError)) (dst : Outbound IoError) (cap : Nat) :
    (SnappyStream.new ⟨⟨Arrival.ofBytes chunk ++ tail, true⟩, dst⟩).pollRead snap cap
      = (.ready (.error e), struck plain ⟨⟨tail, true⟩, dst⟩) := by
  have hne : chunk ≠ [] := by
    intro hnil
    have hlen := hw.length
    rw [hnil, List.length_nil] at hlen
    omega
  have hpoll := poll_bad (r := SnappyReader.new) rfl rfl hw hne hnext tail true cap
  exact pollRead_eq hpoll

/-- Some calls on a transport that brings `bs` hand out bytes though no chunk that they
received passes every check. -/
def ComesOut (snap : Snap) (bs : Bytes) (dst : Outbound IoError) : Prop :=
  ∃ (arrivals : List (Arrival IoError)) (caps : List Nat) (got : Bytes)
    (qs : List (Option IoError × Bytes)),
    Inbound.content ⟨arrivals, true⟩ = bs
      ∧ bs = got ++ (readAll snap caps (.new ⟨⟨arrivals, true⟩, dst⟩)).2.inner.inbound.content
      ∧ (pieceFraming snap).Reads false got qs false [] ∧ propers qs = []
      ∧ (readAll snap caps (.new ⟨⟨arrivals, true⟩, dst⟩)).1 ≠ []

/-- The error of an early chunk, and then the chunk. -/
theorem comesOut_head {chunk plain : Bytes} {e : IoError} (hw : Whole chunk)
    (hnext : nextPiece snap false chunk = .unit false (some e, plain) []) (hne : plain ≠ [])
    (rest : Bytes) (dst : Outbound IoError) : ComesOut snap (chunk ++ rest) dst := by
  have hpos : 0 < plain.length := List.length_pos_iff.mpr hne
  have hfirst := pollRead_bad hw hnext (Arrival.ofBytes rest ++ []) dst 1
  have hsecond : (struck plain ⟨⟨Arrival.ofBytes rest ++ [], true⟩, dst⟩).pollRead snap 1
      = (.ready (.ok (((Cursor.ofBytes plain).take 1).1)),
        { struck plain ⟨⟨Arrival.ofBytes rest ++ [], true⟩, dst⟩ with
          reader := { SnappyReader.new with dec := ((Cursor.ofBytes plain).take 1).2 } }) := by
    have hlt : (Cursor.ofBytes plain).pos < (Cursor.ofBytes plain).data.length := hpos
    rw [SnappyStream.pollRead, struck]
    dsimp only
    rw [SnappyReader.poll, if_pos hlt]
  have hcontent (x : Bytes) : Inbound.content (ε := IoError) ⟨Arrival.ofBytes x ++ [], true⟩ = x := by
    rw [Inbound.content_ofBytes]
    exact List.append_nil x
  refine ⟨Arrival.ofBytes chunk ++ (Arrival.ofBytes rest ++ []), [1, 1], chunk, [(some e, plain)],
    ?_, ?_, .unit hnext .refl, rfl, ?_⟩
  · rw [Inbound.content_ofBytes, hcontent]
  · simp only [readAll, hfirst, hsecond]
    show chunk ++ rest = chunk ++ Inbound.content ⟨Arrival.ofBytes rest ++ [], true⟩
    rw [hcontent]
  · simp only [readAll, hfirst, hsecond]
    have hout := Cursor.take_ne_nil (c := .ofBytes plain) hpos Nat.one_pos
    simpa [handed] using hout

/-- A bad chunk that adds nothing leaves the stream as new. -/
theorem comesOut_cons {chunk rest : Bytes} {e : IoError} {dst : Outbound IoError}
    (hw : Whole chunk) (hnext : nextPiece snap false chunk = .unit false (some e, []) [])
    (h : ComesOut snap rest dst) : ComesOut snap (chunk ++ rest) dst := by
  obtain ⟨arrivals, caps, got, qs, hcontent, hgot, hreads, hpropers, hout⟩ := h
  have hfirst : (SnappyStream.new ⟨⟨Arrival.ofBytes chunk ++ arrivals, true⟩, dst⟩).pollRead snap 1
      = (.ready (.error e), .new ⟨⟨arrivals, true⟩, dst⟩) := pollRead_bad hw hnext arrivals dst 1
  refine ⟨Arrival.ofBytes chunk ++ arrivals, 1 :: caps, chunk ++ got, (some e, []) :: qs,
    ?_, ?_, ?_, hpropers, ?_⟩
  · rw [Inbound.content_ofBytes, hcontent]
  · rw [readAll, hfirst, List.append_assoc]
    exact congrArg (chunk ++ ·) hgot
  · exact .unit ((pieceFraming snap).unit_append hnext got) hreads
  · rw [readAll, hfirst]
    exact hout

theorem comesOut {bs : Bytes} (h : Early snap bs) (dst : Outbound IoError) :
    ComesOut snap bs dst := by
  obtain ⟨ps, chunk, rest, plain, hreads, hw, hkind, hdata, hne⟩ := h
  have hrun : ∀ {s t : Bool} {bs left : Bytes} {ps : List (Option IoError × Bytes)},
      (pieceFraming snap).Reads s bs ps t left → t = false → left = chunk ++ rest →
        s = false ∧ ComesOut snap bs dst := by
    intro s t bs left ps hreads
    induction hreads with
    | refl =>
      rintro rfl rfl
      have hearly : ∃ e, nextPiece snap false (chunk ++ []) = .unit false (some e, plain) [] :=
        nextPiece_early hw hkind hdata []
      obtain ⟨e, hnext⟩ := hearly
      rw [List.append_nil] at hnext
      exact ⟨rfl, comesOut_head hw hnext hne rest dst⟩
    | @unit s s' t bs mid left p ps hn hr ih =>
      intro ht hleft
      obtain ⟨rfl, hmid⟩ := ih ht hleft
      obtain ⟨rfl, hbad⟩ := err_of_false hn
      obtain ⟨err, plain'⟩ := p
      obtain ⟨e, rfl⟩ := Option.ne_none_iff_exists'.mp hbad
      obtain ⟨first, hfirst, rfl, hon⟩ := nextPiece_unit hn
      have hnext : nextPiece snap false first = .unit false (some e, plain') [] := by
        have hwhole : nextPiece snap false (first ++ []) = _ := nextPiece_whole hfirst false []
        rw [List.append_nil, hon] at hwhole
        exact hwhole
      by_cases hnil : plain' = []
      · rw [hnil] at hnext
        exact ⟨rfl, comesOut_cons hfirst hnext hmid⟩
      · exact ⟨rfl, comesOut_head hfirst hnext hnil mid dst⟩
  exact (hrun hreads rfl rfl).2

theorem not_early_of_onlyProper {bs : Bytes} (h : OnlyProper snap bs) : ¬ Early snap bs := by
  intro hearly
  obtain ⟨arrivals, caps, got, qs, hcontent, hgot, hreads, hpropers, hout⟩ :=
    comesOut hearly ⟨[], []⟩
  have hprefix := h ⟨⟨arrivals, true⟩, ⟨[], []⟩⟩ caps got hcontent hgot qs false [] hreads
    (fun s p rest hn => by cases hn)
  rw [hpropers] at hprefix
  exact hout (List.prefix_nil.mp hprefix)

/-! ## Reading up to the first error -/

/-- Some cutting of `bs` has given a caller the bytes `out` by the first error, or by the
end if there is none. -/
def Seen (snap : Snap) (bs out : Bytes) : Prop :=
  ∃ (inner : Transport) (caps : List Nat), inner.inbound.Delivers bs ∧ (∀ c ∈ caps, 0 < c)
    ∧ (drive (SnappyStream.pollRead snap) caps (.new inner)).2.1 ≠ .running
    ∧ (drive (SnappyStream.pollRead snap) caps (.new inner)).1.flatten = out

/-- All cuttings give the same. -/
def SameReads (snap : Snap) (bs : Bytes) : Prop :=
  ∀ out out', Seen snap bs out → Seen snap bs out' → out = out'

/-- Fewer than `SCRATCH` bytes after a chunk with data it shows that a chunk is bad. -/
def Late (snap : Snap) (bs : Bytes) : Prop :=
  ∃ front outs s mid s' plain rest more t left e, front <+: bs
    ∧ (chunkFraming snap).Reads false front outs s mid
    ∧ nextChunk snap s mid = .unit s' plain rest ∧ plain ≠ []
    ∧ (chunkFraming snap).Reads s' rest more t left ∧ nextChunk snap t left = .fail e
    ∧ rest.length < SCRATCH

/-- A read of `got` has brought a bad chunk to a reader that has handed out `log`. -/
inductive Struck (snap : Snap) (total log : Bytes) : Prop
  | mk {outs more : List Bytes} {s t : Bool} {buf got rest left : Bytes} {e : IoError}
      (hreads : (chunkFraming snap).Reads false total outs s (buf ++ (got ++ rest)))
      (hlog : log = outs.flatten) (hwaits : nextChunk snap s buf = .more)
      (hgot : got.length ≤ SCRATCH)
      (hmore : (chunkFraming snap).Reads s (buf ++ got) more t left)
      (hfail : nextChunk snap t left = .fail e)

theorem length_read_le {src src' : Inbound IoError} {got : Bytes}
    (h : src.read SCRATCH = (.ready (.ok got), src')) : got.length ≤ SCRATCH := by
  have hread := src.reading SCRATCH (by decide)
  rw [h] at hread
  cases hread with
  | ended _ _ => exact Nat.zero_le _
  | bytes _ hle => exact hle

theorem poll_error {total : Bytes} {log : List Bytes} {r r' : SnappyReader}
    {src src' : Inbound IoError} {cap : Nat} {e : IoError} (h : Reading snap total log r src)
    (hu : ∀ e, .error e ∉ src.arrivals)
    (hp : r.poll snap cap src = (.ready (.error e), r', src')) : Struck snap total log.flatten := by
  fun_induction SnappyReader.poll snap cap r src with
  | case1 r src hdec => cases hp
  | case2 r src hdec heof => cases hp
  | case3 r src hdec heof mid hread => cases hp
  | case4 r src hdec heof e' mid hread =>
    have hreading := src.reading SCRATCH (by decide)
    rw [hread] at hreading
    cases hreading with
    | failed _ he => exact absurd he (hu _)
  | case5 r src hdec heof mid hread => cases hp
  | case6 r src hdec heof b bs mid hread e' r'' hdecode =>
    have hg : src.Gives (b :: bs) mid := gives_read hread
    obtain ⟨outs, hreads, hlog⟩ := h.reads
    rw [Cursor.rest_eq_nil.mpr hdec, List.append_nil] at hlog
    rw [hg.content] at hreads
    have hdecoded := decoded snap false { r with inBuf := r.inBuf ++ b :: bs }
    rw [hdecode] at hdecoded
    obtain ⟨more, s, left, hmore, hfail⟩ := hdecoded
    exact .mk hreads hlog h.waits (length_read_le hread) hmore hfail
  | case7 r src hdec heof b bs mid hread p r'' hdecode ih =>
    have hg : src.Gives (b :: bs) mid := gives_read hread
    exact ih (h.decode hg hdecode) (hg.unfailing hu) hp

/-- A caller that has read to an end has had all the good chunks up to the first bad one,
unless these came in the last read. -/
theorem seen_cases {bs out : Bytes} (h : Seen snap bs out) :
    (∃ outs s left, (chunkFraming snap).Reads false bs outs s left
      ∧ nextChunk snap s left = .more ∧ out = outs.flatten) ∨ Struck snap bs out := by
  obtain ⟨inner, caps, hbs, hcaps, hend, rfl⟩ := h
  let inv (log : List Bytes) (c : SnappyStream) : Prop :=
    Reading snap bs log c.reader c.inner.inbound ∧ ∀ e, .error e ∉ c.inner.inbound.arrivals
  have hnew : inv [] (.new inner) := ⟨hbs.content ▸ reading_new inner.inbound, hbs.unfailing⟩
  have hpolled (log : List Bytes) (c : SnappyStream) (cap : Nat) (hcap : 0 < cap) (hc : inv log c) :
      Polled inv (AllRead snap bs) (fun log _ => Struck snap bs log.flatten) log
        (c.pollRead snap cap) := by
    obtain ⟨hr, hu⟩ := hc
    have hpoll := polling hcap hr
    rcases hp : c.reader.poll snap cap c.inner.inbound with ⟨a, r', src'⟩
    rw [pollRead_eq hp]
    rw [hp] at hpoll
    cases hpoll with
    | pending hg h' _ => exact ⟨h', hg.unfailing hu⟩
    | bytes hg h' => exact ⟨h', hg.unfailing hu⟩
    | ended h' => exact h'
    | bad _ => exact poll_error hr hu hp
    | transport _ => exact poll_error hr hu hp
  have hdriven := driven hpolled hcaps hnew
  revert hend hdriven
  rcases drive (SnappyStream.pollRead snap) caps (.new inner) with ⟨log, outcome, c⟩
  intro hend hdriven
  cases outcome with
  | running => exact absurd rfl hend
  | ended => exact .inl hdriven
  | failed e => exact .inr hdriven

theorem chunkFraming_exact : (chunkFraming snap).Exact := by
  intro s bs s' plain rest h
  obtain ⟨chunk, hbs, -, hwhole, -⟩ := nextChunk_unit h
  exact ⟨chunk, hbs, hwhole⟩

/-- A chunk that the buffer waits for ends behind the buffer. -/
theorem length_rest_lt {s s' : Bool} {buf got plain rest : Bytes} (h : nextChunk snap s buf = .more)
    (hunit : nextChunk snap s (buf ++ got) = .unit s' plain rest) : rest.length < got.length := by
  obtain ⟨chunk, hbs, hne, hwhole, hpart⟩ := nextChunk_unit hunit
  by_contra hle
  have hlen := congrArg List.length hbs
  rw [List.length_append, List.length_append] at hlen
  have hpre : chunk <+: buf :=
    List.prefix_of_prefix_length_le ⟨rest, hbs.symm⟩ ⟨got, rfl⟩ (by omega)
  obtain ⟨more, rfl⟩ := hpre
  rw [hwhole more] at h
  cases h

/-- The chunks that a read completes end within it. -/
theorem length_rest_lt_read {s s₁ s₂ : Bool} {buf got mid plain rest : Bytes} {front : List Bytes}
    (h : nextChunk snap s buf = .more)
    (hfront : (chunkFraming snap).Reads s (buf ++ got) front s₁ mid)
    (hunit : nextChunk snap s₁ mid = .unit s₂ plain rest) : rest.length < got.length := by
  cases hfront with
  | refl => exact length_rest_lt h hunit
  | unit hn hr =>
    have hfirst := length_rest_lt h hn
    obtain ⟨used, hused, -⟩ := hr.exact chunkFraming_exact
    have hlen := congrArg List.length hused
    rw [List.length_append] at hlen
    have hless := nextChunk_shrinks hunit
    omega

/-- Chunks with data that the last read hid were late. -/
theorem late_of_struck {bs log : Bytes} (h : Struck snap bs log) :
    (∃ outs t left e, (chunkFraming snap).Reads false bs outs t left
      ∧ nextChunk snap t left = .fail e ∧ log = outs.flatten) ∨ Late snap bs := by
  obtain @⟨outs, more, s, t, buf, got, rest, left, e, hreads, hlog, hwaits, hgot, hmore, hfail⟩ := h
  by_cases hnil : more.flatten = []
  · have hall := hmore.append rest
    rw [List.append_assoc] at hall
    refine .inl ⟨outs ++ more, t, left ++ rest, e, hreads.trans hall, ?_, ?_⟩
    · exact nextChunk_fail_append hfail rest
    · rw [List.flatten_append, hnil, List.append_nil, hlog]
  · obtain ⟨plain, hmem, hne⟩ : ∃ plain ∈ more, plain ≠ [] := by
      by_contra hnone
      push Not at hnone
      exact hnil (List.flatten_eq_nil_iff.mpr hnone)
    obtain ⟨front, back, rfl⟩ := List.append_of_mem hmem
    obtain ⟨s₁, mid, s₂, r, hfront, hunit, hback⟩ := hmore.split
    obtain ⟨used, hused, hexact⟩ := hreads.exact chunkFraming_exact
    have hlt := length_rest_lt_read hwaits hfront hunit
    refine .inr ⟨used ++ (buf ++ got), outs ++ front, s₁, mid, s₂, plain, r, back, t, left, e,
      ⟨rest, ?_⟩, (hexact _).trans hfront, hunit, hne, hback, hfail, by omega⟩
    rw [hused, List.append_assoc, List.append_assoc]

theorem sameReads_of_not_late {bs : Bytes} (h : ¬ Late snap bs) : SameReads snap bs := by
  have hall : ∀ {out : Bytes}, Seen snap bs out → ∃ outs s left,
      (chunkFraming snap).Reads false bs outs s left ∧ (chunkFraming snap).Stuck s left
        ∧ out = outs.flatten := by
    intro out hseen
    rcases seen_cases hseen with ⟨outs, s, left, hreads, hmore, hout⟩ | hstruck
    · exact ⟨outs, s, left, hreads, Framing.stuck_of_more hmore, hout⟩
    · rcases late_of_struck hstruck with ⟨outs, s, left, e, hreads, hfail, hout⟩ | hlate
      · exact ⟨outs, s, left, hreads, Framing.stuck_of_fail hfail, hout⟩
      · exact absurd hlate h
  intro out out' hout hout'
  obtain ⟨outs, s, left, hreads, hstuck, rfl⟩ := hall hout
  obtain ⟨outs', s', left', hreads', hstuck', rfl⟩ := hall hout'
  rw [(hreads.unique hstuck hreads' hstuck').1]

/-! ## A cut before the read that brings the bad chunk -/

/-- Bytes in two parts. -/
theorem delivers_cut (x y : Bytes) : Inbound.Delivers (ε := IoError)
    ⟨Arrival.ofBytes x ++ (Arrival.ofBytes y ++ []), true⟩ (x ++ y) := by
  have hx := Inbound.delivers_ofBytes (ε := IoError) x
  have hy := Inbound.delivers_ofBytes (ε := IoError) y
  refine ⟨?_, fun e he => ?_, rfl⟩
  · rw [Inbound.content_ofBytes, List.append_nil, hy.content]
  · rw [List.append_nil] at he
    rcases List.mem_append.mp he with he | he
    · exact hx.unfailing e he
    · exact hy.unfailing e he

/-- A buffer in which a bad chunk shows is not decoded to its end. -/
theorem decodeChunks_bad {r : SnappyReader} {more : List Bytes} {t : Bool} {left : Bytes}
    {e : IoError} (hreads : (chunkFraming snap).Reads r.sawMagic r.inBuf more t left)
    (hfail : nextChunk snap t left = .fail e) :
    ∃ e' r', decodeChunks snap false r = (.error e', r') := by
  have hdecoded := decoded snap false r
  rcases hr : decodeChunks snap false r with ⟨e' | p, r'⟩
  · exact ⟨e', r', rfl⟩
  · rw [hr] at hdecoded
    obtain ⟨outs, hok, hmore, -⟩ := hdecoded
    obtain ⟨-, rfl, rfl⟩ := hok.unique (Framing.stuck_of_more hmore) hreads (Framing.stuck_of_fail hfail)
    rw [hfail] at hmore
    cases hmore

section Cut

variable {early y left last : Bytes} {outs more : List Bytes} {s t : Bool} {e : IoError}
  (hreads : (chunkFraming snap).Reads false early outs s left)
  (hwaits : nextChunk snap s left = .more)
  (hmore : (chunkFraming snap).Reads s (left ++ y.take SCRATCH) more t last)
  (hfail : nextChunk snap t last = .fail e)

include hreads hwaits hmore hfail

theorem poll_at_cut (hne : y ≠ []) {log : List Bytes} {r : SnappyReader} (cap : Nat)
    (hdec : ¬ r.dec.pos < r.dec.data.length)
    (h : Reading snap early log r ⟨[], true⟩) :
    ∃ e' r' src', r.poll snap cap ⟨Arrival.ofBytes y ++ [], true⟩ = (.ready (.error e'), r', src')
      ∧ log.flatten = outs.flatten := by
  obtain ⟨outs', hr, hlog⟩ := h.reads
  have hbuf : r.inBuf ++ Inbound.content (ε := IoError) ⟨[], true⟩ = r.inBuf := List.append_nil _
  rw [hbuf] at hr
  rw [Cursor.rest_eq_nil.mpr hdec, List.append_nil] at hlog
  obtain ⟨houts, hs, hleft⟩ :=
    hr.unique (Framing.stuck_of_more h.waits) hreads (Framing.stuck_of_more hwaits)
  rw [← hs, ← hleft] at hmore
  obtain ⟨e', r', hdecode⟩ := decodeChunks_bad
    (r := { r with inBuf := r.inBuf ++ y.take SCRATCH }) hmore hfail
  obtain ⟨b, bs, htake, hread⟩ := read_ofBytes hne [] true
  rw [htake] at hdecode
  rw [SnappyReader.poll, if_neg hdec, if_neg (by simp [h.notEof]), hread]
  dsimp only
  rw [hdecode]
  exact ⟨e', r', _, rfl, houts ▸ hlog⟩

/-- A poll goes on handing out what came before the cut, or meets the bad chunk behind it
when all of that has been handed out. -/
theorem poll_cut (hne : y ≠ []) {log : List Bytes} {r : SnappyReader} {x : Bytes} {cap : Nat}
    (hcap : 0 < cap) (h : Reading snap early log r ⟨Arrival.ofBytes x ++ [], true⟩) :
    (∃ b bs r' x', r.poll snap cap ⟨Arrival.ofBytes x ++ (Arrival.ofBytes y ++ []), true⟩
        = (.ready (.ok (b :: bs)), r', ⟨Arrival.ofBytes x' ++ (Arrival.ofBytes y ++ []), true⟩)
      ∧ Reading snap early (log ++ [b :: bs]) r' ⟨Arrival.ofBytes x' ++ [], true⟩)
    ∨ (∃ e' r' src', r.poll snap cap ⟨Arrival.ofBytes x ++ (Arrival.ofBytes y ++ []), true⟩
        = (.ready (.error e'), r', src') ∧ log.flatten = outs.flatten) := by
  induction hn : x.length using Nat.strong_induction_on generalizing r x with
  | _ n ih =>
    subst hn
    by_cases hdec : r.dec.pos < r.dec.data.length
    · have hout := Cursor.take_ne_nil hdec hcap
      have htake := r.dec.take_spec cap
      obtain ⟨outs', hr, hlog⟩ := h.reads
      rw [SnappyReader.poll, if_pos hdec]
      revert hout htake
      cases (r.dec.take cap).1 with
      | nil => exact fun hout => absurd rfl hout
      | cons b bs =>
        intro _ htake
        refine .inl ⟨b, bs, _, x, rfl, ⟨outs', hr, ?_⟩, h.waits, h.notEof⟩
        rw [← hlog, htake, List.flatten_append, List.flatten_singleton, List.append_assoc]
    by_cases hx : x = []
    · subst hx
      exact .inr (poll_at_cut hreads hwaits hmore hfail hne cap hdec h)
    · obtain ⟨b, bs, htake, hread⟩ := read_ofBytes hx (Arrival.ofBytes y ++ []) true
      obtain ⟨b', bs', htake', hread'⟩ := read_ofBytes hx [] true
      obtain ⟨rfl, rfl⟩ := List.cons.inj (htake.symm.trans htake')
      have hgives : Inbound.Gives _ (b :: bs) _ := gives_read hread'
      have hless : (x.drop SCRATCH).length < x.length := by
        have hpos := List.length_pos_iff.mpr hx
        rw [List.length_drop, SCRATCH]
        omega
      rw [SnappyReader.poll, if_neg hdec, if_neg (by simp [h.notEof]), hread]
      dsimp only
      rcases hdecode : decodeChunks snap false { r with inBuf := r.inBuf ++ b :: bs } with ⟨e' | p, r'⟩
      · obtain ⟨outs', hr, -⟩ := h.reads
        rw [hgives.content, ← List.append_assoc] at hr
        have hdecoded := decoded snap false { r with inBuf := r.inBuf ++ b :: bs }
        rw [hdecode] at hdecoded
        obtain ⟨more', s', left', hmore', hfail'⟩ := hdecoded
        exact absurd ⟨_, s', _, hr.trans (hmore'.append _), nextChunk_fail_append hfail' _⟩
          (not_bad hreads hwaits e')
      · exact ih _ hless (h.decode hgives hdecode) rfl

/-- A caller of a string that is cut there sees what came before the cut. -/
theorem seen_cut (hne : y ≠ []) : Seen snap (early ++ y) outs.flatten := by
  let src : Inbound IoError := ⟨Arrival.ofBytes early ++ (Arrival.ofBytes y ++ []), true⟩
  have hsrc : src.Delivers (early ++ y) := delivers_cut early y
  let inv (log : List Bytes) (c : SnappyStream) : Prop :=
    ∃ x, c.inner.inbound = ⟨Arrival.ofBytes x ++ (Arrival.ofBytes y ++ []), true⟩
      ∧ Reading snap early log c.reader ⟨Arrival.ofBytes x ++ [], true⟩
  have hnew : inv [] (.new (.new src [])) := by
    refine ⟨early, rfl, ?_⟩
    have hr : Reading snap _ [] SnappyReader.new ⟨Arrival.ofBytes early ++ [], true⟩ := reading_new _
    rw [Inbound.content_ofBytes, show Inbound.content (ε := IoError) ⟨[], true⟩ = [] from rfl,
      List.append_nil] at hr
    exact hr
  have hpoll (log : List Bytes) (c : SnappyStream) (cap : Nat) (hcap : 0 < cap) (hc : inv log c) :
      Polled inv (fun _ => False) (fun log _ => log.flatten = outs.flatten) log (c.pollRead snap cap)
        ∧ Polled (fun log' _ => outs.flatten.length - log'.flatten.length
            < outs.flatten.length - log.flatten.length) (fun _ => True) (fun _ _ => True) log
          (c.pollRead snap cap) := by
    obtain ⟨x, hx, hr⟩ := hc
    rcases poll_cut hreads hwaits hmore hfail hne hcap hr with
      ⟨b, bs, r', x', hp, hr'⟩ | ⟨e', r', src', hp, hlog⟩
    · rw [← hx] at hp
      rw [pollRead_eq hp]
      have hle := (hr'.isPrefix hreads hwaits).length_le
      rw [List.flatten_append, List.flatten_singleton, List.length_append, List.length_cons] at hle
      refine ⟨⟨x', rfl, hr'⟩, ?_⟩
      simp only [Polled, List.flatten_append, List.flatten_singleton, List.length_append,
        List.length_cons]
      omega
    · rw [← hx] at hp
      rw [pollRead_eq hp]
      exact ⟨hlog, trivial⟩
  let caps := List.replicate (outs.flatten.length + 1) 1
  have hcaps : ∀ c ∈ caps, 0 < c := fun c hc => by rw [List.eq_of_mem_replicate hc]; exact Nat.one_pos
  have hlen : outs.flatten.length - ([] : List Bytes).flatten.length < caps.length := by
    rw [List.length_replicate]
    exact Nat.lt_succ_self _
  have hstops := drive_stops (fun log _ => outs.flatten.length - log.flatten.length)
    (fun log c cap hcap hc => (hpoll log c cap hcap hc).1)
    (fun log c cap hcap hc => (hpoll log c cap hcap hc).2) hcaps hnew hlen
  have hdriven := driven (fun log c cap hcap hc => (hpoll log c cap hcap hc).1) hcaps hnew
  refine ⟨.new src [], caps, hsrc, hcaps, hstops, ?_⟩
  revert hstops hdriven
  rcases drive (SnappyStream.pollRead snap) caps (.new (.new src [])) with ⟨log, outcome, c⟩
  intro hstops hdriven
  cases outcome with
  | running => exact absurd rfl hstops
  | ended => exact hdriven.elim
  | failed e => exact hdriven

end Cut

/-- The same string cut before and after the last byte of a late chunk. -/
theorem not_late_of_sameReads {bs : Bytes} (h : SameReads snap bs) : ¬ Late snap bs := by
  rintro ⟨front, outs, s, mid, s', plain, rest, more, t, left, e, ⟨behind, rfl⟩, hreads, hunit, hne,
    hmore, hfail, hlt⟩
  obtain ⟨chunk, rfl, hchunk, hwhole, hpart⟩ := nextChunk_unit hunit
  obtain ⟨used, rfl, hexact⟩ := hreads.exact chunkFraming_exact
  have hafter (n : Nat) (hn : rest.length ≤ n) : ∃ z, (rest ++ behind).take n = rest ++ z
      ∧ (chunkFraming snap).Reads s' (rest ++ z) more t (left ++ z)
      ∧ nextChunk snap t (left ++ z) = .fail e := by
    refine ⟨behind.take (n - rest.length), ?_, hmore.append _, nextChunk_fail_append hfail _⟩
    rw [List.take_append, List.take_of_length_le hn]
  have hbehind : rest ++ behind ≠ [] := by
    intro hnil
    rw [(List.append_eq_nil_iff.mp hnil).1] at hmore
    obtain ⟨used', hused', -⟩ := hmore.exact chunkFraming_exact
    rw [(List.append_eq_nil_iff.mp hused'.symm).2] at hfail
    cases hfail
  have hlast : chunk.dropLast ++ [chunk.getLast hchunk] = chunk := List.dropLast_append_getLast hchunk
  have hbefore : Seen snap (used ++ chunk.dropLast ++ chunk.getLast hchunk :: (rest ++ behind))
      outs.flatten := by
    obtain ⟨z, htake, hreads', hfail'⟩ := hafter (SCRATCH - 1) (by omega)
    have hmore' : (chunkFraming snap).Reads s
        (chunk.dropLast ++ (chunk.getLast hchunk :: (rest ++ behind)).take SCRATCH)
        (plain :: more) t (left ++ z) := by
      have hcons : (chunk.getLast hchunk :: (rest ++ behind)).take SCRATCH
          = chunk.getLast hchunk :: (rest ++ z) := congrArg (chunk.getLast hchunk :: ·) htake
      rw [hcons, List.append_cons, hlast]
      exact .unit (hwhole _) hreads'
    have hwaits : nextChunk snap s chunk.dropLast = .more := by
      refine hpart _ (List.dropLast_prefix chunk) fun heq => ?_
      have hlen := congrArg List.length hlast
      rw [heq, List.length_append, List.length_singleton] at hlen
      omega
    exact seen_cut (hexact chunk.dropLast) hwaits hmore' hfail' (List.cons_ne_nil _ _)
  have hlater : Seen snap (used ++ chunk ++ (rest ++ behind)) (outs ++ [plain]).flatten := by
    obtain ⟨z, htake, hreads', hfail'⟩ := hafter SCRATCH (by omega)
    have hunit' := hwhole []
    rw [List.append_nil] at hunit'
    rw [← htake] at hreads'
    exact seen_cut ((hexact chunk).tail hunit') rfl hreads' hfail' hbehind
  have hsame : used ++ chunk.dropLast ++ chunk.getLast hchunk :: (rest ++ behind)
      = used ++ (chunk ++ rest) ++ behind := by
    rw [List.append_assoc, List.append_cons, hlast]
    simp
  rw [hsame] at hbefore
  have hsame' : used ++ chunk ++ (rest ++ behind) = used ++ (chunk ++ rest) ++ behind := by simp
  rw [hsame'] at hlater
  have heq := h _ _ hbefore hlater
  rw [List.flatten_append, List.flatten_singleton] at heq
  exact hne (List.append_right_eq_self.mp heq.symm)

/-! ## The reads of a byte string -/

/-- What comes out of a byte string is the same for all cuttings up to the first error, and
never comes from a chunk that is bad, exactly if no bad chunk shows within a read of a
chunk with data and no data comes before the identifier. -/
theorem reads_alike_iff (snap : Snap) (bs : Bytes) :
    SameReads snap bs ∧ OnlyProper snap bs ↔ ¬ Late snap bs ∧ ¬ Early snap bs :=
  ⟨fun h => ⟨not_late_of_sameReads h.1, not_early_of_onlyProper h.2⟩,
    fun h => ⟨sameReads_of_not_late h.1, onlyProper_of_not_early h.2⟩⟩

theorem whole_hiChunk : Whole hiChunk := ⟨by decide, by decide⟩

theorem fits_hi : Fits [0x68, 0x69] := by
  rw [Fits, SNAPPY_MAX_BLOCK]
  decide

theorem onData_hiChunk : onData literalSnap (head hiChunk).1 (hiChunk.drop 4) = .ok [0x68, 0x69] :=
  onData_body literalSnap_lawful fits_hi

theorem early_hiChunk : Early literalSnap hiChunk := by
  refine ⟨[], hiChunk, [], [0x68, 0x69], ?_, whole_hiChunk, by decide, onData_hiChunk, by decide⟩
  rw [List.append_nil]
  exact .refl

theorem late_after_magic {d behind : Bytes} {e : IoError} (h : Fits d) (hne : d ≠ [])
    (hlaw : snap.Lawful) (hfail : nextChunk snap true behind = .fail e)
    (hlt : behind.length < SCRATCH) : Late snap (SNAPPY_MAGIC ++ (encodeChunk snap d ++ behind)) :=
  ⟨_, [[]], true, _, true, d, behind, [], true, behind, e, List.prefix_rfl,
    .unit (next_magic false _) .refl, next_chunk hlaw h behind, hne, .refl, hfail, hlt⟩

/-- An identifier, a chunk of two bytes and a chunk of a reserved kind. -/
theorem late_hiChunk : Late literalSnap (SNAPPY_MAGIC ++ (hiChunk ++ [0x02, 0, 0, 0])) := by
  have hchunk : encodeChunk literalSnap [0x68, 0x69] = hiChunk := rfl
  have hfail : nextChunk literalSnap true [0x02, 0, 0, 0]
    = .fail (invalidData s!"snappy: reserved chunk type {hexByte 0x02}") := rfl
  have hlate := late_after_magic fits_hi (by decide) literalSnap_lawful hfail (by decide)
  rw [hchunk] at hlate
  exact hlate

/-- Two bytes that a read hides if it brings the bad chunk as well, and two bytes that come
out though no identifier came before them. -/
theorem reads_differ : ¬ SameReads literalSnap (SNAPPY_MAGIC ++ (hiChunk ++ [0x02, 0, 0, 0]))
    ∧ ¬ OnlyProper literalSnap hiChunk :=
  ⟨fun h => not_late_of_sameReads h late_hiChunk, fun h => not_early_of_onlyProper h early_hiChunk⟩

end Kcp
end RtProxy
