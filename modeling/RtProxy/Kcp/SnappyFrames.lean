import RtProxy.Kcp.Snappy

/-!
What arrives through a snappy stream.

The bytes a stream produces are the identifier, once, and a chunk for each write
accepted.  A second stream decodes them to the bytes accepted, however they are cut
into reads.
-/

namespace RtProxy
namespace Kcp

open ByteStream

/-- Decompressing undoes compressing. -/
def Snap.Lawful (snap : Snap) : Prop :=
  ∀ src c, snap.compress src = some c → snap.decompress c = .ok src

/-! ## Chunks -/

/-- A chunk of data, its checksum included. -/
structure Chunk where
  kind : UInt8
  body : Bytes
  data : kind ≤ 0x01
  le : body.length ≤ SNAPPY_MAX_CHUNK

def Chunk.encode (c : Chunk) : Bytes := c.kind :: Bytes.le 3 c.body.length ++ c.body

/-- A block that can be one chunk. -/
def Fits (d : Bytes) : Prop := d.length ≤ SNAPPY_MAX_BLOCK

theorem chunkBody_cases (snap : Snap) (d : Bytes) :
    chunkBody snap d = (0x01, d)
      ∨ ∃ c, snap.compress d = some c ∧ c.length ≤ d.length ∧ chunkBody snap d = (0x00, c) := by
  unfold chunkBody
  split
  · rename_i c hc
    split
    · exact .inr ⟨c, hc, by omega, rfl⟩
    · exact .inl rfl
  · exact .inl rfl

theorem chunkBody_kind_le (snap : Snap) (d : Bytes) : (chunkBody snap d).1 ≤ 0x01 := by
  rcases chunkBody_cases snap d with h | ⟨c, -, -, h⟩ <;> rw [h] <;> simp

/-- A chunk is never longer than its block. -/
theorem length_chunkBody_le (snap : Snap) (d : Bytes) :
    (chunkBody snap d).2.length ≤ d.length := by
  rcases chunkBody_cases snap d with h | ⟨c, -, hle, h⟩ <;> rw [h]
  exact hle

/-- The chunk of a block. -/
def chunkOf (snap : Snap) (d : Bytes) (h : Fits d) : Chunk where
  kind := (chunkBody snap d).1
  body := Bytes.le 4 (crc32cMasked d).toNat ++ (chunkBody snap d).2
  data := chunkBody_kind_le snap d
  le := by
    have hle := length_chunkBody_le snap d
    simp only [Fits] at h
    rw [List.length_append, Bytes.length_le, SNAPPY_MAX_CHUNK]
    omega

theorem encode_chunkOf (snap : Snap) (d : Bytes) (h : Fits d) :
    (chunkOf snap d h).encode = encodeChunk snap d := by
  simp [Chunk.encode, chunkOf, encodeChunk]

/-- The bytes that carry the blocks `ds`. -/
def snappyStream (snap : Snap) (ds : List Bytes) : Bytes :=
  if ds = [] then [] else SNAPPY_MAGIC ++ ds.flatMap (encodeChunk snap)

/-- Every chunk emitted is a chunk of data. -/
theorem exists_chunks (snap : Snap) {ds : List Bytes} (h : ∀ d ∈ ds, Fits d) :
    ∃ cs : List Chunk, cs.length = ds.length ∧ ds.flatMap (encodeChunk snap) = cs.flatMap Chunk.encode := by
  induction ds with
  | nil => exact ⟨[], rfl, rfl⟩
  | cons d ds ih =>
    obtain ⟨cs, hlen, hcs⟩ := ih fun d' hd' => h d' (List.mem_cons_of_mem _ hd')
    refine ⟨chunkOf snap d (h d (by simp)) :: cs, by simp [hlen], ?_⟩
    rw [List.flatMap_cons, List.flatMap_cons, encode_chunkOf, hcs]

/-! ## Writing -/

/-- A stream that has accepted the blocks `ds`. -/
structure Chunked (snap : Snap) (ds : List Bytes) (c : SnappyStream) : Prop where
  fits : ∀ d ∈ ds, Fits d
  magic : c.wroteMagic = true ↔ ds ≠ []
  bytes : c.produced = snappyStream snap ds

namespace Chunked

variable {snap : Snap} {ds : List Bytes} {c : SnappyStream}

theorem drain (h : Chunked snap ds c) : Chunked snap ds c.pollDrain.2 :=
  ⟨h.fits, h.magic, (c.produced_pollDrain).trans h.bytes⟩

theorem finish (h : Chunked snap ds c) : Chunked snap ds c.pollFinish.2 := by
  obtain ⟨hp, hm⟩ := c.pollFinish_spec
  exact ⟨h.fits, hm ▸ h.magic, hp.trans h.bytes⟩

theorem queue (h : Chunked snap ds c) {d : Bytes} (hd : Fits d) :
    Chunked snap (ds ++ [d]) (c.queue snap d) := by
  refine ⟨fun d' hd' => ?_, ⟨fun _ => by simp, fun _ => rfl⟩, ?_⟩
  · rcases List.mem_append.mp hd' with hd' | hd'
    · exact h.fits d' hd'
    · rw [List.mem_singleton.mp hd']
      exact hd
  · have hm := h.magic
    have hne : ds ++ [d] ≠ [] := by simp
    rw [SnappyStream.produced_queue, h.bytes, snappyStream, snappyStream, if_neg hne]
    by_cases hnil : ds = []
    · subst hnil
      have hfalse : c.wroteMagic = false := by simpa using hm
      simp [hfalse]
    · simp [hm.mpr hnil, hnil]

theorem write (h : Chunked snap ds c) (buf : Bytes) :
    ByteWriter.Accepts (Chunked snap) ds buf (c.pollWrite snap buf) := by
  unfold SnappyStream.pollWrite
  by_cases hnil : buf = []
  · rw [if_pos hnil]
    exact h
  rw [if_neg hnil]
  have hpos : 0 < min buf.length SNAPPY_MAX_BLOCK := by
    have := List.length_pos_iff.mpr hnil
    simp only [SNAPPY_MAX_BLOCK]
    omega
  have hd : Fits (buf.take (min buf.length SNAPPY_MAX_BLOCK)) := by
    rw [Fits, List.length_take]
    omega
  have hf := h.drain
  revert hf
  rcases c.pollDrain with ⟨a, c'⟩
  match a with
  | .ready (.error e) => exact id
  | .pending | .ready (.ok ()) =>
    intro hf
    simp only
    by_cases hfull : c'.out.data.length - c'.out.pos > 4 * SNAPPY_MAX_BLOCK
    · rw [if_pos hfull]
      exact hf
    · rw [if_neg hfull]
      exact .part rfl hpos (hf.queue hd).drain

end Chunked

/-- Whatever the transport does, the bytes produced carry the blocks accepted. -/
theorem chunked_run (snap : Snap) (src : Inbound IoError) (grants : List (Grant IoError))
    (ops : List WriteOp) :
    Chunked snap ((SnappyStream.writer snap).run ops (.new (.new src grants))).1
      ((SnappyStream.writer snap).run ops (.new (.new src grants))).2 :=
  ByteWriter.run_keeps (fun _ _ buf h => h.write buf) (fun _ _ h => h.finish)
    (fun _ _ h => h.finish) ops ⟨by simp, by simp [SnappyStream.new], rfl⟩

/-! ## What a byte string reads as -/

section

variable {snap : Snap}

open SnappyReader

/-- The chunk at the front of a byte string. -/
def nextChunk (snap : Snap) (sawMagic : Bool) (bs : Bytes) : Next Bool IoError Bytes :=
  if bs.length < 4 then .more
  else if (head bs).1 ≤ 0x01 ∧ (head bs).2 > SNAPPY_MAX_CHUNK then
    .fail (oversizedErr (head bs).2)
  else if bs.length < 4 + (head bs).2 then .more
  else
    match onChunk snap (head bs).1 ((bs.drop 4).take (head bs).2) sawMagic with
    | (some e, _, _) => .fail e
    | (none, sawMagic, plain) => .unit sawMagic plain (bs.drop (4 + (head bs).2))

theorem head_append {bs : Bytes} (h : 4 ≤ bs.length) (more : Bytes) :
    head (bs ++ more) = head bs := by
  match bs, h with
  | a :: b :: c :: d :: rest, _ => rfl

theorem nextChunk_append {sawMagic : Bool} {bs : Bytes} (h : nextChunk snap sawMagic bs ≠ .more)
    (more : Bytes) : nextChunk snap sawMagic (bs ++ more) = match nextChunk snap sawMagic bs with
      | .more => .more
      | .fail e => .fail e
      | .unit s out rest => .unit s out (rest ++ more) := by
  unfold nextChunk at h ⊢
  by_cases hlen : bs.length < 4
  · simp [hlen] at h
  have hlen' : ¬ (bs ++ more).length < 4 := by
    rw [List.length_append]
    omega
  rw [if_neg hlen'] at *
  simp only [if_neg hlen, head_append (Nat.le_of_not_lt hlen)] at h ⊢
  by_cases hbig : (head bs).1 ≤ 0x01 ∧ (head bs).2 > SNAPPY_MAX_CHUNK
  · simp only [if_pos hbig]
  simp only [if_neg hbig] at h ⊢
  by_cases hshort : bs.length < 4 + (head bs).2
  · simp [hshort] at h
  have hshort' : ¬ (bs ++ more).length < 4 + (head bs).2 := by
    rw [List.length_append]
    omega
  rw [if_neg hshort, if_neg hshort', List.drop_append_of_le_length (by omega),
    List.drop_append_of_le_length (by omega),
    List.take_append_of_le_length (by rw [List.length_drop]; omega)]
  split <;> rfl

theorem nextChunk_shrinks {sawMagic sawMagic' : Bool} {bs out rest : Bytes}
    (h : nextChunk snap sawMagic bs = .unit sawMagic' out rest) : rest.length < bs.length := by
  unfold nextChunk at h
  split_ifs at h with hlen
  split at h
  · cases h
  · cases h
    rw [List.length_drop]
    omega

theorem nextChunk_unit_append {sawMagic sawMagic' : Bool} {bs out rest : Bytes}
    (h : nextChunk snap sawMagic bs = .unit sawMagic' out rest) (more : Bytes) :
    nextChunk snap sawMagic (bs ++ more) = .unit sawMagic' out (rest ++ more) := by
  rw [nextChunk_append (by rw [h]; simp), h]

theorem nextChunk_fail_append {sawMagic : Bool} {bs : Bytes} {e : IoError}
    (h : nextChunk snap sawMagic bs = .fail e) (more : Bytes) :
    nextChunk snap sawMagic (bs ++ more) = .fail e := by
  rw [nextChunk_append (by rw [h]; simp), h]

def chunkFraming (snap : Snap) : Framing Bool IoError Bytes where
  next := nextChunk snap
  shrinks := nextChunk_shrinks
  unit_append := nextChunk_unit_append
  fail_append := nextChunk_fail_append

theorem chunkFraming_next : (chunkFraming snap).next = nextChunk snap := rfl

/-- Decoding takes all the chunks that are there, up to a bad one. -/
def Decoded (snap : Snap) (r : SnappyReader) : Except IoError Bool × SnappyReader → Prop
  | (.ok _, r') => ∃ outs, (chunkFraming snap).Reads r.sawMagic r.inBuf outs r'.sawMagic r'.inBuf
      ∧ nextChunk snap r'.sawMagic r'.inBuf = .more
      ∧ r'.dec.rest = r.dec.rest ++ outs.flatten ∧ r'.readEof = r.readEof
  | (.error e, _) => ∃ outs s left, (chunkFraming snap).Reads r.sawMagic r.inBuf outs s left
      ∧ nextChunk snap s left = .fail e

/-- One more chunk in front of those that were decoded. -/
theorem Decoded.cons {r r' : SnappyReader} {plain : Bytes}
    (hnext : nextChunk snap r.sawMagic r.inBuf = .unit r'.sawMagic plain r'.inBuf)
    (hdec : r'.dec.rest = r.dec.rest ++ plain) (heof : r'.readEof = r.readEof)
    {x : Except IoError Bool × SnappyReader} (h : Decoded snap r' x) : Decoded snap r x := by
  obtain ⟨a, r''⟩ := x
  cases a with
  | ok p =>
    obtain ⟨outs, hreads, hmore, hrest, heof'⟩ := h
    refine ⟨plain :: outs, .unit hnext hreads, hmore, ?_, heof'.trans heof⟩
    rw [hrest, hdec, List.flatten_cons, List.append_assoc]
  | error e =>
    obtain ⟨outs, s, left, hreads, hfail⟩ := h
    exact ⟨plain :: outs, s, left, .unit hnext hreads, hfail⟩

theorem decoded (snap : Snap) (progress : Bool) (r : SnappyReader) :
    Decoded snap r (decodeChunks snap progress r) := by
  induction hn : r.inBuf.length using Nat.strong_induction_on generalizing progress r with
  | _ n ih =>
    subst hn
    have hstay (h : nextChunk snap r.sawMagic r.inBuf = .more) (p : Bool) :
        Decoded snap r (.ok p, r) := ⟨[], .refl, h, by simp, rfl⟩
    rw [decodeChunks]
    by_cases hlen : r.inBuf.length < 4
    · rw [if_pos hlen]
      exact hstay (by rw [nextChunk, if_pos hlen]) progress
    rw [if_neg hlen]
    by_cases hbig : (head r.inBuf).1 ≤ 0x01 ∧ (head r.inBuf).2 > SNAPPY_MAX_CHUNK
    · rw [if_pos hbig]
      exact ⟨[], _, _, .refl, by rw [nextChunk, if_neg hlen, if_pos hbig]⟩
    rw [if_neg hbig]
    by_cases hshort : r.inBuf.length < 4 + (head r.inBuf).2
    · rw [if_pos hshort]
      exact hstay (by rw [nextChunk, if_neg hlen, if_neg hbig, if_pos hshort]) progress
    rw [if_neg hshort]
    have hnext : nextChunk snap r.sawMagic r.inBuf = match onChunk snap (head r.inBuf).1
          ((r.inBuf.drop 4).take (head r.inBuf).2) r.sawMagic with
        | (some e, _, _) => .fail e
        | (none, sawMagic, plain) => .unit sawMagic plain (r.inBuf.drop (4 + (head r.inBuf).2)) := by
      rw [nextChunk, if_neg hlen, if_neg hbig, if_neg hshort]
    revert hnext
    rcases onChunk snap (head r.inBuf).1 ((r.inBuf.drop 4).take (head r.inBuf).2) r.sawMagic with
      ⟨_ | e, sawMagic, plain⟩
    · intro hnext
      let r' : SnappyReader := { r with
        inBuf := r.inBuf.drop (4 + (head r.inBuf).2)
        dec := r.dec.append plain
        sawMagic := sawMagic }
      have hless : r'.inBuf.length < r.inBuf.length := by
        rw [List.length_drop]
        omega
      have hdec : r'.dec.rest = r.dec.rest ++ plain := Cursor.rest_append _ _
      have hrest : Decoded snap r' (decodeChunks snap true r') := ih _ hless true r' rfl
      show Decoded snap r (decodeChunks snap true r')
      exact Decoded.cons hnext hdec rfl hrest
    · exact fun hnext => ⟨[], _, _, .refl, hnext⟩

/-! ## What the chunks of a stream read as -/

theorem next_magic (sawMagic : Bool) (bs : Bytes) :
    (chunkFraming snap).next sawMagic (SNAPPY_MAGIC ++ bs) = .unit true [] bs := by
  have hhead : head (SNAPPY_MAGIC ++ bs) = (0xFF, 6) := rfl
  have hbody : ((SNAPPY_MAGIC ++ bs).drop 4).take 6 = SNAPPY_MAGIC.drop 4 := rfl
  have hlen : (SNAPPY_MAGIC ++ bs).length = 10 + bs.length := by
    rw [List.length_append]
    rfl
  have hkind : onChunk snap 0xFF (SNAPPY_MAGIC.drop 4) sawMagic = (none, true, []) := by
    simp [onChunk, onKind]
  rw [chunkFraming_next, nextChunk, hhead, hlen, if_neg (by omega), if_neg (by decide),
    if_neg (by omega)]
  simp only [hbody, hkind]
  rfl

theorem leNat_le_length {d : Bytes} (h : Fits d) (n : Nat) (hn : n ≤ d.length) :
    Bytes.leNat (Bytes.le 3 (4 + n)) = 4 + n := by
  simp only [Fits, SNAPPY_MAX_BLOCK] at h
  exact Bytes.leNat_le (by omega)

theorem head_encodeChunk (snap : Snap) {d : Bytes} (h : Fits d) (bs : Bytes) :
    head (encodeChunk snap d ++ bs) = ((chunkBody snap d).1, 4 + (chunkBody snap d).2.length) := by
  obtain ⟨a, b, c, habc⟩ : ∃ a b c, Bytes.le 3 (4 + (chunkBody snap d).2.length) = [a, b, c] :=
    List.length_eq_three.mp (Bytes.length_le _ _)
  have hn := leNat_le_length h _ (length_chunkBody_le snap d)
  rw [habc] at hn
  simp [head, encodeChunk, habc, hn]

theorem storedChecksum_append (c : UInt32) (bs : Bytes) :
    storedChecksum (Bytes.le 4 c.toNat ++ bs) = c := by
  have hlt : c.toNat < 256 ^ 4 := c.toNat_lt
  rw [storedChecksum, List.take_left' (Bytes.length_le _ _), Bytes.leNat_le hlt, UInt32.ofNat_toNat]

theorem onData_body (hlaw : snap.Lawful) {d : Bytes} (h : Fits d) :
    onData snap (chunkBody snap d).1
      (Bytes.le 4 (crc32cMasked d).toNat ++ (chunkBody snap d).2) = .ok d := by
  have hlen : ¬ (Bytes.le 4 (crc32cMasked d).toNat ++ (chunkBody snap d).2).length < 4 := by
    rw [List.length_append, Bytes.length_le]
    omega
  have hdrop : (Bytes.le 4 (crc32cMasked d).toNat ++ (chunkBody snap d).2).drop 4
      = (chunkBody snap d).2 := List.drop_left' (Bytes.length_le _ _)
  have hmax : ¬ ((chunkBody snap d).1 = 0x00 ∧ d.length > SNAPPY_MAX_BLOCK) :=
    fun hc => absurd h (Nat.not_le.mpr hc.2)
  have hplain : (if (chunkBody snap d).1 = 0x00 then snap.decompress (chunkBody snap d).2
      else .ok (chunkBody snap d).2) = .ok d := by
    rcases chunkBody_cases snap d with hb | ⟨c, hc, -, hb⟩
    · simp [hb]
    · simp [hb, hlaw d c hc]
  rw [onData, if_neg hlen, hdrop, hplain]
  simp only [if_neg hmax, storedChecksum_append, ne_eq, not_true_eq_false, if_false]

theorem length_encodeChunk (d : Bytes) :
    (encodeChunk snap d).length = 4 + (4 + (chunkBody snap d).2.length) := by
  rw [encodeChunk, List.length_append, List.length_append, List.length_cons, Bytes.length_le,
    Bytes.length_le]
  omega

theorem next_chunk (hlaw : snap.Lawful) {d : Bytes} (h : Fits d) (bs : Bytes) :
    (chunkFraming snap).next true (encodeChunk snap d ++ bs) = .unit true d bs := by
  have hle := length_chunkBody_le snap d
  have hkind := chunkBody_kind_le snap d
  have hlen : ¬ (encodeChunk snap d ++ bs).length < 4 := by
    rw [List.length_append, length_encodeChunk]
    omega
  have hbig : ¬ ((chunkBody snap d).1 ≤ 0x01 ∧ 4 + (chunkBody snap d).2.length > SNAPPY_MAX_CHUNK) := by
    simp only [Fits] at h
    simp only [SNAPPY_MAX_CHUNK]
    omega
  have hshort : ¬ (encodeChunk snap d ++ bs).length < 4 + (4 + (chunkBody snap d).2.length) := by
    rw [List.length_append, length_encodeChunk]
    omega
  have hdrop : (encodeChunk snap d ++ bs).drop (4 + (4 + (chunkBody snap d).2.length)) = bs :=
    List.drop_left' (length_encodeChunk d)
  have hbody : ((encodeChunk snap d ++ bs).drop 4).take (4 + (chunkBody snap d).2.length)
      = Bytes.le 4 (crc32cMasked d).toNat ++ (chunkBody snap d).2 := by
    have hfront : ((chunkBody snap d).1 :: Bytes.le 3 (4 + (chunkBody snap d).2.length)).length = 4 := by
      rw [List.length_cons, Bytes.length_le]
    rw [encodeChunk, List.append_assoc, List.append_assoc, List.drop_left' hfront,
      ← List.append_assoc, List.take_left']
    rw [List.length_append, Bytes.length_le]
  rw [chunkFraming_next, nextChunk, if_neg hlen, head_encodeChunk snap h]
  simp only [if_neg hbig, if_neg hshort, hbody, hdrop]
  have hk : onChunk snap (chunkBody snap d).1
      (Bytes.le 4 (crc32cMasked d).toNat ++ (chunkBody snap d).2) true = (none, true, d) := by
    rw [onChunk, onKind, if_pos hkind, onData_body hlaw h]
    simp
  rw [hk]

/-- A part of a chunk waits for the rest. -/
theorem next_part {bs part : Bytes} (hlen : bs.length = 4 + (head bs).2)
    (hok : ¬ ((head bs).1 ≤ 0x01 ∧ (head bs).2 > SNAPPY_MAX_CHUNK)) (h : part <+: bs)
    (hne : part ≠ bs) (sawMagic : Bool) : (chunkFraming snap).next sawMagic part = .more := by
  have hlt := length_lt_of_isPrefix h hne
  obtain ⟨rest, rfl⟩ := h
  rw [chunkFraming_next, nextChunk]
  by_cases hshort : part.length < 4
  · rw [if_pos hshort]
  · rw [head_append (by omega)] at hlen hok
    rw [if_neg hshort, if_neg hok, if_pos (by omega)]

theorem reads_chunks (hlaw : snap.Lawful) {ds : List Bytes} (h : ∀ d ∈ ds, Fits d) (bs : Bytes) :
    (chunkFraming snap).Reads true (ds.flatMap (encodeChunk snap) ++ bs) ds true bs := by
  induction ds with
  | nil => exact .refl
  | cons d ds ih =>
    rw [List.flatMap_cons, List.append_assoc]
    exact .unit (next_chunk hlaw (h d (by simp)) _)
      (ih fun d' hd' => h d' (List.mem_cons_of_mem _ hd'))

/-- Where a prefix of a stream leaves a reader. -/
theorem reads_prefix (hlaw : snap.Lawful) {ds : List Bytes} (h : ∀ d ∈ ds, Fits d) {p : Bytes}
    (hp : p <+: snappyStream snap ds) :
    ∃ outs s left, (chunkFraming snap).Reads false p outs s left
      ∧ nextChunk snap s left = .more ∧ outs.flatten <+: ds.flatten
      ∧ (p = snappyStream snap ds → outs.flatten = ds.flatten) := by
  by_cases hnil : ds = []
  · subst hnil
    obtain rfl := List.prefix_nil.mp hp
    exact ⟨[], false, [], .refl, rfl, List.prefix_rfl, fun _ => rfl⟩
  rw [snappyStream, if_neg hnil] at hp ⊢
  rcases prefix_append_cases hp with ⟨hmag, hne⟩ | ⟨q, rfl, hq⟩
  · refine ⟨[], false, p, .refl, next_part rfl (by decide) hmag hne false, List.nil_prefix, ?_⟩
    rintro rfl
    have hlt := length_lt_of_isPrefix hmag hne
    rw [List.length_append] at hlt
    omega
  · obtain ⟨front, back, part, rfl, rfl, hpart⟩ := prefix_flatMap hq
    have hfront : ∀ d ∈ front, Fits d := fun d hd => h d (List.mem_append_left _ hd)
    have hreads : (chunkFraming snap).Reads false
        (SNAPPY_MAGIC ++ (front.flatMap (encodeChunk snap) ++ part)) ([] :: front) true part :=
      .unit (next_magic _ _) (reads_chunks hlaw hfront part)
    refine ⟨_, _, _, hreads, ?_, ?_, ?_⟩
    · rcases hpart with rfl | ⟨d, rest, rfl, hpre, hne⟩
      · rfl
      · have hd : Fits d := h d (by simp)
        have hhead := head_encodeChunk snap hd []
        rw [List.append_nil] at hhead
        have hle := length_chunkBody_le snap d
        refine next_part (by rw [hhead, length_encodeChunk]) ?_ hpre hne true
        rw [hhead]
        simp only [Fits] at hd
        simp only [SNAPPY_MAX_CHUNK]
        omega
    · simp
    · intro hwhole
      rw [List.flatMap_append] at hwhole
      have hpart' : part = back.flatMap (encodeChunk snap) := by simpa using hwhole
      rcases hpart with rfl | ⟨d, rest, rfl, hpre, hne⟩
      · cases back with
        | nil => simp
        | cons d back =>
          have hl := congrArg List.length hpart'
          rw [List.flatMap_cons, List.length_append, length_encodeChunk, List.length_nil] at hl
          omega
      · have hlt := length_lt_of_isPrefix hpre hne
        have hl := congrArg List.length hpart'
        rw [List.flatMap_cons, List.length_append] at hl
        omega

/-! ## What a poll does -/

/-- A reader of a stream of `total` that has handed out the pieces `log` and has `src`
before it. -/
structure Reading (snap : Snap) (total : Bytes) (log : List Bytes) (r : SnappyReader)
    (src : Inbound IoError) : Prop where
  reads : ∃ outs, (chunkFraming snap).Reads false total outs r.sawMagic (r.inBuf ++ src.content)
    ∧ log.flatten ++ r.dec.rest = outs.flatten
  waits : nextChunk snap r.sawMagic r.inBuf = .more
  notEof : r.readEof = false

theorem reading_new (src : Inbound IoError) :
    Reading snap src.content [] SnappyReader.new src :=
  ⟨⟨[], .refl, rfl⟩, rfl, rfl⟩

/-- All the chunks of the stream have been handed out. -/
def AllRead (snap : Snap) (total : Bytes) (log : List Bytes) : Prop :=
  ∃ outs s left, (chunkFraming snap).Reads false total outs s left
    ∧ nextChunk snap s left = .more ∧ log.flatten = outs.flatten

/-- A chunk of the stream is bad. -/
def Bad (snap : Snap) (total : Bytes) (e : IoError) : Prop :=
  ∃ outs s left, (chunkFraming snap).Reads false total outs s left
    ∧ nextChunk snap s left = .fail e

/-- What a poll of a reader of `src` returns and leaves. -/
inductive Polling (snap : Snap) (total : Bytes) (log : List Bytes) (src : Inbound IoError) :
    Poll (Except IoError Bytes) × SnappyReader × Inbound IoError → Prop
  | pending {got : Bytes} {r' : SnappyReader} {src' : Inbound IoError} (hg : src.Gives got src')
      (h : Reading snap total log r' src')
      (hw : src'.waits < src.waits ∨ AllRead snap total log) :
      Polling snap total log src (.pending, r', src')
  | bytes {got : Bytes} {r' : SnappyReader} {src' : Inbound IoError} {b : UInt8} {bs : Bytes}
      (hg : src.Gives got src') (h : Reading snap total (log ++ [b :: bs]) r' src') :
      Polling snap total log src (.ready (.ok (b :: bs)), r', src')
  | ended {r' : SnappyReader} {src' : Inbound IoError} (h : AllRead snap total log) :
      Polling snap total log src (.ready (.ok []), r', src')
  | bad {r' : SnappyReader} {src' : Inbound IoError} {e : IoError} (h : Bad snap total e) :
      Polling snap total log src (.ready (.error e), r', src')
  | transport {r' : SnappyReader} {src' : Inbound IoError} {e : IoError}
      (h : .error e ∈ src.arrivals) : Polling snap total log src (.ready (.error e), r', src')

/-- The rest of a poll that has read something already. -/
theorem Polling.after {total got : Bytes} {log : List Bytes} {src mid : Inbound IoError}
    {x : Poll (Except IoError Bytes) × SnappyReader × Inbound IoError} (hg : src.Gives got mid)
    (h : Polling snap total log mid x) : Polling snap total log src x := by
  cases h with
  | pending hg' h hw =>
    refine .pending (hg.trans hg') h (hw.imp_left fun hw => ?_)
    exact Nat.lt_of_lt_of_le hw hg.waits
  | bytes hg' h => exact .bytes (hg.trans hg') h
  | ended h => exact .ended h
  | bad h => exact .bad h
  | transport h => exact .transport (hg.errors _ h)

/-- A reader with nothing to hand out and nothing to come has handed out everything. -/
theorem Reading.all {total : Bytes} {log : List Bytes} {r : SnappyReader} {src : Inbound IoError}
    (h : Reading snap total log r src) (hnil : src.arrivals = []) (hrest : r.dec.rest = []) :
    AllRead snap total log := by
  obtain ⟨outs, hreads, hlog⟩ := h.reads
  have hcontent : src.content = [] := by simp [Inbound.content, hnil]
  rw [hcontent, List.append_nil] at hreads
  rw [hrest, List.append_nil] at hlog
  exact ⟨outs, _, _, hreads, h.waits, hlog⟩

/-- Chunks that were decoded without an error are in the output. -/
theorem Reading.decode {total got : Bytes} {log : List Bytes} {r r' : SnappyReader}
    {src src' : Inbound IoError} {p : Bool} (h : Reading snap total log r src)
    (hg : src.Gives got src')
    (hdecode : decodeChunks snap false { r with inBuf := r.inBuf ++ got } = (.ok p, r')) :
    Reading snap total log r' src' := by
  obtain ⟨outs, hreads, hlog⟩ := h.reads
  rw [hg.content, ← List.append_assoc] at hreads
  have hdecoded := decoded snap false { r with inBuf := r.inBuf ++ got }
  rw [hdecode] at hdecoded
  obtain ⟨more, hmore, hwaits, hrest, heof⟩ := hdecoded
  refine ⟨⟨outs ++ more, hreads.trans (hmore.append _), ?_⟩, hwaits, heof.trans h.notEof⟩
  rw [hrest, List.flatten_append, ← hlog, List.append_assoc]

theorem polling {total : Bytes} {log : List Bytes} {r : SnappyReader} {src : Inbound IoError}
    {cap : Nat} (hcap : 0 < cap) (h : Reading snap total log r src) :
    Polling snap total log src (r.poll snap cap src) := by
  induction hn : src.content.length using Nat.strong_induction_on generalizing r src with
  | _ n ih =>
    subst hn
    rw [SnappyReader.poll]
    by_cases hdec : r.dec.pos < r.dec.data.length
    · rw [if_pos hdec]
      have hne := Cursor.take_ne_nil hdec hcap
      have htake := r.dec.take_spec cap
      obtain ⟨outs, hreads, hlog⟩ := h.reads
      revert hne htake
      cases (r.dec.take cap).1 with
      | nil => exact fun hne => absurd rfl hne
      | cons b bs =>
        intro _ htake
        refine .bytes .rfl ⟨⟨outs, hreads, ?_⟩, h.waits, h.notEof⟩
        rw [← hlog, htake, List.flatten_append, List.flatten_singleton, List.append_assoc]
    rw [if_neg hdec, if_neg (by simp [h.notEof])]
    have hnone : r.dec.rest = [] := Cursor.rest_eq_nil.mpr hdec
    have hkeep {src' : Inbound IoError} (hg : src.Gives [] src') : Reading snap total log r src' := by
      have hr := h.reads
      rw [hg.content, List.nil_append] at hr
      exact ⟨hr, h.waits, h.notEof⟩
    have hread := src.reading SCRATCH (by decide)
    split
    all_goals rename_i heq; rw [heq] at hread
    · cases hread with
      | waits hg hw => exact .pending hg (hkeep hg) (.inl hw)
      | idle hnil _ => exact .pending .rfl h (.inr (h.all hnil hnone))
    · cases hread with
      | failed _ he => exact .transport he
    · cases hread with
      | ended hnil _ => exact .ended (h.all hnil hnone)
    · rename_i b bs src'
      cases hread with
      | bytes hgives hle =>
        have hg : src.Gives (b :: bs) src' := hgives
        have hless : src'.content.length < src.content.length := by
          rw [hg.content, List.length_append, List.length_cons]
          omega
        split
        · rename_i heq'
          obtain ⟨outs, hreads, hlog⟩ := h.reads
          rw [hg.content, ← List.append_assoc] at hreads
          have hdecoded := decoded snap false { r with inBuf := r.inBuf ++ b :: bs }
          rw [heq'] at hdecoded
          obtain ⟨more, s, left, hmore, hfail⟩ := hdecoded
          exact .bad ⟨_, s, _, hreads.trans (hmore.append _),
            (chunkFraming snap).fail_append hfail _⟩
        · rename_i heq'
          exact (ih _ hless (h.decode hg heq') rfl).after hg

/-! ## From one stream to the other -/

/-- What a second stream hands out of `p`, the bytes or the first of the bytes that carry
the blocks `ds`. -/
def Arrives (snap : Snap) (ds : List Bytes) (p : Bytes) : Prop :=
  ∀ src grants caps, src.content = p → (∀ c ∈ caps, 0 < c) →
    ((drive (SnappyStream.pollRead snap) caps (.new (.new src grants))).1.flatten <+: ds.flatten)
      ∧ (∀ e, (drive (SnappyStream.pollRead snap) caps (.new (.new src grants))).2.1 = .failed e →
          .error e ∈ src.arrivals)
      ∧ ((∀ e, .error e ∉ src.arrivals) → p = snappyStream snap ds →
          src.waits + ds.flatten.length ≤ caps.length →
          (drive (SnappyStream.pollRead snap) caps (.new (.new src grants))).1.flatten = ds.flatten)

/-- A reading that is not at its end has handed out the front of what it will. -/
theorem Reading.isPrefix {total left : Bytes} {outs : List Bytes} {s : Bool}
    (hreads : (chunkFraming snap).Reads false total outs s left)
    (hmore : nextChunk snap s left = .more) {log : List Bytes} {r : SnappyReader}
    {src : Inbound IoError} (h : Reading snap total log r src) : log.flatten <+: outs.flatten := by
  obtain ⟨outs', hr, hlog⟩ := h.reads
  obtain ⟨more, rfl, -⟩ := hr.continues hreads (Framing.stuck_of_more hmore)
  rw [List.flatten_append, ← hlog, List.append_assoc]
  exact List.prefix_append _ _

theorem AllRead.flatten_eq {total left : Bytes} {outs : List Bytes} {s : Bool}
    (hreads : (chunkFraming snap).Reads false total outs s left)
    (hmore : nextChunk snap s left = .more) {log : List Bytes} (h : AllRead snap total log) :
    log.flatten = outs.flatten := by
  obtain ⟨outs', s', left', hr, hm, hlog⟩ := h
  obtain ⟨rfl, -, -⟩ := hr.unique (Framing.stuck_of_more hm) hreads (Framing.stuck_of_more hmore)
  exact hlog

theorem not_bad {total left : Bytes} {outs : List Bytes} {s : Bool}
    (hreads : (chunkFraming snap).Reads false total outs s left)
    (hmore : nextChunk snap s left = .more) (e : IoError) : ¬ Bad snap total e := by
  rintro ⟨outs', s', left', hr, hf⟩
  obtain ⟨-, rfl, rfl⟩ := hr.unique (Framing.stuck_of_fail hf) hreads (Framing.stuck_of_more hmore)
  rw [hmore] at hf
  cases hf

theorem arrives (hlaw : snap.Lawful) {ds : List Bytes} (h : ∀ d ∈ ds, Fits d) {p : Bytes}
    (hp : p <+: snappyStream snap ds) : Arrives snap ds p := by
  intro src grants caps hsrc hcaps
  obtain ⟨outs, s, left, hreads, hmore, hpre, hall⟩ := reads_prefix hlaw h hp
  rw [← hsrc] at hreads
  let inv (log : List Bytes) (c : SnappyStream) : Prop :=
    Reading snap src.content log c.reader c.inner.inbound ∧ ∃ got, src.Gives got c.inner.inbound
  have hnew : inv [] (.new (.new src grants)) := ⟨reading_new src, [], .rfl⟩
  have hpolled (log : List Bytes) (c : SnappyStream) (cap : Nat) (hcap : 0 < cap) (hc : inv log c) :
      Polled inv (AllRead snap src.content) (fun log e => log.flatten <+: outs.flatten
        ∧ .error e ∈ src.arrivals) log (c.pollRead snap cap) := by
    obtain ⟨hr, got, hg⟩ := hc
    have hpoll := polling hcap hr
    rw [SnappyStream.pollRead]
    revert hpoll
    rcases c.reader.poll snap cap c.inner.inbound with ⟨a, r', src'⟩
    intro hpoll
    cases hpoll with
    | pending hg' h' _ => exact ⟨h', _, hg.trans hg'⟩
    | bytes hg' h' => exact ⟨h', _, hg.trans hg'⟩
    | ended h' => exact h'
    | bad h' => exact absurd h' (not_bad hreads hmore _)
    | transport h' => exact ⟨hr.isPrefix hreads hmore, hg.errors _ h'⟩
  refine ⟨?_, ?_, fun hu hwhole hlen => ?_⟩
  · refine List.IsPrefix.trans ?_ hpre
    have hd := driven hpolled hcaps hnew
    revert hd
    rcases drive (SnappyStream.pollRead snap) caps (.new (.new src grants)) with ⟨log, out, c⟩
    cases out with
    | running => exact fun hd => hd.1.isPrefix hreads hmore
    | ended =>
      intro hd
      exact AllRead.flatten_eq hreads hmore hd ▸ List.prefix_rfl
    | failed e => exact fun hd => hd.1
  · have hd := driven hpolled hcaps hnew
    revert hd
    rcases drive (SnappyStream.pollRead snap) caps (.new (.new src grants)) with ⟨log, out, c⟩
    intro hd e he
    subst he
    exact hd.2
  · rw [← hall hwhole] at hlen ⊢
    let all (log : List Bytes) : Prop := log.flatten = outs.flatten
    refine drive_completes
      (fun log c => c.inner.inbound.waits + (outs.flatten.length - log.flatten.length))
      hpolled (fun log c cap hcap hc => show all log ∨ _ from ?_)
      (fun log bs c hc hlog => ?_) hcaps hnew (.inr ?_)
    · obtain ⟨hr, got, hg⟩ := hc
      have hpoll := polling hcap hr
      have hle := (hr.isPrefix hreads hmore).length_le
      rw [SnappyStream.pollRead]
      revert hpoll
      rcases c.reader.poll snap cap c.inner.inbound with ⟨a, r', src'⟩
      intro hpoll
      cases hpoll with
      | pending hg' h' hw =>
        rcases hw with hw | hw
        · right
          simp only [Polled]
          omega
        · exact .inl (AllRead.flatten_eq hreads hmore hw)
      | bytes hg' h' =>
        right
        have hle' := (h'.isPrefix hreads hmore).length_le
        have hw := hg'.waits
        simp only [Polled]
        simp only [List.flatten_append, List.flatten_singleton, List.length_append,
          List.length_cons] at hle' ⊢
        omega
      | ended h' => exact .inl (AllRead.flatten_eq hreads hmore h')
      | bad h' => exact absurd h' (not_bad hreads hmore _)
      | transport h' => exact absurd h' (hg.unfailing hu _)
    · have hle := (hc.1.isPrefix hreads hmore).length_le
      rw [List.flatten_append, List.length_append, hlog, List.flatten_singleton] at hle
      have hbs : bs = [] := List.eq_nil_of_length_eq_zero (by omega)
      show (log ++ [bs]).flatten = outs.flatten
      rw [hbs]
      simpa using hlog
    · exact hlen

/-- The blocks accepted by a new stream and the stream as the calls leave it. -/
def written (snap : Snap) (src : Inbound IoError) (grants : List (Grant IoError))
    (ops : List WriteOp) : List Bytes × SnappyStream :=
  (SnappyStream.writer snap).run ops (.new (.new src grants))

/-- What is accepted by one stream arrives from another, however the transport cuts it. -/
theorem snappy_stream (hlaw : snap.Lawful) (src : Inbound IoError) (grants : List (Grant IoError))
    (ops : List WriteOp) :
    (∃ cs : List Chunk, (written snap src grants ops).2.produced
        = (if (written snap src grants ops).1 = [] then [] else SNAPPY_MAGIC) ++ cs.flatMap Chunk.encode
      ∧ cs.length = (written snap src grants ops).1.length)
      ∧ (written snap src grants ops).2.inner.outbound.sent
          <+: (written snap src grants ops).2.produced
      ∧ ((written snap src grants ops).2.pollFlush.1 = .ready (.ok ()) →
          (written snap src grants ops).2.pollFlush.2.inner.outbound.sent
            = (written snap src grants ops).2.produced)
      ∧ ∀ p, p <+: (written snap src grants ops).2.produced →
          Arrives snap (written snap src grants ops).1 p := by
  have hchunked : Chunked snap (written snap src grants ops).1 (written snap src grants ops).2 :=
    chunked_run snap src grants ops
  have hbytes := hchunked.bytes
  refine ⟨?_, List.prefix_append _ _, fun hdone => ?_, fun p hp => ?_⟩
  · obtain ⟨cs, hlen, hcs⟩ := exists_chunks snap hchunked.fits
    refine ⟨cs, ?_, hlen⟩
    rw [hbytes, snappyStream, ← hcs]
    split
    · rename_i hnil
      rw [hnil]
      rfl
    · rfl
  · rw [SnappyStream.pollFlush, SnappyStream.pollFinish_done hdone]
    exact (SnappyStream.pollFinish_spec _).1
  · rw [hbytes] at hp
    exact arrives hlaw hchunked.fits hp

/-! ## A stream of one block -/

/-- The block format for a short block: its length, one literal tag and the bytes. -/
def literalSnap : Snap where
  compress src :=
    if src.length < 60 then
      some (UInt8.ofNat src.length :: UInt8.ofNat ((src.length - 1) * 4) :: src)
    else none
  decompress c := .ok (c.drop 2)

theorem literalSnap_lawful : literalSnap.Lawful := by
  intro src c h
  simp only [literalSnap] at h ⊢
  split at h
  · cases h
    rfl
  · cases h

def hiChunk : Bytes :=
  [0x01, 0x06, 0x00, 0x00] ++ Bytes.le 4 (crc32cMasked [0x68, 0x69]).toNat ++ [0x68, 0x69]

theorem written_hi : (written literalSnap ⟨[], false⟩ [.accept 1, .pending] [.write [0x68, 0x69]]).1
      = [[0x68, 0x69]]
    ∧ (written literalSnap ⟨[], false⟩ [.accept 1, .pending] [.write [0x68, 0x69]]).2.produced
      = SNAPPY_MAGIC ++ hiChunk := by
  have hchunk : encodeChunk literalSnap [0x68, 0x69] = hiChunk := rfl
  have haccepted : (written literalSnap ⟨[], false⟩ [.accept 1, .pending] [.write [0x68, 0x69]]).1
      = [[0x68, 0x69]] := by
    have hdrain : (SnappyStream.new (.new ⟨[], false⟩ [.accept 1, .pending])).pollDrain
        = (.ready (.ok ()), .new (.new ⟨[], false⟩ [.accept 1, .pending])) := by
      simp [SnappyStream.pollDrain, SnappyStream.new, drainOut, flush, Cursor.empty]
    simp only [written, ByteWriter.run, SnappyStream.writer, SnappyStream.pollWrite, hdrain]
    simp [SnappyStream.new, Cursor.empty, SNAPPY_MAX_BLOCK]
  have hchunked := (chunked_run literalSnap ⟨[], false⟩ [.accept 1, .pending]
    [.write [0x68, 0x69]]).bytes
  rw [← written, haccepted] at hchunked
  refine ⟨haccepted, hchunked.trans ?_⟩
  simp [snappyStream, hchunk]

/-- Two bytes that leave in pieces. -/
theorem snappy_stream_hi : Arrives literalSnap [[0x68, 0x69]] (SNAPPY_MAGIC ++ hiChunk) := by
  have h := (snappy_stream literalSnap_lawful ⟨[], false⟩ [.accept 1, .pending]
    [.write [0x68, 0x69]]).2.2.2 (SNAPPY_MAGIC ++ hiChunk)
  rw [written_hi.1, written_hi.2] at h
  exact h List.prefix_rfl

end

end Kcp
end RtProxy
