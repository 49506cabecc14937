import RtProxy.Ss.Stream

/-!
What arrives through a Shadowsocks stream.

The bytes a stream produces are its salt and a chunk for each write accepted.  A stream
with the same key hands out the payloads of the chunks that arrive whole, and nothing
else.  Where the ciphertext is cut, it reports a clean end after a whole chunk, but also
right after the salt and right after a sealed length.
-/

namespace RtProxy
namespace Ss

open ByteStream

variable {K : Type}

/-- What an AEAD does to a payload: it adds a tag, and opening undoes it. -/
structure Aead.Lawful (aead : Aead K) : Prop where
  seals : ∀ k nonce m, m.length ≤ MAX_PAYLOAD → ∃ sealed, aead.seal k nonce m = .ok sealed
    ∧ sealed.length = m.length + TAG_LEN ∧ aead.open k nonce sealed = .ok m

/-! ## The ciphertext -/

/-- A sealed block. -/
def Aead.sealed (aead : Aead K) (k : K) (nonce : Nonce) (m : Bytes) : Bytes :=
  (aead.seal k nonce m).toOption.getD []

def chunk (aead : Aead K) (k : K) (nonce : Nonce) (d : Bytes) : Bytes :=
  aead.sealed k nonce (Bytes.be 2 d.length) ++ aead.sealed k (bumpNonce nonce) d

/-- A chunk takes two nonces. -/
def nextNonce (nonce : Nonce) : Nonce := bumpNonce (bumpNonce nonce)

def chunks (aead : Aead K) (k : K) (ds : List Bytes) : Bytes :=
  frames (chunk aead k) nextNonce .zero ds

/-- A payload of one chunk. -/
def Fits (d : Bytes) : Prop := d ≠ [] ∧ d.length ≤ MAX_PAYLOAD

theorem fits_take {buf : Bytes} (h : buf ≠ []) : Fits (buf.take (min buf.length MAX_PAYLOAD)) := by
  have hpos : 0 < buf.length := List.length_pos_iff.mpr h
  rw [Fits, ← List.length_pos_iff, List.length_take]
  simp only [MAX_PAYLOAD]
  omega

namespace Aead.Lawful

variable {aead : Aead K} {k : K} {nonce : Nonce} {m : Bytes}

theorem seal_eq (h : aead.Lawful) (hm : m.length ≤ MAX_PAYLOAD) :
    aead.seal k nonce m = .ok (aead.sealed k nonce m) := by
  obtain ⟨sealed, hs, -, -⟩ := h.seals k nonce m hm
  rw [Aead.sealed, hs]
  rfl

theorem length_sealed (h : aead.Lawful) (k : K) (nonce : Nonce) (hm : m.length ≤ MAX_PAYLOAD) :
    (aead.sealed k nonce m).length = m.length + TAG_LEN := by
  obtain ⟨sealed, hs, hlen, -⟩ := h.seals k nonce m hm
  rw [Aead.sealed, hs]
  exact hlen

theorem open_sealed (h : aead.Lawful) (hm : m.length ≤ MAX_PAYLOAD) :
    aead.open k nonce (aead.sealed k nonce m) = .ok m := by
  obtain ⟨sealed, hs, -, hopen⟩ := h.seals k nonce m hm
  rw [Aead.sealed, hs]
  exact hopen

end Aead.Lawful

theorem length_be_le (n : Nat) : (Bytes.be 2 n).length ≤ MAX_PAYLOAD := by
  rw [Bytes.length_be]
  decide

/-- The bytes of the chunks that carry `ds`. -/
def chunksLength (ds : List Bytes) : Nat :=
  (ds.map fun d => LEN_BLOCK + (d.length + TAG_LEN)).sum

theorem chunksLength_append (ds ds' : List Bytes) :
    chunksLength (ds ++ ds') = chunksLength ds + chunksLength ds' := by
  simp [chunksLength]

theorem flatten_length_le (ds : List Bytes) : ds.flatten.length ≤ chunksLength ds := by
  induction ds with
  | nil => exact Nat.le_refl 0
  | cons d ds ih =>
    rw [chunksLength, List.map_cons, List.sum_cons, ← chunksLength, List.flatten_cons,
      List.length_append]
    omega

theorem length_chunk {aead : Aead K} (h : aead.Lawful) {k : K} {nonce : Nonce} {d : Bytes}
    (hd : Fits d) : (chunk aead k nonce d).length = LEN_BLOCK + (d.length + TAG_LEN) := by
  rw [chunk, List.length_append, h.length_sealed _ _ (length_be_le _), h.length_sealed _ _ hd.2,
    Bytes.length_be, LEN_BLOCK]

theorem length_chunks {aead : Aead K} (h : aead.Lawful) {k : K} {ds : List Bytes}
    (hds : ∀ d ∈ ds, Fits d) : (chunks aead k ds).length = chunksLength ds := by
  rw [chunks]
  generalize Nonce.zero = nonce
  induction ds generalizing nonce with
  | nil => rfl
  | cons d ds ih =>
    rw [frames, List.length_append, length_chunk h (hds d (by simp)),
      ih fun d' hd' => hds d' (List.mem_cons_of_mem _ hd')]
    simp [chunksLength]

/-! ## Writing -/

/-- A stream that has accepted the payloads `ds`. -/
structure Sealed (aead : Aead K) (cipher : SsCipher) (key : Bytes) (ds : List Bytes)
    (c : SsStream K) : Prop where
  cipher_eq : c.cipher = cipher
  key_eq : c.key = key
  fits : ∀ d ∈ ds, Fits d
  bytes : (ds = [] ∧ c.writeCipher = none ∧ c.writeNonce = .zero ∧ c.produced = [])
    ∨ ∃ salt k, salt.length = cipher.keySize ∧ aead.fromSalt cipher key salt = .ok k
      ∧ ds ≠ [] ∧ c.writeCipher = some k ∧ c.writeNonce = nextNonce^[ds.length] .zero
      ∧ c.produced = salt ++ chunks aead k ds

namespace SsStream

variable {aead : Aead K}

theorem sealBlock_spec (h : aead.Lawful) (k : K) {block : Bytes}
    (hb : block.length ≤ MAX_PAYLOAD) (c : SsStream K) :
    c.sealBlock aead k block = (.ok (), { c with
      writeNonce := bumpNonce c.writeNonce
      out := c.out.append (aead.sealed k c.writeNonce block) }) := by
  unfold sealBlock
  rw [h.seal_eq hb]

/-- Once there is a cipher, sealing a chunk appends it. -/
theorem sealChunk_spec (h : aead.Lawful) {d : Bytes} (hd : Fits d) {c c' : SsStream K} {k : K}
    (hc : c.ensureCipher aead = (.ok k, c')) :
    (c.sealChunk aead d).1 = .ok ()
      ∧ (c.sealChunk aead d).2.produced = c'.produced ++ chunk aead k c'.writeNonce d
      ∧ (c.sealChunk aead d).2.writeNonce = nextNonce c'.writeNonce
      ∧ (c.sealChunk aead d).2.writeCipher = c'.writeCipher
      ∧ (c.sealChunk aead d).2.cipher = c'.cipher ∧ (c.sealChunk aead d).2.key = c'.key := by
  unfold sealChunk
  rw [hc]
  simp only [sealBlock_spec h k (length_be_le _), sealBlock_spec h k hd.2]
  refine ⟨trivial, ?_, rfl, trivial, trivial, trivial⟩
  simp [produced, chunk]

end SsStream

namespace Sealed

variable {aead : Aead K} {cipher : SsCipher} {key : Bytes} {ds : List Bytes} {c : SsStream K}

theorem flushOut (h : Sealed aead cipher key ds c) : Sealed aead cipher key ds c.pollFlushOut.2 :=
  ⟨h.cipher_eq, h.key_eq, h.fits, by simpa using h.bytes⟩

theorem finish (h : Sealed aead cipher key ds c) : Sealed aead cipher key ds c.pollFinish.2 := by
  obtain ⟨hp, hc, hk, hw, hn⟩ := c.pollFinish_spec
  exact ⟨hc.trans h.cipher_eq, hk.trans h.key_eq, h.fits, by simpa [hp, hw, hn] using h.bytes⟩

/-- The first chunk makes the cipher; later chunks find it. -/
theorem ensure (h : Sealed aead cipher key ds c) :
    (∃ e, (c.ensureCipher aead).1 = .error e ∧ Sealed aead cipher key ds (c.ensureCipher aead).2)
      ∨ ∃ salt k c', c.ensureCipher aead = (.ok k, c') ∧ c'.cipher = cipher ∧ c'.key = key
        ∧ salt.length = cipher.keySize ∧ aead.fromSalt cipher key salt = .ok k
        ∧ c'.writeCipher = some k ∧ c'.writeNonce = nextNonce^[ds.length] .zero
        ∧ c'.produced = salt ++ chunks aead k ds := by
  unfold SsStream.ensureCipher
  rcases h.bytes with ⟨rfl, hw, hn, hp⟩ | ⟨salt, k, hsalt, hk, hne, hw, hn, hp⟩
  · simp only [hw, h.cipher_eq, h.key_eq]
    cases hk : aead.fromSalt cipher key (c.rng.fillBytes cipher.keySize).1 with
    | error e => exact .inl ⟨e, rfl, rfl, rfl, h.fits, .inl ⟨rfl, rfl, hn, hp⟩⟩
    | ok k =>
      refine .inr ⟨_, k, _, rfl, rfl, rfl, Rng.length_fillBytes _ _, hk, rfl, hn, ?_⟩
      unfold SsStream.produced at hp ⊢
      simp [← List.append_assoc, hp, chunks, frames]
  · simp only [hw]
    exact .inr ⟨salt, k, c, rfl, h.cipher_eq, h.key_eq, hsalt, hk, hw, hn, hp⟩

theorem sealChunk (hlaw : aead.Lawful) (h : Sealed aead cipher key ds c) {d : Bytes}
    (hd : Fits d) :
    (∃ e, (c.sealChunk aead d).1 = .error e ∧ Sealed aead cipher key ds (c.sealChunk aead d).2)
      ∨ (c.sealChunk aead d).1 = .ok ()
        ∧ Sealed aead cipher key (ds ++ [d]) (c.sealChunk aead d).2 := by
  rcases h.ensure with ⟨e, he, hs⟩ | ⟨salt, k, c', he, hc, hkey, hsalt, hk, hw, hn, hp⟩
  · refine .inl ⟨e, ?_⟩
    unfold SsStream.sealChunk
    revert he hs
    rcases c.ensureCipher aead with ⟨a, c'⟩
    rintro rfl hs
    exact ⟨rfl, hs⟩
  · obtain ⟨ha, hp', hn', hw', hc', hkey'⟩ := SsStream.sealChunk_spec hlaw hd he
    refine .inr ⟨ha, hc'.trans hc, hkey'.trans hkey, fun d' hd' => ?_,
      .inr ⟨salt, k, hsalt, hk, by simp, hw'.trans hw, ?_, ?_⟩⟩
    · rcases List.mem_append.mp hd' with hd' | hd'
      · exact h.fits d' hd'
      · rw [List.mem_singleton.mp hd']
        exact hd
    · rw [hn', hn, List.length_append, List.length_singleton, Function.iterate_succ_apply']
    · have happ := frames_append (chunk aead k) nextNonce .zero ds [d]
      rw [hp', hp, hn, List.append_assoc]
      simp [chunks, happ, frames]

theorem write (hlaw : aead.Lawful) (hcipher : cipher ≠ .plain) (h : Sealed aead cipher key ds c)
    (buf : Bytes) : ByteWriter.Accepts (Sealed aead cipher key) ds buf (c.pollWrite aead buf) := by
  unfold SsStream.pollWrite
  rw [if_neg (h.cipher_eq ▸ hcipher)]
  by_cases hnil : buf = []
  · rw [if_pos hnil]
    exact h
  rw [if_neg hnil]
  have hf := h.flushOut
  revert hf
  rcases c.pollFlushOut with ⟨a, c'⟩
  cases a with
  | pending => exact id
  | ready r =>
    intro hf
    have hpos : 0 < buf.length := List.length_pos_iff.mpr hnil
    have hd := fits_take hnil
    obtain ⟨n, hn⟩ : ∃ n, min buf.length MAX_PAYLOAD = n + 1 :=
      ⟨min buf.length MAX_PAYLOAD - 1, by simp only [MAX_PAYLOAD]; omega⟩
    rw [hn] at hd ⊢
    rcases hf.sealChunk hlaw hd with ⟨e, he, hs⟩ | ⟨he, hs⟩
    all_goals
      revert he hs
      simp only
      rcases c'.sealChunk aead (buf.take (n + 1)) with ⟨a, c''⟩
      rintro rfl hs
    · exact hs
    · exact hs.flushOut

end Sealed

/-- Whatever the transport does, the bytes produced carry the payloads accepted. -/
theorem sealed_run {aead : Aead K} (hlaw : aead.Lawful) {cipher : SsCipher}
    (hcipher : cipher ≠ .plain) (key : Bytes) (rng : Rng) (src : Inbound IoError)
    (grants : List (Grant IoError)) (ops : List WriteOp) :
    Sealed aead cipher key
      ((SsStream.writer aead).run ops (.new (.new src grants) cipher key rng)).1
      ((SsStream.writer aead).run ops (.new (.new src grants) cipher key rng)).2 :=
  ByteWriter.run_keeps (fun _ _ buf h => h.write hlaw hcipher buf) (fun _ _ h => h.finish)
    (fun _ _ h => h.finish) ops ⟨rfl, rfl, by simp, .inl ⟨rfl, rfl, rfl, rfl⟩⟩

/-! ## Reading -/

section

variable {aead : Aead K} {cipher : SsCipher} {key : Bytes} {pos : 0 < cipher.keySize}
  {salt : Bytes} {k : K} {ds : List Bytes} {p : Bytes}

/-- What the blocks of the chunks put out. -/
def outputs (ds : List Bytes) : List Bytes := ds.flatMap fun d => [[], d]

theorem flatten_outputs (ds : List Bytes) : (outputs ds).flatten = ds.flatten := by
  induction ds with
  | nil => rfl
  | cons d ds ih =>
    rw [outputs] at ih ⊢
    simp [ih]

theorem next_salt (hsalt : salt.length = cipher.keySize)
    (hk : aead.fromSalt cipher key salt = .ok k) (bs : Bytes) :
    (machine aead key pos).framing.next .new (salt ++ bs) = .unit ⟨.length, some k, .zero⟩ [] bs :=
  Machine.next_whole rfl hsalt (by simp [machine, onBlock, ReadSide.new, hk]) bs

theorem next_length (hlaw : aead.Lawful) (nonce : Nonce) {d : Bytes} (hd : Fits d) (bs : Bytes) :
    (machine aead key pos).framing.next ⟨.length, some k, nonce⟩
        (aead.sealed k nonce (Bytes.be 2 d.length) ++ bs)
      = .unit ⟨.payload d.length, some k, bumpNonce nonce⟩ [] bs := by
  have hlen := hlaw.length_sealed k nonce (length_be_le d.length)
  rw [Bytes.length_be] at hlen
  refine Machine.next_whole rfl hlen ?_ bs
  have htake : (Bytes.be 2 d.length).take 2 = Bytes.be 2 d.length :=
    List.take_of_length_le (Nat.le_of_eq (Bytes.length_be _ _))
  have hmax := hd.2
  have hnat : Bytes.beNat (Bytes.be 2 d.length) = d.length := by
    apply Bytes.beNat_be
    simp only [MAX_PAYLOAD] at hmax
    omega
  have hpos : 0 < d.length := List.length_pos_iff.mpr hd.1
  have hok : ¬ (d.length = 0 ∨ d.length > MAX_PAYLOAD) := by omega
  simp only [machine, onBlock, hlaw.open_sealed (length_be_le _), htake, hnat, if_neg hok]

theorem next_payload (hlaw : aead.Lawful) (nonce : Nonce) {d : Bytes} (hd : Fits d) (bs : Bytes) :
    (machine aead key pos).framing.next ⟨.payload d.length, some k, nonce⟩
        (aead.sealed k nonce d ++ bs)
      = .unit ⟨.length, some k, bumpNonce nonce⟩ d bs :=
  Machine.next_whole rfl (hlaw.length_sealed _ _ hd.2)
    (by simp only [machine, onBlock, hlaw.open_sealed hd.2]) bs

theorem reads_frames (hlaw : aead.Lawful) (hds : ∀ d ∈ ds, Fits d) (nonce : Nonce) (bs : Bytes) :
    (machine aead key pos).framing.Reads ⟨.length, some k, nonce⟩
      (frames (chunk aead k) nextNonce nonce ds ++ bs) (outputs ds)
      ⟨.length, some k, nextNonce^[ds.length] nonce⟩ bs := by
  induction ds generalizing nonce with
  | nil => exact .refl
  | cons d ds ih =>
    have hd : Fits d := hds d (by simp)
    rw [frames, chunk, List.append_assoc, List.append_assoc]
    refine .unit (next_length hlaw nonce hd _) (.unit (next_payload hlaw _ hd _) ?_)
    exact ih (fun d' hd' => hds d' (List.mem_cons_of_mem _ hd')) _

theorem reads_chunks (pos : 0 < cipher.keySize) (hlaw : aead.Lawful) (hsalt : salt.length = cipher.keySize)
    (hk : aead.fromSalt cipher key salt = .ok k) (hds : ∀ d ∈ ds, Fits d) (bs : Bytes) :
    (machine aead key pos).framing.Reads .new (salt ++ chunks aead k ds ++ bs) ([] :: outputs ds)
      ⟨.length, some k, nextNonce^[ds.length] .zero⟩ bs := by
  rw [List.append_assoc]
  exact .unit (next_salt hsalt hk _) (reads_frames hlaw hds _ bs)

/-! ## A stream that ends early -/

/-- How far the ciphertext goes up to the end of the payloads `front`. -/
def streamLength (cipher : SsCipher) (front : List Bytes) : Nat :=
  if front = [] then 0 else cipher.keySize + chunksLength front

/-- The ciphertext of this length ends on a chunk boundary. -/
def Boundary (cipher : SsCipher) (ds : List Bytes) (n : Nat) : Prop :=
  ∃ front back, ds = front ++ back ∧ n = streamLength cipher front

def AfterSalt (cipher : SsCipher) (ds : List Bytes) (n : Nat) : Prop :=
  ds ≠ [] ∧ n = cipher.keySize

def AfterLength (cipher : SsCipher) (ds : List Bytes) (n : Nat) : Prop :=
  ∃ front d back, ds = front ++ d :: back ∧ n = cipher.keySize + chunksLength front + LEN_BLOCK

/-- Where the bytes `p` leave the reader: what was put out, its state and its buffer. -/
structure Left (aead : Aead K) (key : Bytes) (pos : 0 < cipher.keySize) (ds : List Bytes)
    (p : Bytes) (outs : List Bytes) (t : ReadSide K) (left : Bytes) : Prop where
  read : (machine aead key pos).framing.Reads .new p outs t left
  short : (machine aead key pos).Short t left
  live : t.state ≠ .eof
  le : outs.flatten.length ≤ p.length
  whole : ∃ front back, ds = front ++ back ∧ outs.flatten = front.flatten
    ∧ (left = [] → p.length = streamLength cipher front ∨ AfterSalt cipher ds p.length
      ∨ AfterLength cipher ds p.length)

theorem short_block {r : ReadSide K} {need : Nat} {npos : 0 < need} {left : Bytes}
    (hm : r.mode pos = .block need npos) (hlt : left.length < need) :
    (machine aead key pos).Short r left := by
  intro need' npos' hm'
  change r.mode pos = _ at hm'
  rw [hm] at hm'
  cases hm'
  exact hlt

theorem left_in_salt (hp : p <+: salt) (hne : p ≠ salt) (hsalt : salt.length = cipher.keySize) :
    Left aead key pos ds p [] .new p := by
  have hlt := length_lt_of_isPrefix hp hne
  refine ⟨.refl, short_block rfl (hsalt ▸ hlt), by simp [ReadSide.new], by simp, [], ds, rfl, rfl,
    ?_⟩
  rintro rfl
  exact .inl rfl

theorem left_nil (pos : 0 < cipher.keySize) : Left aead key pos ds [] [] .new [] :=
  ⟨.refl, Machine.short_nil _, by simp [ReadSide.new], by simp, [], ds, rfl, rfl, fun _ => .inl rfl⟩

theorem left_prefix (pos : 0 < cipher.keySize) (hlaw : aead.Lawful) (hsalt : salt.length = cipher.keySize)
    (hk : aead.fromSalt cipher key salt = .ok k) (hds : ∀ d ∈ ds, Fits d) (hne : ds ≠ [])
    (hp : p <+: salt ++ chunks aead k ds) : ∃ outs t left, Left aead key pos ds p outs t left := by
  rcases prefix_append_cases hp with ⟨hp, hpne⟩ | ⟨q, rfl, hq⟩
  · exact ⟨_, _, _, left_in_salt hp hpne hsalt⟩
  obtain ⟨front, back, part, rfl, rfl, hpart⟩ := prefix_frames hq
  have hfront : ∀ d ∈ front, Fits d := fun d hd => hds d (List.mem_append_left _ hd)
  have hreads := reads_chunks pos hlaw hsalt hk hfront part
  have hlen := length_chunks (k := k) hlaw hfront
  rw [chunks] at hreads hlen
  rw [List.append_assoc] at hreads
  have hflat : ([] :: outputs front).flatten = front.flatten := by simp [flatten_outputs]
  have hle : front.flatten.length
      ≤ (salt ++ (frames (chunk aead k) nextNonce .zero front ++ part)).length := by
    have := flatten_length_le front
    rw [List.length_append, List.length_append, hlen]
    omega
  -- the chunks of `front` are whole and nothing of the next has arrived
  have hempty : part = [] → (salt ++ (frames (chunk aead k) nextNonce .zero front ++ part)).length
        = streamLength cipher front
      ∨ AfterSalt cipher (front ++ back)
        (salt ++ (frames (chunk aead k) nextNonce .zero front ++ part)).length := by
    rintro rfl
    rw [List.append_nil, List.length_append, hsalt, hlen, streamLength]
    split
    · rename_i hnil
      subst hnil
      exact .inr ⟨hne, by simp [chunksLength]⟩
    · exact .inl rfl
  rcases hpart with rfl | ⟨d, rest, rfl, hpre, hpne⟩
  · refine ⟨_, _, _, hreads, Machine.short_nil _, by simp, hflat ▸ hle, front, back, rfl, hflat,
      fun hnil => ?_⟩
    rcases hempty hnil with h | h
    · exact .inl h
    · exact .inr (.inl h)
  · have hd : Fits d := hds d (by simp)
    have hblock := hlaw.length_sealed k (nextNonce^[front.length] .zero)
      (length_be_le d.length)
    rw [Bytes.length_be] at hblock
    rcases prefix_append_cases hpre with ⟨hl, hlne⟩ | ⟨q, rfl, hq'⟩
    · refine ⟨_, _, _, hreads, short_block rfl ?_, by simp, hflat ▸ hle, front, _, rfl, hflat,
        fun hnil => ?_⟩
      · have := length_lt_of_isPrefix hl hlne
        rw [LEN_BLOCK]
        omega
      · rcases hempty hnil with h | h
        · exact .inl h
        · exact .inr (.inl h)
    · have hqne : q ≠ aead.sealed k (bumpNonce (nextNonce^[front.length] .zero)) d :=
        fun heq => hpne (by rw [heq, chunk])
      have hlt := length_lt_of_isPrefix hq' hqne
      rw [hlaw.length_sealed _ _ hd.2] at hlt
      have hflat' : ([] :: outputs front ++ [[]]).flatten = front.flatten := by
        simp [flatten_outputs]
      refine ⟨_, _, _, hreads.tail (next_length hlaw _ hd q), short_block rfl hlt, by simp,
        hflat' ▸ hle, front, _, rfl, hflat', ?_⟩
      · rintro rfl
        refine .inr (.inr ⟨front, d, rest, rfl, ?_⟩)
        rw [List.append_nil, List.length_append, List.length_append, hsalt, hlen, hblock, LEN_BLOCK]
        omega

theorem eq_take_of_isPrefix {bs : Bytes} {n : Nat} (hp : p <+: bs) (hn : p.length = n) :
    p = bs.take n := by
  rw [← hn]
  exact List.prefix_iff_eq_take.mp hp

theorem Left.nil_of_reads {outs outs' : List Bytes} {t t' : ReadSide K} {left : Bytes}
    (hl : Left aead key pos ds p outs t left)
    (h : (machine aead key pos).framing.Reads .new p outs' t' []) : left = [] :=
  (hl.read.unique (Machine.stuck_of_short hl.short) h
    (Machine.stuck_of_short (Machine.short_nil _))).2.2

/-- On a chunk boundary nothing is left. -/
theorem Left.nil_of_boundary {outs : List Bytes} {t : ReadSide K} {left : Bytes}
    (hl : Left aead key pos ds p outs t left) (hlaw : aead.Lawful)
    (hsalt : salt.length = cipher.keySize) (hk : aead.fromSalt cipher key salt = .ok k)
    (hds : ∀ d ∈ ds, Fits d) (hp : p <+: salt ++ chunks aead k ds)
    (hb : Boundary cipher ds p.length) : left = [] := by
  obtain ⟨front, back, rfl, hlen⟩ := hb
  by_cases hnil : front = []
  · subst hnil
    obtain rfl : p = [] := List.length_eq_zero_iff.mp hlen
    exact hl.nil_of_reads .refl
  · have hfront : ∀ d ∈ front, Fits d := fun d hd => hds d (List.mem_append_left _ hd)
    rw [streamLength, if_neg hnil, ← hsalt, ← length_chunks hlaw hfront (k := k),
      ← List.length_append] at hlen
    rw [chunks, frames_append, ← List.append_assoc] at hp
    have hwhole : p = salt ++ chunks aead k front := by
      rw [eq_take_of_isPrefix hp hlen]
      exact List.take_left' rfl
    have hreads := reads_chunks pos hlaw hsalt hk hfront []
    rw [List.append_nil, ← hwhole] at hreads
    exact hl.nil_of_reads hreads

/-- After the salt or a sealed length nothing is left either. -/
theorem Left.nil_of_cut {outs : List Bytes} {t : ReadSide K} {left : Bytes}
    (hl : Left aead key pos ds p outs t left) (hlaw : aead.Lawful)
    (hsalt : salt.length = cipher.keySize) (hk : aead.fromSalt cipher key salt = .ok k)
    (hds : ∀ d ∈ ds, Fits d) (hp : p <+: salt ++ chunks aead k ds)
    (hc : AfterSalt cipher ds p.length ∨ AfterLength cipher ds p.length) : left = [] := by
  rcases hc with ⟨-, hlen⟩ | ⟨front, d, back, rfl, hlen⟩
  · have hwhole : p = salt := by
      rw [eq_take_of_isPrefix hp (hlen.trans hsalt.symm)]
      exact List.take_left' rfl
    have hnone : ∀ d ∈ ([] : List Bytes), Fits d := by simp
    have hreads := reads_chunks pos hlaw hsalt hk hnone []
    rw [chunks, frames, List.append_nil, List.append_nil, ← hwhole] at hreads
    exact hl.nil_of_reads hreads
  · have hfront : ∀ d ∈ front, Fits d := fun d hd => hds d (List.mem_append_left _ hd)
    have hd : Fits d := hds d (by simp)
    have hblock := hlaw.length_sealed k (nextNonce^[front.length] .zero)
      (length_be_le d.length)
    rw [Bytes.length_be] at hblock
    have hreads := (reads_chunks pos hlaw hsalt hk hfront _).tail
      (next_length hlaw (nextNonce^[front.length] .zero) hd [])
    rw [List.append_nil] at hreads
    have hwhole : p = salt ++ chunks aead k front
        ++ aead.sealed k (nextNonce^[front.length] .zero) (Bytes.be 2 d.length) := by
      have hlen' : p.length = (salt ++ chunks aead k front
          ++ aead.sealed k (nextNonce^[front.length] .zero) (Bytes.be 2 d.length)).length := by
        rw [hlen, List.length_append, List.length_append, hsalt, length_chunks hlaw hfront, hblock,
          LEN_BLOCK]
      rw [chunks, frames_append, frames, chunk, ← chunks, ← List.append_assoc,
        ← List.append_assoc, ← List.append_assoc, List.append_assoc _ (aead.sealed _ _ d)] at hp
      rw [eq_take_of_isPrefix hp hlen']
      exact List.take_left' rfl
    exact hl.nil_of_reads (hwhole ▸ hreads)

/-- What a second stream with the same key reads from `src`. -/
def reads (aead : Aead K) (cipher : SsCipher) (key : Bytes) (rng : Rng) (src : Inbound IoError)
    (caps : List Nat) : List Bytes × Outcome IoError × SsStream K :=
  drive (SsStream.pollRead aead) caps (.new (.new src []) cipher key rng)

theorem reads_eq (aead : Aead K) (key : Bytes) (pos : 0 < cipher.keySize) (rng : Rng) (src : Inbound IoError)
    (caps : List Nat) :
    (reads aead cipher key rng src caps).1
        = (drive (fun cap s => (machine aead key pos).poll cap s.1 s.2) caps
          (Reader.new .new, src)).1
      ∧ (reads aead cipher key rng src caps).2.1
        = (drive (fun cap s => (machine aead key pos).poll cap s.1 s.2) caps
          (Reader.new .new, src)).2.1 := by
  refine drive_part (fun c : SsStream K => (c.reader, c.inner.inbound))
    (fun c => c.cipher = cipher ∧ c.key = key)
    (fun cap c hc => ?_) caps (s := .new (.new src []) cipher key rng) ⟨rfl, rfl⟩
  obtain ⟨rfl, rfl⟩ := hc
  have hplain : c.cipher ≠ .plain := by
    intro h
    simp [h, SsCipher.keySize] at pos
  simp [SsStream.pollRead, hplain]

/-- A second stream hands out a prefix of the payloads `ds` from a ciphertext that ends
after `p`, and it reports a clean end exactly when that is on a chunk boundary. -/
def Faithful (aead : Aead K) (cipher : SsCipher) (key : Bytes) (ds : List Bytes) (p : Bytes) :
    Prop :=
  ∀ rng src caps, src.Delivers p → (∀ c ∈ caps, 0 < c) →
    (reads aead cipher key rng src caps).1.flatten <+: ds.flatten
      ∧ ((reads aead cipher key rng src caps).2.1 = .ended →
          ∃ front back, ds = front ++ back ∧ p.length = streamLength cipher front
            ∧ (reads aead cipher key rng src caps).1.flatten = front.flatten)
      ∧ (∀ e, (reads aead cipher key rng src caps).2.1 = .failed e →
          e = unexpectedEofErr ∧ ¬ Boundary cipher ds p.length)
      ∧ (src.waits + p.length < caps.length →
          (reads aead cipher key rng src caps).2.1 ≠ .running)

/-- What the reader makes of the bytes `p`, whatever pieces they arrive in. -/
theorem Left.settled {outs : List Bytes} {t : ReadSide K} {left : Bytes}
    (hl : Left aead key pos ds p outs t left) (rng : Rng) {src : Inbound IoError} {caps : List Nat}
    (hsrc : src.Delivers p) (hcaps : ∀ c ∈ caps, 0 < c) :
    (reads aead cipher key rng src caps).1.flatten <+: outs.flatten
      ∧ ((reads aead cipher key rng src caps).2.1 = .ended →
          left = [] ∧ (reads aead cipher key rng src caps).1.flatten = outs.flatten)
      ∧ (∀ e, (reads aead cipher key rng src caps).2.1 = .failed e →
          left ≠ [] ∧ e = unexpectedEofErr)
      ∧ (src.waits + p.length < caps.length →
          (reads aead cipher key rng src caps).2.1 ≠ .running) := by
  obtain ⟨hlog, hout⟩ := reads_eq aead key pos rng src caps
  rw [hlog, hout]
  have hreads := hl.read
  rw [← hsrc.content] at hreads
  have hraw : ∀ outs t left, (machine aead key pos).framing.Reads .new src.content outs t left →
      (machine aead key pos).mode t ≠ .raw := by
    intro _ t _ _
    show t.mode pos ≠ .raw
    unfold ReadSide.mode
    cases t.state <;> simp
  have heof : (machine aead key pos).mode t ≠ .eof := by
    have hrun := hl.live
    show t.mode pos ≠ .eof
    unfold ReadSide.mode
    revert hrun
    cases t.state <;> simp
  rcases hd : drive (fun cap s => (machine aead key pos).poll cap s.1 s.2) caps
    (Reader.new .new, src) with ⟨log, out, s⟩
  obtain ⟨⟨outs', more, ready, houts, hh⟩, hended, hfailed⟩ :=
    Machine.settled hsrc.unfailing hraw hreads hl.short hcaps hd
  refine ⟨?_, fun ho => ?_, fun e ho => ?_, fun hlen => ?_⟩
  · rw [houts, List.flatten_append, ← hh.flatten, List.append_assoc]
    exact List.prefix_append _ _
  · obtain ⟨hh, hend⟩ := hended ho
    have hflat := hh.flatten
    rw [List.append_nil] at hflat
    refine ⟨?_, hflat⟩
    rcases hend with hm | ⟨t', ht'⟩
    · exact absurd hm heof
    · simp only [machine, onEnded] at ht'
      by_contra hne
      rw [if_neg hne] at ht'
      cases ht'
  · have he := (hfailed e ho).2
    simp only [machine, onEnded] at he
    by_cases hnil : left = []
    · rw [if_pos hnil] at he
      cases he
    · rw [if_neg hnil] at he
      exact ⟨hnil, by cases he; rfl⟩
  · have hle := hl.le
    have hstop := Machine.drive_stops hsrc.unfailing hsrc.closed hraw hreads
      (Machine.stuck_of_short hl.short) hcaps (by omega)
    rwa [hd] at hstop

theorem chunksLength_gt {ds : List Bytes} (h : ds ≠ []) : LEN_BLOCK < chunksLength ds := by
  cases ds with
  | nil => exact absurd rfl h
  | cons d ds =>
    simp only [chunksLength, List.map_cons, List.sum_cons, TAG_LEN]
    omega

/-- A cut after the salt or after a sealed length is not on a chunk boundary. -/
theorem not_boundary_of_cut (pos : 0 < cipher.keySize) {n : Nat}
    (h : AfterSalt cipher ds n ∨ AfterLength cipher ds n) : ¬ Boundary cipher ds n := by
  rintro ⟨front', back', hds', hn'⟩
  have hlen : n = cipher.keySize + chunksLength front' := by
    rw [hn', streamLength]
    split
    · rename_i hnil
      rw [streamLength, if_pos hnil] at hn'
      rcases h with ⟨-, hn⟩ | ⟨_, _, _, -, hn⟩ <;> omega
    · rfl
  have hne : front' ≠ [] := by
    rintro rfl
    rw [streamLength, if_pos rfl] at hn'
    rcases h with ⟨-, hn⟩ | ⟨_, _, _, -, hn⟩ <;> omega
  rcases h with ⟨-, hn⟩ | ⟨front, d, back, hds, hn⟩
  · have := chunksLength_gt hne
    omega
  · have hp : front <+: ds := hds ▸ List.prefix_append _ _
    have hp' : front' <+: ds := hds' ▸ List.prefix_append _ _
    have hblock : 0 < LEN_BLOCK := by decide
    rcases List.prefix_or_prefix_of_prefix hp hp' with ⟨q, rfl⟩ | ⟨q, rfl⟩
    · rw [chunksLength_append] at hlen
      by_cases hq : q = []
      · subst hq
        simp only [chunksLength, List.map_nil, List.sum_nil] at hlen hn
        omega
      · have := chunksLength_gt hq
        omega
    · rw [chunksLength_append] at hn
      omega

theorem faithful_iff_of_left {outs : List Bytes} {t : ReadSide K} {left : Bytes}
    (hl : Left aead key pos ds p outs t left) (hb : Boundary cipher ds p.length → left = [])
    (hcut : AfterSalt cipher ds p.length ∨ AfterLength cipher ds p.length → left = []) :
    Faithful aead cipher key ds p
      ↔ ¬ (AfterSalt cipher ds p.length ∨ AfterLength cipher ds p.length) := by
  constructor
  · intro hf hc
    -- read byte by byte, often enough to get to the end
    let src : Inbound IoError := ⟨Arrival.ofBytes p, true⟩
    have hsrc : src.Delivers p := Inbound.delivers_ofBytes p
    obtain ⟨caps, hcaps, hlen⟩ : ∃ caps : List Nat, (∀ c ∈ caps, 0 < c)
        ∧ src.waits + p.length < caps.length :=
      ⟨List.replicate (src.waits + p.length + 1) 1, by simp,
        by rw [List.length_replicate]; omega⟩
    obtain ⟨-, hended, -, hstops⟩ := hf ⟨fun _ => 0⟩ src caps hsrc hcaps
    obtain ⟨-, -, hfailed, -⟩ := hl.settled ⟨fun _ => 0⟩ hsrc hcaps
    cases ho : (reads aead cipher key ⟨fun _ => 0⟩ src caps).2.1 with
    | running => exact hstops hlen ho
    | ended =>
      obtain ⟨front, back, hds, hn, -⟩ := hended ho
      exact not_boundary_of_cut pos hc ⟨front, back, hds, hn⟩
    | failed e => exact (hfailed e ho).1 (hcut hc)
  · intro hc rng src caps hsrc hcaps
    obtain ⟨hpre, hended, hfailed, hstops⟩ := hl.settled rng hsrc hcaps
    obtain ⟨front, back, hds, hflat, hleft⟩ := hl.whole
    refine ⟨?_, fun ho => ?_, fun e ho => ?_, hstops⟩
    · refine hpre.trans ?_
      rw [hflat, hds, List.flatten_append]
      exact List.prefix_append _ _
    · obtain ⟨hnil, hlog⟩ := hended ho
      rcases hleft hnil with hn | hn
      · exact ⟨front, back, hds, hn, hlog.trans hflat⟩
      · exact absurd hn hc
    · obtain ⟨hne, he⟩ := hfailed e ho
      exact ⟨he, fun hbound => hne (hb hbound)⟩

end

/-! ## From one stream to the other -/

/-- The payloads a stream accepts and the ciphertext it produces for them. -/
def written (aead : Aead K) (cipher : SsCipher) (key : Bytes) (rng : Rng) (src : Inbound IoError)
    (grants : List (Grant IoError)) (ops : List WriteOp) : List Bytes × Bytes :=
  (((SsStream.writer aead).run ops (.new (.new src grants) cipher key rng)).1,
    ((SsStream.writer aead).run ops (.new (.new src grants) cipher key rng)).2.produced)

theorem faithful_iff {aead : Aead K} {cipher : SsCipher} (hlaw : aead.Lawful)
    (hcipher : cipher ≠ .plain) {key : Bytes} {ds : List Bytes} {c : SsStream K}
    (hc : Sealed aead cipher key ds c) {p : Bytes} (hp : p <+: c.produced) :
    Faithful aead cipher key ds p
      ↔ ¬ (AfterSalt cipher ds p.length ∨ AfterLength cipher ds p.length) := by
  have pos := SsCipher.keySize_pos hcipher
  rcases hc.bytes with ⟨rfl, -, -, hbytes⟩ | ⟨salt, k, hsalt, hk, hne, -, -, hbytes⟩
  · rw [hbytes] at hp
    obtain rfl := List.prefix_nil.mp hp
    exact faithful_iff_of_left (left_nil pos) (fun _ => rfl) (fun _ => rfl)
  · rw [hbytes] at hp
    obtain ⟨outs, t, left, hl⟩ := left_prefix pos hlaw hsalt hk hc.fits hne hp
    exact faithful_iff_of_left hl (hl.nil_of_boundary hlaw hsalt hk hc.fits hp)
      (hl.nil_of_cut hlaw hsalt hk hc.fits hp)

/-- Whatever is written and wherever the ciphertext is cut, a second stream hands out what
was written up to there and reports the cut, except that a cut right after the salt or
right after a sealed length seems to be the end. -/
theorem ss_stream {aead : Aead K} {cipher : SsCipher} (hlaw : aead.Lawful)
    (hcipher : cipher ≠ .plain) (key : Bytes) (rng : Rng) (src : Inbound IoError)
    (grants : List (Grant IoError)) (ops : List WriteOp) {p : Bytes}
    (hp : p <+: (written aead cipher key rng src grants ops).2) :
    Faithful aead cipher key (written aead cipher key rng src grants ops).1 p
      ↔ ¬ (AfterSalt cipher (written aead cipher key rng src grants ops).1 p.length
        ∨ AfterLength cipher (written aead cipher key rng src grants ops).1 p.length) :=
  faithful_iff hlaw hcipher (sealed_run hlaw hcipher key rng src grants ops) hp

/-! ## A stream of one chunk -/

/-- The sealed blocks of a chunk with the payload `[0x68, 0x69]` under ChaCha20-Poly1305,
with the key and the salt all zeros. -/
def sealedLength : Bytes :=
  [0x26, 0xB6, 0x77, 0x62, 0x84, 0x4B, 0x14, 0x82, 0x7F, 0x0F, 0x49, 0x45, 0xFE, 0x95, 0xF4,
    0x5D, 0x4B, 0xFC]

def sealedPayload : Bytes :=
  [0x02, 0xD3, 0xA7, 0x06, 0xF0, 0xB2, 0x2D, 0x9C, 0xEB, 0x68, 0x50, 0x81, 0xF8, 0x48, 0x0B,
    0x0F, 0x0E, 0xA6]

def zeroTag : Bytes := List.replicate TAG_LEN 0

def tagMismatchErr : IoError := ⟨.other, "shadowsocks authentication tag mismatch"⟩

/-- An AEAD that seals this chunk as ChaCha20-Poly1305 does. -/
def chunkAead : Aead Unit where
  fromSalt _ _ _ := .ok ()
  «seal» _ nonce m :=
    if nonce = .zero ∧ m = [0x00, 0x02] then .ok sealedLength
    else if nonce = bumpNonce .zero ∧ m = [0x68, 0x69] then .ok sealedPayload
    else .ok (m ++ zeroTag)
  «open» _ nonce block :=
    if nonce = .zero ∧ block = sealedLength then .ok [0x00, 0x02]
    else if nonce = bumpNonce .zero ∧ block = sealedPayload then .ok [0x68, 0x69]
    else if block.drop (block.length - TAG_LEN) = zeroTag then
      .ok (block.take (block.length - TAG_LEN))
    else .error tagMismatchErr

theorem append_zeroTag_ne {m sealed : Bytes}
    (h : sealed.drop (sealed.length - TAG_LEN) ≠ zeroTag) : m ++ zeroTag ≠ sealed := by
  rintro rfl
  simp [zeroTag] at h

theorem lawful_chunkAead : chunkAead.Lawful := by
  refine ⟨fun k nonce m _ => ?_⟩
  by_cases hl : nonce = .zero ∧ m = [0x00, 0x02]
  · obtain ⟨rfl, rfl⟩ := hl
    exact ⟨sealedLength, rfl, rfl, rfl⟩
  by_cases hp : nonce = bumpNonce .zero ∧ m = [0x68, 0x69]
  · obtain ⟨rfl, rfl⟩ := hp
    exact ⟨sealedPayload, rfl, rfl, rfl⟩
  refine ⟨m ++ zeroTag, ?_, by simp [zeroTag], ?_⟩
  · simp only [chunkAead, if_neg hl, if_neg hp]
  · have hnel : m ++ zeroTag ≠ sealedLength := append_zeroTag_ne (by decide)
    have hnep : m ++ zeroTag ≠ sealedPayload := append_zeroTag_ne (by decide)
    have htag : zeroTag.length = TAG_LEN := rfl
    simp [chunkAead, hnel, hnep, htag]

def zeroRng : Rng := ⟨fun _ => 0⟩

def zeroKey : Bytes := List.replicate 32 0

theorem written_hi :
    written chunkAead .chaCha20Poly1305 zeroKey zeroRng ⟨[], false⟩ [] [.write [0x68, 0x69]]
      = ([[0x68, 0x69]], List.replicate 32 0 ++ sealedLength ++ sealedPayload) := by
  simp [written, SsStream.writer, ByteWriter.run, SsStream.pollWrite, SsStream.new, Transport.new,
    SsStream.pollFlushOut, drainOut, flush, Cursor.empty, SsStream.sealChunk, SsStream.ensureCipher,
    SsStream.sealBlock, chunkAead, MAX_PAYLOAD, Cursor.append, SsCipher.keySize, Outbound.write,
    SsStream.produced, Cursor.rest, Rng.fillBytes, zeroRng, Bytes.be, Bytes.le]

/-- A chunk that arrives whole. -/
theorem ss_stream_whole :
    Faithful chunkAead .chaCha20Poly1305 zeroKey [[0x68, 0x69]]
      (List.replicate 32 0 ++ sealedLength ++ sealedPayload) := by
  have h := ss_stream lawful_chunkAead (show SsCipher.chaCha20Poly1305 ≠ .plain by decide) zeroKey zeroRng
    ⟨[], false⟩ [] [.write [0x68, 0x69]] (p := List.replicate 32 0 ++ sealedLength ++ sealedPayload)
    (written_hi ▸ List.prefix_rfl)
  rw [written_hi] at h
  refine h.mpr ?_
  rintro (⟨-, hlen⟩ | ⟨front, d, back, hds, hlen⟩)
  · simp [sealedLength, sealedPayload, SsCipher.keySize] at hlen
  · obtain ⟨rfl, rfl, rfl⟩ : front = [] ∧ d = [0x68, 0x69] ∧ back = [] := by
      cases front <;> simp_all
    simp [sealedLength, sealedPayload, SsCipher.keySize, chunksLength, LEN_BLOCK, TAG_LEN] at hlen

/-- A ciphertext cut right after the salt seems to end in order. -/
theorem ss_stream_cut :
    List.replicate 32 0
        <+: (written chunkAead .chaCha20Poly1305 zeroKey zeroRng ⟨[], false⟩ []
          [.write [0x68, 0x69]]).2
      ∧ ¬ Faithful chunkAead .chaCha20Poly1305 zeroKey
        (written chunkAead .chaCha20Poly1305 zeroKey zeroRng ⟨[], false⟩ []
          [.write [0x68, 0x69]]).1 (List.replicate 32 0) := by
  have hc := sealed_run lawful_chunkAead (show SsCipher.chaCha20Poly1305 ≠ .plain by decide) zeroKey zeroRng
    ⟨[], false⟩ [] [.write [0x68, 0x69]]
  have hp : List.replicate 32 0 <+: (written chunkAead .chaCha20Poly1305 zeroKey zeroRng
      ⟨[], false⟩ [] [.write [0x68, 0x69]]).2 := by
    rw [written_hi, List.append_assoc]
    exact List.prefix_append _ _
  refine ⟨hp, fun hf => ?_⟩
  refine (faithful_iff lawful_chunkAead (by decide) hc hp).mp hf (.inl ⟨?_, by decide⟩)
  show (written _ _ _ _ _ _ _).1 ≠ []
  rw [written_hi]
  decide

end Ss
end RtProxy
