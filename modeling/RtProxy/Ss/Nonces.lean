import RtProxy.Ss.Integrity

/-!
The nonces of a Shadowsocks stream (`bump_nonce` in `ss.rs`).

The two directions count their blocks on their own.  The `i`-th block is sealed with the
nonce that holds `i`, and a second stream opens it with the same one, however far the
ciphertext gets and whatever pieces it comes in.
-/

namespace RtProxy
namespace Ss

open ByteStream

variable {K : Type}

/-! ## Counting -/

/-- The 96-bit number `i`, least significant byte first. -/
def Nonce.ofNat (i : Nat) : Nonce := ⟨Bytes.le 12 i, Bytes.length_le 12 i⟩

theorem bumpBytes_le (k i : Nat) : bumpBytes (Bytes.le k i) = Bytes.le k (i + 1) := by
  induction k generalizing i with
  | zero => rfl
  | succ k ih =>
    rw [Bytes.le, Bytes.le, bumpBytes, ih]
    have hbyte : UInt8.ofNat (i % 256) + 1 = UInt8.ofNat ((i + 1) % 256) := by
      apply UInt8.toNat_inj.mp
      simp [UInt8.toNat_add]
    rw [hbyte]
    by_cases hcarry : (i + 1) % 256 = 0
    · have hdiv : (i + 1) / 256 = i / 256 + 1 := by omega
      rw [hcarry, hdiv]
      rfl
    · have hdiv : (i + 1) / 256 = i / 256 := by omega
      have hne : UInt8.ofNat ((i + 1) % 256) ≠ 0 := by
        intro h
        have := congrArg UInt8.toNat h
        simp at this
        omega
      rw [if_pos hne, hdiv]

/-- The carry loop adds one. -/
theorem bumpNonce_ofNat (i : Nat) : bumpNonce (.ofNat i) = .ofNat (i + 1) := by
  simp only [bumpNonce, Nonce.ofNat, bumpBytes_le]

theorem zero_eq_ofNat : Nonce.zero = .ofNat 0 := rfl

theorem ofNat_inj {i j : Nat} (hi : i < 2 ^ 96) (hj : j < 2 ^ 96)
    (h : Nonce.ofNat i = Nonce.ofNat j) : i = j := by
  have hbytes : Bytes.le 12 i = Bytes.le 12 j := congrArg Nonce.bytes h
  have hnat := congrArg Bytes.leNat hbytes
  rwa [Bytes.leNat_le (by omega), Bytes.leNat_le (by omega)] at hnat

/-! ## The calls of the AEAD -/

/-- What an AEAD is called with. -/
structure AeadCall (K : Type) where
  key : K
  nonce : Nonce
  block : Bytes

/-- The calls of `seal` in `seal_chunk`. -/
def SsStream.sealCalls (aead : Aead K) (data : Bytes) (c : SsStream K) : List (AeadCall K) :=
  match c.ensureCipher aead with
  | (.error _, _) => []
  | (.ok k, c) =>
    ⟨k, c.writeNonce, Bytes.be 2 data.length⟩ ::
      match c.sealBlock aead k (Bytes.be 2 data.length) with
      | (.error _, _) => []
      | (.ok (), c) => [⟨k, c.writeNonce, data⟩]

/-- The calls of `seal` in `poll_write`. -/
def SsStream.writeCalls (aead : Aead K) (c : SsStream K) (buf : Bytes) : List (AeadCall K) :=
  if c.cipher = .plain then []
  else if buf = [] then []
  else
    match c.pollFlushOut with
    | (.pending, _) => []
    | (.ready _, c) => c.sealCalls aead (buf.take (min buf.length MAX_PAYLOAD))

/-- The calls of `seal` in a run. -/
def seals (aead : Aead K) (cipher : SsCipher) (key : Bytes) (rng : Rng) (src : Inbound IoError)
    (grants : List (Grant IoError)) (ops : List WriteOp) : List (AeadCall K) :=
  ((SsStream.writer aead).writes ops (.new (.new src grants) cipher key rng)).flatMap
    fun w => w.1.writeCalls aead w.2

/-- The calls of `open` on a complete block. -/
def openCalls (r : ReadSide K) (block : Bytes) : List (AeadCall K) :=
  match r.state, r.cipher with
  | .length, some k => [⟨k, r.nonce, block⟩]
  | .payload _, some k => [⟨k, r.nonce, block⟩]
  | _, _ => []

/-- The reader of a new stream after some polls, with the calls of `open` it has made. -/
def opening (aead : Aead K) {cipher : SsCipher} (key : Bytes) (pos : 0 < cipher.keySize)
    (src : Inbound IoError) (caps : List Nat) :
    Reader (ReadSide K × List (AeadCall K)) × Inbound IoError :=
  ((machine aead key pos).logged openCalls).polls caps (.new (.new, []), src)

def opens (aead : Aead K) {cipher : SsCipher} (key : Bytes) (pos : 0 < cipher.keySize)
    (src : Inbound IoError) (caps : List Nat) : List (AeadCall K) :=
  (opening aead key pos src caps).1.state.2

/-- The calls of `poll_read` with these capacities. -/
def SsStream.pollReads (aead : Aead K) (caps : List Nat) (c : SsStream K) : SsStream K :=
  caps.foldl (fun c cap => (c.pollRead aead cap).2) c

theorem reader_pollReads (aead : Aead K) {cipher : SsCipher} {key : Bytes}
    (pos : 0 < cipher.keySize) (caps : List Nat) {c : SsStream K} (hcipher : c.cipher = cipher)
    (hkey : c.key = key) :
    ((c.pollReads aead caps).reader, (c.pollReads aead caps).inner.inbound)
      = (machine aead key pos).polls caps (c.reader, c.inner.inbound) := by
  induction caps generalizing c with
  | nil => rfl
  | cons cap caps ih =>
    subst hcipher hkey
    have hplain : c.cipher ≠ .plain := by
      intro h
      simp [h, SsCipher.keySize] at pos
    have hread : (c.pollRead aead cap).2 = { c with
        reader := ((machine aead c.key pos).poll cap c.reader c.inner.inbound).2.1
        inner := { c.inner with
          inbound := ((machine aead c.key pos).poll cap c.reader c.inner.inbound).2.2 } } := by
      rw [SsStream.pollRead, dif_neg hplain]
    have hrest := ih (c := (c.pollRead aead cap).2) (by rw [hread]) (by rw [hread])
    rw [hread] at hrest
    have hcons : c.pollReads aead (cap :: caps) = (c.pollRead aead cap).2.pollReads aead caps := rfl
    rw [hcons, hread]
    exact hrest

/-- The record leaves what the stream reads as it is. -/
theorem pollReads_opening (aead : Aead K) {cipher : SsCipher} (key : Bytes)
    (pos : 0 < cipher.keySize) (rng : Rng) (src : Inbound IoError) (grants : List (Grant IoError))
    (caps : List Nat) :
    let c := (SsStream.new (.new src grants) cipher key rng).pollReads aead caps
    (c.reader, c.inner.inbound) =
      (Machine.unlogged (opening aead key pos src caps).1, (opening aead key pos src caps).2) := by
  intro c
  have hc := @reader_pollReads _ aead _ key pos caps (SsStream.new (.new src grants) cipher key rng) rfl rfl
  rw [hc]
  exact Machine.polls_logged caps (Reader.new (ReadSide.new, [])) src

/-! ## Sealing -/

section

variable {aead : Aead K} {cipher : SsCipher} {key : Bytes} {k : K}

/-- The calls that seal the payloads `ds`, the length of each before it. -/
def calls (k : K) : Nonce → List Bytes → List (AeadCall K)
  | _, [] => []
  | nonce, d :: ds =>
    ⟨k, nonce, Bytes.be 2 d.length⟩ :: ⟨k, bumpNonce nonce, d⟩ :: calls k (nextNonce nonce) ds

theorem calls_append (nonce : Nonce) (ds ds' : List Bytes) :
    calls k nonce (ds ++ ds')
      = calls k nonce ds ++ calls k (nextNonce^[ds.length] nonce) ds' := by
  induction ds generalizing nonce with
  | nil => rfl
  | cons d ds ih =>
    rw [List.cons_append, calls, calls, ih, List.length_cons, Function.iterate_succ_apply]
    rfl

theorem key_of_mem_calls {nonce : Nonce} {ds : List Bytes} {call : AeadCall K}
    (h : call ∈ calls k nonce ds) : call.key = k := by
  induction ds generalizing nonce with
  | nil => cases h
  | cons d ds ih =>
    rcases List.mem_cons.mp h with rfl | h
    · rfl
    rcases List.mem_cons.mp h with rfl | h
    · rfl
    · exact ih h

theorem nonces_calls (i : Nat) (ds : List Bytes) :
    (calls k (.ofNat i) ds).map AeadCall.nonce
      = (List.range' i (2 * ds.length)).map Nonce.ofNat := by
  induction ds generalizing i with
  | nil => rfl
  | cons d ds ih =>
    have hlen : 2 * (d :: ds).length = 2 * ds.length + 1 + 1 := by
      rw [List.length_cons]
      omega
    rw [calls, nextNonce, bumpNonce_ofNat, bumpNonce_ofNat, List.map_cons, List.map_cons, ih, hlen,
      List.range'_succ, List.range'_succ, List.map_cons, List.map_cons]

theorem nonces_nodup {ds : List Bytes} (h : ds.length < 2 ^ 95) :
    ((calls k .zero ds).map AeadCall.nonce).Nodup := by
  rw [zero_eq_ofNat, nonces_calls, List.Nodup, List.pairwise_map]
  refine List.Pairwise.imp_of_mem ?_ (List.nodup_range' 1)
  intro i j hi hj hne heq
  rw [List.mem_range'_1] at hi hj
  exact hne (ofNat_inj (by omega) (by omega) heq)

/-- A stream that has accepted the payloads `ds` and called `seal` with `tr`. -/
structure Traced (aead : Aead K) (cipher : SsCipher) (key : Bytes) (ds : List Bytes)
    (tr : List (AeadCall K)) (c : SsStream K) : Prop where
  sealed : Sealed aead cipher key ds c
  none : ds = [] → tr = []
  some : ∀ k, c.writeCipher = some k → tr = calls k .zero ds

namespace Traced

variable {ds : List Bytes} {tr : List (AeadCall K)} {c : SsStream K}

theorem flushOut (h : Traced aead cipher key ds tr c) :
    Traced aead cipher key ds tr c.pollFlushOut.2 :=
  ⟨h.sealed.flushOut, h.none, h.some⟩

theorem finish (h : Traced aead cipher key ds tr c) :
    Traced aead cipher key ds tr c.pollFinish.2 := by
  obtain ⟨-, -, -, hw, -⟩ := c.pollFinish_spec
  exact ⟨h.sealed.finish, h.none, fun k hk => h.some k (hw ▸ hk)⟩

/-- The cipher that seals the next chunk has sealed the ones before. -/
theorem ensure (h : Traced aead cipher key ds tr c) {c' : SsStream K}
    (hc : c.ensureCipher aead = (.ok k, c')) :
    tr = calls k .zero ds ∧ c'.writeCipher = Option.some k := by
  unfold SsStream.ensureCipher at hc
  rcases h.sealed.bytes with ⟨rfl, hw, -, -⟩ | ⟨salt, k', -, -, -, hw, -⟩
  · refine ⟨h.none rfl, ?_⟩
    simp only [hw] at hc
    split at hc
    · cases hc
    · cases hc
      rfl
  · simp only [hw] at hc
    cases hc
    exact ⟨h.some _ hw, hw⟩

theorem sealChunk (hlaw : aead.Lawful) (h : Traced aead cipher key ds tr c) {d : Bytes}
    (hd : Fits d) :
    (∃ e, (c.sealChunk aead d).1 = .error e
        ∧ Traced aead cipher key ds (tr ++ c.sealCalls aead d) (c.sealChunk aead d).2)
      ∨ (c.sealChunk aead d).1 = .ok ()
        ∧ Traced aead cipher key (ds ++ [d]) (tr ++ c.sealCalls aead d)
          (c.sealChunk aead d).2 := by
  have hs := h.sealed.sealChunk hlaw hd
  rcases h.sealed.ensure with ⟨e, he, -⟩ | ⟨salt, k, c', he, -, -, -, -, -, hn, -⟩
  · have hcalls : c.sealCalls aead d = [] := by
      unfold SsStream.sealCalls
      revert he
      rcases c.ensureCipher aead with ⟨a, c'⟩
      rintro rfl
      rfl
    have hseal : c.sealChunk aead d = (.error e, (c.ensureCipher aead).2) := by
      unfold SsStream.sealChunk
      revert he
      rcases c.ensureCipher aead with ⟨a, c'⟩
      rintro rfl
      rfl
    have hwc : (c.ensureCipher aead).2.writeCipher = c.writeCipher := by
      revert he
      unfold SsStream.ensureCipher
      split
      · exact fun _ => rfl
      · dsimp only
        split
        · exact fun _ => rfl
        · exact fun he => by cases he
    rw [hseal] at hs ⊢
    rw [hcalls, List.append_nil]
    rcases hs with ⟨-, -, hs⟩ | ⟨hok, -⟩
    · exact .inl ⟨e, rfl, hs, h.none, fun k hk => h.some k (hwc ▸ hk)⟩
    · cases hok
  · obtain ⟨htr, hw⟩ := h.ensure he
    obtain ⟨hok, -, -, hw', -⟩ := SsStream.sealChunk_spec hlaw hd he
    rcases hs with ⟨e, he', -⟩ | ⟨-, hs⟩
    · rw [hok] at he'
      cases he'
    refine .inr ⟨hok, hs, fun hnil => by simp at hnil, fun k' hk' => ?_⟩
    rw [hw', hw] at hk'
    cases hk'
    have hcalls : c.sealCalls aead d = calls k c'.writeNonce [d] := by
      unfold SsStream.sealCalls
      rw [he]
      simp only [SsStream.sealBlock_spec hlaw k (length_be_le _)]
      rfl
    rw [hcalls, htr, hn, ← calls_append]

theorem write (hlaw : aead.Lawful) (hcipher : cipher ≠ .plain) (h : Traced aead cipher key ds tr c)
    (buf : Bytes) :
    ByteWriter.Accepts (fun ds => Traced aead cipher key ds (tr ++ c.writeCalls aead buf)) ds buf
      (c.pollWrite aead buf) := by
  have hplain : c.cipher ≠ .plain := h.sealed.cipher_eq ▸ hcipher
  unfold SsStream.pollWrite SsStream.writeCalls
  rw [if_neg hplain, if_neg hplain]
  by_cases hnil : buf = []
  · rw [if_pos hnil, if_pos hnil, List.append_nil]
    exact h
  rw [if_neg hnil, if_neg hnil]
  have hf := h.flushOut
  revert hf
  rcases c.pollFlushOut with ⟨a, c'⟩
  cases a with
  | pending => exact fun hf => by simpa [ByteWriter.Accepts] using hf
  | ready r =>
    intro hf
    have hd := fits_take hnil
    have hpos : 0 < min buf.length MAX_PAYLOAD := by
      have := List.length_pos_iff.mpr hnil
      simp only [MAX_PAYLOAD]
      omega
    rcases hf.sealChunk hlaw hd with ⟨e, he, hs⟩ | ⟨he, hs⟩
    all_goals
      revert he hs
      simp only
      rcases c'.sealChunk aead (buf.take (min buf.length MAX_PAYLOAD)) with ⟨a, c''⟩
      rintro rfl hs
    · exact hs
    · exact .part rfl hpos hs.flushOut

end Traced

theorem traced_run (hlaw : aead.Lawful) (hcipher : cipher ≠ .plain) (key : Bytes) (rng : Rng)
    (src : Inbound IoError) (grants : List (Grant IoError)) (ops : List WriteOp) :
    Traced aead cipher key
      ((SsStream.writer aead).run ops (.new (.new src grants) cipher key rng)).1
      (seals aead cipher key rng src grants ops)
      ((SsStream.writer aead).run ops (.new (.new src grants) cipher key rng)).2 := by
  have hnew : Traced aead cipher key [] [] (.new (.new src grants) cipher key rng) :=
    ⟨⟨rfl, rfl, by simp, .inl ⟨rfl, rfl, rfl, rfl⟩⟩, fun _ => rfl, fun k hk => by cases hk⟩
  exact ByteWriter.run_traced (fun w : SsStream K × Bytes => w.1.writeCalls aead w.2)
    (fun _ _ _ buf h => h.write hlaw hcipher buf) (fun _ _ _ h => h.finish)
    (fun _ _ _ h => h.finish) ops hnew

/-! ## Opening -/

/-- The call that opens what another call sealed. -/
def AeadCall.opened (aead : Aead K) (call : AeadCall K) : AeadCall K :=
  { call with block := aead.sealed call.key call.nonce call.block }

variable {pos : 0 < cipher.keySize}

theorem reads_logged (hlaw : aead.Lawful) {ds : List Bytes} (hds : ∀ d ∈ ds, Fits d)
    (nonce : Nonce) (tr : List (AeadCall K)) :
    ((machine aead key pos).logged openCalls).framing.Reads (⟨.length, some k, nonce⟩, tr)
      (frames (chunk aead k) nextNonce nonce ds) (outputs ds)
      (⟨.length, some k, nextNonce^[ds.length] nonce⟩,
        tr ++ (calls k nonce ds).map (AeadCall.opened aead)) [] := by
  induction ds generalizing nonce tr with
  | nil =>
    rw [calls, List.map_nil, List.append_nil]
    exact .refl
  | cons d ds ih =>
    have hd : Fits d := hds d (by simp)
    rw [frames, chunk, List.append_assoc]
    refine .unit (Machine.next_record (next_length hlaw nonce hd _) tr)
      (.unit (Machine.next_record (next_payload hlaw _ hd _) _) ?_)
    have h := ih (fun d' hd' => hds d' (List.mem_cons_of_mem _ hd')) (bumpNonce (bumpNonce nonce))
      (tr ++ openCalls ⟨.length, some k, nonce⟩ (aead.sealed k nonce (Bytes.be 2 d.length))
        ++ openCalls ⟨.payload d.length, some k, bumpNonce nonce⟩
          (aead.sealed k (bumpNonce nonce) d))
    rw [List.append_assoc, List.append_assoc] at h
    rw [List.append_assoc]
    exact h

theorem raw_ne (r : ReadSide K) : (machine aead key pos).mode r ≠ .raw := by
  show r.mode pos ≠ .raw
  unfold ReadSide.mode
  cases r.state <;> simp

theorem eof_of_ended {r r' : ReadSide K} {buf : Bytes}
    (h : (machine aead key pos).ended r buf = .ok r') :
    (machine aead key pos).mode r' = .eof := by
  simp only [machine, onEnded] at h
  split at h
  · cases h
    rfl
  · cases h

/-- What the reader opens is the first of what the writer sealed. -/
theorem opens_prefix (hlaw : aead.Lawful) {ds : List Bytes} {tr : List (AeadCall K)}
    {c : SsStream K} (h : Traced aead cipher key ds tr c) {src : Inbound IoError}
    (hsrc : src.content <+: c.produced) (caps : List Nat) :
    opens aead key pos src caps <+: tr.map (AeadCall.opened aead) := by
  obtain ⟨rest, hrest⟩ := hsrc
  rcases h.sealed.bytes with ⟨rfl, -, -, hp⟩ | ⟨salt, k, hsalt, hk, hne, hw, -, hp⟩
  · rw [h.none rfl]
    have hnil : src.content ++ rest = [] := hrest.trans hp
    have hreads : ((machine aead key pos).logged openCalls).framing.Reads (.new, [])
        (src.content ++ rest) [] (.new, []) [] := hnil ▸ .refl
    exact Machine.record_prefix raw_ne eof_of_ended hreads
      (Machine.next_eq_more_of_short (Machine.short_nil _)) rfl caps
  · have hsalt' : ((machine aead key pos).logged openCalls).framing.next (.new, [])
        (salt ++ frames (chunk aead k) nextNonce .zero ds)
          = .unit (⟨.length, some k, .zero⟩, []) [] (frames (chunk aead k) nextNonce .zero ds) :=
      Machine.next_record (next_salt hsalt hk _) []
    have hreads := Framing.Reads.unit hsalt' (reads_logged hlaw h.sealed.fits .zero [])
    rw [← chunks, ← hp, ← hrest, List.nil_append, ← h.some k hw] at hreads
    exact Machine.record_prefix raw_ne eof_of_ended hreads
      (Machine.next_eq_more_of_short (Machine.short_nil _)) rfl caps

/-- The `i`-th call of `seal` has the nonce `i`, so no nonce comes twice with the key, and
the calls of `open` that a second stream makes on a part of the ciphertext follow them. -/
theorem nonce_discipline (hlaw : aead.Lawful) (hcipher : cipher ≠ .plain) (key : Bytes) (rng : Rng)
    (src : Inbound IoError) (grants : List (Grant IoError)) (ops : List WriteOp) :
    let tr := seals aead cipher key rng src grants ops
    let w := written aead cipher key rng src grants ops
    tr.length = 2 * w.1.length ∧
      (∀ call ∈ tr, ∀ call' ∈ tr, call.key = call'.key) ∧
      (∀ (i : Nat) (call : AeadCall K), tr[i]? = some call → call.nonce = .ofNat i) ∧
      (w.1.length < 2 ^ 95 → (tr.map AeadCall.nonce).Nodup) ∧
      ∀ (src' : Inbound IoError) (caps : List Nat), src'.content <+: w.2 →
        opens aead key (SsCipher.keySize_pos hcipher) src' caps
          <+: tr.map (AeadCall.opened aead) := by
  intro tr w
  have h := traced_run hlaw hcipher key rng src grants ops
  have hopens (src' : Inbound IoError) (caps : List Nat) (hp : src'.content <+: w.2) :
      opens aead key (SsCipher.keySize_pos hcipher) src' caps <+: tr.map (AeadCall.opened aead) :=
    opens_prefix hlaw h hp caps
  rcases h.sealed.bytes with ⟨hds, -, -, -⟩ | ⟨-, k, -, -, -, hw, -, -⟩
  · have htr : tr = [] := h.none hds
    have hds' : w.1 = [] := hds
    rw [htr] at hopens ⊢
    rw [hds']
    exact ⟨rfl, by simp, by simp, by simp, hopens⟩
  have hk : tr = calls k .zero w.1 := h.some k hw
  have hnonces : tr.map AeadCall.nonce = (List.range' 0 (2 * w.1.length)).map Nonce.ofNat := by
    rw [hk, zero_eq_ofNat, nonces_calls]
  refine ⟨?_, fun call hc call' hc' => ?_, fun i call hi => ?_, fun hlt => ?_, hopens⟩
  · simpa using congrArg List.length hnonces
  · rw [hk] at hc hc'
    rw [key_of_mem_calls hc, key_of_mem_calls hc']
  · have hmap := congrArg (fun l => l[i]?) hnonces
    simp only [List.getElem?_map, hi] at hmap
    obtain ⟨j, hj, hnonce⟩ := Option.map_eq_some_iff.mp hmap.symm
    obtain ⟨hlt, hj⟩ := List.getElem?_eq_some_iff.mp hj
    rw [List.getElem_range', Nat.zero_add, Nat.one_mul] at hj
    rw [← hnonce, hj]
  · rw [hk]
    exact nonces_nodup hlt

end

theorem seals_hi :
    seals chunkAead .chaCha20Poly1305 zeroKey zeroRng ⟨[], false⟩ [] [.write [0x68, 0x69]]
      = [⟨(), .zero, [0x00, 0x02]⟩, ⟨(), bumpNonce .zero, [0x68, 0x69]⟩] := by
  show SsStream.writeCalls chunkAead _ [0x68, 0x69] ++ [] = _
  simp [SsStream.writeCalls, SsStream.sealCalls, SsStream.new, Transport.new,
    SsStream.pollFlushOut, drainOut, flush, Cursor.empty, SsStream.ensureCipher,
    SsStream.sealBlock, chunkAead, MAX_PAYLOAD, Bytes.be, Bytes.le]

/-- A chunk that comes in two pieces with a wait between them. -/
theorem nonce_discipline_hi :
    opens chunkAead zeroKey (@SsCipher.keySize_pos .chaCha20Poly1305 (by decide))
        ⟨[.bytes 0 (List.replicate 31 0 ++ sealedLength), .pending, .bytes 0x02 []], false⟩ [8, 8]
      <+: [⟨(), .ofNat 0, sealedLength⟩, ⟨(), .ofNat 1, sealedPayload⟩] := by
  have h := (@nonce_discipline _ _ .chaCha20Poly1305 lawful_chunkAead (by decide) zeroKey
    zeroRng ⟨[], false⟩ [] [.write [0x68, 0x69]]).2.2.2.2
      ⟨[.bytes 0 (List.replicate 31 0 ++ sealedLength), .pending, .bytes 0x02 []], false⟩ [8, 8]
  rw [seals_hi, written_hi] at h
  refine h ⟨sealedPayload.drop 1, ?_⟩
  simp [Inbound.content, Arrival.content, sealedLength, sealedPayload]

end Ss
end RtProxy
