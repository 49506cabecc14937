import RtProxy.Ss.Integrity

/-!
What a Shadowsocks stream keeps queued (`poll_write` in `ss.rs`).

A write drains the queue before it seals a chunk.  A drain that waits holds the write up,
but one that fails does not: the chunk is queued behind the bytes that are stuck.
-/

namespace RtProxy
namespace Ss

open ByteStream

variable {K : Type}

/-- The buffer holds one chunk, the first one behind the salt, or nothing. -/
def OneChunk (aead : Aead K) (c : SsStream K) : Prop :=
  c.out.data = [] ∨ ∃ salt k nonce d, (salt = [] ∨ salt.length = c.cipher.keySize) ∧ Fits d ∧
    c.out.data = salt ++ chunk aead k nonce d

/-- A write accepts bytes only behind a queue that was written completely, returns the error
that stops the queue, and leaves one chunk at most. -/
structure Reports (aead : Aead K) (c : SsStream K) (buf : Bytes) : Prop where
  drained : buf ≠ [] → ∀ n, (c.pollWrite aead buf).1 = .ready (.ok n) →
    c.pollFlushOut.2.inner.outbound.sent = c.produced
  returned : buf ≠ [] → ∀ e, c.pollFlushOut.1 = .ready (.error e) →
    (c.pollWrite aead buf).1 = .ready (.error e)
  bounded : OneChunk aead (c.pollWrite aead buf).2

/-- The transport fails before it has taken what is queued. -/
def Stuck (c : SsStream K) : Prop := Breaks c.inner.outbound.grants c.out.rest.length

/-! ## Draining -/

theorem stuck_iff (c : SsStream K) : Stuck c ↔ ∃ e, c.pollFlushOut.1 = .ready (.error e) :=
  (drainOut_fails_iff writeZeroErr c.out c.inner.outbound).symm

theorem out_of_drained {c : SsStream K} (h : c.pollFlushOut.1 = .ready (.ok ())) :
    c.pollFlushOut.2.out = .empty :=
  @drainOut_empty writeZeroErr c.out c.inner.outbound h

theorem sent_of_drained {c : SsStream K} (h : c.pollFlushOut.1 = .ready (.ok ())) :
    c.pollFlushOut.2.inner.outbound.sent = c.produced := by
  have hp := c.produced_pollFlushOut
  rw [SsStream.produced, out_of_drained h] at hp
  simpa using hp

theorem OneChunk.flushOut {aead : Aead K} {c : SsStream K} (h : OneChunk aead c) :
    OneChunk aead c.pollFlushOut.2 := by
  have hdata := flush_data c.out c.inner.outbound
  rw [← drainOut_snd writeZeroErr] at hdata
  rcases hdata with hsame | hempty
  · have hout : c.pollFlushOut.2.out.data = c.out.data := hsame
    unfold OneChunk
    rw [hout]
    exact h
  · have hout : c.pollFlushOut.2.out = .empty := hempty
    exact .inl (by rw [hout]; rfl)

theorem OneChunk.finish {aead : Aead K} {c : SsStream K} (h : OneChunk aead c) :
    OneChunk aead c.pollFinish.2 := by
  have hf := h.flushOut
  unfold SsStream.pollFinish
  by_cases hplain : c.cipher = .plain
  · simp only [if_pos hplain]
    exact h
  · simp only [if_neg hplain]
    revert hf
    rcases c.pollFlushOut with ⟨a, c'⟩
    match a with
    | .pending | .ready (.error e) => exact id
    | .ready (.ok ()) => exact id

/-! ## Sealing behind an empty queue -/

/-- The buffer that a chunk is appended to. -/
theorem data_sealChunk {aead : Aead K} (hlaw : aead.Lawful) {d : Bytes} (hd : Fits d)
    {c c' : SsStream K} {k : K} (hc : c.ensureCipher aead = (.ok k, c')) :
    (c.sealChunk aead d).2.out.data = c'.out.data ++ chunk aead k c'.writeNonce d ∧
      (c.sealChunk aead d).2.cipher = c'.cipher := by
  unfold SsStream.sealChunk
  rw [hc]
  simp only [SsStream.sealBlock_spec hlaw k (length_be_le _), SsStream.sealBlock_spec hlaw k hd.2]
  exact ⟨List.append_assoc _ _ _, trivial⟩

theorem oneChunk_sealChunk {aead : Aead K} (hlaw : aead.Lawful) {c : SsStream K}
    (hout : c.out = .empty) {d : Bytes} (hd : Fits d) : OneChunk aead (c.sealChunk aead d).2 := by
  have hnil : c.out.data = [] := by rw [hout]; rfl
  cases hw : c.writeCipher with
  | some k =>
    have hc : c.ensureCipher aead = (.ok k, c) := by rw [SsStream.ensureCipher, hw]
    obtain ⟨hdata, -⟩ := data_sealChunk hlaw hd hc
    rw [hnil] at hdata
    exact .inr ⟨[], k, _, d, .inl rfl, hd, hdata⟩
  | none =>
    cases hk : aead.fromSalt c.cipher c.key (c.rng.fillBytes c.cipher.keySize).1 with
    | error e =>
      left
      unfold SsStream.sealChunk SsStream.ensureCipher
      simp only [hw, hk]
      exact hnil
    | ok k =>
      have hc : c.ensureCipher aead = (.ok k, { c with
          rng := (c.rng.fillBytes c.cipher.keySize).2
          writeCipher := some k
          out := c.out.append (c.rng.fillBytes c.cipher.keySize).1 }) := by
        unfold SsStream.ensureCipher
        simp only [hw, hk]
      obtain ⟨hdata, hcipher⟩ := data_sealChunk hlaw hd hc
      have hsalt : (c.out.append (c.rng.fillBytes c.cipher.keySize).1).data
          = (c.rng.fillBytes c.cipher.keySize).1 := by
        show c.out.data ++ _ = _
        rw [hnil, List.nil_append]
      rw [hsalt] at hdata
      refine .inr ⟨_, k, _, d, .inr ?_, hd, hdata⟩
      rw [hcipher, Rng.length_fillBytes]

/-! ## One write -/

variable {aead : Aead K} {cipher : SsCipher} {key : Bytes}

/-- A stream of a cipher that has accepted some payloads and holds one chunk at most. -/
structure Tidy (aead : Aead K) (cipher : SsCipher) (key : Bytes) (c : SsStream K) : Prop where
  sealed : ∃ ds, Sealed aead cipher key ds c
  oneChunk : OneChunk aead c

/-- A stream that has queued something has its cipher. -/
theorem Sealed.cipher_of_queued {ds : List Bytes} {c : SsStream K}
    (h : Sealed aead cipher key ds c) (hne : c.out.rest ≠ []) : ∃ k, c.writeCipher = some k := by
  rcases h.bytes with ⟨-, -, -, hp⟩ | ⟨salt, k, -, -, -, hk, -⟩
  · exact absurd (List.append_eq_nil_iff.mp hp).2 hne
  · exact ⟨k, hk⟩

/-- A drain that does not fail holds a write up, or goes before it. -/
theorem reports_of_not_stuck (hlaw : aead.Lawful) (hcipher : cipher ≠ .plain) {c : SsStream K}
    (h : Tidy aead cipher key c) {buf : Bytes} (hs : buf ≠ [] → ¬ Stuck c) :
    Reports aead c buf := by
  have hplain : c.cipher ≠ .plain := h.sealed.choose_spec.cipher_eq ▸ hcipher
  by_cases hne : buf = []
  · have hw : c.pollWrite aead buf = (.ready (.ok 0), c) := by
      rw [SsStream.pollWrite, if_neg hplain, if_pos hne]
    exact ⟨fun h => absurd hne h, fun h => absurd hne h, by rw [hw]; exact h.oneChunk⟩
  have hnoerr : ∀ e, c.pollFlushOut.1 ≠ .ready (.error e) := fun e he =>
    hs hne ((stuck_iff c).mpr ⟨e, he⟩)
  have hflush := h.oneChunk.flushOut
  have hout := @out_of_drained K c
  have hsent := @sent_of_drained K c
  refine ⟨fun _ n hok => ?_, fun _ e he => absurd he (hnoerr e), ?_⟩
  · unfold SsStream.pollWrite at hok
    rw [if_neg hplain, if_neg hne] at hok
    revert hok hnoerr hsent
    rcases c.pollFlushOut with ⟨a, c'⟩
    cases a with
    | pending => exact fun _ _ hok => by cases hok
    | ready r =>
      cases r with
      | error e => exact fun hnoerr _ _ => absurd rfl (hnoerr e)
      | ok => exact fun _ hsent _ => hsent rfl
  · unfold SsStream.pollWrite
    rw [if_neg hplain, if_neg hne]
    revert hnoerr hflush hout
    rcases c.pollFlushOut with ⟨a, c'⟩
    cases a with
    | pending => exact fun _ hflush _ => hflush
    | ready r =>
      cases r with
      | error e => exact fun hnoerr _ _ => absurd rfl (hnoerr e)
      | ok =>
        intro _ _ hout
        have hchunk := oneChunk_sealChunk hlaw (hout rfl) (fits_take hne)
        revert hchunk
        simp only
        rcases c'.sealChunk aead (buf.take (min buf.length MAX_PAYLOAD)) with ⟨r, c''⟩
        cases r with
        | error e => exact id
        | ok => exact OneChunk.flushOut

/-- One that fails is not noticed. -/
theorem not_reports_of_stuck (hlaw : aead.Lawful) (hcipher : cipher ≠ .plain) {c : SsStream K}
    {ds : List Bytes} (h : Sealed aead cipher key ds c) {buf : Bytes} (hne : buf ≠ [])
    (hs : Stuck c) : ¬ Reports aead c buf := by
  obtain ⟨e, he⟩ := (stuck_iff c).mp hs
  have hqueued : c.out.rest ≠ [] := by
    intro hnil
    rw [Stuck, hnil] at hs
    exact not_breaks_zero _ hs
  obtain ⟨k, hk⟩ := h.cipher_of_queued hqueued
  have hc : c.pollFlushOut.2.ensureCipher aead = (.ok k, c.pollFlushOut.2) := by
    have hk' : c.pollFlushOut.2.writeCipher = some k := hk
    rw [SsStream.ensureCipher, hk']
  have hseal := (SsStream.sealChunk_spec hlaw (fits_take hne) hc).1
  intro hr
  have hret := hr.returned hne e he
  unfold SsStream.pollWrite at hret
  rw [if_neg (h.cipher_eq ▸ hcipher), if_neg hne] at hret
  revert he hseal hret
  rcases c.pollFlushOut with ⟨a, c'⟩
  rintro rfl
  simp only
  rcases c'.sealChunk aead (buf.take (min buf.length MAX_PAYLOAD)) with ⟨r, c''⟩
  rintro rfl hret
  cases hret

/-! ## A run -/

/-- A stream without a cipher queues nothing. -/
theorem reports_plain {c : SsStream K} (hplain : c.cipher = .plain) (hout : c.out = .empty)
    (buf : Bytes) : Reports aead c buf ∧ (c.pollWrite aead buf).2.out = .empty := by
  have hflush : c.pollFlushOut.1 = .ready (.ok ()) := by
    have hdone : ¬ Cursor.empty.pos < Cursor.empty.data.length := Nat.lt_irrefl 0
    unfold SsStream.pollFlushOut drainOut
    rw [hout, flush, if_neg hdone]
  have hw : (c.pollWrite aead buf).2.out = .empty := by
    rw [SsStream.pollWrite, if_pos hplain]
    exact hout
  refine ⟨⟨fun _ _ _ => sent_of_drained hflush, fun _ e he => ?_, .inl ?_⟩, hw⟩
  · rw [hflush] at he
    cases he
  · rw [hw]
    rfl

/-- The writes of a run do what they should if and only if the transport does not fail while
one of them drains the queue. -/
theorem ss_backlog {aead : Aead K} (hlaw : aead.Lawful) (cipher : SsCipher) (key : Bytes)
    (rng : Rng) (src : Inbound IoError) (grants : List (Grant IoError)) (ops : List WriteOp) :
    (∀ c ∈ (SsStream.writer aead).writes ops (.new (.new src grants) cipher key rng),
        Reports aead c.1 c.2) ↔
      ∀ c ∈ (SsStream.writer aead).writes ops (.new (.new src grants) cipher key rng),
        c.2 ≠ [] → ¬ Stuck c.1 := by
  have hnew : (SsStream.new (K := K) (.new src grants) cipher key rng).out = .empty := rfl
  by_cases hplain : cipher = .plain
  · have hfinish (c : SsStream K) (h : c.cipher = .plain ∧ c.out = .empty) :
        c.pollFinish.2.cipher = .plain ∧ c.pollFinish.2.out = .empty := by
      unfold SsStream.pollFinish
      simp only [if_pos h.1]
      exact h
    have hwrite (c : SsStream K) (buf : Bytes) (h : c.cipher = .plain ∧ c.out = .empty) :
        (c.pollWrite aead buf).2.cipher = .plain := by
      rw [SsStream.pollWrite, if_pos h.1]
      exact h.1
    have hall : ∀ c ∈ (SsStream.writer aead).writes ops (.new (.new src grants) cipher key rng),
        Reports aead c.1 c.2 ∧ (c.2 ≠ [] → ¬ Stuck c.1) := by
      refine ByteWriter.forall_writes (fun c => c.cipher = .plain ∧ c.out = .empty)
        (fun _ => True) _ (fun c buf h _ => ?_) hfinish hfinish ops ⟨hplain, rfl⟩
        (fun _ _ => trivial)
      obtain ⟨hr, hout⟩ := reports_plain h.1 h.2 buf
      refine ⟨⟨hr, fun _ hs => ?_⟩, hwrite c buf h, hout⟩
      rw [Stuck, h.2] at hs
      exact not_breaks_zero _ hs
    exact iff_of_true (fun c hc => (hall c hc).1) fun c hc => (hall c hc).2
  · have hsealed : Sealed aead cipher key [] (.new (.new src grants) cipher key rng) :=
      ⟨rfl, rfl, by simp, .inl ⟨rfl, rfl, rfl, rfl⟩⟩
    constructor
    · refine ByteWriter.forall_writes (fun c => ∃ ds, Sealed aead cipher key ds c)
        (fun c => Reports aead c.1 c.2) (fun c => c.2 ≠ [] → ¬ Stuck c.1)
        (fun c buf h hr => ?_) ?_ ?_ ops ⟨[], hsealed⟩
      · obtain ⟨ds, h⟩ := h
        exact ⟨fun hne hs => not_reports_of_stuck hlaw hplain h hne hs hr,
          (h.write hlaw hplain buf).exists⟩
      · exact fun c h => ⟨_, h.choose_spec.finish⟩
      · exact fun c h => ⟨_, h.choose_spec.finish⟩
    · refine ByteWriter.forall_writes (Tidy aead cipher key)
        (fun c => c.2 ≠ [] → ¬ Stuck c.1) (fun c => Reports aead c.1 c.2)
        (fun c buf h hs => ?_) ?_ ?_ ops ⟨⟨[], hsealed⟩, .inl rfl⟩
      · have hr := reports_of_not_stuck hlaw hplain h hs
        exact ⟨hr, (h.sealed.choose_spec.write hlaw hplain buf).exists, hr.bounded⟩
      · exact fun c h => ⟨⟨_, h.sealed.choose_spec.finish⟩, h.oneChunk.finish⟩
      · exact fun c h => ⟨⟨_, h.sealed.choose_spec.finish⟩, h.oneChunk.finish⟩

/-- A stream over a transport that is going to fail. -/
def failing : SsStream Unit :=
  .new (.new ⟨[], false⟩ [.pending, .error writeZeroErr]) .chaCha20Poly1305 zeroKey zeroRng

/-- It after it has accepted a byte. -/
theorem failing_write : (failing.pollWrite chunkAead [0x01]).2 =
    { failing with
      inner := ⟨⟨[], false⟩, ⟨[.error writeZeroErr], []⟩⟩
      writeCipher := some ()
      writeNonce := bumpNonce (bumpNonce .zero)
      out := Cursor.empty.append
        (List.replicate 32 0 ++ ([0x00, 0x01] ++ zeroTag) ++ ([0x01] ++ zeroTag)) } := by
  simp [failing, SsStream.pollWrite, SsStream.new, Transport.new,
    SsStream.pollFlushOut, drainOut, flush, Cursor.empty, SsStream.sealChunk, SsStream.ensureCipher,
    SsStream.sealBlock, chunkAead, MAX_PAYLOAD, Cursor.append, SsCipher.keySize, Outbound.write,
    Rng.fillBytes, zeroRng, Bytes.be, Bytes.le]

/-- The next byte is accepted as well, behind the chunk that is stuck. -/
theorem ss_backlog_grows :
    ∃ c ∈ (SsStream.writer chunkAead).writes [.write [0x01], .write [0x02]] failing,
      c.1.pollFlushOut.1 = .ready (.error writeZeroErr) ∧
      (c.1.pollWrite chunkAead c.2).1 = .ready (.ok 1) ∧
      (c.1.pollWrite chunkAead c.2).2.out.rest.length = 102 ∧
      ¬ Reports chunkAead c.1 c.2 := by
  have hdrain : (failing.pollWrite chunkAead [0x01]).2.pollFlushOut.1
      = .ready (.error writeZeroErr) := by
    rw [failing_write]
    simp [SsStream.pollFlushOut, drainOut, flush, Cursor.append, Cursor.empty, Outbound.write,
      zeroTag]
  have hw : ((failing.pollWrite chunkAead [0x01]).2.pollWrite chunkAead [0x02]).1
      = .ready (.ok 1) := by
    rw [failing_write]
    simp [failing, SsStream.pollWrite, SsStream.new, SsStream.pollFlushOut, drainOut, flush,
      Cursor.append, Cursor.empty, Outbound.write, SsStream.sealChunk, SsStream.ensureCipher,
      SsStream.sealBlock, chunkAead, zeroTag, MAX_PAYLOAD, Bytes.be, Bytes.le]
  have hlen : ((failing.pollWrite chunkAead [0x01]).2.pollWrite chunkAead [0x02]).2.out.rest.length
      = 102 := by
    rw [failing_write]
    simp [failing, SsStream.pollWrite, SsStream.new, SsStream.pollFlushOut, drainOut, flush,
      Cursor.append, Cursor.empty, Cursor.rest, Outbound.write, SsStream.sealChunk,
      SsStream.ensureCipher, SsStream.sealBlock, chunkAead, zeroTag, TAG_LEN, MAX_PAYLOAD, Bytes.be,
      Bytes.le]
  refine ⟨(_, [0x02]), .tail _ (.head _), hdrain, hw, hlen, fun h => ?_⟩
  have hret := h.returned (List.cons_ne_nil _ _) _ hdrain
  exact absurd (hw.symm.trans hret) (by simp)

/-- A transport that takes all it is given stops no write. -/
theorem ss_backlog_taken :
    Reports chunkAead (.new (.new ⟨[], false⟩ []) .chaCha20Poly1305 zeroKey zeroRng)
      [0x68, 0x69] := by
  refine (ss_backlog lawful_chunkAead .chaCha20Poly1305 zeroKey zeroRng ⟨[], false⟩ []
    [.write [0x68, 0x69]]).mpr ?_ _ (.head _)
  rintro c hc - hs
  obtain rfl := List.mem_singleton.mp hc
  exact not_breaks_zero _ hs

end Ss
end RtProxy
