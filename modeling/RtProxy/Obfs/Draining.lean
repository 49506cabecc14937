import RtProxy.Obfs.Stream
import RtProxy.Sni.Conn

/-!
What reaches the transport under `ObfsTlsStream` and `SniClientConn`.

A write of either drains the queue and then replaces it, or goes past it.  That is in order
if the drain ends, or waits.  A drain that fails is taken for one that ends.
-/

namespace RtProxy

open ByteStream

theorem drainOut_cases {zero : IoError} {out : Cursor} {dst : Outbound IoError}
    (h : ¬ Breaks dst.grants out.rest.length) :
    (drainOut zero out dst).1 = .pending ∨
      (drainOut zero out dst).1 = .ready (.ok ()) ∧ (drainOut zero out dst).2.1 = .empty ∧
        (drainOut zero out dst).2.2.grants = remaining dst.grants out.rest.length := by
  have hnone : ∀ e, (drainOut zero out dst).1 ≠ .ready (.error e) := fun e he =>
    h ((drainOut_fails_iff zero out dst).mp ⟨e, he⟩)
  have hempty := @drainOut_empty zero out dst
  have hleft := @flush_remaining IoError out dst
  have hdone : (drainOut zero out dst).1 = .ready (.ok ()) → (flush out dst).1 = .done := by
    unfold drainOut
    rcases flush out dst with ⟨o, out', dst'⟩
    cases o with
    | done => exact fun _ => rfl
    | pending | zero | error => exact fun h => by cases h
  match ha : (drainOut zero out dst).1 with
  | .pending => exact .inl rfl
  | .ready (.error e) => exact absurd ha (hnone e)
  | .ready (.ok ()) =>
    refine .inr ⟨rfl, hempty ha, ?_⟩
    rw [drainOut_snd]
    exact hleft (hdone ha)

/-- The transport fails, or takes nothing, while a write drains `queued` bytes and then
`new` ones. -/
def Disturbed (grants : List (Grant IoError)) (queued new : Nat) : Prop :=
  Breaks grants queued ∨ Breaks (remaining grants queued) new

/-- The bytes on the wire are the first of the forms of the accepted writes, and a write
returns the error of its drain. -/
structure InOrder {S : Type} (W : ByteWriter S IoError) (form : S → Bytes → Nat → Bytes)
    (drain : S → Poll (Except IoError Unit)) (sent : S → Bytes) (reply : Bytes)
    (ops : List WriteOp) (s : S) : Prop where
  sent : sent (W.run ops s).2 <+: reply ++ W.accepted form ops s
  reported : ∀ w ∈ W.writes ops s, ∀ e, drain w.1 = .ready (.error e) →
    (W.write w.2 w.1).1 = .ready (.error e)

/-! ## Records -/

namespace Obfs
namespace ObfsTlsStream

/-- What a write that accepts `n` bytes stands for. -/
def form (c : ObfsTlsStream) (buf : Bytes) (n : Nat) : Bytes :=
  if n = 0 then [] else record c.nextRecordType [0x03, 0x03] (buf.take n)

/-- The length of the record that a write queues. -/
def queuedBy (buf : Bytes) : Nat :=
  if buf = [] then 0 else REC_HEADER_LEN + min buf.length MAX_TLS_DATA_LEN

theorem length_record (kind : UInt8) {version payload : Bytes} (h : version.length = 2) :
    (record kind version payload).length = REC_HEADER_LEN + payload.length := by
  simp only [record, List.length_cons, List.length_append, Bytes.length_be, h, REC_HEADER_LEN]
  omega

theorem form_pos (c : ObfsTlsStream) (buf : Bytes) {n : Nat} (hn : 0 < n) :
    c.form buf n = record c.nextRecordType [0x03, 0x03] (buf.take n) :=
  if_neg (by omega)

/-- What `poll_write` does behind a drain that has ended. -/
theorem produced_queue {c : ObfsTlsStream} {buf : Bytes} (hout : c.out = .empty) (hne : buf ≠ [])
    (h : ¬ Breaks c.inner.outbound.grants (queuedBy buf)) :
    (∀ e, (c.queue buf).flushOut.1 ≠ .ready (.error e)) ∧
      (c.queue buf).flushOut.2.produced
        = c.produced ++ c.form buf (min buf.length MAX_TLS_DATA_LEN) := by
  have hpos : 0 < min buf.length MAX_TLS_DATA_LEN := by
    have := List.length_pos_iff.mpr hne
    simp only [MAX_TLS_DATA_LEN]
    omega
  have hlen : (c.queue buf).out.rest.length = queuedBy buf := by
    show (record _ _ _).length = _
    rw [length_record _ rfl, queuedBy, if_neg hne, List.length_take]
    omega
  constructor
  · intro e he
    exact h (hlen ▸ (drainOut_fails_iff zeroErr (c.queue buf).out _).mp ⟨e, he⟩)
  · rw [produced_flushOut, form_pos c buf hpos]
    show c.inner.outbound.sent ++ record _ _ _ = c.inner.outbound.sent ++ c.out.rest ++ _
    rw [hout, Cursor.rest_empty, List.append_nil]

/-- A write that meets no error puts its record behind what is queued. -/
theorem produced_write {c : ObfsTlsStream} {buf : Bytes}
    (h : ¬ Disturbed c.inner.outbound.grants c.out.rest.length (queuedBy buf)) :
    (c.pollWrite buf).2.produced
      = c.produced ++ ByteWriter.formOf (c.form buf) (c.pollWrite buf).1 := by
  have hp := c.produced_flushOut
  have hkind : c.flushOut.2.nextRecordType = c.nextRecordType := rfl
  have hcases : c.flushOut.1 = .pending ∨ c.flushOut.1 = .ready (.ok ()) ∧
      c.flushOut.2.out = .empty ∧
      c.flushOut.2.inner.outbound.grants = remaining c.inner.outbound.grants c.out.rest.length :=
    drainOut_cases fun hb => h (.inl hb)
  unfold pollWrite
  revert hp hkind hcases
  rcases c.flushOut with ⟨a, c'⟩
  rintro hp hkind (rfl | ⟨rfl, hout, hleft⟩)
  · exact hp.trans (List.append_nil _).symm
  · dsimp only at hp hout hleft hkind ⊢
    by_cases hne : buf = []
    · rw [if_pos hne]
      exact hp.trans (List.append_nil _).symm
    · rw [if_neg hne]
      obtain ⟨hok, hq⟩ := produced_queue hout hne fun hb => h (.inr (hleft ▸ hb))
      have hform : c'.form buf (min buf.length MAX_TLS_DATA_LEN)
          = c.form buf (min buf.length MAX_TLS_DATA_LEN) := by
        rw [form, form, hkind]
      rw [hp, hform] at hq
      revert hok hq
      rcases (c'.queue buf).flushOut with ⟨b, c''⟩
      intro hok hq
      match b with
      | .ready (.error e) => exact absurd rfl (hok e)
      | .pending | .ready (.ok ()) => exact hq

theorem inOrder (src : Inbound IoError) (grants : List (Grant IoError)) (ready reply : Bytes)
    (expect : Bool) (ops : List WriteOp)
    (h : ∀ w ∈ writer.writes ops (.new (.new src grants) ready reply expect),
      ¬ Disturbed w.1.inner.outbound.grants w.1.out.rest.length (queuedBy w.2)) :
    InOrder writer form (fun c => c.flushOut.1) (fun c => c.inner.outbound.sent) reply ops
      (.new (.new src grants) ready reply expect) := by
  have hp := @ByteWriter.produced_eq_accepted _ _ writer form produced _
    (fun c buf hq => @produced_write c buf hq) produced_pollFinish produced_pollFinish ops _ h
  refine ⟨?_, fun w hw e he => ?_⟩
  · have hnew : (ObfsTlsStream.new (.new src grants) ready reply expect).produced = reply := rfl
    rw [hnew] at hp
    exact ⟨_, hp⟩
  · exact absurd (.inl ((drainOut_fails_iff zeroErr w.1.out _).mp ⟨e, he⟩)) (h w hw)

end ObfsTlsStream
end Obfs

/-! ## The first request of an SNI hop -/

namespace Sni
namespace SniClientConn

variable {engine : Engine}

/-- What a write that accepts `n` bytes stands for. -/
def form (engine : Engine) (c : SniClientConn) (buf : Bytes) (n : Nat) : Bytes :=
  if c.obfuscated ∨ c.host = "" ∨ buf = [] then buf.take n
  else (rewritten engine c.host buf).getD (buf.take n)

/-- The length of what a write queues. -/
def queuedBy (engine : Engine) (c : SniClientConn) (buf : Bytes) : Nat :=
  if c.obfuscated ∨ c.host = "" ∨ buf = [] then 0
  else ((rewritten engine c.host buf).getD []).length

theorem produced_flushOut (c : SniClientConn) : c.flushOut.2.produced = c.produced :=
  drainOut_spec zeroErr c.out c.inner.outbound

theorem produced_pollFinish (c : SniClientConn) : c.pollFinish.2.produced = c.produced := by
  have hp := c.produced_flushOut
  unfold pollFinish
  revert hp
  rcases c.flushOut with ⟨a, c'⟩
  match a with
  | .pending | .ready (.error e) => exact id
  | .ready (.ok ()) =>
    intro hp
    simp only [produced, Outbound.sent_finish] at hp ⊢
    exact hp

/-- Bytes that are passed on with nothing queued. -/
theorem produced_pass {c : SniClientConn} (hout : c.out = .empty) (buf : Bytes) :
    (c.pass buf).2.produced = c.produced ++ ByteWriter.formOf buf.take (c.pass buf).1 := by
  have hsent := ByteWriter.sent_write c.inner.outbound buf
  unfold pass produced
  rw [hout, Cursor.rest_empty, List.append_nil, List.append_nil]
  exact hsent

theorem produced_obfuscate {c : SniClientConn} {buf : Bytes} (hout : c.out = .empty)
    (h : ¬ Breaks c.inner.outbound.grants ((rewritten engine c.host buf).getD []).length) :
    (c.obfuscate engine buf).2.produced = c.produced ++
      ByteWriter.formOf (fun n => (rewritten engine c.host buf).getD (buf.take n))
        (c.obfuscate engine buf).1 := by
  unfold obfuscate
  cases hr : rewritten engine c.host buf with
  | none => exact @produced_pass { c with obfuscated := true } hout buf
  | some bytes =>
    have hnone : ∀ e, (flushOut { c with obfuscated := true, out := .ofBytes bytes }).1
        ≠ .ready (.error e) := by
      intro e he
      rw [hr] at h
      exact h ((drainOut_fails_iff zeroErr (.ofBytes bytes) _).mp ⟨e, he⟩)
    have hp := produced_flushOut { c with obfuscated := true, out := .ofBytes bytes }
    have hqueue : produced { c with obfuscated := true, out := .ofBytes bytes }
        = c.produced ++ bytes := by
      show c.inner.outbound.sent ++ bytes = c.inner.outbound.sent ++ c.out.rest ++ bytes
      rw [hout, Cursor.rest_empty, List.append_nil]
    rw [hqueue] at hp
    dsimp only
    revert hnone hp
    rcases flushOut { c with obfuscated := true, out := .ofBytes bytes } with ⟨b, c'⟩
    intro hnone hp
    match b with
    | .ready (.error e) => exact absurd rfl (hnone e)
    | .pending | .ready (.ok ()) => exact hp

/-- A write that meets no error puts what it stands for behind what is queued. -/
theorem produced_write {c : SniClientConn} {buf : Bytes}
    (h : ¬ Disturbed c.inner.outbound.grants c.out.rest.length (queuedBy engine c buf)) :
    (c.pollWrite engine buf).2.produced
      = c.produced ++ ByteWriter.formOf (c.form engine buf) (c.pollWrite engine buf).1 := by
  have hp := c.produced_flushOut
  have hsame : c.flushOut.2.obfuscated = c.obfuscated ∧ c.flushOut.2.host = c.host := ⟨rfl, rfl⟩
  have hcases : c.flushOut.1 = .pending ∨ c.flushOut.1 = .ready (.ok ()) ∧
      c.flushOut.2.out = .empty ∧
      c.flushOut.2.inner.outbound.grants = remaining c.inner.outbound.grants c.out.rest.length :=
    drainOut_cases fun hb => h (.inl hb)
  unfold pollWrite
  revert hp hsame hcases
  rcases c.flushOut with ⟨a, c'⟩
  rintro hp ⟨hobf, hhost⟩ (rfl | ⟨rfl, hout, hleft⟩)
  · exact hp.trans (List.append_nil _).symm
  · dsimp only at hp hout hleft hobf hhost ⊢
    by_cases hpass : c'.obfuscated ∨ c'.host = "" ∨ buf = []
    · have hform : c.form engine buf = buf.take := by
        funext n
        rw [form, ← hobf, ← hhost, if_pos hpass]
      rw [if_pos hpass, produced_pass hout, hp, hform]
    · have hform : c.form engine buf
          = fun n => (rewritten engine c'.host buf).getD (buf.take n) := by
        funext n
        rw [form, ← hobf, ← hhost, if_neg hpass]
      have hqueued : queuedBy engine c buf = ((rewritten engine c'.host buf).getD []).length := by
        rw [queuedBy, ← hobf, ← hhost, if_neg hpass]
      rw [if_neg hpass, produced_obfuscate hout fun hb => h (.inr (hqueued ▸ hleft ▸ hb)), hp, hform]

theorem inOrder (engine : Engine) (src : Inbound IoError) (grants : List (Grant IoError))
    (host : String) (ops : List WriteOp)
    (h : ∀ w ∈ (writer engine).writes ops (.new (.new src grants) host),
      ¬ Disturbed w.1.inner.outbound.grants w.1.out.rest.length (queuedBy engine w.1 w.2)) :
    InOrder (writer engine) (form engine) (fun c => c.flushOut.1)
      (fun c => c.inner.outbound.sent) [] ops (.new (.new src grants) host) := by
  have hp := @ByteWriter.produced_eq_accepted _ _ (writer engine) (form engine) produced _
    (fun c buf hq => @produced_write engine c buf hq) produced_pollFinish produced_pollFinish ops _ h
  refine ⟨?_, fun w hw e he => ?_⟩
  · have hnew : (SniClientConn.new (.new src grants) host).produced = [] := rfl
    rw [hnew] at hp
    exact ⟨_, hp⟩
  · exact absurd (.inl ((drainOut_fails_iff zeroErr w.1.out _).mp ⟨e, he⟩)) (h w hw)

end SniClientConn
end Sni

/-! ## Runs -/

/-- In a run of either stream in which no write meets an error while it drains, what is
accepted reaches the transport in order. -/
theorem accepted_in_order (src : Inbound IoError) (grants : List (Grant IoError))
    (ops : List WriteOp) :
    (∀ (ready reply : Bytes) (expect : Bool),
        (∀ w ∈ Obfs.ObfsTlsStream.writer.writes ops (.new (.new src grants) ready reply expect),
          ¬ Disturbed w.1.inner.outbound.grants w.1.out.rest.length
            (Obfs.ObfsTlsStream.queuedBy w.2)) →
        InOrder Obfs.ObfsTlsStream.writer Obfs.ObfsTlsStream.form (fun c => c.flushOut.1)
          (fun c => c.inner.outbound.sent) reply ops (.new (.new src grants) ready reply expect)) ∧
      ∀ (engine : Sni.Engine) (host : String),
          (∀ w ∈ (Sni.SniClientConn.writer engine).writes ops (.new (.new src grants) host),
            ¬ Disturbed w.1.inner.outbound.grants w.1.out.rest.length
              (Sni.SniClientConn.queuedBy engine w.1 w.2)) →
          InOrder (Sni.SniClientConn.writer engine) (Sni.SniClientConn.form engine)
            (fun c => c.flushOut.1) (fun c => c.inner.outbound.sent) [] ops
            (.new (.new src grants) host) :=
  ⟨fun ready reply expect => Obfs.ObfsTlsStream.inOrder src grants ready reply expect ops,
    fun engine host => Sni.SniClientConn.inOrder engine src grants host ops⟩

namespace Obfs

/-- A client whose transport takes three bytes, waits, fails once and takes what follows. -/
def flaky : ObfsTlsStream :=
  .new (.new ⟨[], false⟩ [.accept 3, .pending, .error writeZeroErr, .accept 6]) [] [] true

theorem flaky_first : flaky.pollWrite [0xAA] = (.ready (.ok 1), { flaky with
    inner := ⟨⟨[], false⟩, ⟨[.error writeZeroErr, .accept 6], [0x17, 0x03, 0x03]⟩⟩
    out := ⟨[0x17, 0x03, 0x03, 0x00, 0x01, 0xAA], 3, by decide⟩ }) := by
  simp [flaky, ObfsTlsStream.pollWrite, ObfsTlsStream.new, Transport.new, ObfsTlsStream.flushOut,
    ObfsTlsStream.queue, drainOut, flush, Cursor.ofBytes, Cursor.empty, Cursor.rest, Cursor.advance,
    Outbound.write, record, MAX_TLS_DATA_LEN, Bytes.be, Bytes.le, REC_APP_DATA]

theorem flaky_second :
    (flaky.pollWrite [0xAA]).2.flushOut.1 = .ready (.error writeZeroErr) ∧
      ((flaky.pollWrite [0xAA]).2.pollWrite [0xBB]).1 = .ready (.ok 1) ∧
      ((flaky.pollWrite [0xAA]).2.pollWrite [0xBB]).2.inner.outbound.sent
        = [0x17, 0x03, 0x03, 0x17, 0x03, 0x03, 0x00, 0x01, 0xBB] := by
  rw [flaky_first]
  simp [flaky, ObfsTlsStream.pollWrite, ObfsTlsStream.new, Transport.new, ObfsTlsStream.flushOut,
    ObfsTlsStream.queue, drainOut, flush, Cursor.ofBytes, Cursor.empty, Cursor.rest, Cursor.advance,
    Outbound.write, record, MAX_TLS_DATA_LEN, Bytes.be, Bytes.le, REC_APP_DATA]

/-- The second record overwrites the rest of the first. -/
theorem accepted_overwritten :
    (ObfsTlsStream.writer.run [.write [0xAA], .write [0xBB]] flaky).2.inner.outbound.sent
        = [0x17, 0x03, 0x03, 0x17, 0x03, 0x03, 0x00, 0x01, 0xBB] ∧
      ObfsTlsStream.writer.accepted ObfsTlsStream.form [.write [0xAA], .write [0xBB]] flaky
        = [0x17, 0x03, 0x03, 0x00, 0x01, 0xAA, 0x17, 0x03, 0x03, 0x00, 0x01, 0xBB] ∧
      ¬ InOrder ObfsTlsStream.writer ObfsTlsStream.form (fun c => c.flushOut.1)
        (fun c => c.inner.outbound.sent) [] [.write [0xAA], .write [0xBB]] flaky := by
  obtain ⟨hdrain, hok, hsent⟩ := flaky_second
  have hone : (flaky.pollWrite [0xAA]).1 = .ready (.ok 1) := by rw [flaky_first]
  have hfirst : ObfsTlsStream.writer.write [0xAA] flaky
      = (.ready (.ok 1), (flaky.pollWrite [0xAA]).2) := Prod.ext hone rfl
  have hsecond : ObfsTlsStream.writer.write [0xBB] (flaky.pollWrite [0xAA]).2
      = (.ready (.ok 1), ((flaky.pollWrite [0xAA]).2.pollWrite [0xBB]).2) := Prod.ext hok rfl
  have hrun : (ObfsTlsStream.writer.run [.write [0xAA], .write [0xBB]] flaky).2.inner.outbound.sent
      = [0x17, 0x03, 0x03, 0x17, 0x03, 0x03, 0x00, 0x01, 0xBB] := by
    rw [ByteWriter.run_write_whole hfirst (by simp), ByteWriter.run_write_whole hsecond (by simp)]
    exact hsent
  have haccepted : ObfsTlsStream.writer.accepted ObfsTlsStream.form
      [.write [0xAA], .write [0xBB]] flaky
        = [0x17, 0x03, 0x03, 0x00, 0x01, 0xAA, 0x17, 0x03, 0x03, 0x00, 0x01, 0xBB] := by
    have hkind : (flaky.pollWrite [0xAA]).2.nextRecordType = REC_APP_DATA := by
      rw [flaky_first]
      rfl
    simp only [ByteWriter.accepted, ByteWriter.writes, List.flatMap_cons, List.flatMap_nil, hfirst,
      hsecond, ByteWriter.formOf]
    rw [ObfsTlsStream.form_pos _ _ Nat.one_pos, ObfsTlsStream.form_pos _ _ Nat.one_pos, hkind]
    rfl
  refine ⟨hrun, haccepted, fun h => ?_⟩
  have hprefix := h.sent
  rw [haccepted, hrun] at hprefix
  exact absurd hprefix (by decide)

/-- A record that goes out in two pieces. -/
theorem accepted_whole :
    InOrder ObfsTlsStream.writer ObfsTlsStream.form (fun c => c.flushOut.1)
      (fun c => c.inner.outbound.sent) [0x16] [.write [0xAA], .flush]
      (.new (.new ⟨[], false⟩ [.accept 3, .pending, .accept 4]) [] [0x16] true) := by
  refine (accepted_in_order _ _ _).1 _ _ _ fun w hw => ?_
  obtain rfl := List.mem_singleton.mp hw
  simp [Disturbed, Breaks, remaining, ObfsTlsStream.new, Transport.new, Cursor.ofBytes, Cursor.rest,
    ObfsTlsStream.queuedBy, REC_HEADER_LEN, MAX_TLS_DATA_LEN]

end Obfs
end RtProxy
