import RtProxy.Sni.Conn
import RtProxy.Sni.RoundTrip
import RtProxy.Lib.Cut

/-!
What the transport gets for every cut of a stream into writes.

The first buffer decides.  If it holds exactly the first record, or the first request
head and text behind it, the record or the head is rewritten and all the rest follows.
If the record or the head goes on behind it, nothing is rewritten.
-/

namespace RtProxy
namespace Sni

open ByteStream

variable {engine : Engine} {decoy : String}

/-- The first buffer that is not empty. -/
def firstWrite (ops : List WriteOp) : Option Bytes :=
  (ByteWriter.offered ops).find? fun b => b ≠ []

/-! ## The first record or head -/

/-- What a stream has to start with: a complete ClientHello record, or a complete
request head with a `Host`. -/
inductive FirstUnit : Bytes → Prop
  | hello {u : Bytes} (hbyte : u.head? = some TLS_HANDSHAKE)
      (hlen : u.length = 5 + Bytes.beNat ((u.drop 3).take 2)) (hread : (readParts u).isSome) :
      FirstUnit u
  | head {text : String} {head : List Char}
      (hbyte : (Text.utf8 text).head? ≠ some TLS_HANDSHAKE)
      (hcut : Text.cutSub HEAD_END text.toList = some (head, []))
      (hhost : ∃ line ∈ crlfLines head, isHost line = true) : FirstUnit (Text.utf8 text)

theorem FirstUnit.ne_nil {u : Bytes} (h : FirstUnit u) : u ≠ [] := by
  intro hnil
  cases h with
  | hello hbyte =>
    rw [hnil] at hbyte
    cases hbyte
  | head _ hcut =>
    rw [Text.utf8_eq_nil] at hnil
    subst hnil
    cases hcut

theorem found_obfuscateLines (found : Bool) (lines : List (List Char)) :
    (obfuscateLines engine decoy found lines).2 = (found || lines.any isHost) := by
  induction lines generalizing found with
  | nil => rw [obfuscateLines, List.any_nil, Bool.or_false]
  | cons line lines ih =>
    rw [obfuscateLines, List.any_cons]
    split_ifs with h
    · show (obfuscateLines engine decoy true lines).2 = _
      rw [ih, h.1]
      simp
    · show (obfuscateLines engine decoy found lines).2 = _
      rw [ih]
      cases hl : isHost line with
      | false => rw [Bool.false_or]
      | true =>
        have hf : found = true := by
          cases hf : found with
          | true => rfl
          | false => exact absurd ⟨hl, hf⟩ h
        rw [hf, Bool.true_or, Bool.true_or]

/-- A head with text behind it is rewritten as the head alone. -/
theorem obfuscateHttp_eq {text : String} {head rest : List Char}
    (hcut : Text.cutSub HEAD_END text.toList = some (head, rest))
    (hhost : ∃ line ∈ crlfLines head, isHost line = true) :
    obfuscateHttp engine (Text.utf8 text) decoy = some (Text.utf8 (String.ofList
      ((obfuscateLines engine decoy false (crlfLines head)).1 ++ LINE_END ++ rest))) := by
  have hfound : (obfuscateLines engine decoy false (crlfLines head)).2 = true := by
    rw [found_obfuscateLines, Bool.false_or]
    exact List.any_eq_true.mpr hhost
  unfold obfuscateHttp
  rw [Text.fromUtf8_utf8]
  show (Text.cutSub HEAD_END text.toList).bind _ = _
  rw [hcut]
  show (if (obfuscateLines engine decoy false (crlfLines head)).2 = true then _ else _) = _
  rw [if_pos hfound]

theorem FirstUnit.rewritten {u : Bytes} (h : FirstUnit u) (engine : Engine) (decoy : String) :
    ∃ u', rewritten engine decoy u = some u' := by
  cases h with
  | hello hbyte _ hread =>
    obtain ⟨p, hp⟩ := Option.isSome_iff_exists.mp hread
    apply Option.isSome_iff_exists.mp
    unfold Sni.rewritten rewriteClientHello
    rw [if_pos hbyte, hp]
    rfl
  | head hbyte hcut hhost =>
    apply Option.isSome_iff_exists.mp
    unfold Sni.rewritten
    rw [if_neg hbyte, obfuscateHttp_eq hcut hhost]
    rfl

theorem head?_of_prefix {b u : Bytes} (hb : b <+: u) (hne : b ≠ []) : b.head? = u.head? := by
  obtain ⟨t, rfl⟩ := hb
  rw [List.head?_append_of_ne_nil _ hne]

/-- A part of a record is no record. -/
theorem readParts_short {b u : Bytes} (hb : b <+: u) (hne : b ≠ u)
    (hlen : u.length = 5 + Bytes.beNat ((u.drop 3).take 2)) : readParts b = none := by
  obtain ⟨t, rfl⟩ := hb
  have ht : 0 < t.length := by
    rw [List.length_pos_iff]
    rintro rfl
    exact hne (List.append_nil b).symm
  unfold readParts
  by_cases hshort : b.length < 5 ∨ b.head? ≠ some TLS_HANDSHAKE
  · rw [if_pos hshort]
  · have h5 : 5 ≤ b.length := by
      by_contra h
      exact hshort (.inl (by omega))
    rw [if_neg hshort]
    have hfield : ((b ++ t).drop 3).take 2 = (b.drop 3).take 2 := by
      rw [List.drop_append_of_le_length (by omega),
        List.take_append_of_le_length (by rw [List.length_drop]; omega)]
    rw [hfield, List.length_append] at hlen
    rw [if_pos (by omega)]

/-- A part of a head is no head. -/
theorem obfuscateHttp_short {b : Bytes} {text : String} {head : List Char}
    (hcut : Text.cutSub HEAD_END text.toList = some (head, [])) (hb : b <+: Text.utf8 text)
    (hne : b ≠ Text.utf8 text) : obfuscateHttp engine b decoy = none := by
  unfold obfuscateHttp
  cases hb' : Text.fromUtf8 b with
  | none => rfl
  | some part =>
    have hbytes := Text.utf8_of_fromUtf8 hb'
    subst hbytes
    obtain ⟨t, ht⟩ := hb
    obtain ⟨r, hr, -⟩ := Text.exists_of_utf8_append ht
    show (Text.cutSub HEAD_END part.toList).bind _ = none
    cases hpart : Text.cutSub HEAD_END part.toList with
    | none => rfl
    | some x =>
      -- the end of the head would stand before the end of the text
      have happ := Text.cutSub_append (a := x.1) (b := x.2) hpart r
      rw [← hr, hcut] at happ
      have hnil := (List.append_eq_nil_iff.mp (congrArg Prod.snd (Option.some.inj happ)).symm).2
      rw [hnil, List.append_nil] at hr
      exact absurd (congrArg Text.utf8 (String.toList_inj.mp hr)).symm hne

/-- A buffer that ends inside the first record or head is left as it is. -/
theorem FirstUnit.rewritten_short {b u : Bytes} (h : FirstUnit u) (hb : b <+: u) (hne : b ≠ u)
    (hnil : b ≠ []) : Sni.rewritten engine decoy b = none := by
  have hbyte' := head?_of_prefix hb hnil
  unfold Sni.rewritten
  cases h with
  | hello hbyte hlen _ =>
    rw [if_pos (hbyte'.trans hbyte)]
    unfold rewriteClientHello
    rw [readParts_short hb hne hlen]
    rfl
  | head hbyte hcut _ =>
    rw [if_neg (by rw [hbyte']; exact hbyte)]
    exact obfuscateHttp_short hcut hb hne

/-- A buffer that holds the first head and text behind it: the text follows the
rewritten head. -/
theorem FirstUnit.rewritten_append {u t : Bytes} (h : FirstUnit u)
    (hbyte : u.head? ≠ some TLS_HANDSHAKE) (htext : (Text.fromUtf8 (u ++ t)).isSome)
    {u' : Bytes} (hu' : Sni.rewritten engine decoy u = some u') :
    Sni.rewritten engine decoy (u ++ t) = some (u' ++ t) := by
  have hnil := h.ne_nil
  cases h with
  | hello hbyte' => exact absurd hbyte' hbyte
  | @head text head _ hcut hhost =>
    obtain ⟨whole, hwhole⟩ := Option.isSome_iff_exists.mp htext
    have hbytes := Text.utf8_of_fromUtf8 hwhole
    obtain ⟨r, hr, ht⟩ := Text.exists_of_utf8_append hbytes.symm
    have hcut' : Text.cutSub HEAD_END whole.toList = some (head, r) := by
      rw [hr]
      exact Text.cutSub_append hcut r
    unfold Sni.rewritten at hu' ⊢
    rw [if_neg hbyte, obfuscateHttp_eq hcut hhost] at hu'
    rw [List.head?_append_of_ne_nil _ hnil, if_neg hbyte, ← hbytes, obfuscateHttp_eq hcut' hhost,
      ← Option.some.inj hu', ht, ← Text.utf8_append, ← String.ofList_append, List.append_nil]

/-! ## A transport that never fails -/

theorem write_willing {dst : Outbound IoError} (h : dst.Willing) (bs : Bytes) :
    (dst.write bs).2.Willing ∧
      ((dst.write bs).1 = .pending ∧ (dst.write bs).2.sent = dst.sent ∨
        ∃ n ≤ bs.length, (dst.write bs).1 = .ready (.ok n) ∧
          (dst.write bs).2.sent = dst.sent ++ bs.take n) := by
  obtain ⟨grants, sent⟩ := dst
  cases grants with
  | nil => exact ⟨h, .inl ⟨rfl, rfl⟩⟩
  | cons g gs =>
    have hgs : ∀ sent', Outbound.Willing ⟨gs, sent'⟩ :=
      fun _ g' hg' => h g' (List.mem_cons_of_mem _ hg')
    rcases h g (List.mem_cons_self ..) with rfl | ⟨k, rfl⟩
    · exact ⟨hgs _, .inl ⟨rfl, rfl⟩⟩
    · exact ⟨hgs _, .inr ⟨_, Nat.min_le_right _ _, rfl, rfl⟩⟩

theorem willing_finish {dst : Outbound IoError} (h : dst.Willing) : dst.finish.2.Willing := by
  obtain ⟨grants, sent⟩ := dst
  cases grants with
  | nil => exact h
  | cons g gs =>
    have hgs : Outbound.Willing (⟨gs, sent⟩ : Outbound IoError) :=
      fun g' hg' => h g' (List.mem_cons_of_mem _ hg')
    cases g <;> exact hgs

namespace SniClientConn

/-- A connection that has looked at its first write: `base` went out for what was
accepted before, and since then everything is passed on. -/
structure Passing (base : Bytes) (log : List Bytes) (c : SniClientConn) : Prop where
  obfuscated : c.obfuscated = true
  willing : c.inner.outbound.Willing
  bytes : c.produced = base ++ log.flatten

namespace Passing

variable {base : Bytes} {log : List Bytes} {c : SniClientConn}

theorem flushOut (h : Passing base log c) : Passing base log c.flushOut.2 where
  obfuscated := h.obfuscated
  willing := willing_drainOut h.willing
  bytes := (drainOut_spec zeroErr c.out c.inner.outbound).trans h.bytes

/-- With nothing queued a write goes straight to the transport. -/
theorem pass (h : Passing base log c) (hout : c.out.rest = []) (buf : Bytes) :
    ByteWriter.Accepts (Passing base) log buf (c.pass buf) := by
  obtain ⟨hwill, hres⟩ := write_willing h.willing buf
  have hsent := h.bytes
  unfold produced at hsent
  rw [hout, List.append_nil] at hsent
  rcases hres with ⟨hpend, hs⟩ | ⟨n, -, hn, hs⟩
  · refine .refused (fun n hn => ?_) ⟨h.obfuscated, hwill, ?_⟩
    · change (c.inner.outbound.write buf).1 = _ at hn
      rw [hpend] at hn
      cases hn
    · show (c.inner.outbound.write buf).2.sent ++ c.out.rest = _
      rw [hs, hout, List.append_nil, hsent]
  · cases n with
    | zero =>
      refine .refused (fun m hm => ?_) ⟨h.obfuscated, hwill, ?_⟩
      · change (c.inner.outbound.write buf).1 = _ at hm
        rw [hn] at hm
        cases hm
      · show (c.inner.outbound.write buf).2.sent ++ c.out.rest = _
        rw [hs, hout, List.take_zero, List.append_nil, List.append_nil, hsent]
    | succ n =>
      refine .part hn (Nat.succ_pos n) ⟨h.obfuscated, hwill, ?_⟩
      show (c.inner.outbound.write buf).2.sent ++ c.out.rest = _
      rw [hs, hout, List.append_nil, hsent, List.flatten_append, List.flatten_singleton,
        List.append_assoc]

/-- What `flush_out` answers over a transport that never fails. -/
theorem flushOut_cases (h : c.inner.outbound.Willing) :
    (c.flushOut.1 = .ready (.ok ()) ∧ c.flushOut.2.out.rest = []) ∨ c.flushOut.1 = .pending := by
  rcases @drainOut_willing zeroErr c.out _ h with hd | hd
  · exact .inl ⟨hd, drainOut_done hd⟩
  · exact .inr hd

theorem write (h : Passing base log c) (buf : Bytes) :
    ByteWriter.Accepts (Passing base) log buf (c.pollWrite engine buf) := by
  have hflush := h.flushOut
  unfold pollWrite
  rcases flushOut_cases h.willing with ⟨hok, hout⟩ | hpend
  · revert hflush hok hout
    rcases c.flushOut with ⟨a, c'⟩
    rintro hflush hok hout
    cases hok
    show ByteWriter.Accepts (Passing base) log buf
      (if c'.obfuscated ∨ c'.host = "" ∨ buf = [] then c'.pass buf else c'.obfuscate engine buf)
    rw [if_pos (.inl hflush.obfuscated)]
    exact hflush.pass hout buf
  · revert hflush hpend
    rcases c.flushOut with ⟨a, c'⟩
    rintro hflush hpend
    cases hpend
    exact .refused (fun n hn => by cases hn) hflush

theorem finish (h : Passing base log c) : Passing base log c.pollFinish.2 := by
  have hflush := h.flushOut
  unfold pollFinish
  revert hflush
  rcases c.flushOut with ⟨a, c'⟩
  intro hflush
  match a with
  | .pending | .ready (.error e) => exact hflush
  | .ready (.ok ()) =>
    refine ⟨hflush.obfuscated, willing_finish hflush.willing, ?_⟩
    show c'.inner.outbound.finish.2.sent ++ c'.out.rest = _
    rw [Outbound.sent_finish]
    exact hflush.bytes

theorem run (h : Passing base log c) (ops : List WriteOp) :
    Passing base (log ++ ((writer engine).run ops c).1) ((writer engine).run ops c).2 :=
  ByteWriter.run_keeps_from (fun _ _ buf h => h.write buf) (fun _ _ h => h.finish)
    (fun _ _ h => h.finish) ops h

end Passing

/-- The transport gets the stream `s`: what it has taken is a part of it, a flush that ends or
a further write finds it taken, and a flush ends if the transport takes something at every
poll. -/
structure Transmits (engine : Engine) (s : Bytes) (c : SniClientConn) : Prop where
  inOrder : c.inner.outbound.sent <+: s
  flushed : c.pollFlush.1 = .ready (.ok ()) → c.pollFlush.2.inner.outbound.sent = s
  written : ∀ buf n, (c.pollWrite engine buf).1 = .ready (.ok (n + 1)) →
    (c.pollWrite engine buf).2.inner.outbound.sent = s ++ buf.take (n + 1)
  ends : c.inner.outbound.Ready (s.length + 1) → c.pollFlush.1 = .ready (.ok ())

theorem sent_of_flushed {c : SniClientConn} (h : c.flushOut.1 = .ready (.ok ())) :
    c.flushOut.2.inner.outbound.sent = c.produced := by
  have hprod : c.flushOut.2.produced = c.produced := drainOut_spec zeroErr c.out c.inner.outbound
  have hrest : c.flushOut.2.out.rest = [] := drainOut_done h
  rw [← hprod, produced, hrest, List.append_nil]

theorem Passing.transmits {base : Bytes} {log : List Bytes} {c : SniClientConn}
    (h : Passing base log c) : Transmits engine (base ++ log.flatten) c := by
  have hsent : c.flushOut.1 = .ready (.ok ()) →
      c.flushOut.2.inner.outbound.sent = base ++ log.flatten := by
    intro hok
    rw [sent_of_flushed hok, h.bytes]
  refine ⟨?_, fun hok => ?_, fun buf n hn => ?_, fun hready => ?_⟩
  · rw [← h.bytes]
    exact List.prefix_append _ _
  · unfold pollFlush pollFinish at hok ⊢
    revert hok hsent
    rcases c.flushOut with ⟨a, c'⟩
    match a with
    | .pending | .ready (.error e) => exact fun _ hok => by cases hok
    | .ready (.ok ()) => exact fun hsent _ => (Outbound.sent_finish _).trans (hsent rfl)
  · have hflush := h.flushOut
    have hcases := flushOut_cases h.willing
    unfold pollWrite at hn ⊢
    revert hsent hn hflush hcases
    rcases c.flushOut with ⟨a, c'⟩
    intro hsent hn hflush hcases
    dsimp only at hcases
    rcases hcases with ⟨rfl, -⟩ | rfl
    · dsimp only at hn hsent ⊢
      have hpass : c'.obfuscated ∨ c'.host = "" ∨ buf = [] := .inl hflush.obfuscated
      rw [if_pos hpass] at hn ⊢
      change (c'.inner.outbound.write buf).1 = _ at hn
      show (c'.inner.outbound.write buf).2.sent = _
      rcases (write_willing hflush.willing buf).2 with ⟨hp, -⟩ | ⟨m, -, hm, hs⟩
      · rw [hp] at hn
        cases hn
      · rw [hm] at hn
        cases hn
        rw [hs, hsent rfl]
    · cases hn
  · have hmore : c.inner.outbound.Ready (c.out.rest.length + 1) := by
      refine hready.mono ?_
      rw [← h.bytes, produced, List.length_append]
      omega
    obtain ⟨hdone, hone⟩ := drainOut_ready zeroErr hmore
    have hflush : c.flushOut.1 = .ready (.ok ()) := hdone
    have hfinish : c.flushOut.2.inner.outbound.finish.1 = .ready (.ok ()) := hone.finish
    unfold pollFlush pollFinish
    revert hflush hfinish
    rcases c.flushOut with ⟨a, c'⟩
    intro hflush hfinish
    dsimp only at hflush
    subst hflush
    exact hfinish

/-! ## The first write -/

/-- With nothing queued there is nothing to flush. -/
theorem flushOut_of_empty {c : SniClientConn} (h : c.out = .empty) :
    c.flushOut = (.ready (.ok ()), c) := by
  have hdrain : drainOut zeroErr .empty c.inner.outbound = (.ready (.ok ()), .empty, c.inner.outbound) := by
    unfold drainOut
    rw [flush, if_neg (by decide)]
  unfold flushOut
  rw [h, hdrain]
  obtain ⟨inner, host, obfuscated, out⟩ := c
  cases h
  rfl

theorem pollWrite_new {inner : Transport} {host : String} (buf : Bytes) :
    (new inner host).pollWrite engine buf =
      if host = "" ∨ buf = [] then (new inner host).pass buf
      else (new inner host).obfuscate engine buf := by
  unfold pollWrite
  rw [flushOut_of_empty rfl]
  by_cases h : host = "" ∨ buf = []
  · rw [if_pos h]
    exact if_pos (.inr h)
  · rw [if_neg h]
    exact if_neg fun h' => h (h'.resolve_left Bool.false_ne_true)

/-- What is sent when `b` is the first buffer that is not empty. -/
structure Decided (engine : Engine) (host : String) (b : Bytes)
    (x : List Bytes × SniClientConn) : Prop where
  unchanged : rewritten engine host b = none → Passing [] x.1 x.2
  changed : ∀ r, rewritten engine host b = some r →
    ∃ log, x.1 = b :: log ∧ Passing r log x.2

/-- A connection that is still to see its first buffer stays one. -/
theorem pollFinish_new (inner : Transport) (host : String) :
    ((new inner host).pollFinish).2 =
      new { inner with outbound := inner.outbound.finish.2 } host := by
  unfold pollFinish
  rw [flushOut_of_empty rfl]
  rfl

theorem obfuscate_none {c : SniClientConn} {b : Bytes} (h : rewritten engine c.host b = none) :
    c.obfuscate engine b = pass b { c with obfuscated := true } := by
  unfold obfuscate
  rw [h]

theorem obfuscate_some {c : SniClientConn} {b r : Bytes} (h : rewritten engine c.host b = some r)
    (hw : c.inner.outbound.Willing) : c.obfuscate engine b =
      (.ready (.ok b.length), (flushOut { c with obfuscated := true, out := .ofBytes r }).2) := by
  have hfl := Passing.flushOut_cases (c := { c with obfuscated := true, out := .ofBytes r }) hw
  unfold obfuscate
  rw [h]
  dsimp only
  revert hfl
  rcases flushOut { c with obfuscated := true, out := .ofBytes r } with ⟨a, c'⟩
  rintro (⟨hok, -⟩ | hpend)
  · cases hok
    rfl
  · cases hpend
    rfl

theorem decided_write {inner : Transport} {host : String} (hhost : host ≠ "")
    (hw : inner.outbound.Willing) (hsent : inner.outbound.sent = []) {b : Bytes} (hb : b ≠ [])
    (ops : List WriteOp) :
    Decided engine host b ((writer engine).run (.write b :: ops) (new inner host)) := by
  have hpoll : (new inner host).pollWrite engine b = (new inner host).obfuscate engine b := by
    rw [pollWrite_new, if_neg (by simp [hhost, hb])]
  constructor
  · intro hr
    -- from here on it makes no difference that the first write is still to come
    let c : SniClientConn := { new inner host with obfuscated := true }
    have hstart : Passing [] [] c := by
      refine ⟨rfl, hw, ?_⟩
      show inner.outbound.sent ++ Cursor.empty.rest = _
      rw [hsent]
      rfl
    have hsame : (new inner host).pollWrite engine b = c.pollWrite engine b := by
      rw [hpoll, obfuscate_none (c := new inner host) hr]
      unfold pollWrite
      rw [flushOut_of_empty rfl]
      exact (if_pos (.inl rfl)).symm
    rw [ByteWriter.run_write_congr hsame]
    exact hstart.run (.write b :: ops)
  · intro r hr
    have hqueued : Passing r [] { new inner host with obfuscated := true, out := .ofBytes r } := by
      refine ⟨rfl, hw, ?_⟩
      show inner.outbound.sent ++ (Cursor.ofBytes r).rest = _
      rw [hsent, Cursor.rest_ofBytes]
      exact (List.append_nil r).symm
    have hwrite := hpoll.trans (obfuscate_some (c := new inner host) hr hw)
    rw [ByteWriter.run_write_whole hwrite hb]
    exact ⟨_, rfl, hqueued.flushOut.run ops⟩

/-- The first buffer that is not empty decides what is sent. -/
theorem decided_run {host : String} (hhost : host ≠ "") {b : Bytes} (ops : List WriteOp) :
    ∀ {inner : Transport}, inner.outbound.Willing → inner.outbound.sent = [] →
      firstWrite ops = some b → Decided engine host b ((writer engine).run ops (new inner host)) := by
  induction ops with
  | nil =>
    intro inner _ _ hb
    cases hb
  | cons op ops ih =>
    intro inner hw hsent hb
    cases op with
    | flush | shutdown =>
      rw [ByteWriter.run]
      show Decided engine host b ((writer engine).run ops ((new inner host).pollFinish).2)
      rw [pollFinish_new]
      exact ih (willing_finish hw) (by rw [Outbound.sent_finish, hsent]) hb
    | write buf =>
      by_cases hbuf : buf = []
      · subst hbuf
        have hpoll : (new inner host).pollWrite engine [] = (new inner host).pass [] := by
          rw [pollWrite_new, if_pos (.inr rfl)]
        obtain ⟨hwill, hres⟩ := write_willing hw []
        have hrefused : ∀ n, ((writer engine).write [] (new inner host)).1 ≠ .ready (.ok (n + 1)) := by
          intro n hn
          change ((new inner host).pollWrite engine []).1 = _ at hn
          rw [hpoll] at hn
          change (inner.outbound.write []).1 = _ at hn
          rcases hres with ⟨hp, -⟩ | ⟨m, hm, hr, -⟩
          · rw [hp] at hn
            cases hn
          · rw [hr] at hn
            cases hn
            exact absurd hm (Nat.not_succ_le_zero n)
        rw [ByteWriter.run_write_refused hrefused]
        show Decided engine host b ((writer engine).run ops ((new inner host).pollWrite engine []).2)
        rw [hpoll]
        refine @ih { inner with outbound := (inner.outbound.write []).2 } hwill ?_ hb
        show (inner.outbound.write []).2.sent = []
        rcases hres with ⟨-, hs⟩ | ⟨m, -, -, hs⟩
        · rw [hs, hsent]
        · rw [hs, hsent, List.take_nil, List.append_nil]
      · have hfirst : firstWrite (.write buf :: ops) = some buf := by
          unfold firstWrite
          show (buf :: ByteWriter.offered ops).find? _ = _
          rw [List.find?_cons_of_pos (by simpa using hbuf)]
        rw [hfirst] at hb
        cases hb
        exact decided_write hhost hw hsent hbuf ops

/-- Over a transport that never fails, a first buffer that holds just the first record,
or the first head and text behind it, is rewritten, and the rest of the stream follows
unchanged however it is cut.  If the record or the head ends behind the first buffer, or
there is something else than text behind the head, the stream goes out as it is. -/
theorem sni_client_stream (engine : Engine) {host : String} (hhost : host ≠ "")
    {inner : Transport} (hw : inner.outbound.Willing) (hsent : inner.outbound.sent = [])
    {ops : List WriteOp} {b u tail : Bytes} (hb : firstWrite ops = some b) (hu : FirstUnit u)
    (hall : ((writer engine).run ops (new inner host)).1.flatten = u ++ tail) :
    ∃ u', rewritten engine host u = some u' ∧
      (b = u ∨ u.head? ≠ some TLS_HANDSHAKE ∧ u <+: b ∧ (Text.fromUtf8 b).isSome →
        Transmits engine (u' ++ tail) ((writer engine).run ops (new inner host)).2) ∧
      (b <+: u ∧ b ≠ u ∨ u.head? ≠ some TLS_HANDSHAKE ∧ u <+: b ∧ Text.fromUtf8 b = none →
        Transmits engine (u ++ tail) ((writer engine).run ops (new inner host)).2) := by
  have hdec : Decided engine host b ((writer engine).run ops (new inner host)) :=
    decided_run hhost ops hw hsent hb
  have hnil : b ≠ [] := by
    have := List.find?_some hb
    simpa using this
  obtain ⟨u', hu'⟩ := hu.rewritten engine host
  refine ⟨u', hu', fun hfirst => ?_, fun hfirst => ?_⟩
  · rcases hfirst with rfl | ⟨hbyte, ⟨t, rfl⟩, htext⟩
    · obtain ⟨log, hlog, hpass⟩ := hdec.changed u' hu'
      rw [hlog, List.flatten_cons] at hall
      rw [← List.append_cancel_left hall]
      exact hpass.transmits
    · obtain ⟨log, hlog, hpass⟩ := hdec.changed _ (hu.rewritten_append hbyte htext hu')
      rw [hlog, List.flatten_cons, List.append_assoc] at hall
      rw [← List.append_cancel_left hall, ← List.append_assoc]
      exact hpass.transmits
  · rw [← hall]
    refine (hdec.unchanged ?_).transmits
    rcases hfirst with ⟨hpre, hne⟩ | ⟨hbyte, hpre, htext⟩
    · exact hu.rewritten_short hpre hne hnil
    · have hbyte' : b.head? ≠ some TLS_HANDSHAKE := by
        rw [← head?_of_prefix hpre hu.ne_nil]
        exact hbyte
      unfold rewritten obfuscateHttp
      rw [if_neg hbyte', htext]
      rfl

/-- A small request for the host `a`. -/
def plainRequest : String := "GET / HTTP/1.1\r\nHost: a\r\n\r\n"

theorem firstUnit_plainRequest : FirstUnit (Text.utf8 plainRequest) :=
  @FirstUnit.head _ "GET / HTTP/1.1\r\nHost: a".toList (by decide) (by decide)
    ⟨"Host: a".toList, by decide, by decide⟩

/-- What is sent for it to the decoy `d`. -/
def plainDecoyed : Bytes :=
  Text.utf8 "GET / HTTP/1.1\r\nHost: d\r\nGost-Target: 6Le-Q1lR\r\n\r\n"

theorem rewritten_plainRequest :
    rewritten urlSafeNoPad "d" (Text.utf8 plainRequest) = some plainDecoyed := by
  decide

/-- A transport that takes what it is offered. -/
def takesAll : Transport := .new ⟨[], true⟩ [.accept 99, .accept 99, .accept 99]

theorem willing_takesAll : takesAll.outbound.Willing := by
  intro g hg
  have hg' : g = .accept 99 := by simpa [takesAll, Transport.new] using hg
  exact .inr ⟨98, hg'⟩

/-- The request and, behind it, two bytes more. -/
def requestAndTail : List WriteOp := [.write (Text.utf8 plainRequest), .write [1, 2]]

theorem run_requestAndTail : (writer urlSafeNoPad).run requestAndTail (new takesAll "d") =
    ([Text.utf8 plainRequest, [1, 2]], { new takesAll "d" with
      obfuscated := true
      inner := { takesAll with outbound := ⟨[.accept 99], plainDecoyed ++ [1, 2]⟩ } }) := by
  have hlen : plainDecoyed.length = 50 := by decide
  have hflushed : (flushOut { new takesAll "d" with
      obfuscated := true, out := .ofBytes plainDecoyed }).2 = { new takesAll "d" with
        obfuscated := true
        inner := { takesAll with outbound := ⟨[.accept 99, .accept 99], plainDecoyed⟩ } } := by
    simp [flushOut, drainOut, flush, takesAll, Transport.new, Outbound.write, Cursor.ofBytes,
      Cursor.rest, Cursor.advance, Cursor.empty, hlen, new, List.take_of_length_le]
  have hne : Text.utf8 plainRequest ≠ [] := firstUnit_plainRequest.ne_nil
  have hfirst : (writer urlSafeNoPad).write (Text.utf8 plainRequest) (new takesAll "d") = _ :=
    (pollWrite_new _).trans ((if_neg (by simp [hne])).trans
      (obfuscate_some rewritten_plainRequest willing_takesAll))
  rw [hflushed] at hfirst
  have hsecond : (writer urlSafeNoPad).write [1, 2] { new takesAll "d" with
      obfuscated := true
      inner := { takesAll with outbound := ⟨[.accept 99, .accept 99], plainDecoyed⟩ } }
      = (.ready (.ok 2), { new takesAll "d" with
        obfuscated := true
        inner := { takesAll with outbound := ⟨[.accept 99], plainDecoyed ++ [1, 2]⟩ } }) := by
    show pollWrite _ _ _ = _
    unfold pollWrite
    rw [flushOut_of_empty rfl]
    rfl
  rw [requestAndTail, ByteWriter.run_write_whole hfirst hne,
    ByteWriter.run_write_whole hsecond (by decide)]
  rfl

/-- The request is rewritten, and what follows it comes behind it. -/
theorem sni_client_stream_whole :
    ((writer urlSafeNoPad).run requestAndTail
        (new takesAll "d")).2.pollFlush.2.inner.outbound.sent = plainDecoyed ++ [1, 2] := by
  obtain ⟨u', hu', hsent, -⟩ := @sni_client_stream urlSafeNoPad "d" (by decide) _ willing_takesAll
    rfl requestAndTail (Text.utf8 plainRequest) _ [1, 2] (by decide) firstUnit_plainRequest
    (by rw [run_requestAndTail]; rfl)
  rw [rewritten_plainRequest] at hu'
  obtain rfl := Option.some.inj hu'
  refine (hsent (.inl rfl)).flushed ?_
  rw [run_requestAndTail]
  unfold pollFlush pollFinish
  rw [flushOut_of_empty rfl]
  rfl

/-- Cut after its first byte it goes out with its own `Host`. -/
theorem sni_client_cut :
    ∃ ops, ((writer urlSafeNoPad).run ops (new takesAll "d")).1.flatten = Text.utf8 plainRequest ∧
      ((writer urlSafeNoPad).run ops (new takesAll "d")).2.pollFlush.1 = .ready (.ok ()) ∧
      ((writer urlSafeNoPad).run ops (new takesAll "d")).2.pollFlush.2.inner.outbound.sent
        ≠ plainDecoyed := by
  let first : Bytes := (Text.utf8 plainRequest).take 1
  let second : Bytes := (Text.utf8 plainRequest).drop 1
  have hjoin : first ++ second = Text.utf8 plainRequest := List.take_append_drop 1 _
  have hnone : rewritten urlSafeNoPad "d" first = none :=
    firstUnit_plainRequest.rewritten_short (List.take_prefix _ _) (by decide)
      (by decide)
  have hfirst : (writer urlSafeNoPad).write first (new takesAll "d") = (.ready (.ok first.length),
      { new takesAll "d" with
        obfuscated := true
        inner := { takesAll with outbound := ⟨[.accept 99, .accept 99], first⟩ } }) :=
    (pollWrite_new _).trans ((if_neg (by decide)).trans (obfuscate_none hnone))
  have hsecond : (writer urlSafeNoPad).write second
      { new takesAll "d" with
        obfuscated := true
        inner := { takesAll with outbound := ⟨[.accept 99, .accept 99], first⟩ } }
      = (.ready (.ok second.length),
      { new takesAll "d" with
        obfuscated := true
        inner := { takesAll with outbound := ⟨[.accept 99], Text.utf8 plainRequest⟩ } }) := by
    show pollWrite _ _ _ = _
    unfold pollWrite
    rw [flushOut_of_empty rfl]
    rfl
  have hrun : (writer urlSafeNoPad).run [.write first, .write second] (new takesAll "d") =
      ([first, second], { new takesAll "d" with
        obfuscated := true
        inner := { takesAll with outbound := ⟨[.accept 99], Text.utf8 plainRequest⟩ } }) := by
    rw [ByteWriter.run_write_whole hfirst (by decide),
      ByteWriter.run_write_whole hsecond (by decide)]
    rfl
  refine ⟨[.write first, .write second], ?_, ?_, ?_⟩
  · rw [hrun]
    exact (List.append_assoc ..).symm.trans ((List.append_nil _).trans hjoin)
  · rw [hrun]
    unfold pollFlush pollFinish
    rw [flushOut_of_empty rfl]
    rfl
  · rw [hrun]
    unfold pollFlush pollFinish
    rw [flushOut_of_empty rfl]
    show Text.utf8 plainRequest ≠ plainDecoyed
    decide

end SniClientConn

end Sni
end RtProxy
