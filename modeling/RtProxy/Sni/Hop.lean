import RtProxy.Handler.Gate
import RtProxy.Handler.Pipelined
import RtProxy.Sni.Cuts

/-!
A TLS client behind an SNI hop: the client end of the hop in front of the SNI proxy.

The client end shows a decoy if the first buffer is the ClientHello, and else passes it on as
it is.  The proxy finds the destination in either record and restores the same one.
-/

namespace RtProxy
namespace Sni

open Act ByteStream
open HttpHandler (Joined JoinedTo Quiet bringsTo apart_send joined_of_apart quiet_of_wire
  splice_joinedTo write_joinedTo)

variable {engine : Engine} {n d : String}

/-! ## What the proxy makes of a record -/

theorem takeHost_plain {exts : List Extension} (h : ∀ ext ∈ exts, ext.1 ≠ EXT_GOST_HOST)
    (host : String) : takeHost engine host exts = (host, exts) := by
  induction exts with
  | nil => rfl
  | cons ext exts ih =>
    rw [List.forall_mem_cons] at h
    rw [takeHost, if_neg h.1, ih h.2]

/-- The name that is shown is the destination. -/
theorem editName_shown {exts : List Extension} (hname : serverName exts = some n) (hn : n ≠ "") :
    editName engine "" false exts = (setName n exts, n, none) := by
  induction exts with
  | nil => cases hname
  | cons ext exts ih =>
    rw [editName, setName]
    by_cases htype : ext.1 = EXT_SERVER_NAME
    · have hbody : sniName ext.2 = some n := by
        rw [serverName, List.find?_cons_of_pos (by simpa using htype)] at hname
        exact hname
      simp [htype, hbody, hn]
    · have hrest : serverName exts = some n := by
        rw [serverName, List.find?_cons_of_neg (by simpa using htype)] at hname
        exact hname
      simp [htype, ih hrest]

theorem rewriteClientHello_plain {record : Bytes} {p : Parts} (hread : readParts record = some p)
    (hgost : ∀ ext ∈ p.exts, ext.1 ≠ EXT_GOST_HOST) (hname : serverName p.exts = some n)
    (hn : n ≠ "") : rewriteClientHello engine record "" false = some ((p.named n).bytes, n) := by
  rw [rewriteClientHello, hread]
  simp only [Option.bind_eq_bind, Option.bind_some, Bool.false_eq_true, if_false,
    takeHost_plain hgost, editName_shown hname hn, Option.toList_none, List.append_nil]
  rfl

/-- A record that begins like one and is as long as it says. -/
structure Whole (record : Bytes) : Prop where
  byte : record.head? = some TLS_HANDSHAKE
  size : record.length = TLS_RECORD_HEADER_LEN + u16At record 3

theorem whole_of_readParts {record : Bytes} (hread : (readParts record).isSome)
    (hsize : record.length = 5 + Bytes.beNat ((record.drop 3).take 2)) : Whole record := by
  refine ⟨?_, hsize⟩
  by_contra hbyte
  rw [readParts, if_pos (.inr hbyte)] at hread
  cases hread

/-- The record that the client end writes, and what the proxy makes of it. -/
theorem restored (hengine : engine.Lawful) {u : Bytes} {p : Parts} (hread : readParts u = some p)
    (hsize : u.length = 5 + Bytes.beNat ((u.drop 3).take 2)) (hmax : u.length ≤ 16389)
    (hname : serverName p.exts = some n) (hn : n ≠ "")
    (hgost : ∀ ext ∈ p.exts, ext.1 ≠ EXT_GOST_HOST) (hd : d ≠ "")
    (hdlen : (Text.utf8 d).length ≤ 255) :
    ∃ shown, rewriteClientHello engine u d true = some (shown, d) ∧ nameOf shown = some d ∧
      Whole shown ∧ rewriteClientHello engine shown "" false = some ((p.named n).bytes, n) := by
  obtain ⟨hwf, len, blockLen, junk, more, heq, hlen, hblockLen, hjunk, hnat, -⟩ :=
    Parts.wf_of_readParts hread
  have hhello : p.hello.length ≤ 16384 := by
    have hlens := congrArg List.length heq
    have hparts := p.length_hello
    simp only [List.length_append, hwf.front, hlen, hblockLen] at hlens
    omega
  have hshown := wf_shown hengine hwf hhello hname hdlen
  have hreadShown := Parts.readParts_bytes hshown
  refine ⟨Parts.bytes { p with exts := shownExts engine n d p.exts },
    rewriteClientHello_client hread hname hd, ?_, ?_, ?_⟩
  · rw [nameOf, hreadShown]
    exact serverName_append (serverName_setName hname (by omega)) _
  · exact whole_of_readParts (by rw [hreadShown]; rfl) (Parts.consistent_bytes hshown).size
  · rw [rewriteClientHello_server (p := Parts.settled { p with exts := shownExts engine n d p.exts })
      hengine hreadShown (gost_setName hgost d) hn, setName_setName]
    exact congrArg (fun bytes => some (bytes, n)) (Parts.bytes_settled
      (p := { p with exts := shownExts engine n d p.exts }) hwf.opens (setName n p.exts))

/-! ## The proxy -/

namespace SniHandler

variable {env : Env} {o : HandlerOptions}

/-- The first record decides. -/
theorem handle_whole {record record' : Bytes} (hwhole : Whole record)
    (hrewrite : rewriteClientHello engine record "" false = some (record', n)) (hn : n ≠ "")
    (tail : Bytes) (log : List Event) :
    handle env o engine (record ++ tail) log =
      (if record.length > MAX_CLIENT_HELLO then fail (.proxy "SNI: ClientHello too large")
        else forward env o (some record') record.length s!"{n}:{targetPort o}") (record ++ tail)
          log := by
  have hlong : TLS_RECORD_HEADER_LEN ≤ record.length := by
    rw [hwhole.size]
    exact Nat.le_add_right _ _
  have hpeek (k : Nat) : peek k (record ++ tail) log = ⟨.ok ((record ++ tail).take k),
      record ++ tail, []⟩ := rfl
  obtain ⟨b, rest, hb⟩ : ∃ b rest, record = b :: rest := List.exists_cons_of_length_pos (by
    rw [hwhole.size, TLS_RECORD_HEADER_LEN]
    omega)
  have hbyte : b = TLS_HANDSHAKE := by
    have hhead := hwhole.byte
    rw [hb] at hhead
    exact Option.some.inj hhead
  have hfirst : (record ++ tail).take 1 = [b] := by
    rw [hb]
    rfl
  have hfield : u16At ((record ++ tail).take TLS_RECORD_HEADER_LEN) 3 = u16At record 3 := by
    unfold u16At
    rw [List.take_append_of_le_length hlong, List.drop_take, List.take_take]
    rfl
  unfold handle
  rw [bind_silent (hpeek 1), hfirst]
  dsimp only
  rw [if_pos hbyte, serveTls, bind_silent (hpeek _),
    if_neg (by rw [List.length_take, List.length_append]; omega), hfield, ← hwhole.size]
  split_ifs with hlarge
  · rfl
  · have hbuf : (record ++ tail).take record.length = record := List.take_left
    rw [bind_silent (hpeek _), hbuf, destination, hrewrite]
    dsimp only
    rw [if_neg hn]

/-- What follows a dial. -/
theorem deliver_joinedTo {record : Bytes} (record' tail : Bytes) (cc : Conn) (log : List Event) :
    JoinedTo cc (record' ++ tail) ((do
      let initial ← take (takeExact record.length)
      send env cc ((some record').getD initial)
      splice cc : Action HandlerError Unit) (record ++ tail) log).events := by
  have htake : takeExact record.length (record ++ tail) = .ok (record, tail) := by
    unfold takeExact
    rw [if_neg (by rw [List.length_append]; omega), List.take_left, List.drop_left]
  rw [bind_silent (take_ok htake)]
  have hsend := write_joinedTo env (apart_send cc record') (splice_joinedTo cc tail) log
  rw [bringsTo, if_pos rfl] at hsend
  exact hsend

theorem dial_quiet (chain : Chain) (t : String) : (chain.dial env t).Emits Quiet := by
  have hdial : Quiet (.dial t) := ⟨fun _ _ => nofun, fun _ => rfl⟩
  have hfailed : Quiet (.failed t) := ⟨fun _ _ => nofun, fun _ => rfl⟩
  refine @dialWithOptions_emits env (fun _ => True) _ chain t _ hdial hfailed ?_ ?_ ?_
  · exact fun e he => quiet_of_wire he.1
  · exact fun _ _ _ => trivial
  · exact lookupWithin_any _ _

/-- Whoever the client is joined with has received the record and what follows it. -/
theorem forward_joined {record : Bytes} (record' tail : Bytes) (t : String) (log : List Event) :
    Joined (record' ++ tail)
      (forward env o (some record') record.length t (record ++ tail) log).events := by
  have hchecks : ∀ e ∈ checkEvents o t, Quiet e := by
    have hcan : Quiet (.can "tcp" t (o.allows "tcp" t)) := ⟨fun _ _ => nofun, fun _ => rfl⟩
    have hbypass : Quiet (.bypass t (o.bypasses t)) := ⟨fun _ _ => nofun, fun _ => rfl⟩
    unfold checkEvents
    split_ifs <;> simp [hcan, hbypass]
  unfold forward
  rw [checked_run]
  refine Joined.quiet_append hchecks ?_
  split_ifs
  · exact joined_of_apart (emits_pure _ _ _)
  · have hquiet := @dial_quiet env o.chainOrEmpty t (record ++ tail) (log ++ checkEvents o t)
    have hkeeps : (o.chainOrEmpty.dial env t).Keeps := dialWithOptions_keeps _ _ _
    have hstate := hkeeps (record ++ tail) (log ++ checkEvents o t)
    rcases hrun : o.chainOrEmpty.dial env t (record ++ tail) (log ++ checkEvents o t) with
      ⟨res, s', new⟩
    rw [hrun] at hquiet hstate
    dsimp only at hquiet hstate
    subst hstate
    have hattempt : (attempt (o.chainOrEmpty.dial env t) : Action HandlerError _) (record ++ tail)
        (log ++ checkEvents o t) = ⟨.ok res, record ++ tail, new⟩ := by
      unfold attempt
      rw [hrun]
    rw [bind_ok hattempt]
    refine Joined.quiet_append hquiet ?_
    cases res with
    | ok cc => exact (deliver_joinedTo record' tail cc _).joined
    | error e => exact joined_of_apart (emits_fail _ _ _)
  · exact joined_of_apart (emits_fail _ _ _)

/-- Nothing else is dialled. -/
theorem forward_dials (rewritten : Option Bytes) (k : Nat) (t : String) :
    (forward env o rewritten k t).Emits (Dials t) := by
  refine checked_emits o (fun _ => .inr trivial) (fun _ => .inr trivial) (emits_fail _)
    (emits_pure _) fun _ _ => ?_
  refine emits_bind (emits_attempt (dial_dials _ t)) fun res => ?_
  cases res with
  | ok cc =>
    refine Emits.mono (p := Idle) ?_ fun _ => Idle.dials
    exact emits_bind (emits_take _) fun _ => emits_bind (send_idle _ _) fun _ => splice_idle _
  | error e => exact emits_fail _

/-- A client that passes is joined with the target. -/
theorem forward_splices {record : Bytes} (record' tail : Bytes) {t : String} {log : List Event}
    (hwrites : ∀ log e, env.breaks log e = none) (hallows : o.allows "tcp" t = true)
    (hbypass : o.bypasses t = false) {cc : Conn} {s' : Bytes} {new : List Event}
    (hdial : o.chainOrEmpty.dial env t (record ++ tail) (log ++ checkEvents o t) =
      ⟨.ok cc, s', new⟩) :
    .splice cc tail ∈
      (forward env o (some record') record.length t (record ++ tail) log).events := by
  have hkeeps : (o.chainOrEmpty.dial env t).Keeps := dialWithOptions_keeps _ _ _
  have hstate := hkeeps (record ++ tail) (log ++ checkEvents o t)
  rw [hdial] at hstate
  dsimp only at hstate
  subst hstate
  have hattempt : (attempt (o.chainOrEmpty.dial env t) : Action HandlerError _) (record ++ tail)
      (log ++ checkEvents o t) = ⟨.ok (.ok cc), record ++ tail, new⟩ := by
    unfold attempt
    rw [hdial]
  have htake : takeExact record.length (record ++ tail) = .ok (record, tail) := by
    unfold takeExact
    rw [if_neg (by rw [List.length_append]; omega), List.take_left, List.drop_left]
  have hsend (log : List Event) : send env cc record' tail log =
      ⟨.ok (), tail, [.send cc record']⟩ := by
    unfold send mapErr Env.write perform
    rw [hwrites]
    rfl
  unfold forward
  rw [checked_run]
  simp only [hallows, hbypass, if_true, Bool.false_eq_true, if_false]
  refine List.mem_append_right _ (mem_bind_right hattempt ?_)
  dsimp only
  rw [bind_silent (take_ok htake)]
  exact mem_bind_right (hsend _) (List.mem_singleton_self _)

end SniHandler

/-! ## The hop -/

/-- What the proxy does for a client that wants `n` and sends a record in front of the rest. -/
structure Restores (engine : Engine) (n : String) (record : Bytes) (p : Parts) (tail : Bytes) : Prop where
  /-- A record that is too long ends the connection. -/
  refuses : MAX_CLIENT_HELLO < record.length → ∀ (env : Env) (o : HandlerOptions) (log : List Event),
    SniHandler.handle env o engine (record ++ tail) log =
      ⟨.error (.proxy "SNI: ClientHello too large"), record ++ tail, []⟩
  /-- Nothing but the name and the port of the listener is dialled. -/
  dials : ∀ (env : Env) (o : HandlerOptions) (log : List Event) (t : String),
    .dial t ∈ (SniHandler.handle env o engine (record ++ tail) log).events →
      t = s!"{n}:{targetPort o}"
  /-- The target receives the record in its own name and the rest of the stream. -/
  joined : ∀ (env : Env) (o : HandlerOptions) (log : List Event),
    Joined ((p.named n).bytes ++ tail)
      (SniHandler.handle env o engine (record ++ tail) log).events
  /-- A client that may go there gets there. -/
  splices : record.length ≤ MAX_CLIENT_HELLO → ∀ (env : Env) (o : HandlerOptions) (log : List Event)
    (cc : Conn) (s' : Bytes) (new : List Event), (∀ log e, env.breaks log e = none) →
      o.allows "tcp" s!"{n}:{targetPort o}" = true → o.bypasses s!"{n}:{targetPort o}" = false →
      o.chainOrEmpty.dial env s!"{n}:{targetPort o}" (record ++ tail)
        (log ++ checkEvents o s!"{n}:{targetPort o}") = ⟨.ok cc, s', new⟩ →
      .splice cc tail ∈ (SniHandler.handle env o engine (record ++ tail) log).events

theorem restores_of_rewrite {record : Bytes} {p : Parts} (hwhole : Whole record)
    (hrewrite : rewriteClientHello engine record "" false = some ((p.named n).bytes, n))
    (hn : n ≠ "") (tail : Bytes) : Restores engine n record p tail where
  refuses hlong env o log := by
    rw [SniHandler.handle_whole hwhole hrewrite hn, if_pos hlong]
    rfl
  dials env o log t hdial := by
    rw [SniHandler.handle_whole hwhole hrewrite hn] at hdial
    split_ifs at hdial with hlong
    · cases hdial
    · rcases SniHandler.forward_dials _ _ _ _ _ _ hdial with heq | hinner
      · exact Event.dial.inj heq
      · exact hinner.elim
  joined env o log := by
    rw [SniHandler.handle_whole hwhole hrewrite hn]
    split_ifs with hlong
    · exact joined_of_apart (emits_fail _ _ _)
    · exact SniHandler.forward_joined _ tail _ log
  splices hshort env o log cc s' new hwrites hallows hbypass hdial := by
    rw [SniHandler.handle_whole hwhole hrewrite hn, if_neg (Nat.not_lt.mpr hshort)]
    exact SniHandler.forward_splices _ tail hwrites hallows hbypass hdial

/-- A client writes a ClientHello for `n`, cut anyhow but without anything behind it in the
first buffer, and then the rest of its stream.  The hop gets a record that shows the decoy if
the hello is not cut, and then the rest; in both cases the proxy dials `n` and restores the
stream. -/
theorem hop_restores (hengine : engine.Lawful) {inner : Transport} (hw : inner.outbound.Willing)
    (hsent : inner.outbound.sent = []) {ops : List WriteOp} {b u tail : Bytes} {p : Parts}
    (hb : firstWrite ops = some b) (hcut : b <+: u) (hread : readParts u = some p)
    (hsize : u.length = 5 + Bytes.beNat ((u.drop 3).take 2)) (hmax : u.length ≤ 16389)
    (hname : serverName p.exts = some n) (hn : n ≠ "")
    (hgost : ∀ ext ∈ p.exts, ext.1 ≠ EXT_GOST_HOST) (hd : d ≠ "")
    (hdlen : (Text.utf8 d).length ≤ 255)
    (hall : ((SniClientConn.writer engine).run ops (.new inner d)).1.flatten = u ++ tail) :
    ∃ record, SniClientConn.Transmits engine (record ++ tail)
        ((SniClientConn.writer engine).run ops (.new inner d)).2 ∧
      nameOf record = some (if b = u then d else n) ∧ Restores engine n record p tail := by
  have hdecided : SniClientConn.Decided engine d b
      ((SniClientConn.writer engine).run ops (.new inner d)) :=
    SniClientConn.decided_run hd ops hw hsent hb
  have hwhole : Whole u := whole_of_readParts (by rw [hread]; rfl) hsize
  by_cases hbu : b = u
  · obtain ⟨shown, hclient, hshown, hwholeShown, hserver⟩ :=
      restored hengine hread hsize hmax hname hn hgost hd hdlen
    have hrewritten : rewritten engine d b = some shown := by
      rw [rewritten, hbu, if_pos hwhole.byte, hclient]
      rfl
    obtain ⟨log, hlog, hpassing⟩ := hdecided.changed shown hrewritten
    rw [hlog, List.flatten_cons, hbu] at hall
    refine ⟨shown, ?_, ?_, restores_of_rewrite hwholeShown hserver hn tail⟩
    · rw [← List.append_cancel_left hall]
      exact hpassing.transmits
    · rw [if_pos hbu]
      exact hshown
  · have hunit : FirstUnit u := .hello hwhole.byte hsize (by rw [hread]; rfl)
    have hnil : b ≠ [] := by
      have hfound := List.find?_some hb
      simpa using hfound
    refine ⟨u, ?_, ?_,
      restores_of_rewrite hwhole (rewriteClientHello_plain hread hgost hname hn) hn tail⟩
    · rw [← hall]
      exact (hdecided.unchanged (hunit.rewritten_short hcut hbu hnil)).transmits
    · rw [if_neg hbu, nameOf, hread]
      exact hname

/-- A transport that takes what it is offered. -/
def takesAll : Transport := .new ⟨[], true⟩ [.accept 999, .accept 999]

theorem willing_takesAll : takesAll.outbound.Willing := by
  intro g hg
  have hg' : g = .accept 999 := by simpa [takesAll, Transport.new] using hg
  exact .inr ⟨998, hg'⟩

/-- The hello for `secret.example` in one piece and, behind it, two bytes more. -/
def helloAndTail : List WriteOp := [.write secretParts.bytes, .write [1, 2]]

theorem run_helloAndTail {r : Bytes} (hlen : r.length ≤ 999) (hne : r ≠ [])
    (hr : rewritten urlSafeNoPad "decoy.example" secretParts.bytes = some r) :
    (SniClientConn.writer urlSafeNoPad).run helloAndTail (.new takesAll "decoy.example") =
      ([secretParts.bytes, [1, 2]], { SniClientConn.new takesAll "decoy.example" with
        obfuscated := true
        inner := { takesAll with outbound := ⟨[], r ++ [1, 2]⟩ } }) := by
  have hbytes : secretParts.bytes ≠ [] := by decide
  have hflushed : (SniClientConn.flushOut { SniClientConn.new takesAll "decoy.example" with
      obfuscated := true, out := .ofBytes r }).2 = { SniClientConn.new takesAll "decoy.example" with
        obfuscated := true
        inner := { takesAll with outbound := ⟨[.accept 999], r⟩ } } := by
    have hflush := @flush_whole IoError r 999 hne hlen [.accept 999] []
    simp only [SniClientConn.flushOut, drainOut, takesAll, Transport.new, SniClientConn.new, hflush]
    rfl
  have hfirst : (SniClientConn.writer urlSafeNoPad).write secretParts.bytes
      (.new takesAll "decoy.example") = _ :=
    (SniClientConn.pollWrite_new _).trans ((if_neg (by simp [hbytes])).trans
      (SniClientConn.obfuscate_some hr willing_takesAll))
  rw [hflushed] at hfirst
  have hsecond : (SniClientConn.writer urlSafeNoPad).write [1, 2]
      { SniClientConn.new takesAll "decoy.example" with
        obfuscated := true
        inner := { takesAll with outbound := ⟨[.accept 999], r⟩ } }
      = (.ready (.ok 2), { SniClientConn.new takesAll "decoy.example" with
        obfuscated := true
        inner := { takesAll with outbound := ⟨[], r ++ [1, 2]⟩ } }) := by
    show SniClientConn.pollWrite _ _ _ = _
    unfold SniClientConn.pollWrite
    rw [SniClientConn.flushOut_of_empty rfl]
    rfl
  rw [helloAndTail, ByteWriter.run_write_whole hfirst hbytes,
    ByteWriter.run_write_whole hsecond (by decide)]
  rfl

theorem hop_restores_secret :
    ∃ record, SniClientConn.Transmits urlSafeNoPad (record ++ [1, 2])
        ((SniClientConn.writer urlSafeNoPad).run helloAndTail (.new takesAll "decoy.example")).2 ∧
      nameOf record = some "decoy.example" ∧
      Restores urlSafeNoPad "secret.example" record secretParts [1, 2] := by
  have hread : readParts secretParts.bytes = some secretParts := by decide
  have hlength : (rewritten urlSafeNoPad "decoy.example" secretParts.bytes).map List.length =
      some 109 := by
    decide +kernel
  obtain ⟨r, hr, hr109⟩ := Option.map_eq_some_iff.mp hlength
  have hlen : r.length ≤ 999 := by omega
  have hne : r ≠ [] := List.ne_nil_of_length_pos (by omega)
  have hhop := @hop_restores urlSafeNoPad "secret.example" "decoy.example" lawful_urlSafeNoPad _
    willing_takesAll rfl helloAndTail secretParts.bytes secretParts.bytes [1, 2] secretParts
    (by decide) List.prefix_rfl hread (by decide) (by decide) (by decide) (by decide) (by decide)
    (by decide) (by decide) (by rw [run_helloAndTail hlen hne hr]; rfl)
  rw [if_pos rfl] at hhop
  exact hhop

end Sni
end RtProxy
