import RtProxy.Chain.Dial
import RtProxy.Lib.HeadEnd
import RtProxy.ProxyConn

/-!
Reading the head of a response (`chain.rs`).

The chunks that are read do not tell where the head ends.  What has been read past its end
is pushed back.
-/

namespace RtProxy

open ByteStream AsyncRead Http1

def MEDIUM_BUFFER_SIZE : Nat := 8 * 1024

/-- The loop of `read_response_head`; `none` waits for ever. -/
def readResponseHeadLoop (acc : Bytes) (stream : ProxyConn) :
    Option (Except ChainError String) × ProxyConn :=
  match read 512 stream with
  | (none, stream) => (none, stream)
  | (some (.error e), stream) => (some (.error (.io e)), stream)
  | (some (.ok []), stream) =>
    (some (.error (.proxyError "proxy closed the connection during CONNECT")), stream)
  | (some (.ok (b :: bs)), stream) =>
    let acc' := acc ++ b :: bs
    match position HEAD_END acc' with
    | some pos =>
      (some (.ok (Text.fromUtf8Lossy (acc'.take (pos + 4)))), stream.unread (acc'.drop (pos + 4)))
    | none =>
      if MEDIUM_BUFFER_SIZE < acc'.length then
        (some (.error (.proxyError "CONNECT response headers too large")), stream)
      else readResponseHeadLoop acc' stream
termination_by MEDIUM_BUFFER_SIZE + 1 - acc.length
decreasing_by
  rw [List.length_append, List.length_cons] at *
  omega

def readResponseHead (stream : ProxyConn) : Option (Except ChainError String) × ProxyConn :=
  readResponseHeadLoop [] stream

section

variable {stream c' : ProxyConn} {acc head payload : Bytes} {text : String}

/-- A head that is returned was read, and nothing behind it is lost. -/
theorem readResponseHeadLoop_sound (h : readResponseHeadLoop acc stream = (some (.ok text), c')) :
    ∃ head, IsHead head ∧ acc ++ stream.content = head ++ c'.content ∧
      text = Text.fromUtf8Lossy head := by
  induction hn : MEDIUM_BUFFER_SIZE + 1 - acc.length using Nat.strong_induction_on
    generalizing acc stream with
  | _ n ih =>
    subst hn
    rw [readResponseHeadLoop] at h
    have hcap : 0 < 512 := by decide
    have hread := reading hcap stream
    revert h hread
    rcases read 512 stream with ⟨out, mid⟩
    intro h hread
    cases hread with
    | idle | failed | ended => cases h
    | @bytes _ b bs hreads _ =>
      simp only at h
      have hcontent : stream.content = b :: bs ++ mid.content := hreads.content
      have hall : acc ++ stream.content = acc ++ b :: bs ++ mid.content := by
        rw [hcontent, List.append_assoc]
      cases hpos : position HEAD_END (acc ++ b :: bs) with
      | some pos =>
        rw [hpos] at h
        cases h
        refine ⟨_, (isHead_take hpos).1, ?_, rfl⟩
        rw [ProxyConn.content_unread, ← List.append_assoc, List.take_append_drop, hall]
      | none =>
        rw [hpos] at h
        simp only at h
        split_ifs at h with hsize
        · cases h
        · rw [hall]
          refine ih _ ?_ h rfl
          rw [List.length_append, List.length_cons] at hsize ⊢
          omega

/-- A head that is not too large is returned, whatever the chunks. -/
theorem readResponseHeadLoop_complete (hhead : IsHead head)
    (hall : acc ++ stream.content = head ++ payload) (hacc : acc.length < head.length)
    (hsize : head.length ≤ MEDIUM_BUFFER_SIZE + 1)
    (hunfailing : ∀ e, .error e ∉ stream.inner.arrivals) :
    ∃ c', readResponseHeadLoop acc stream = (some (.ok (Text.fromUtf8Lossy head)), c') ∧
      c'.content = payload := by
  induction hn : MEDIUM_BUFFER_SIZE + 1 - acc.length using Nat.strong_induction_on
    generalizing acc stream with
  | _ n ih =>
    subst hn
    rw [readResponseHeadLoop]
    have hmore : stream.content ≠ [] := by
      intro hnil
      have := congrArg List.length hall
      simp [hnil] at this
      omega
    have hcap : 0 < 512 := by decide
    have hread := reading hcap stream
    revert hread
    rcases read 512 stream with ⟨out, mid⟩
    intro hread
    cases hread with
    | idle _ hnil | ended _ hnil => exact absurd hnil hmore
    | failed _ he => exact absurd he (hunfailing _)
    | @bytes _ b bs hreads _ =>
      have hcontent : stream.content = b :: bs ++ mid.content := hreads.content
      have hall' : acc ++ b :: bs ++ mid.content = head ++ payload := by
        rw [← hall, hcontent, List.append_assoc]
      have hpre : acc ++ b :: bs <+: head ++ payload := ⟨_, hall'⟩
      simp only
      by_cases hlen : (acc ++ b :: bs).length < head.length
      · rw [position_short hhead hpre hlen]
        simp only
        rw [if_neg (by omega)]
        refine ih _ ?_ hall' hlen (fun e he => hunfailing e (hreads.fails e he)) rfl
        simp
        omega
      · have hlong : head.length ≤ (acc ++ b :: bs).length := Nat.not_lt.mp hlen
        obtain ⟨m, hm, _⟩ := hhead
        have hfour : head.length - 4 + 4 = head.length := by omega
        obtain ⟨rest, hrest⟩ : head <+: acc ++ b :: bs :=
          List.prefix_of_prefix_length_le (List.prefix_append _ _) hpre hlong
        rw [position_long ⟨m, hm, ‹_›⟩ hpre hlong]
        simp only [hfour]
        rw [← hrest, List.take_left, List.drop_left]
        refine ⟨_, rfl, ?_⟩
        rw [ProxyConn.content_unread]
        rw [← hrest, List.append_assoc] at hall'
        exact List.append_cancel_left hall'

end

/-- What a call of `read_response_head` returns. -/
theorem readResponseHead_complete (hhead : IsHead head) (hcontent : stream.content = head ++ payload)
    (hsize : head.length ≤ MEDIUM_BUFFER_SIZE + 1)
    (hunfailing : ∀ e, .error e ∉ stream.inner.arrivals) :
    ∃ c', readResponseHead stream = (some (.ok (Text.fromUtf8Lossy head)), c') ∧
      c'.content = payload := by
  obtain ⟨n, hn, _⟩ := hhead
  exact readResponseHeadLoop_complete ⟨n, hn, ‹_›⟩ hcontent (by simp [hn]) hsize hunfailing

/-- A connection is a queue of the stream's bytes, whatever is called, and a head that is
returned is the text of the bytes up to its end, with exactly the bytes behind it left. -/
theorem proxy_conn_refines_queue :
    (∀ src, (ProxyConn.new src).queue = ⟨src.content, src.waits, src.closed⟩) ∧
    (∀ (c : ProxyConn) (ops : List ConnOp),
      QueueRun c.queue ops (c.run ops).1 (c.run ops).2.queue ∧
        ∀ e, .ready (.error e) ∈ (c.run ops).1 → .error e ∈ c.inner.arrivals) ∧
    ∀ stream text stream', readResponseHead stream = (some (.ok text), stream') →
      ∃ head, IsHead head ∧ stream.content = head ++ stream'.content ∧
        text = Text.fromUtf8Lossy head :=
  ⟨fun _ => rfl, fun c ops => c.run_spec ops, fun _ _ _ h => readResponseHeadLoop_sound h⟩

/-- A head that is no text. -/
def garbledHead : Bytes := [0xFF, CR, LF, CR, LF]

theorem isHead_garbledHead : IsHead garbledHead := by
  have hposition : position HEAD_END garbledHead = some 1 := by decide
  exact (isHead_take hposition).1

/-- The text that is returned for it is not its bytes. -/
theorem read_response_head_garbled :
    ∃ text stream', readResponseHead (.new ⟨ByteStream.Arrival.ofBytes garbledHead, true⟩) =
        (some (.ok text), stream') ∧
      ∀ head, IsHead head → garbledHead = head ++ stream'.content → Text.utf8 text ≠ head := by
  have hunfailing := (Inbound.delivers_ofBytes (ε := IoError) garbledHead).unfailing
  have hcontent : (ProxyConn.new ⟨ByteStream.Arrival.ofBytes garbledHead, true⟩).content =
      garbledHead ++ [] := (List.append_nil _).symm
  obtain ⟨stream', hread, hrest⟩ :=
    readResponseHead_complete isHead_garbledHead hcontent (by decide) hunfailing
  refine ⟨_, stream', hread, fun head _ hhead => ?_⟩
  rw [hrest, List.append_nil] at hhead
  rw [← hhead]
  decide

end RtProxy
