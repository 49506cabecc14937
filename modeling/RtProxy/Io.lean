/-
`std::io::Error` as the code uses it: a kind and a message.
-/
import RtProxy.Lib.Awaiting

namespace RtProxy

/-- The `io::ErrorKind`s the modelled code constructs or receives. -/
inductive ErrorKind
  | invalidInput
  | invalidData
  | brokenPipe
  | unsupported
  | timedOut
  | unexpectedEof
  | writeZero
  | other
deriving Repr, DecidableEq

structure IoError where
  kind : ErrorKind
  msg : String
deriving Repr, DecidableEq

/-! ## Reads of so many bytes and no fewer -/

open ByteStream

/-- The `UnexpectedEof` of `read_exact`. -/
def earlyEofErr : IoError := ⟨.unexpectedEof, "early eof"⟩

/-- A poll of `read_exact`. -/
def pollReadExact (n : Nat) (s : Bytes × Inbound IoError) :
    Poll (Except IoError Bytes) × Bytes × Inbound IoError :=
  match fill n s.1 s.2 with
  | (.full, buf, src) => (.ready (.ok buf), buf, src)
  | (.ended, buf, src) => (.ready (.error earlyEofErr), buf, src)
  | (.pending, buf, src) => (.pending, buf, src)
  | (.error e, buf, src) => (.ready (.error e), buf, src)

/-- `read_exact`; `none` waits for ever. -/
def readExact (n : Nat) (src : Inbound IoError) :
    Option (Except IoError Bytes) × Inbound IoError :=
  let (out, _, src) := await (pollReadExact n) (fun s => s.2.waits) ([], src)
  (out, src)

/-- What a poll of `read_exact` has taken from the transport. -/
structure Exactly (n : Nat) (src : Inbound IoError) (s : Bytes × Inbound IoError) : Prop where
  gives : src.Gives s.1 s.2
  le : s.1.length ≤ n

/-- What a poll of `read_exact` does over a transport that does not fail. -/
inductive ReadingExact (n : Nat) (src : Inbound IoError) (waits : Nat) :
    Poll (Except IoError Bytes) × Bytes × Inbound IoError → Prop
  | whole {buf : Bytes} {src' : Inbound IoError} (h : src.Gives buf src') (hlen : buf.length = n) :
      ReadingExact n src waits (.ready (.ok buf), buf, src')
  | waits {s : Bytes × Inbound IoError} (h : Exactly n src s) (hw : s.2.waits < waits) :
      ReadingExact n src waits (.pending, s)
  | short {s : Bytes × Inbound IoError} (h : Exactly n src s) (hlt : src.content.length < n)
      (hopen : src.closed = false) : ReadingExact n src waits (.pending, s)
  | ended {s : Bytes × Inbound IoError} (hlt : src.content.length < n)
      (hclosed : src.closed = true) : ReadingExact n src waits (.ready (.error earlyEofErr), s)

theorem readingExact {n : Nat} {src : Inbound IoError} (hu : ∀ e, .error e ∉ src.arrivals)
    {s : Bytes × Inbound IoError} (h : Exactly n src s) :
    ReadingExact n src s.2.waits (pollReadExact n s) := by
  obtain ⟨buf, mid⟩ := s
  obtain ⟨hg, hle⟩ := h
  change buf.length ≤ n at hle
  have hfill := filling n buf mid
  have hshort {got : Bytes} {src' : Inbound IoError} (h : mid.Gives got src')
      (hlt : (buf ++ got).length < n) (hnil : src'.arrivals = []) : src.content.length < n := by
    rw [hg.content, h.content, Inbound.content_of_exhausted hnil, List.append_nil]
    exact hlt
  unfold pollReadExact
  revert hfill
  rcases fill n buf mid with ⟨out, buf', src'⟩
  intro hfill
  cases hfill with
  | @full got _ h hge hle' =>
    have hlen : (buf ++ got).length = n := by omega
    exact .whole (hg.trans h) hlen
  | waits h hlt hw => exact .waits ⟨hg.trans h, Nat.le_of_lt hlt⟩ hw
  | idle h hlt hnil hopen =>
    exact .short ⟨hg.trans h, Nat.le_of_lt hlt⟩ (hshort h hlt hnil) (hg.closed ▸ hopen)
  | failed _ _ he => exact absurd he (hg.unfailing hu _)
  | ended h hlt hnil hclosed => exact .ended (hshort h hlt hnil) (hg.closed ▸ hclosed)

/-- What `read_exact` comes to over a transport that does not fail. -/
theorem readExact_spec (n : Nat) {src : Inbound IoError} (hu : ∀ e, .error e ∉ src.arrivals) :
    (n ≤ src.content.length → ∃ src', readExact n src = (some (.ok (src.content.take n)), src') ∧
        src.Gives (src.content.take n) src') ∧
      (src.content.length < n → (readExact n src).1 =
        if src.closed then some (.error earlyEofErr) else none) := by
  have hwait : ∀ s s', Exactly n src s → pollReadExact n s = (.pending, s') → Exactly n src s' := by
    intro s s' h hpoll
    have hr := readingExact hu h
    rw [hpoll] at hr
    cases hr with
    | waits h _ | short h => exact h
  have hnew : Exactly n src ([], src) := ⟨.rfl, Nat.zero_le n⟩
  obtain ⟨s, s', hs, hcases⟩ := @await_cases _ _ (pollReadExact n) (fun s => s.2.waits) _ hwait _ hnew
  have hr := readingExact hu hs
  rcases hcases with ⟨out, hpoll, hawait⟩ | ⟨⟨hpoll, hnot⟩, hawait⟩
  · have hread : readExact n src = (some out, s'.2) := by rw [readExact, hawait]
    rw [hpoll] at hr
    rw [hread]
    cases hr with
    | @whole buf _ h hlen =>
      have htake : src.content.take n = buf := by rw [h.content, List.take_left' hlen]
      have hle : n ≤ src.content.length := by
        rw [h.content, List.length_append]
        omega
      rw [htake]
      exact ⟨fun _ => ⟨_, rfl, h⟩, fun hlt => absurd hle (Nat.not_le.mpr hlt)⟩
    | ended hlt hclosed =>
      exact ⟨fun hle => absurd hle (Nat.not_le.mpr hlt), fun _ => by rw [if_pos hclosed]⟩
  · have hread : readExact n src = (none, s'.2) := by rw [readExact, hawait]
    rw [hpoll] at hr
    rw [hread]
    cases hr with
    | waits _ hw => exact absurd hw hnot
    | short _ hlt hopen =>
      exact ⟨fun hle => absurd hle (Nat.not_le.mpr hlt), fun _ => by simp [hopen]⟩

end RtProxy
