/-
Calls that are polled until they are ready.

A poll that is pending has used up a wait of the transport, or the transport has nothing
more to come and the call waits for ever.
-/
import RtProxy.Lib.ByteStream

namespace ByteStream

variable {σ α : Type}

/-- What a call comes to; `none` waits for ever. -/
def await (poll : σ → Poll α × σ) (waits : σ → Nat) (s : σ) : Option α × σ :=
  match poll s with
  | (.ready a, s') => (some a, s')
  | (.pending, s') => if waits s' < waits s then await poll waits s' else (none, s')
termination_by waits s

/-- A call comes to what one of its polls does, and all polls before it are pending. -/
theorem await_cases {poll : σ → Poll α × σ} {waits : σ → Nat} {inv : σ → Prop}
    (hwait : ∀ s s', inv s → poll s = (.pending, s') → inv s') {s : σ} (h : inv s) :
    ∃ t s', inv t ∧
      ((∃ a, poll t = (.ready a, s') ∧ await poll waits s = (some a, s')) ∨
        (poll t = (.pending, s') ∧ ¬ waits s' < waits t) ∧ await poll waits s = (none, s')) := by
  induction hn : waits s using Nat.strong_induction_on generalizing s with
  | _ n ih =>
    subst hn
    rw [await]
    rcases hpoll : poll s with ⟨out, s'⟩
    cases out with
    | ready a => exact ⟨s, s', h, .inl ⟨a, hpoll, rfl⟩⟩
    | pending =>
      by_cases hlt : waits s' < waits s
      · simp only [if_pos hlt]
        exact ih _ hlt (hwait s s' h hpoll) rfl
      · simp only [if_neg hlt]
        exact ⟨s, s', h, .inr ⟨⟨hpoll, hlt⟩, rfl⟩⟩

/-! ## Reading -/

/-- What bytes are read from by polls. -/
class AsyncRead (σ : Type) (ε : outParam Type) where
  pollRead : Nat → σ → Poll (Except ε Bytes) × σ
  /-- all the bytes that are going to be read -/
  content : σ → Bytes
  /-- how often it is going to be pending -/
  waits : σ → Nat
  /-- whether it ends behind its bytes -/
  closed : σ → Bool
  /-- the failures that are going to come -/
  fails : σ → ε → Prop

namespace AsyncRead

variable {ε : Type} [AsyncRead σ ε] {s mid s' : σ} {got more : Bytes} {cap : Nat}

/-- Between `s` and `s'` the bytes `got` have been read. -/
structure Reads (s : σ) (got : Bytes) (s' : σ) : Prop where
  content : content s = got ++ content s'
  closed : closed s' = closed s
  fails : ∀ e, fails s' e → fails s e

theorem Reads.rfl : Reads s [] s := ⟨by simp, by simp, by simp⟩

theorem Reads.trans (h : Reads s got mid) (h' : Reads mid more s') : Reads s (got ++ more) s' := by
  refine ⟨?_, h'.closed.trans h.closed, fun e he => h.fails e (h'.fails e he)⟩
  rw [h.content, h'.content, List.append_assoc]

/-- What a poll with room for some byte does. -/
inductive Polled (cap : Nat) (s : σ) : Poll (Except ε Bytes) → σ → Prop
  | waits {s' : σ} (h : Reads s [] s') (hw : waits s' < waits s) : Polled cap s .pending s'
  | idle {s' : σ} (h : Reads s [] s') (hnil : content s = []) (hopen : closed s = false) :
      Polled cap s .pending s'
  | failed {s' : σ} {e : ε} (h : Reads s [] s') (he : fails s e) :
      Polled cap s (.ready (.error e)) s'
  | ended {s' : σ} (h : Reads s [] s') (hnil : content s = []) (hclosed : closed s = true) :
      Polled cap s (.ready (.ok [])) s'
  | bytes {s' : σ} {b : UInt8} {bs : Bytes} (h : Reads s (b :: bs) s') (hle : bs.length < cap) :
      Polled cap s (.ready (.ok (b :: bs))) s'

class Lawful (σ : Type) (ε : outParam Type) [AsyncRead σ ε] : Prop where
  polled {cap : Nat} (hcap : 0 < cap) (s : σ) : Polled cap s (pollRead cap s).1 (pollRead cap s).2

/-- A read that is polled until it is ready. -/
def read (cap : Nat) (s : σ) : Option (Except ε Bytes) × σ := await (pollRead cap) waits s

/-- What a read comes to. -/
inductive Reading (cap : Nat) (s : σ) : Option (Except ε Bytes) → σ → Prop
  | idle {s' : σ} (h : Reads s [] s') (hnil : content s = []) (hopen : closed s = false) :
      Reading cap s none s'
  | failed {s' : σ} {e : ε} (h : Reads s [] s') (he : fails s e) : Reading cap s (some (.error e)) s'
  | ended {s' : σ} (h : Reads s [] s') (hnil : content s = []) (hclosed : closed s = true) :
      Reading cap s (some (.ok [])) s'
  | bytes {s' : σ} {b : UInt8} {bs : Bytes} (h : Reads s (b :: bs) s') (hle : bs.length < cap) :
      Reading cap s (some (.ok (b :: bs))) s'

variable [Lawful σ ε]

theorem reads_of_pending (hcap : 0 < cap) (h : pollRead cap s = (.pending, s')) :
    Reads s [] s' := by
  have hpolled := Lawful.polled hcap s
  rw [h] at hpolled
  cases hpolled with
  | waits h | idle h => exact h

theorem reading (hcap : 0 < cap) (s : σ) : Reading cap s (read cap s).1 (read cap s).2 := by
  have hwait : ∀ t t', Reads s [] t → pollRead cap t = (.pending, t') → Reads s [] t' :=
    fun _ _ ht hpoll => ht.trans (reads_of_pending hcap hpoll)
  obtain ⟨t, s', hreads, ⟨out, hpoll, hawait⟩ | ⟨⟨hpoll, hwaits⟩, hawait⟩⟩ :=
    await_cases hwait Reads.rfl
  · have hpolled := Lawful.polled hcap t
    rw [hpoll] at hpolled
    rw [show read cap s = (some out, s') from hawait]
    cases hpolled with
    | failed h he => exact .failed (hreads.trans h) (hreads.fails _ he)
    | ended h hnil hclosed =>
      exact .ended (hreads.trans h) (hreads.content.trans hnil) (hreads.closed ▸ hclosed)
    | bytes h hle => exact .bytes (hreads.trans h) hle
  · have hpolled := Lawful.polled hcap t
    rw [hpoll] at hpolled
    rw [show read cap s = (none, s') from hawait]
    cases hpolled with
    | waits h hw => exact absurd hw hwaits
    | idle h hnil hopen =>
      exact .idle (hreads.trans h) (hreads.content.trans hnil) (hreads.closed ▸ hopen)

end AsyncRead

open AsyncRead

namespace Inbound

variable {ε : Type}

/-- A poll for reading, with room or without. -/
theorem read_cases (src : Inbound ε) (cap : Nat) :
    (∃ src', src.read cap = (.pending, src') ∧ src.Gives [] src' ∧
        (src'.waits < src.waits ∨ src.arrivals = [] ∧ src.closed = false)) ∨
      (∃ e src', src.read cap = (.ready (.error e), src') ∧ src.Gives [] src' ∧
        .error e ∈ src.arrivals) ∨
      ∃ got src', src.read cap = (.ready (.ok got), src') ∧ src.Gives got src' ∧
        got.length ≤ cap ∧ (0 < cap → got = [] → src.arrivals = [] ∧ src.closed = true) := by
  cases cap with
  | zero =>
    obtain ⟨arrivals, closed⟩ := src
    cases arrivals with
    | nil =>
      cases closed with
      | false => exact .inl ⟨_, rfl, .rfl, .inr ⟨rfl, rfl⟩⟩
      | true => exact .inr (.inr ⟨[], _, rfl, .rfl, Nat.le_refl 0, fun h => absurd h (by decide)⟩)
    | cons a rest =>
      cases a with
      | pending =>
        refine .inl ⟨_, rfl, ⟨rfl, rfl, fun e he => List.mem_cons_of_mem _ he, ?_⟩, .inl ?_⟩
        · simp [waits, List.countP_cons]
        · simp [waits, List.countP_cons, Arrival.waits]
      | error e =>
        refine .inr (.inl ⟨e, _, rfl, ⟨rfl, rfl, fun e he => List.mem_cons_of_mem _ he, ?_⟩, ?_⟩)
        · simp [waits, List.countP_cons]
        · exact List.mem_cons_self
      | bytes b bs =>
        exact .inr (.inr ⟨[], _, rfl, .rfl, Nat.le_refl 0, fun h => absurd h (by decide)⟩)
  | succ cap =>
    have h := src.reading (cap + 1) (Nat.succ_pos cap)
    revert h
    rcases src.read (cap + 1) with ⟨out, src'⟩
    intro h
    cases h with
    | waits h hw => exact .inl ⟨_, rfl, h, .inl hw⟩
    | idle hnil hopen => exact .inl ⟨_, rfl, .rfl, .inr ⟨hnil, hopen⟩⟩
    | failed h he => exact .inr (.inl ⟨_, _, rfl, h, he⟩)
    | ended hnil hclosed =>
      exact .inr (.inr ⟨[], _, rfl, .rfl, Nat.zero_le _, fun _ _ => ⟨hnil, hclosed⟩⟩)
    | bytes h hle =>
      refine .inr (.inr ⟨_, _, rfl, h, hle, fun _ hnil => ?_⟩)
      exact absurd hnil (List.cons_ne_nil _ _)

instance : AsyncRead (Inbound ε) ε where
  pollRead cap src := src.read cap
  content := content
  waits := waits
  closed := closed
  fails src e := .error e ∈ src.arrivals

theorem Gives.reads {src src' : Inbound ε} {got : Bytes} (h : src.Gives got src') :
    Reads src got src' := ⟨h.content, h.closed, h.errors⟩

theorem content_of_exhausted {src : Inbound ε} (h : src.arrivals = []) : src.content = [] := by
  simp [content, h]

instance : AsyncRead.Lawful (Inbound ε) ε where
  polled {cap} hcap src := by
    have h := src.reading cap hcap
    revert h
    show src.Reading cap (src.read cap).1 (src.read cap).2 →
      Polled cap src (src.read cap).1 (src.read cap).2
    rcases src.read cap with ⟨out, src'⟩
    intro h
    cases h with
    | waits h hw => exact .waits h.reads hw
    | idle hnil hopen => exact .idle .rfl (content_of_exhausted hnil) hopen
    | failed h he => exact .failed h.reads he
    | ended hnil hclosed => exact .ended .rfl (content_of_exhausted hnil) hclosed
    | bytes h hle => exact .bytes h.reads hle

end Inbound

end ByteStream
