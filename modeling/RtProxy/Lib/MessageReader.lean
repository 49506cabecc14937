/-
Byte streams that arrive in messages.

A reader of bytes over messages keeps what is left of one message, and asks for the next only
when nothing is left.  A message without bytes says nothing about the stream, so the reader goes
on to the next one: an empty read would be taken for the end.
-/
import RtProxy.Lib.Awaiting
import RtProxy.Lib.Framing

namespace ByteStream

/-! ## The caller of a reader -/

namespace AsyncRead

variable {σ ε : Type} [AsyncRead σ ε]

/-- A reader that has no more to wait for after a read than before it. -/
class Steady (σ : Type) (ε : outParam Type) [AsyncRead σ ε] : Prop extends Lawful σ ε where
  steady {cap : Nat} (hcap : 0 < cap) {s : σ} {b : UInt8} {bs : Bytes}
    (h : (pollRead cap s).1 = .ready (.ok (b :: bs))) : waits (pollRead cap s).2 ≤ waits s

/-- What a caller with buffers of the sizes `caps` gets of a reader. -/
structure Handed (s : σ) (caps : List Nat) (log : List Bytes) (out : Outcome ε) : Prop where
  isPrefix : log.flatten <+: content s
  stopped : out ≠ .running → out = .ended ∧ closed s = true ∧ log.flatten = content s
  whole : waits s + (content s).length ≤ caps.length → log.flatten = content s
  stops : closed s = true → waits s + (content s).length < caps.length → out ≠ .running

/-- What is still to be read, and to be waited for. -/
def todo (s : σ) : Nat := waits s + (content s).length

variable [Steady σ ε] {s t : σ} {cap : Nat} {caps : List Nat}

/-- A poll gets something for the caller or leaves less to wait for, until the caller has all
that an open reader brings. -/
theorem handed_poll (hcap : 0 < cap) (hun : ∀ e, ¬ fails s e) {log : List Bytes}
    (h : Reads s log.flatten t) :
    ByteStream.Polled (fun log t => Reads s log.flatten t)
        (fun log => closed s = true ∧ log.flatten = content s) (fun _ _ => False) log
        (pollRead cap t) ∧
      (closed s = false ∧ log.flatten = content s ∨
        ByteStream.Polled (fun _ t' => todo t' < todo t) (fun log => log.flatten = content s)
          (fun _ _ => False) log (pollRead cap t)) := by
  have hpolled := Lawful.polled hcap t
  have hsteady := @Steady.steady σ ε _ _ cap hcap t
  have hall (hnil : content t = []) : log.flatten = content s := by
    rw [h.content, hnil, List.append_nil]
  revert hpolled hsteady
  rcases pollRead cap t with ⟨out, t'⟩
  intro hpolled hsteady
  cases hpolled with
  | waits h' hw =>
    have hnext := h.trans h'
    rw [List.append_nil] at hnext
    refine ⟨hnext, .inr ?_⟩
    have hsame : content t = content t' := h'.content
    show waits t' + (content t').length < waits t + (content t).length
    rw [hsame]
    exact Nat.add_lt_add_right hw _
  | idle h' hnil hopen =>
    have hnext := h.trans h'
    rw [List.append_nil] at hnext
    exact ⟨hnext, .inl ⟨h.closed ▸ hopen, hall hnil⟩⟩
  | failed h' he => exact absurd (h.fails _ he) (hun _)
  | ended h' hnil hclosed => exact ⟨⟨h.closed ▸ hclosed, hall hnil⟩, .inr (hall hnil)⟩
  | @bytes _ b bs h' hle =>
    refine ⟨?_, .inr ?_⟩
    · show Reads s (log ++ [b :: bs]).flatten t'
      rw [List.flatten_append, List.flatten_singleton]
      exact h.trans h'
    · have hw : waits t' ≤ waits t := hsteady rfl
      have hlen : (content t).length = (b :: bs).length + (content t').length := by
        rw [← List.length_append]
        exact congrArg List.length h'.content
      rw [List.length_cons] at hlen
      show waits t' + (content t').length < waits t + (content t).length
      omega

/-- A reader hands out what it is to bring, piece by piece, and tells of the end behind it. -/
theorem handed (hun : ∀ e, ¬ fails s e) (hcaps : ∀ c ∈ caps, 0 < c) :
    Handed s caps (drive pollRead caps s).1 (drive pollRead caps s).2.1 := by
  let inv (log : List Bytes) (t : σ) : Prop := Reads s log.flatten t
  have hnew : inv [] s := .rfl
  have hkeeps := fun log t cap (hcap : 0 < cap) (h : inv log t) => (handed_poll hcap hun h).1
  have hd := driven hkeeps hcaps hnew
  refine ⟨?_, fun hne => ?_, fun hlen => ?_, fun hclosed hlen => ?_⟩
  · revert hd
    rcases drive pollRead caps s with ⟨log, out, t⟩
    cases out with
    | running => exact fun hd => hd.content ▸ List.prefix_append _ _
    | ended => exact fun hd => hd.2 ▸ List.prefix_rfl
    | failed => exact fun hd => hd.elim
  · revert hd hne
    rcases drive pollRead caps s with ⟨log, out, t⟩
    cases out with
    | running => exact fun _ hne => absurd rfl hne
    | ended => exact fun hd _ => ⟨rfl, hd⟩
    | failed => exact fun hd => hd.elim
  · let all (log : List Bytes) : Prop := log.flatten = content s
    refine drive_completes (fun _ t => todo t) hkeeps
      (fun log t cap hcap h => show all log ∨ _ from ?_) (fun log bs t h hlog => ?_) hcaps hnew
      (.inr hlen)
    · exact (handed_poll hcap hun h).2.imp_left And.right
    · have hlen := congrArg List.length (Reads.content h)
      rw [List.flatten_append, hlog, List.length_append, List.length_append,
        List.flatten_singleton] at hlen
      have hbs : bs = [] := List.eq_nil_of_length_eq_zero (by omega)
      show (log ++ [bs]).flatten = _
      rw [hbs]
      simpa using hlog
  · refine drive_stops (fun _ t => todo t) hkeeps (fun log t cap hcap h => ?_) hcaps hnew hlen
    obtain ⟨-, ⟨hopen, -⟩ | hless⟩ := handed_poll hcap hun h
    · exact absurd hclosed (by simp [hopen])
    revert hless
    rcases pollRead cap t with ⟨out, t'⟩
    match out with
    | .pending | .ready (.ok (b :: bs)) => exact fun hless => hless
    | .ready (.ok []) | .ready (.error e) => exact fun _ => trivial

/-- What a caller has got is what has been read, however it ends. -/
theorem reads_drive (hcaps : ∀ c ∈ caps, 0 < c) (s : σ) :
    Reads s (drive pollRead caps s).1.flatten (drive pollRead caps s).2.2 := by
  induction caps generalizing s with
  | nil => exact .rfl
  | cons cap caps ih =>
    have hp := Lawful.polled (hcaps cap List.mem_cons_self) s
    have ih := ih fun c hc => hcaps c (List.mem_cons_of_mem _ hc)
    rw [drive]
    revert hp
    rcases pollRead cap s with ⟨out, s'⟩
    intro hp
    cases hp with
    | waits h | idle h => exact h.trans (ih s')
    | failed h he => exact h
    | ended h hnil hclosed => exact h
    | bytes h hle => exact h.trans (ih s')

/-! ### Readers that have a reader as a part -/

/-- What is read by `poll` is what is read of the part `view`. -/
@[reducible] def comap {τ : Type} (view : τ → σ) (poll : Nat → τ → Poll (Except ε Bytes) × τ) :
    AsyncRead τ ε where
  pollRead := poll
  content t := content (view t)
  waits t := waits (view t)
  closed t := closed (view t)
  fails t := fails (view t)

theorem steady_comap {τ : Type} {view : τ → σ} {poll : Nat → τ → Poll (Except ε Bytes) × τ}
    (hpoll : ∀ cap t, (poll cap t).1 = (pollRead cap (view t)).1 ∧
      view (poll cap t).2 = (pollRead cap (view t)).2) : @Steady τ ε (comap view poll) := by
  let inst := comap view poll
  refine @Steady.mk τ ε _ ⟨fun {cap} hcap t => ?_⟩ fun {cap} hcap t b bs h => ?_
  · obtain ⟨hout, hnext⟩ := hpoll cap t
    have hp := Lawful.polled hcap (view t)
    rw [← hout, ← hnext] at hp
    show Polled cap t (poll cap t).1 (poll cap t).2
    have hreads {got : Bytes} (h : Reads (view t) got (view (poll cap t).2)) :
        Reads t got (poll cap t).2 := ⟨h.content, h.closed, h.fails⟩
    revert hp
    generalize (poll cap t).1 = out
    intro hp
    cases hp with
    | waits h hw => exact .waits (hreads h) hw
    | idle h hnil hopen => exact .idle (hreads h) hnil hopen
    | failed h he => exact .failed (hreads h) he
    | ended h hnil hclosed => exact .ended (hreads h) hnil hclosed
    | bytes h hle => exact .bytes (hreads h) hle
  · obtain ⟨hout, hnext⟩ := hpoll cap t
    have hw := Steady.steady hcap (hout.symm.trans h)
    rw [← hnext] at hw
    exact hw

end AsyncRead

/-! ## Messages -/

/-- An answer to a poll for a message. -/
inductive Incoming (μ η : Type)
  | message (m : μ)
  | pending
  | error (e : η)
deriving Repr, DecidableEq

/-- The messages that are going to come, and whether they end. -/
structure Messages (μ η : Type) where
  arrivals : List (Incoming μ η)
  ended : Bool
deriving Repr, DecidableEq

/-- What a message is to a reader of bytes. -/
inductive Part
  | bytes (bs : Bytes)
  | close
deriving Repr, DecidableEq

/-- How messages carry bytes. -/
class Carriage (μ η : Type) (ε : outParam Type) where
  part : μ → Part
  /-- A failure for the reader; without one the stream ends. -/
  failure : η → Option ε
  /-- whether the end of the messages is remembered -/
  latch : Bool

structure MessageReader (μ η : Type) where
  inner : Messages μ η
  /-- What is left of the message in hand. -/
  rest : Bytes
  eof : Bool
deriving Repr, DecidableEq

namespace MessageReader

variable {μ η ε : Type} [Carriage μ η ε]

def new (inner : Messages μ η) : MessageReader μ η := ⟨inner, [], false⟩

/-- Looks for a message with bytes. -/
def pull (ended : Bool) : List (Incoming μ η) → Poll (Except ε Bytes) × MessageReader μ η
  | [] =>
    if ended then (.ready (.ok []), ⟨⟨[], ended⟩, [], Carriage.latch μ η⟩)
    else (.pending, ⟨⟨[], ended⟩, [], false⟩)
  | .pending :: later => (.pending, ⟨⟨later, ended⟩, [], false⟩)
  | .error e :: later =>
    match Carriage.failure (μ := μ) e with
    | none => (.ready (.ok []), ⟨⟨later, ended⟩, [], true⟩)
    | some e => (.ready (.error e), ⟨⟨later, ended⟩, [], false⟩)
  | .message m :: later =>
    match Carriage.part η m with
    | .close => (.ready (.ok []), ⟨⟨later, ended⟩, [], true⟩)
    | .bytes [] => pull ended later
    | .bytes (b :: bs) => (.ready (.ok (b :: bs)), ⟨⟨later, ended⟩, [], false⟩)

/-- `poll_read`. -/
def poll (cap : Nat) (r : MessageReader μ η) : Poll (Except ε Bytes) × MessageReader μ η :=
  if r.rest ≠ [] then (.ready (.ok (r.rest.take cap)), { r with rest := r.rest.drop cap })
  else if r.eof then (.ready (.ok []), r)
  else
    match pull r.inner.ended r.inner.arrivals with
    | (.ready (.ok (b :: bs)), r) =>
      (.ready (.ok ((b :: bs).take cap)), { r with rest := (b :: bs).drop cap })
    | out => out

/-! ## What it is going to bring -/

/-- The bytes of the messages up to the end of the stream. -/
def payload : List (Incoming μ η) → Bytes
  | [] => []
  | .pending :: later => payload later
  | .error e :: later =>
    match Carriage.failure (μ := μ) e with
    | none => []
    | some _ => payload later
  | .message m :: later =>
    match Carriage.part η m with
    | .close => []
    | .bytes bs => bs ++ payload later

/-- Whether the stream has an end. -/
def ends (ended : Bool) : List (Incoming μ η) → Bool
  | [] => ended
  | .pending :: later => ends ended later
  | .error e :: later =>
    match Carriage.failure (μ := μ) e with
    | none => true
    | some _ => ends ended later
  | .message m :: later =>
    match Carriage.part η m with
    | .close => true
    | .bytes _ => ends ended later

def waiting : Incoming μ η → Bool
  | .pending => true
  | _ => false

instance : AsyncRead (MessageReader μ η) ε where
  pollRead := poll
  content r := r.rest ++ if r.eof then [] else payload r.inner.arrivals
  waits r := r.inner.arrivals.countP waiting
  closed r := r.eof || ends r.inner.ended r.inner.arrivals
  fails r e := ∃ η', .error η' ∈ r.inner.arrivals ∧ Carriage.failure (μ := μ) η' = some e

/-! ## It is a reader -/

open AsyncRead

variable {s mid s' : MessageReader μ η} {ended : Bool} {later : List (Incoming μ η)}

/-- Before a message is looked for. -/
def fresh (ended : Bool) (arrivals : List (Incoming μ η)) : MessageReader μ η :=
  ⟨⟨arrivals, ended⟩, [], false⟩

/-- What looking for a message does. -/
inductive Pulled (s : MessageReader μ η) : Poll (Except ε Bytes) → MessageReader μ η → Prop
  | wait {s' : MessageReader μ η} (h : Reads s [] s') (hw : waits s' < waits s) :
      Pulled s .pending s'
  | idle {s' : MessageReader μ η} (h : Reads s [] s') (hnil : content s = [])
      (hopen : closed s = false) : Pulled s .pending s'
  | failed {s' : MessageReader μ η} {e : ε} (h : Reads s [] s') (he : fails s e) :
      Pulled s (.ready (.error e)) s'
  | ended {s' : MessageReader μ η} (h : Reads s [] s') (hnil : content s = [])
      (hclosed : closed s = true) : Pulled s (.ready (.ok [])) s'
  | bytes {s' : MessageReader μ η} {b : UInt8} {bs : Bytes} (h : Reads s (b :: bs) s')
      (hrest : s'.rest = []) (hle : waits s' ≤ waits s) : Pulled s (.ready (.ok (b :: bs))) s'

theorem Pulled.after {out : Poll (Except ε Bytes)} (hread : Reads s [] mid)
    (hw : waits mid ≤ waits s) (h : Pulled mid out s') : Pulled s out s' := by
  have hcontent : content s = content mid := hread.content
  cases h with
  | wait h hlt => exact .wait (hread.trans h) (Nat.lt_of_lt_of_le hlt hw)
  | idle h hnil hopen => exact .idle (hread.trans h) (hcontent.trans hnil) (hread.closed ▸ hopen)
  | failed h he => exact .failed (hread.trans h) (hread.fails _ he)
  | ended h hnil hclosed =>
    exact .ended (hread.trans h) (hcontent.trans hnil) (hread.closed ▸ hclosed)
  | bytes h hrest hle => exact .bytes (hread.trans h) hrest (Nat.le_trans hle hw)

/-- A message that says nothing about the stream is passed over. -/
theorem reads_skip {m : Incoming μ η} (hpayload : payload (m :: later) = payload later)
    (hends : ends ended (m :: later) = ends ended later) :
    Reads (fresh ended (m :: later)) [] (fresh ended later) := by
  refine ⟨?_, ?_, ?_⟩
  · show [] ++ payload (m :: later) = [] ++ ([] ++ payload later)
    rw [hpayload]
    rfl
  · show (false || ends ended later) = (false || ends ended (m :: later))
    rw [hends]
  · rintro e ⟨e', hmem, he⟩
    exact ⟨e', List.mem_cons_of_mem _ hmem, he⟩

theorem pulled (ended : Bool) (arrivals : List (Incoming μ η)) :
    Pulled (fresh ended arrivals) (pull ended arrivals).1 (pull ended arrivals).2 := by
  induction arrivals with
  | nil =>
    cases ended with
    | false => exact .idle .rfl rfl rfl
    | true =>
      refine .ended ⟨?_, ?_, fun e h => h⟩ rfl rfl
      · show [] ++ [] = [] ++ ([] ++ if _ then [] else [])
        rw [ite_self]
        rfl
      · show (Carriage.latch μ η || true) = (false || true)
        rw [Bool.or_true]
        rfl
  | cons m later ih =>
    have hcount : waits (fresh ended later) ≤ waits (fresh ended (m :: later)) := by
      show later.countP waiting ≤ (m :: later).countP waiting
      rw [List.countP_cons]
      exact Nat.le_add_right ..
    cases m with
    | pending =>
      refine .wait (reads_skip rfl rfl) ?_
      show later.countP waiting < (Incoming.pending :: later).countP waiting
      rw [List.countP_cons_of_pos rfl]
      exact Nat.lt_succ_self _
    | error e =>
      cases hfail : Carriage.failure (μ := μ) e with
      | none =>
        simp only [pull, hfail]
        refine .ended ⟨?_, ?_, ?_⟩ ?_ ?_
        · simp [content, fresh, payload, hfail]
        · simp [closed, fresh, ends, hfail]
        · rintro e' ⟨η', hmem, he⟩
          exact ⟨η', List.mem_cons_of_mem _ hmem, he⟩
        · simp [content, fresh, payload, hfail]
        · simp [closed, fresh, ends, hfail]
      | some err =>
        simp only [pull, hfail]
        have hskip : Reads (fresh ended (.error e :: later)) [] (fresh ended later) := by
          refine reads_skip ?_ ?_
          · simp only [payload, hfail]
          · simp only [ends, hfail]
        exact .failed hskip ⟨e, List.mem_cons_self, hfail⟩
    | message m =>
      cases hpart : Carriage.part η m with
      | close =>
        simp only [pull, hpart]
        refine .ended ⟨?_, ?_, ?_⟩ ?_ ?_
        · simp [content, fresh, payload, hpart]
        · simp [closed, fresh, ends, hpart]
        · rintro e' ⟨η', hmem, he⟩
          exact ⟨η', List.mem_cons_of_mem _ hmem, he⟩
        · simp [content, fresh, payload, hpart]
        · simp [closed, fresh, ends, hpart]
      | bytes bs =>
        have hends : ends ended (.message m :: later) = ends ended later := by
          simp only [ends, hpart]
        have hpayload : payload (.message m :: later) = bs ++ payload later := by
          simp only [payload, hpart]
        cases bs with
        | nil =>
          simp only [pull, hpart]
          exact ih.after (reads_skip hpayload hends) hcount
        | cons b bs =>
          simp only [pull, hpart]
          refine .bytes ⟨?_, ?_, ?_⟩ rfl hcount
          · show [] ++ payload (.message m :: later) = b :: bs ++ ([] ++ payload later)
            rw [hpayload]
            rfl
          · show (false || ends ended later) = (false || ends ended (.message m :: later))
            rw [hends]
          · rintro e' ⟨η', hmem, he⟩
            exact ⟨η', List.mem_cons_of_mem _ hmem, he⟩

theorem poll_rest {r : MessageReader μ η} (h : r.rest ≠ []) (cap : Nat) :
    poll cap r = (.ready (.ok (r.rest.take cap)), { r with rest := r.rest.drop cap }) := if_pos h

theorem reads_rest (r : MessageReader μ η) (cap : Nat) :
    Reads r (r.rest.take cap) { r with rest := r.rest.drop cap } := by
  refine ⟨?_, rfl, fun _ h => h⟩
  show r.rest ++ _ = r.rest.take cap ++ (r.rest.drop cap ++ _)
  rw [← List.append_assoc, List.take_append_drop]

/-- A read of something takes the front of it. -/
theorem polled_rest {r : MessageReader μ η} {b : UInt8} {bs : Bytes} (hrest : r.rest = b :: bs)
    {cap : Nat} (hcap : 0 < cap) (hread : Reads s [] r) :
    AsyncRead.Polled cap s (.ready (.ok (r.rest.take cap))) { r with rest := r.rest.drop cap } := by
  obtain ⟨k, rfl⟩ : ∃ k, cap = k + 1 := ⟨cap - 1, (Nat.sub_add_cancel hcap).symm⟩
  have hall := hread.trans (reads_rest r (k + 1))
  rw [hrest, List.take_succ_cons] at hall ⊢
  refine .bytes hall ?_
  rw [List.length_take]
  exact Nat.lt_succ_of_le (Nat.min_le_left _ _)

theorem poll_fresh (cap : Nat) (arrivals : List (Incoming μ η)) :
    poll cap (fresh ended arrivals) = match pull ended arrivals with
      | (.ready (.ok (b :: bs)), r) =>
        (.ready (.ok ((b :: bs).take cap)), { r with rest := (b :: bs).drop cap })
      | out => out := by
  rw [poll, if_neg (by simp [fresh]), if_neg (by simp [fresh])]
  rfl

theorem polled {cap : Nat} (hcap : 0 < cap) (s : MessageReader μ η) :
    AsyncRead.Polled cap s (poll cap s).1 (poll cap s).2 ∧
      ∀ b bs, (poll cap s).1 = .ready (.ok (b :: bs)) → waits (poll cap s).2 ≤ waits s := by
  obtain ⟨⟨arrivals, ended⟩, rest, eof⟩ := s
  cases rest with
  | cons b bs =>
    rw [poll_rest (List.cons_ne_nil b bs)]
    exact ⟨polled_rest rfl hcap .rfl, fun _ _ _ => Nat.le_refl _⟩
  | nil =>
    cases eof with
    | true => exact ⟨.ended .rfl rfl rfl, fun _ _ h => by cases h⟩
    | false =>
      have hp := pulled (ε := ε) ended arrivals
      change AsyncRead.Polled cap (fresh ended arrivals) (poll cap (fresh ended arrivals)).1
          (poll cap (fresh ended arrivals)).2 ∧
        ∀ b bs, (poll cap (fresh ended arrivals)).1 = .ready (.ok (b :: bs)) →
          waits (poll cap (fresh ended arrivals)).2 ≤ waits (fresh ended arrivals)
      rw [poll_fresh]
      revert hp
      rcases pull ended arrivals with ⟨out, s'⟩
      intro hp
      cases hp with
      | wait h hw => exact ⟨.waits h hw, fun _ _ h => by cases h⟩
      | idle h hnil hopen => exact ⟨.idle h hnil hopen, fun _ _ h => by cases h⟩
      | failed h he => exact ⟨.failed h he, fun _ _ h => by cases h⟩
      | ended h hnil hclosed => exact ⟨.ended h hnil hclosed, fun _ _ h => by cases h⟩
      | @bytes s' b bs h hrest hle =>
        have hmid : Reads (fresh ended arrivals) [] { s' with rest := b :: bs } := by
          refine ⟨h.content.trans ?_, h.closed, h.fails⟩
          show b :: bs ++ (s'.rest ++ _) = b :: bs ++ _
          rw [hrest]
          rfl
        exact ⟨polled_rest rfl hcap hmid, fun _ _ _ => hle⟩

instance : Steady (MessageReader μ η) ε where
  polled hcap s := (polled hcap s).1
  steady hcap _ _ _ h := (polled hcap _).2 _ _ h

/-! ## What the messages say -/

/-- The messages that say something about the stream, up to its end. -/
def told : List (Incoming μ η) → List μ
  | [] => []
  | .pending :: later => told later
  | .error e :: later =>
    match Carriage.failure (μ := μ) e with
    | none => []
    | some _ => told later
  | .message m :: later => if Carriage.part η m = .bytes [] then told later else m :: told later

/-- The bytes of messages that come one after the other. -/
def joined (η : Type) [Carriage μ η ε] : List μ → Bytes
  | [] => []
  | m :: ms =>
    match Carriage.part η m with
    | .close => []
    | .bytes bs => bs ++ joined η ms

theorem joined_cons_bytes {m : μ} {bs : Bytes} (h : Carriage.part η m = .bytes bs) (ms : List μ) :
    joined η (m :: ms) = bs ++ joined η ms := by simp only [joined, h]

theorem joined_cons_close {m : μ} (h : Carriage.part η m = .close) (ms : List μ) :
    joined η (m :: ms) = [] := by simp only [joined, h]

theorem payload_eq_joined (arrivals : List (Incoming μ η)) :
    payload arrivals = joined η (told arrivals) := by
  induction arrivals with
  | nil => rfl
  | cons m later ih =>
    cases m with
    | pending => exact ih
    | error e =>
      cases hfail : Carriage.failure (μ := μ) e with
      | none =>
        simp only [payload, told, hfail]
        rfl
      | some err => simp only [payload, told, hfail, ih]
    | message m =>
      rcases hpart : Carriage.part η m with (_ | ⟨b, bs⟩) | _
      · simp only [payload, told, hpart, if_true, ih, List.nil_append]
      · simp only [payload, told, hpart]
        rw [if_neg (by simp), joined_cons_bytes hpart, ih]
      · simp only [payload, told, hpart]
        rw [if_neg (by simp), joined_cons_close hpart]

theorem joined_prefix {ms ms' : List μ} (h : ms <+: ms') : joined η ms <+: joined η ms' := by
  obtain ⟨more, rfl⟩ := h
  induction ms with
  | nil => exact List.nil_prefix
  | cons m ms ih =>
    rw [List.cons_append]
    cases hpart : Carriage.part η m with
    | close =>
      rw [joined_cons_close hpart]
      exact List.nil_prefix
    | bytes bs =>
      rw [joined_cons_bytes hpart, joined_cons_bytes hpart]
      exact (List.prefix_append_right_inj _).mpr ih

/-- Messages of their own bytes, whatever comes behind them. -/
theorem joined_append {α : Type} {make : α → μ} {bytes : α → Bytes}
    (hmake : ∀ x, Carriage.part η (make x) = .bytes (bytes x)) (xs : List α) (ms : List μ) :
    joined η (xs.map make ++ ms) = xs.flatMap bytes ++ joined η ms := by
  induction xs with
  | nil => rfl
  | cons x xs ih =>
    rw [List.map_cons, List.cons_append, joined_cons_bytes (hmake x), ih, List.flatMap_cons,
      List.append_assoc]

/-- A message that ends the stream is one that is told of. -/
theorem ends_of_told {m : μ} (h : Carriage.part η m = .close) {arrivals : List (Incoming μ η)}
    (hmem : m ∈ told arrivals) : ends ended arrivals = true := by
  induction arrivals with
  | nil => cases hmem
  | cons a later ih =>
    cases a with
    | pending => exact ih hmem
    | error e =>
      cases hfail : Carriage.failure (μ := μ) e with
      | none => simp only [ends, hfail]
      | some err =>
        simp only [told, hfail] at hmem
        simp only [ends, hfail, ih hmem]
    | message m' =>
      rcases hpart : Carriage.part η m' with (_ | ⟨b, bs⟩) | _
      · simp only [told, hpart, if_true] at hmem
        simp only [ends, hpart, ih hmem]
      · simp only [told, hpart] at hmem
        rw [if_neg (by simp)] at hmem
        rcases List.mem_cons.mp hmem with rfl | hmem
        · rw [h] at hpart
          cases hpart
        · simp only [ends, hpart, ih hmem]
      · simp only [ends, hpart]

theorem ends_of_failure {e : η} (h : Carriage.failure (μ := μ) e = none)
    {arrivals : List (Incoming μ η)} (hmem : .error e ∈ arrivals) : ends ended arrivals = true := by
  induction arrivals with
  | nil => cases hmem
  | cons a later ih =>
    have hrest (hne : a ≠ .error e) : .error e ∈ later :=
      (List.mem_cons.mp hmem).resolve_left fun heq => hne heq.symm
    cases a with
    | pending => exact ih (hrest (by simp))
    | error e' =>
      cases hfail : Carriage.failure (μ := μ) e' with
      | none => simp only [ends, hfail]
      | some err =>
        have hne : e' ≠ e := fun heq => by simp [← heq, hfail] at h
        simp only [ends, hfail, ih (hrest (by simpa using hne))]
    | message m =>
      cases hpart : Carriage.part η m with
      | close => simp only [ends, hpart]
      | bytes bs => simp only [ends, hpart, ih (hrest (by simp))]

theorem ends_of_ended (arrivals : List (Incoming μ η)) : ends true arrivals = true := by
  induction arrivals with
  | nil => rfl
  | cons a later ih =>
    cases a with
    | pending => exact ih
    | error e => cases hfail : Carriage.failure (μ := μ) e <;> simp only [ends, hfail, ih]
    | message m => cases hpart : Carriage.part η m <;> simp only [ends, hpart, ih]

end MessageReader

end ByteStream
