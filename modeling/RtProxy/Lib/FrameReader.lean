/-
Readers that cut a transport into frames.

A reader keeps the bytes it has not cut yet and what is left of the last frame.  It hands
out the rest of a frame before it looks for the next, and it polls the transport only if no
whole frame is there.  What it hands out, and how it ends, is then decided by what the bytes
of the transport read as, however they arrive.
-/
import RtProxy.Lib.Awaiting
import RtProxy.Lib.Framing

namespace ByteStream

variable {σ ε : Type}

/-- The bytes of a poll come off the front of those that are to arrive. -/
theorem Inbound.gives_of_read {src src' : Inbound ε} {cap : Nat} {bs : Bytes}
    (h : src.read cap = (.ready (.ok bs), src')) : src.Gives bs src' := by
  rcases src.read_cases cap with ⟨src₁, heq, -⟩ | ⟨e, src₁, heq, -⟩ | ⟨got, src₁, heq, hg, -⟩
  · rw [h] at heq
    cases heq
  · rw [h] at heq
    cases heq
  · rw [h] at heq
    cases heq
    exact hg

structure FrameReader (σ : Type) where
  state : σ
  /-- Bytes that do not yet form a whole frame. -/
  raw : Bytes
  ready : Cursor
deriving Repr, DecidableEq

namespace FrameReader

/-- The reader behind a frame. -/
def load (s : σ) (out raw : Bytes) (r : FrameReader σ) : FrameReader σ :=
  { state := s, raw := raw, ready := if out = [] then r.ready else .ofBytes out }

/-- The answer at the end of the transport. -/
def atEnd : Option ε → Poll (Except ε Bytes)
  | none => .ready (.ok [])
  | some e => .ready (.error e)

/-- A poll with room for `cap` bytes.  The transport is read into a buffer of `chunk` bytes,
and `cut` is the error for one that ends behind the given bytes. -/
def poll (F : Framing σ ε Bytes) (cut : Bytes → Option ε) (chunk cap : Nat) (r : FrameReader σ)
    (src : Inbound ε) : Poll (Except ε Bytes) × FrameReader σ × Inbound ε :=
  if r.ready.pos < r.ready.data.length then
    (.ready (.ok (r.ready.take cap).1), { r with ready := (r.ready.take cap).2 }, src)
  else
    match _h : F.next r.state r.raw with
    | .fail e => (.ready (.error e), r, src)
    | .unit s out raw => poll F cut chunk cap (r.load s out raw) src
    | .more =>
      match _hr : src.read chunk with
      | (.pending, src') => (.pending, r, src')
      | (.ready (.error e), src') => (.ready (.error e), r, src')
      | (.ready (.ok []), src') => (atEnd (cut r.raw), r, src')
      | (.ready (.ok (b :: bs)), src') => poll F cut chunk cap { r with raw := r.raw ++ b :: bs } src'
termination_by r.raw.length + 2 * src.content.length
decreasing_by
  · have hlt := F.shrinks _h
    show raw.length + _ < _
    omega
  · have hcontent : src.content = b :: bs ++ src'.content := (Inbound.gives_of_read _hr).content
    have hlen := congrArg List.length hcontent
    rw [List.length_append, List.length_cons] at hlen
    simp only [List.length_append, List.length_cons]
    omega

/-! ## One step of a poll -/

section

variable {F : Framing σ ε Bytes} {cut : Bytes → Option ε} {r : FrameReader σ} {chunk cap : Nat}
  {src : Inbound ε}

theorem poll_fail (hready : ¬ r.ready.pos < r.ready.data.length) {e : ε}
    (h : F.next r.state r.raw = .fail e) :
    poll F cut chunk cap r src = (.ready (.error e), r, src) := by
  rw [poll, if_neg hready]
  split
  all_goals
    rename_i heq
    rw [h] at heq
    cases heq
  rfl

theorem poll_unit (hready : ¬ r.ready.pos < r.ready.data.length) {s : σ} {out raw : Bytes}
    (h : F.next r.state r.raw = .unit s out raw) :
    poll F cut chunk cap r src = poll F cut chunk cap (r.load s out raw) src := by
  rw [poll, if_neg hready]
  split
  all_goals
    rename_i heq
    rw [h] at heq
    cases heq
  rfl

theorem poll_more (hready : ¬ r.ready.pos < r.ready.data.length)
    (h : F.next r.state r.raw = .more) : poll F cut chunk cap r src =
      match src.read chunk with
      | (.pending, src') => (.pending, r, src')
      | (.ready (.error e), src') => (.ready (.error e), r, src')
      | (.ready (.ok []), src') => (atEnd (cut r.raw), r, src')
      | (.ready (.ok (b :: bs)), src') =>
        poll F cut chunk cap { r with raw := r.raw ++ b :: bs } src' := by
  rw [poll, if_neg hready]
  split
  · rename_i heq
    rw [h] at heq
    cases heq
  · rename_i heq
    rw [h] at heq
    cases heq
  · split <;> rename_i heq <;> rw [heq]

end

/-! ## What a poll does -/

open Framing

/-- A reader of `src` that is to hand out what is ready and the frames of `total`, of which
it has handed out `log`. -/
structure Reading (F : Framing σ ε Bytes) (init : FrameReader σ) (total : Bytes) (log : List Bytes)
    (r : FrameReader σ) (src : Inbound ε) (outs : List Bytes) : Prop where
  reads : F.Reads init.state total outs r.state (r.raw ++ src.content)
  handed : log.flatten ++ r.ready.rest = init.ready.rest ++ outs.flatten

/-- All that can be cut has been handed out. -/
def AllRead (F : Framing σ ε Bytes) (init : FrameReader σ) (total left : Bytes) (log : List Bytes) :
    Prop :=
  ∃ outs t, F.Reads init.state total outs t left ∧ F.next t left = .more ∧
    log.flatten = init.ready.rest ++ outs.flatten

/-- What a poll of a reader of `src` returns and leaves. -/
inductive Polling (F : Framing σ ε Bytes) (cut : Bytes → Option ε) (init : FrameReader σ)
    (total : Bytes) (log : List Bytes) (src : Inbound ε) :
    Poll (Except ε Bytes) × FrameReader σ × Inbound ε → Prop
  | pending {got : Bytes} {r' : FrameReader σ} {src' : Inbound ε} {outs : List Bytes}
      (hg : src.Gives got src') (h : Reading F init total log r' src' outs)
      (hw : src'.waits < src.waits ∨ src.closed = false ∧ ∃ left, AllRead F init total left log) :
      Polling F cut init total log src (.pending, r', src')
  | bytes {got : Bytes} {r' : FrameReader σ} {src' : Inbound ε} {outs : List Bytes} {b : UInt8}
      {bs : Bytes} (hg : src.Gives got src')
      (h : Reading F init total (log ++ [b :: bs]) r' src' outs) :
      Polling F cut init total log src (.ready (.ok (b :: bs)), r', src')
  | ended {r' : FrameReader σ} {src' : Inbound ε} {left : Bytes} (hclosed : src.closed = true)
      (h : AllRead F init total left log) :
      Polling F cut init total log src (atEnd (cut left), r', src')
  | failed {r' : FrameReader σ} {src' : Inbound ε} {outs : List Bytes} {t : σ} {left : Bytes} {e : ε}
      (h : F.Reads init.state total outs t left) (he : F.next t left = .fail e) :
      Polling F cut init total log src (.ready (.error e), r', src')
  | transport {r' : FrameReader σ} {src' : Inbound ε} {e : ε} (h : .error e ∈ src.arrivals) :
      Polling F cut init total log src (.ready (.error e), r', src')

variable {F : Framing σ ε Bytes} {cut : Bytes → Option ε} {init r : FrameReader σ} {chunk cap : Nat}
  {total : Bytes} {log outs : List Bytes} {src : Inbound ε}

/-- The rest of a poll that has read something already. -/
theorem Polling.after {got : Bytes} {mid : Inbound ε}
    {x : Poll (Except ε Bytes) × FrameReader σ × Inbound ε} (hg : src.Gives got mid)
    (h : Polling F cut init total log mid x) : Polling F cut init total log src x := by
  cases h with
  | pending hg' h hw =>
    refine .pending (hg.trans hg') h ?_
    rcases hw with hw | ⟨hopen, hall⟩
    · exact .inl (Nat.lt_of_lt_of_le hw hg.waits)
    · exact .inr ⟨hg.closed ▸ hopen, hall⟩
  | bytes hg' h => exact .bytes (hg.trans hg') h
  | ended hclosed h => exact .ended (hg.closed ▸ hclosed) h
  | failed h he => exact .failed h he
  | transport h => exact .transport (hg.errors _ h)

theorem reading_self (r : FrameReader σ) (src : Inbound ε) :
    Reading F r (r.raw ++ src.content) [] r src [] :=
  ⟨.refl, by simp⟩

/-- What has been cut off the front is ready. -/
theorem Reading.load (h : Reading F init total log r src outs)
    (hready : ¬ r.ready.pos < r.ready.data.length) {s : σ} {out raw : Bytes}
    (hn : F.next r.state r.raw = .unit s out raw) :
    Reading F init total log (r.load s out raw) src (outs ++ [out]) := by
  obtain ⟨hreads, hhanded⟩ := h
  have hnone : r.ready.rest = [] := Cursor.rest_eq_nil.mpr hready
  have hrest : (r.load s out raw).ready.rest = out := by
    simp only [FrameReader.load]
    split
    · rename_i hnil
      exact hnone.trans hnil.symm
    · rfl
  refine ⟨hreads.tail (F.unit_append hn src.content), ?_⟩
  rw [hnone, List.append_nil] at hhanded
  rw [hrest, hhanded, List.flatten_append, List.flatten_singleton, List.append_assoc]

/-- Bytes that were read wait to be cut. -/
theorem Reading.read (h : Reading F init total log r src outs) {got : Bytes} {src' : Inbound ε}
    (hg : src.Gives got src') :
    Reading F init total log { r with raw := r.raw ++ got } src' outs := by
  obtain ⟨hreads, hhanded⟩ := h
  rw [hg.content, ← List.append_assoc] at hreads
  exact ⟨hreads, hhanded⟩

/-- A reader that waits for bytes that do not come has handed out all. -/
theorem Reading.all (h : Reading F init total log r src outs)
    (hready : ¬ r.ready.pos < r.ready.data.length) (hmore : F.next r.state r.raw = .more)
    (hnil : src.arrivals = []) : AllRead F init total r.raw log := by
  obtain ⟨hreads, hhanded⟩ := h
  rw [Inbound.content_of_exhausted hnil, List.append_nil] at hreads
  rw [Cursor.rest_eq_nil.mpr hready, List.append_nil] at hhanded
  exact ⟨outs, _, hreads, hmore, hhanded⟩

theorem polling (hchunk : 0 < chunk) (hcap : 0 < cap) (h : Reading F init total log r src outs) :
    Polling F cut init total log src (poll F cut chunk cap r src) := by
  induction hn : r.raw.length + 2 * src.content.length using Nat.strong_induction_on
    generalizing r src outs with
  | _ n ih =>
    subst hn
    rw [poll]
    by_cases hready : r.ready.pos < r.ready.data.length
    · rw [if_pos hready]
      have hne := Cursor.take_ne_nil hready hcap
      have htake := r.ready.take_spec cap
      obtain ⟨hreads, hhanded⟩ := h
      revert hne htake
      cases (r.ready.take cap).1 with
      | nil => exact fun hne => absurd rfl hne
      | cons b bs =>
        intro _ htake
        refine .bytes .rfl ⟨hreads, ?_⟩
        rw [← hhanded, htake, List.flatten_append, List.flatten_singleton, List.append_assoc]
    rw [if_neg hready]
    split
    · rename_i e hnext
      exact .failed h.reads (F.fail_append hnext _)
    · rename_i s out raw hnext
      have hless := F.shrinks hnext
      refine ih _ ?_ (h.load hready hnext) rfl
      show raw.length + _ < _
      omega
    · rename_i hmore
      have hread := src.reading chunk hchunk
      split
      all_goals rename_i heq; rw [heq] at hread
      · cases hread with
        | waits hg hw =>
          have h' := h.read hg
          rw [List.append_nil] at h'
          exact .pending hg h' (.inl hw)
        | idle hnil hopen => exact .pending .rfl h (.inr ⟨hopen, _, h.all hready hmore hnil⟩)
      · cases hread with
        | failed _ he => exact .transport he
      · cases hread with
        | ended hnil hclosed => exact .ended hclosed (h.all hready hmore hnil)
      · rename_i b bs src'
        cases hread with
        | bytes hgives _ =>
          have hg : src.Gives (b :: bs) src' := hgives
          have hlen := congrArg List.length hg.content
          rw [List.length_append, List.length_cons] at hlen
          refine Polling.after hg (ih _ ?_ (h.read hg) rfl)
          simp only [List.length_append, List.length_cons]
          omega

/-! ## A whole reading -/

/-- How a stream ends for its reader. -/
def fate : Option ε → Outcome ε
  | none => .ended
  | some e => .failed e

/-- A caller that has stopped has got `all` of a transport that has ended. -/
def Stopped (src : Inbound ε) (all : Bytes) (last : Option ε) (log : List Bytes) (out : Outcome ε) :
    Prop :=
  src.closed = true ∧ out = fate last ∧ log.flatten = all

/-- What a caller with buffers of the sizes `caps` gets of a transport that is to bring `all`. -/
structure Settled (src : Inbound ε) (all : Bytes) (last : Option ε) (caps : List Nat)
    (log : List Bytes) (out : Outcome ε) : Prop where
  isPrefix : log.flatten <+: all
  stopped : out ≠ .running → Stopped src all last log out
  whole : src.waits + all.length ≤ caps.length → log.flatten = all
  stops : src.closed = true → src.waits + all.length < caps.length → out ≠ .running

/-- The invariant of a caller that reads `src`. -/
def Driving (F : Framing σ ε Bytes) (init : FrameReader σ) (src : Inbound ε) (log : List Bytes)
    (s : FrameReader σ × Inbound ε) : Prop :=
  (∃ outs, Reading F init (init.raw ++ src.content) log s.1 s.2 outs) ∧ ∃ got, src.Gives got s.2

/-- The waits that are to come, and the bytes. -/
def todo (all : Bytes) (log : List Bytes) (s : FrameReader σ × Inbound ε) : Nat :=
  s.2.waits + (all.length - log.flatten.length)

section

variable {t : σ} {left : Bytes}

theorem Reading.isPrefix (hreads : F.Reads init.state total outs t left)
    (hmore : F.next t left = .more) {outs' : List Bytes}
    (h : Reading F init total log r src outs') : log.flatten <+: init.ready.rest ++ outs.flatten := by
  obtain ⟨more, rfl, -⟩ := h.reads.continues hreads (stuck_of_more hmore)
  rw [List.flatten_append, ← List.append_assoc, ← h.handed, List.append_assoc]
  exact List.prefix_append _ _

theorem AllRead.eq (hreads : F.Reads init.state total outs t left) (hmore : F.next t left = .more)
    {left' : Bytes} (h : AllRead F init total left' log) :
    left' = left ∧ log.flatten = init.ready.rest ++ outs.flatten := by
  obtain ⟨outs', t', hr, hm, hlog⟩ := h
  obtain ⟨rfl, -, rfl⟩ := hr.unique (stuck_of_more hm) hreads (stuck_of_more hmore)
  exact ⟨rfl, hlog⟩

/-- A poll gets something for the caller or leaves less to wait for, until the caller has all
that an open transport brings. -/
theorem polled (hchunk : 0 < chunk) (hu : ∀ e, .error e ∉ src.arrivals)
    (hreads : F.Reads r.state (r.raw ++ src.content) outs t left) (hmore : F.next t left = .more)
    (log : List Bytes) (s : FrameReader σ × Inbound ε) (cap : Nat) (hcap : 0 < cap)
    (h : Driving F r src log s) :
    Polled (Driving F r src) (Stopped src (r.ready.rest ++ outs.flatten) (cut left) · .ended)
        (fun log e => Stopped src (r.ready.rest ++ outs.flatten) (cut left) log (.failed e)) log
        (poll F cut chunk cap s.1 s.2) ∧
      (src.closed = false ∧ log.flatten = r.ready.rest ++ outs.flatten ∨
        Polled (fun log' s' => todo (r.ready.rest ++ outs.flatten) log' s' <
            todo (r.ready.rest ++ outs.flatten) log s)
          (fun _ => True) (fun _ _ => True) log (poll F cut chunk cap s.1 s.2)) := by
  obtain ⟨⟨outs', hr⟩, got, hg⟩ := h
  have hlog := (hr.isPrefix hreads hmore).length_le
  have hp : Polling F cut r _ log s.2 (poll F cut chunk cap s.1 s.2) := polling hchunk hcap hr
  revert hp
  rcases poll F cut chunk cap s.1 s.2 with ⟨a, r', src'⟩
  intro hp
  cases hp with
  | pending hg' h' hw =>
    refine ⟨⟨⟨_, h'⟩, _, hg.trans hg'⟩, ?_⟩
    rcases hw with hw | ⟨hopen, left', hall⟩
    · right
      simp only [Polled, todo]
      omega
    · exact .inl ⟨hg.closed ▸ hopen, (hall.eq hreads hmore).2⟩
  | bytes hg' h' =>
    refine ⟨⟨⟨_, h'⟩, _, hg.trans hg'⟩, .inr ?_⟩
    have hlog' := (h'.isPrefix hreads hmore).length_le
    have hw := hg'.waits
    simp only [Polled, todo]
    simp only [List.flatten_append, List.flatten_singleton, List.length_append,
      List.length_cons] at hlog' ⊢
    omega
  | ended hclosed h' =>
    obtain ⟨heq, hall⟩ := h'.eq hreads hmore
    have hstop : Stopped src (r.ready.rest ++ outs.flatten) (cut left) log (fate (cut left)) :=
      ⟨hg.closed ▸ hclosed, rfl, hall⟩
    rw [heq]
    revert hstop
    cases cut left with
    | none | some => exact fun hstop => ⟨hstop, .inr trivial⟩
  | failed hr' he =>
    obtain ⟨-, rfl, rfl⟩ := hr'.unique (stuck_of_fail he) hreads (stuck_of_more hmore)
    rw [hmore] at he
    cases he
  | transport he => exact absurd he (hg.unfailing hu _)

/-- What the bytes of a transport read as decides what its reader hands out, and how the
stream ends for it. -/
theorem settled (hchunk : 0 < chunk) (hu : ∀ e, .error e ∉ src.arrivals)
    (hreads : F.Reads r.state (r.raw ++ src.content) outs t left) (hmore : F.next t left = .more)
    {caps : List Nat} (hcaps : ∀ c ∈ caps, 0 < c) :
    Settled src (r.ready.rest ++ outs.flatten) (cut left) caps
      (drive (fun cap s => poll F cut chunk cap s.1 s.2) caps (r, src)).1
      (drive (fun cap s => poll F cut chunk cap s.1 s.2) caps (r, src)).2.1 := by
  have hpolled := @polled _ _ F cut r chunk outs src _ _ hchunk hu hreads hmore
  have hkeeps := fun log s cap hcap h => (hpolled log s cap hcap h).1
  have hnew : Driving F r src [] (r, src) := ⟨⟨[], reading_self r src⟩, [], .rfl⟩
  have hle {log : List Bytes} {s : FrameReader σ × Inbound ε} (h : Driving F r src log s) :
      log.flatten <+: r.ready.rest ++ outs.flatten := by
    obtain ⟨⟨outs', hr⟩, -⟩ := h
    exact hr.isPrefix hreads hmore
  have hd := driven hkeeps hcaps hnew
  refine ⟨?_, fun hne => ?_, fun hlen => ?_, fun hclosed hlen => ?_⟩
  · revert hd
    rcases drive (fun cap s => poll F cut chunk cap s.1 s.2) caps (r, src) with ⟨log, out, s⟩
    cases out with
    | running => exact fun hd => hle hd
    | ended | failed => exact fun hd => hd.2.2 ▸ List.prefix_rfl
  · revert hd hne
    rcases drive (fun cap s => poll F cut chunk cap s.1 s.2) caps (r, src) with ⟨log, out, s⟩
    cases out with
    | running => exact fun _ hne => absurd rfl hne
    | ended | failed => exact fun hd _ => hd
  · let all (log : List Bytes) : Prop := log.flatten = r.ready.rest ++ outs.flatten
    refine drive_completes (todo (r.ready.rest ++ outs.flatten)) hkeeps
      (fun log s cap hcap h => show all log ∨ _ from ?_) (fun log bs s h hlog => ?_) hcaps hnew
      (.inr hlen)
    · obtain ⟨hstop, ⟨-, hall⟩ | hless⟩ := hpolled log s cap hcap h
      · exact .inl hall
      revert hstop hless
      rcases poll F cut chunk cap s.1 s.2 with ⟨a, s'⟩
      match a with
      | .pending | .ready (.ok (b :: bs)) => exact fun _ hless => .inr hless
      | .ready (.ok []) | .ready (.error e) => exact fun hstop _ => .inl hstop.2.2
    · have hlen := (hle h).length_le
      rw [List.flatten_append, List.length_append, hlog, List.flatten_singleton] at hlen
      have hbs : bs = [] := List.eq_nil_of_length_eq_zero (by omega)
      show (log ++ [bs]).flatten = _
      rw [hbs]
      simpa using hlog
  · refine drive_stops (todo (r.ready.rest ++ outs.flatten)) hkeeps (fun log s cap hcap h => ?_)
      hcaps hnew hlen
    exact (hpolled log s cap hcap h).2.resolve_left fun hopen => absurd hclosed (by simp [hopen.1])

end

end FrameReader

end ByteStream
