/-
Byte strings that are cut into units, and readers of such strings.

A framing says what stands at the front of a byte string: a whole unit, a defect, or
not enough to tell.  More bytes behind a unit or a defect do not change it, so what a
string reads as does not depend on the pieces it arrives in.  `drive` is the caller of
a polled reader: it reads with buffers of given sizes until the stream ends or fails.
`ByteWriter.run` is the caller of a polled writer.
-/
import Mathlib.Logic.Function.Iterate
import RtProxy.Lib.ByteStream

namespace ByteStream

variable {σ ε S : Type}

/-! ## Prefixes of a sequence of frames -/

/-- A prefix ends inside the first part or goes on into the second. -/
theorem prefix_append_cases {p a b : Bytes} (h : p <+: a ++ b) :
    (p <+: a ∧ p ≠ a) ∨ ∃ q, p = a ++ q ∧ q <+: b := by
  rcases List.prefix_or_prefix_of_prefix h (List.prefix_append a b) with hp | ⟨q, rfl⟩
  · by_cases heq : p = a
    · exact .inr ⟨[], by simp [heq], List.nil_prefix⟩
    · exact .inl ⟨hp, heq⟩
  · exact .inr ⟨q, rfl, (List.prefix_append_right_inj a).mp h⟩

theorem length_lt_of_isPrefix {p bs : Bytes} (h : p <+: bs) (hne : p ≠ bs) :
    p.length < bs.length := by
  refine Nat.lt_of_le_of_ne h.length_le fun heq => hne ?_
  exact h.eq_of_length heq

/-- Frames that depend on a state which every frame moves on. -/
def frames {α : Type} (f : S → α → Bytes) (advance : S → S) : S → List α → Bytes
  | _, [] => []
  | s, x :: l => f s x ++ frames f advance (advance s) l

theorem frames_append {α : Type} (f : S → α → Bytes) (advance : S → S) (s : S) (l l' : List α) :
    frames f advance s (l ++ l')
      = frames f advance s l ++ frames f advance (advance^[l.length] s) l' := by
  induction l generalizing s with
  | nil => rfl
  | cons x l ih =>
    rw [List.cons_append, frames, frames, ih, List.append_assoc, List.length_cons,
      Function.iterate_succ_apply]

/-- A prefix of a sequence of frames is some whole frames and a part of the next. -/
theorem prefix_frames {α : Type} {f : S → α → Bytes} {advance : S → S} {s : S} {l : List α}
    {p : Bytes} (h : p <+: frames f advance s l) : ∃ front back part, l = front ++ back
      ∧ p = frames f advance s front ++ part
      ∧ (part = [] ∨ ∃ x rest, back = x :: rest ∧ part <+: f (advance^[front.length] s) x
        ∧ part ≠ f (advance^[front.length] s) x) := by
  induction l generalizing s p with
  | nil =>
    rw [frames, List.prefix_nil] at h
    exact ⟨[], [], [], rfl, by simp [h, frames], .inl rfl⟩
  | cons x l ih =>
    rw [frames] at h
    rcases prefix_append_cases h with ⟨hp, hne⟩ | ⟨q, rfl, hq⟩
    · exact ⟨[], x :: l, p, rfl, rfl, .inr ⟨x, l, rfl, hp, hne⟩⟩
    · obtain ⟨front, back, part, rfl, rfl, hpart⟩ := ih hq
      exact ⟨x :: front, back, part, rfl, by simp [frames], hpart⟩

theorem frames_eq_flatMap {α : Type} (f : α → Bytes) (s : S) (l : List α) :
    frames (fun _ => f) id s l = l.flatMap f := by
  induction l with
  | nil => rfl
  | cons x l ih => rw [frames, List.flatMap_cons, id, ih]

theorem prefix_flatMap {α : Type} {f : α → Bytes} {l : List α} {p : Bytes}
    (h : p <+: l.flatMap f) : ∃ front back part, l = front ++ back
      ∧ p = front.flatMap f ++ part
      ∧ (part = [] ∨ ∃ x rest, back = x :: rest ∧ part <+: f x ∧ part ≠ f x) := by
  rw [← frames_eq_flatMap f ()] at h
  obtain ⟨front, back, part, hl, hp, hpart⟩ := prefix_frames h
  exact ⟨front, back, part, hl, frames_eq_flatMap f () front ▸ hp, hpart⟩

/-! ## Framings -/

/-- What stands at the front of a byte string. -/
inductive Next (σ ε α : Type)
  | more
  | fail (e : ε)
  | unit (s : σ) (out : α) (rest : Bytes)

structure Framing (σ ε α : Type) where
  next : σ → Bytes → Next σ ε α
  shrinks : ∀ {s bs s' out rest}, next s bs = .unit s' out rest → rest.length < bs.length
  unit_append : ∀ {s bs s' out rest}, next s bs = .unit s' out rest →
    ∀ more, next s (bs ++ more) = .unit s' out (rest ++ more)
  fail_append : ∀ {s bs e}, next s bs = .fail e → ∀ more, next s (bs ++ more) = .fail e

namespace Framing

variable {α : Type} {F : Framing σ ε α}

/-- From state `s` on, the string begins with units that put out `outs` and leave `t`
and the bytes `left`. -/
inductive Reads (F : Framing σ ε α) : σ → Bytes → List α → σ → Bytes → Prop
  | refl {s : σ} {bs : Bytes} : Reads F s bs [] s bs
  | unit {s s' t : σ} {bs rest left : Bytes} {out : α} {outs : List α}
      (h : F.next s bs = .unit s' out rest) (hr : Reads F s' rest outs t left) :
      Reads F s bs (out :: outs) t left

/-- No further unit stands at the front. -/
def Stuck (F : Framing σ ε α) (s : σ) (bs : Bytes) : Prop :=
  ∀ s' out rest, F.next s bs ≠ .unit s' out rest

namespace Reads

theorem trans {s t u : σ} {bs mid left : Bytes} {outs outs' : List α}
    (h : Reads F s bs outs t mid) (h' : Reads F t mid outs' u left) :
    Reads F s bs (outs ++ outs') u left := by
  induction h with
  | refl => exact h'
  | unit hn _ ih => exact .unit hn (ih h')

theorem tail {s t u : σ} {bs mid left : Bytes} {out : α} {outs : List α}
    (h : Reads F s bs outs t mid) (hn : F.next t mid = .unit u out left) :
    Reads F s bs (outs ++ [out]) u left :=
  h.trans (.unit hn .refl)

theorem append {s t : σ} {bs left : Bytes} {outs : List α} (h : Reads F s bs outs t left)
    (more : Bytes) : Reads F s (bs ++ more) outs t (left ++ more) := by
  induction h with
  | refl => exact .refl
  | unit hn _ ih => exact .unit (F.unit_append hn more) ih

/-- Any reading leads on to the one that cannot go on. -/
theorem continues {s t u : σ} {bs mid left : Bytes} {outs outs' : List α}
    (h : Reads F s bs outs t mid) (h' : Reads F s bs outs' u left) (hs : F.Stuck u left) :
    ∃ more, outs' = outs ++ more ∧ Reads F t mid more u left := by
  induction h generalizing outs' with
  | refl => exact ⟨outs', rfl, h'⟩
  | unit hn _ ih =>
    cases h' with
    | refl => exact absurd hn (hs _ _ _)
    | unit hn' hr' =>
      rw [hn] at hn'
      cases hn'
      obtain ⟨more, rfl, hmore⟩ := ih hr'
      exact ⟨more, rfl, hmore⟩

/-- Two readings that cannot go on are the same. -/
theorem unique {s t u : σ} {bs mid left : Bytes} {outs outs' : List α}
    (h : Reads F s bs outs t mid) (ht : F.Stuck t mid) (h' : Reads F s bs outs' u left)
    (hu : F.Stuck u left) : outs = outs' ∧ t = u ∧ mid = left := by
  obtain ⟨more, rfl, hmore⟩ := h.continues h' hu
  cases hmore with
  | refl => simp
  | unit hn _ => exact absurd hn (ht _ _ _)

/-- Units that put out no more than they take keep the whole of the output short. -/
theorem flatten_le {F : Framing σ ε Bytes} (hF : ∀ {s bs s' out rest}, F.next s bs = .unit s' out rest →
      out.length + rest.length ≤ bs.length)
    {s t : σ} {bs left : Bytes} {outs : List Bytes} (h : Reads F s bs outs t left) :
    outs.flatten.length ≤ bs.length := by
  induction h with
  | refl => exact Nat.zero_le _
  | unit hn _ ih =>
    have hle := hF hn
    rw [List.flatten_cons, List.length_append]
    omega

end Reads

theorem stuck_of_more {s : σ} {bs : Bytes} (h : F.next s bs = .more) : F.Stuck s bs := by
  intro s' out rest hn
  rw [h] at hn
  cases hn

theorem stuck_of_fail {s : σ} {bs : Bytes} {e : ε} (h : F.next s bs = .fail e) :
    F.Stuck s bs := by
  intro s' out rest hn
  rw [h] at hn
  cases hn

/-- Every unit is some bytes of the string, and is found whatever stands behind them. -/
def Exact (F : Framing σ ε α) : Prop :=
  ∀ s bs s' out rest, F.next s bs = .unit s' out rest →
    ∃ u, bs = u ++ rest ∧ ∀ more, F.next s (u ++ more) = .unit s' out more

/-- Units that were read are found whatever stands behind them. -/
theorem Reads.exact (hF : F.Exact) {s t : σ} {bs left : Bytes} {outs : List α}
    (h : Reads F s bs outs t left) :
    ∃ used, bs = used ++ left ∧ ∀ more, Reads F s (used ++ more) outs t more := by
  induction h with
  | refl => exact ⟨[], rfl, fun _ => .refl⟩
  | unit hn _ ih =>
    obtain ⟨u, rfl, hu⟩ := hF _ _ _ _ _ hn
    obtain ⟨used, rfl, hused⟩ := ih
    refine ⟨u ++ used, by rw [List.append_assoc], fun more => ?_⟩
    rw [List.append_assoc]
    exact .unit (hu _) (hused more)

/-- A reading at one of its units. -/
theorem Reads.split {s t : σ} {bs left : Bytes} {outs outs' : List α} {out : α}
    (h : Reads F s bs (outs ++ out :: outs') t left) : ∃ s₁ mid s₂ rest, Reads F s bs outs s₁ mid
      ∧ F.next s₁ mid = .unit s₂ out rest ∧ Reads F s₂ rest outs' t left := by
  induction outs generalizing s bs with
  | nil =>
    cases h with
    | unit hn hr => exact ⟨_, _, _, _, .refl, hn, hr⟩
  | cons o outs ih =>
    cases h with
    | unit hn hr =>
      obtain ⟨s₁, mid, s₂, rest, hfront, hmid, hback⟩ := ih hr
      exact ⟨s₁, mid, s₂, rest, .unit hn hfront, hmid, hback⟩

/-! ## Two framings -/

variable {δ : Type} {G : Framing σ δ α}

/-- The two find the same unit, or neither finds one. -/
def SameUnit (F : Framing σ ε α) (G : Framing σ δ α) (s : σ) (bs : Bytes) : Prop :=
  ∀ s' out rest, F.next s bs = .unit s' out rest ↔ G.next s bs = .unit s' out rest

theorem SameUnit.stuck_iff {s : σ} {bs : Bytes} (h : SameUnit F G s bs) :
    F.Stuck s bs ↔ G.Stuck s bs :=
  ⟨fun hF s' out rest hn => hF s' out rest ((h s' out rest).mpr hn),
    fun hG s' out rest hn => hG s' out rest ((h s' out rest).mp hn)⟩

theorem Reads.eq_of_stuck {s t : σ} {bs left : Bytes} {outs : List α} (hs : F.Stuck s bs)
    (h : Reads F s bs outs t left) : outs = [] ∧ t = s ∧ left = bs := by
  cases h with
  | refl => exact ⟨rfl, rfl, rfl⟩
  | unit hn _ => exact absurd hn (hs _ _ _)

/-- Where the second finds the same units, what it reads the first reads too. -/
theorem Reads.of_sameUnit {s t : σ} {bs left : Bytes} {outs : List α} (h : Reads G s bs outs t left)
    (hsame : ∀ mid s' rest, Reads F s bs mid s' rest → SameUnit F G s' rest) :
    Reads F s bs outs t left := by
  induction h with
  | refl => exact .refl
  | unit hn _ ih =>
    have hn' := (hsame [] _ _ .refl _ _ _).mpr hn
    exact .unit hn' (ih fun mid s' rest hr => hsame _ s' rest (.unit hn' hr))

/-- Two framings whose units show how far they reach read the same units from a string
exactly if they find the same unit at every place that the first comes to. -/
theorem Reads.eq_iff_sameUnit (hreach : ∀ {s bs s₁ s₂ out r₁ r₂}, F.next s bs = .unit s₁ out r₁ →
      G.next s bs = .unit s₂ out r₂ → s₁ = s₂ ∧ r₁ = r₂)
    {s t u : σ} {bs left left' : Bytes} {outs outs' : List α}
    (h : Reads F s bs outs t left) (ht : F.Stuck t left)
    (h' : Reads G s bs outs' u left') (hu : G.Stuck u left') :
    outs = outs' ↔
      ∀ mid s' rest, Reads F s bs mid s' rest → SameUnit F G s' rest := by
  induction h generalizing outs' with
  | @refl s bs =>
    constructor
    · rintro rfl mid s' rest hmid
      obtain ⟨-, rfl, rfl⟩ := hmid.eq_of_stuck ht
      cases h'
      exact fun s₁ out r => ⟨fun hn => absurd hn (ht _ _ _), fun hn => absurd hn (hu _ _ _)⟩
    · intro hall
      have hG := (hall [] s bs .refl).stuck_iff.mp ht
      exact (h'.eq_of_stuck hG).1.symm
  | @unit s s₁ t bs r₁ left out outs hn hr ih =>
    constructor
    · rintro rfl mid s' rest hmid
      cases h' with
      | unit hn' hr' =>
        obtain ⟨rfl, rfl⟩ := hreach hn hn'
        cases hmid with
        | refl =>
          intro s'' out' r
          rw [hn, hn']
          constructor <;> rintro ⟨⟩ <;> rfl
        | unit hm hmr =>
          obtain ⟨rfl, rfl, rfl⟩ := Next.unit.inj (hn.symm.trans hm)
          exact (ih ht hr').mp rfl _ _ _ hmr
    · intro hall
      have hn' := (hall [] s bs .refl s₁ out r₁).mp hn
      cases h' with
      | refl => exact absurd hn' (hu _ _ _)
      | unit hm hmr =>
        obtain ⟨rfl, rfl, rfl⟩ := Next.unit.inj (hn'.symm.trans hm)
        rw [(ih ht hmr).mpr fun mid s' rest hmid => hall _ _ _ (.unit hn hmid)]

end Framing

/-! ## Handing out -/

/-- The pieces `log` handed out so far and the bytes `ready` to be handed out next come
from `outs`, one after the other and without a piece that spans two of them. -/
inductive Handed : List Bytes → Bytes → List Bytes → Prop
  | nil : Handed [] [] []
  | load {log outs : List Bytes} (h : Handed log [] outs) (out : Bytes) :
      Handed log out (outs ++ [out])
  | take {log outs : List Bytes} {piece ready : Bytes} (h : Handed log (piece ++ ready) outs)
      (hne : piece ≠ []) : Handed (log ++ [piece]) ready outs

/-- `log` consists of pieces of the byte strings `ds`, one string after the other. -/
def PiecesOf (log ds : List Bytes) : Prop :=
  ∃ done : List (List Bytes), log = done.flatten ∧ ds = done.map List.flatten

namespace PiecesOf

theorem self (ds : List Bytes) : PiecesOf ds ds := by
  refine ⟨ds.map fun d => [d], ?_, ?_⟩
  all_goals
    induction ds with
    | nil => rfl
    | cons d ds ih => simpa using ih

theorem append {log log' ds ds' : List Bytes} (h : PiecesOf log ds) (h' : PiecesOf log' ds') :
    PiecesOf (log ++ log') (ds ++ ds') := by
  obtain ⟨done, rfl, rfl⟩ := h
  obtain ⟨done', rfl, rfl⟩ := h'
  exact ⟨done ++ done', by simp, by simp⟩

end PiecesOf

namespace Handed

theorem flatten {log outs : List Bytes} {ready : Bytes} (h : Handed log ready outs) :
    log.flatten ++ ready = outs.flatten := by
  induction h with
  | nil => rfl
  | load _ out ih =>
    rw [List.append_nil] at ih
    simp [ih]
  | take _ _ ih => simpa using ih

/-- The pieces fall into groups, one for each non-empty output; the last group may be
under way. -/
theorem groups {log outs : List Bytes} {ready : Bytes} (h : Handed log ready outs) :
    ∃ (done : List (List Bytes)) (part : List Bytes), log = done.flatten ++ part
      ∧ (ready = [] → part = [])
      ∧ outs.filter (· ≠ []) = done.map List.flatten
          ++ if ready = [] then [] else [part.flatten ++ ready] := by
  induction h with
  | nil => exact ⟨[], [], by simp⟩
  | @load log outs _ out ih =>
    obtain ⟨done, part, hlog, hpart, houts⟩ := ih
    have hnil : part = [] := hpart rfl
    subst hnil
    refine ⟨done, [], hlog, by simp, ?_⟩
    rw [List.filter_append, houts]
    by_cases hout : out = [] <;> simp [hout]
  | @take log outs piece ready _ hne ih =>
    obtain ⟨done, part, hlog, _, houts⟩ := ih
    rw [if_neg (by simp [hne])] at houts
    by_cases hready : ready = []
    · refine ⟨done ++ [part ++ [piece]], [], ?_, by simp, ?_⟩
      · simp [hlog]
      · simpa [hready] using houts
    · refine ⟨done, part ++ [piece], ?_, by simp [hready], ?_⟩
      · simp [hlog]
      · simpa [hready] using houts

/-- Once nothing is ready, the pieces are those of the outputs. -/
theorem pieces {log outs : List Bytes} (h : Handed log [] outs) :
    PiecesOf log (outs.filter (· ≠ [])) := by
  obtain ⟨done, part, rfl, hpart, houts⟩ := h.groups
  exact ⟨done, by simp [hpart rfl], by simpa using houts⟩

/-- At any time the pieces go on to those of the outputs and what follows them. -/
theorem goes_on {log outs : List Bytes} {ready : Bytes} (h : Handed log ready outs)
    (rest : List Bytes) : ∃ more, PiecesOf (log ++ more) (outs.filter (· ≠ []) ++ rest) := by
  obtain ⟨done, part, rfl, hpart, houts⟩ := h.groups
  by_cases hready : ready = []
  · refine ⟨rest, .append ⟨done, by simp [hpart hready], by simpa [hready] using houts⟩ (.self rest)⟩
  · refine ⟨ready :: rest, ?_⟩
    rw [if_neg hready] at houts
    have hdone : PiecesOf (done.flatten ++ (part ++ [ready])) (outs.filter (· ≠ [])) :=
      ⟨done ++ [part ++ [ready]], by simp, by simpa using houts⟩
    simpa using hdone.append (.self rest)

end Handed

/-! ## The caller of a reader -/

/-- How the reading of a stream stands. -/
inductive Outcome (ε : Type)
  | running
  | ended
  | failed (e : ε)
deriving Repr, DecidableEq

/-- Polls a reader with buffers of the given sizes until the stream ends or fails, and
returns the non-empty reads. -/
def drive (poll : Nat → S → Poll (Except ε Bytes) × S) :
    List Nat → S → List Bytes × Outcome ε × S
  | [], s => ([], .running, s)
  | cap :: caps, s =>
    match poll cap s with
    | (.pending, s') => drive poll caps s'
    | (.ready (.error e), s') => ([], .failed e, s')
    | (.ready (.ok []), s') => ([], .ended, s')
    | (.ready (.ok (b :: bs)), s') =>
      ((b :: bs) :: (drive poll caps s').1, (drive poll caps s').2)

/-- A reader that polls a part of itself reads what the part reads. -/
theorem drive_part {T : Type} {poll : Nat → S → Poll (Except ε Bytes) × S}
    {part : Nat → T → Poll (Except ε Bytes) × T} (view : S → T) (ok : S → Prop)
    (hpart : ∀ cap s, ok s → ok (poll cap s).2 ∧ (poll cap s).1 = (part cap (view s)).1
      ∧ view (poll cap s).2 = (part cap (view s)).2)
    (caps : List Nat) {s : S} (hs : ok s) :
    (drive poll caps s).1 = (drive part caps (view s)).1
      ∧ (drive poll caps s).2.1 = (drive part caps (view s)).2.1 := by
  induction caps generalizing s with
  | nil => exact ⟨rfl, rfl⟩
  | cons cap caps ih =>
    have hp := hpart cap s hs
    rw [drive, drive]
    revert hp
    rcases poll cap s with ⟨a, s'⟩
    rcases part cap (view s) with ⟨a', t'⟩
    rintro ⟨hs', rfl, rfl⟩
    match a with
    | .pending => exact ih hs'
    | .ready (.error e) | .ready (.ok []) => exact ⟨rfl, rfl⟩
    | .ready (.ok (b :: bs)) =>
      obtain ⟨hlog, hout⟩ := ih hs'
      exact ⟨congrArg _ hlog, hout⟩

/-- What one poll makes of an invariant between the reads so far and the state. -/
def Polled (inv : List Bytes → S → Prop) (ended : List Bytes → Prop)
    (failed : List Bytes → ε → Prop) (log : List Bytes) : Poll (Except ε Bytes) × S → Prop
  | (.pending, s) => inv log s
  | (.ready (.error e), _) => failed log e
  | (.ready (.ok []), _) => ended log
  | (.ready (.ok (b :: bs)), s) => inv (log ++ [b :: bs]) s

def Driven (inv : List Bytes → S → Prop) (ended : List Bytes → Prop)
    (failed : List Bytes → ε → Prop) : List Bytes × Outcome ε × S → Prop
  | (log, .running, s) => inv log s
  | (log, .ended, _) => ended log
  | (log, .failed e, _) => failed log e

variable {poll : Nat → S → Poll (Except ε Bytes) × S} {inv : List Bytes → S → Prop}
  {ended : List Bytes → Prop} {failed : List Bytes → ε → Prop}

/-- An invariant that every poll keeps is kept by the caller. -/
theorem driven_from (hpoll : ∀ log s cap, 0 < cap → inv log s →
      Polled inv ended failed log (poll cap s))
    {caps : List Nat} (hcaps : ∀ c ∈ caps, 0 < c) {log : List Bytes} {s : S} (h : inv log s) :
    Driven inv ended failed (log ++ (drive poll caps s).1, (drive poll caps s).2) := by
  induction caps generalizing log s with
  | nil => simpa [drive, Driven] using h
  | cons cap caps ih =>
    have hcaps' : ∀ c ∈ caps, 0 < c := fun c hc => hcaps c (List.mem_cons_of_mem _ hc)
    have hp := hpoll log s cap (hcaps cap (by simp)) h
    rw [drive]
    revert hp
    rcases poll cap s with ⟨a, s'⟩
    cases a with
    | pending => exact fun hp => ih hcaps' hp
    | ready r =>
      cases r with
      | error e => exact fun hp => by simpa [Polled, Driven] using hp
      | ok bs =>
        cases bs with
        | nil => exact fun hp => by simpa [Polled, Driven] using hp
        | cons b bs => exact fun hp => by simpa using ih hcaps' hp

theorem driven (hpoll : ∀ log s cap, 0 < cap → inv log s →
      Polled inv ended failed log (poll cap s))
    {caps : List Nat} (hcaps : ∀ c ∈ caps, 0 < c) {s : S} (h : inv [] s) :
    Driven inv ended failed (drive poll caps s) := by
  simpa using driven_from hpoll hcaps h

/-- A caller whose every poll leaves less to do comes to an end. -/
theorem drive_stops (todo : List Bytes → S → Nat)
    (hpoll : ∀ log s cap, 0 < cap → inv log s → Polled inv ended failed log (poll cap s))
    (hless : ∀ log s cap, 0 < cap → inv log s → Polled
      (fun log' s' => todo log' s' < todo log s) (fun _ => True) (fun _ _ => True) log (poll cap s))
    {caps : List Nat} (hcaps : ∀ c ∈ caps, 0 < c) {log : List Bytes} {s : S} (h : inv log s)
    (hlen : todo log s < caps.length) : (drive poll caps s).2.1 ≠ .running := by
  induction caps generalizing log s with
  | nil => exact absurd hlen (Nat.not_lt_zero _)
  | cons cap caps ih =>
    have hcaps' : ∀ c ∈ caps, 0 < c := fun c hc => hcaps c (List.mem_cons_of_mem _ hc)
    have hp := hpoll log s cap (hcaps cap (by simp)) h
    have hl := hless log s cap (hcaps cap (by simp)) h
    rw [List.length_cons] at hlen
    rw [drive]
    revert hp hl
    rcases poll cap s with ⟨a, s'⟩
    cases a with
    | pending =>
      intro hp hl
      change todo log s' < todo log s at hl
      exact ih hcaps' hp (by omega)
    | ready r =>
      cases r with
      | error e => simp
      | ok bs =>
        cases bs with
        | nil => simp
        | cons b bs =>
          intro hp hl
          change todo (log ++ [b :: bs]) s' < todo log s at hl
          exact ih hcaps' hp (by omega)

/-- A caller whose every poll gets further, unless all has been read, reads all. -/
theorem drive_completes (todo : List Bytes → S → Nat) {all : List Bytes → Prop}
    (hpoll : ∀ log s cap, 0 < cap → inv log s → Polled inv ended failed log (poll cap s))
    (hless : ∀ log s cap, 0 < cap → inv log s → all log ∨ Polled
      (fun log' s' => todo log' s' < todo log s) all (fun _ _ => False) log (poll cap s))
    (hall : ∀ log bs s, inv (log ++ [bs]) s → all log → all (log ++ [bs]))
    {caps : List Nat} (hcaps : ∀ c ∈ caps, 0 < c) {log : List Bytes} {s : S} (h : inv log s)
    (hlen : all log ∨ todo log s ≤ caps.length) : all (log ++ (drive poll caps s).1) := by
  induction caps generalizing log s with
  | nil =>
    rw [drive, List.append_nil]
    rcases hlen with hlen | hlen
    · exact hlen
    rcases hless log s 1 Nat.one_pos h with hl | hl
    · exact hl
    revert hl
    rcases poll 1 s with ⟨a, s'⟩
    match a with
    | .pending | .ready (.ok (b :: bs)) =>
      intro hl
      simp only [Polled, List.length_nil] at hl hlen
      omega
    | .ready (.error e) => exact fun hl => hl.elim
    | .ready (.ok []) => exact fun hl => hl
  | cons cap caps ih =>
    have hcaps' : ∀ c ∈ caps, 0 < c := fun c hc => hcaps c (List.mem_cons_of_mem _ hc)
    have hp := hpoll log s cap (hcaps cap (by simp)) h
    have hl := hless log s cap (hcaps cap (by simp)) h
    rw [List.length_cons] at hlen
    rw [drive]
    revert hp hl
    rcases poll cap s with ⟨a, s'⟩
    match a with
    | .pending =>
      intro hp hl
      simp only [Polled] at hl
      refine ih hcaps' hp ?_
      rcases hl with hl | hl
      · exact .inl hl
      · exact hlen.imp_right fun hlen => by omega
    | .ready (.error e) =>
      intro hp hl
      rcases hl with hl | hl
      · simpa using hl
      · exact hl.elim
    | .ready (.ok []) =>
      intro hp hl
      rw [List.append_nil]
      rcases hl with hl | hl
      · exact hl
      · exact hl
    | .ready (.ok (b :: bs)) =>
      intro hp hl
      simp only [Polled] at hl
      have hlen' : all (log ++ [b :: bs]) ∨ todo (log ++ [b :: bs]) s' ≤ caps.length := by
        rcases hl with hl | hl
        · exact .inl (hall log _ s' hp hl)
        · rcases hlen with hlen | hlen
          · exact .inl (hall log _ s' hp hlen)
          · exact .inr (by omega)
      simpa using ih hcaps' hp hlen'

/-! ## The caller of a writer -/

inductive WriteOp
  | write (buf : Bytes)
  | flush
  | shutdown
deriving Repr, DecidableEq

/-- The three polls of a writer. -/
structure ByteWriter (S ε : Type) where
  write : Bytes → S → Poll (Except ε Nat) × S
  flush : S → Poll (Except ε Unit) × S
  shutdown : S → Poll (Except ε Unit) × S

namespace ByteWriter

variable {W : ByteWriter S ε}

/-- Makes the calls in order and returns what the writes accepted. -/
def run (W : ByteWriter S ε) : List WriteOp → S → List Bytes × S
  | [], s => ([], s)
  | .write buf :: ops, s =>
    match W.write buf s with
    | (.ready (.ok (n + 1)), s') => (buf.take (n + 1) :: (W.run ops s').1, (W.run ops s').2)
    | (_, s') => W.run ops s'
  | .flush :: ops, s => W.run ops (W.flush s).2
  | .shutdown :: ops, s => W.run ops (W.shutdown s).2

theorem run_write_congr {buf : Bytes} {s s' : S} (h : W.write buf s = W.write buf s')
    (ops : List WriteOp) : W.run (.write buf :: ops) s = W.run (.write buf :: ops) s' := by
  rw [run, run, h]

theorem run_write_whole {buf : Bytes} {s s' : S} (h : W.write buf s = (.ready (.ok buf.length), s'))
    (hne : buf ≠ []) (ops : List WriteOp) :
    W.run (.write buf :: ops) s = (buf :: (W.run ops s').1, (W.run ops s').2) := by
  obtain ⟨n, hn⟩ : ∃ n, buf.length = n + 1 :=
    ⟨buf.length - 1, by have := List.length_pos_iff.mpr hne; omega⟩
  have htake : buf.take (n + 1) = buf := by rw [← hn, List.take_length]
  rw [run, h, hn]
  dsimp only
  rw [htake]

theorem run_write_refused {buf : Bytes} {s : S} (h : ∀ n, (W.write buf s).1 ≠ .ready (.ok (n + 1)))
    (ops : List WriteOp) : W.run (.write buf :: ops) s = W.run ops (W.write buf s).2 := by
  rw [run]
  split
  · rename_i heq
    exact absurd (congrArg Prod.fst heq) (h _)
  · rename_i heq
    rw [heq]

/-- What one write makes of an invariant between the accepted parts and the state. -/
def Accepts (inv : List Bytes → S → Prop) (log : List Bytes) (buf : Bytes) :
    Poll (Except ε Nat) × S → Prop
  | (.ready (.ok (n + 1)), s) => inv (log ++ [buf.take (n + 1)]) s
  | (_, s) => inv log s

theorem Accepts.refused {inv : List Bytes → S → Prop} {log : List Bytes} {buf : Bytes}
    {x : Poll (Except ε Nat) × S} (h : ∀ n, x.1 ≠ .ready (.ok (n + 1))) (hi : inv log x.2) :
    Accepts inv log buf x := by
  obtain ⟨a, s⟩ := x
  match a with
  | .pending | .ready (.error e) | .ready (.ok 0) => exact hi
  | .ready (.ok (n + 1)) => exact absurd rfl (h n)

theorem Accepts.part {inv : List Bytes → S → Prop} {log : List Bytes} {buf : Bytes}
    {x : Poll (Except ε Nat) × S} {n : Nat} (h : x.1 = .ready (.ok n)) (hn : 0 < n)
    (hi : inv (log ++ [buf.take n]) x.2) : Accepts inv log buf x := by
  obtain ⟨a, s⟩ := x
  obtain ⟨m, rfl⟩ : ∃ m, n = m + 1 := ⟨n - 1, by omega⟩
  have ha : a = .ready (.ok (m + 1)) := h
  subst ha
  exact hi

theorem Accepts.whole {inv : List Bytes → S → Prop} {log : List Bytes} {buf : Bytes}
    {x : Poll (Except ε Nat) × S} (h : x.1 = .ready (.ok buf.length)) (hne : buf ≠ [])
    (hi : inv (log ++ [buf]) x.2) : Accepts inv log buf x :=
  .part h (List.length_pos_iff.mpr hne) (by rwa [List.take_length])

theorem run_keeps_from {inv : List Bytes → S → Prop}
    (hwrite : ∀ log s buf, inv log s → Accepts inv log buf (W.write buf s))
    (hflush : ∀ log s, inv log s → inv log (W.flush s).2)
    (hshutdown : ∀ log s, inv log s → inv log (W.shutdown s).2)
    (ops : List WriteOp) {log : List Bytes} {s : S} (h : inv log s) :
    inv (log ++ (W.run ops s).1) (W.run ops s).2 := by
  induction ops generalizing log s with
  | nil => simpa [run] using h
  | cons op ops ih =>
    cases op with
    | flush => exact ih (hflush log s h)
    | shutdown => exact ih (hshutdown log s h)
    | write buf =>
      have hw := hwrite log s buf h
      rw [run]
      revert hw
      rcases W.write buf s with ⟨a, s'⟩
      match a with
      | .pending | .ready (.error e) | .ready (.ok 0) => exact fun hw => ih hw
      | .ready (.ok (n + 1)) => exact fun hw => by simpa using ih hw

/-- An invariant that every call keeps holds after all of them. -/
theorem run_keeps {inv : List Bytes → S → Prop}
    (hwrite : ∀ log s buf, inv log s → Accepts inv log buf (W.write buf s))
    (hflush : ∀ log s, inv log s → inv log (W.flush s).2)
    (hshutdown : ∀ log s, inv log s → inv log (W.shutdown s).2)
    (ops : List WriteOp) {s : S} (h : inv [] s) : inv (W.run ops s).1 (W.run ops s).2 := by
  simpa using run_keeps_from hwrite hflush hshutdown ops h

/-- The state before each write, with what the write offers. -/
def writes (W : ByteWriter S ε) : List WriteOp → S → List (S × Bytes)
  | [], _ => []
  | .write buf :: ops, s => (s, buf) :: W.writes ops (W.write buf s).2
  | .flush :: ops, s => W.writes ops (W.flush s).2
  | .shutdown :: ops, s => W.writes ops (W.shutdown s).2

/-- What an answer stands for: the form of the bytes accepted, or nothing. -/
def formOf (form : Nat → Bytes) : Poll (Except ε Nat) → Bytes
  | .ready (.ok n) => form n
  | _ => []

theorem sent_write (dst : Outbound ε) (bs : Bytes) :
    (dst.write bs).2.sent = dst.sent ++ formOf bs.take (dst.write bs).1 := by
  obtain ⟨grants, sent⟩ := dst
  cases grants with
  | nil => exact (List.append_nil _).symm
  | cons g gs =>
    cases g with
    | pending | error => exact (List.append_nil _).symm
    | accept k => rfl

/-- The forms of the writes that return `Ok`, given the state before each and the number of
bytes it accepts. -/
def accepted (W : ByteWriter S ε) (form : S → Bytes → Nat → Bytes) (ops : List WriteOp) (s : S) :
    Bytes :=
  (W.writes ops s).flatMap fun w => formOf (form w.1 w.2) (W.write w.2 w.1).1

/-- Calls that account for what they produce, as long as they meet a condition. -/
theorem produced_eq_accepted {form : S → Bytes → Nat → Bytes} (produced : S → Bytes)
    (Q : S × Bytes → Prop)
    (hwrite : ∀ s buf, Q (s, buf) →
      produced (W.write buf s).2 = produced s ++ formOf (form s buf) (W.write buf s).1)
    (hflush : ∀ s, produced (W.flush s).2 = produced s)
    (hshutdown : ∀ s, produced (W.shutdown s).2 = produced s) (ops : List WriteOp) (s : S)
    (hq : ∀ c ∈ W.writes ops s, Q c) :
    produced (W.run ops s).2 = produced s ++ W.accepted form ops s := by
  induction ops generalizing s with
  | nil => simp [run, accepted, writes]
  | cons op ops ih =>
    cases op with
    | flush => exact (ih _ hq).trans (by rw [hflush]; rfl)
    | shutdown => exact (ih _ hq).trans (by rw [hshutdown]; rfl)
    | write buf =>
      have hs := hwrite s buf (hq _ List.mem_cons_self)
      have hrest := ih (W.write buf s).2 fun c hc => hq c (List.mem_cons_of_mem _ hc)
      have hrun : (W.run (.write buf :: ops) s).2 = (W.run ops (W.write buf s).2).2 := by
        rw [run]
        rcases W.write buf s with ⟨a, s'⟩
        match a with
        | .pending | .ready (.error e) | .ready (.ok 0) => rfl
        | .ready (.ok (n + 1)) => rfl
      rw [hrun, hrest, hs, List.append_assoc]
      rfl

/-- A trace of the writes is kept as the accepted parts are. -/
theorem run_traced {β : Type} (trace : S × Bytes → List β) {inv : List Bytes → List β → S → Prop}
    (hwrite : ∀ log tr s buf, inv log tr s →
      Accepts (fun log' => inv log' (tr ++ trace (s, buf))) log buf (W.write buf s))
    (hflush : ∀ log tr s, inv log tr s → inv log tr (W.flush s).2)
    (hshutdown : ∀ log tr s, inv log tr s → inv log tr (W.shutdown s).2)
    (ops : List WriteOp) {log : List Bytes} {tr : List β} {s : S} (h : inv log tr s) :
    inv (log ++ (W.run ops s).1) (tr ++ (W.writes ops s).flatMap trace) (W.run ops s).2 := by
  induction ops generalizing log tr s with
  | nil => simpa [run, writes] using h
  | cons op ops ih =>
    cases op with
    | flush => exact ih (hflush log tr s h)
    | shutdown => exact ih (hshutdown log tr s h)
    | write buf =>
      have hw := hwrite log tr s buf h
      rw [run, writes, List.flatMap_cons, ← List.append_assoc]
      revert hw
      rcases W.write buf s with ⟨a, s'⟩
      match a with
      | .pending | .ready (.error e) | .ready (.ok 0) => exact fun hw => ih hw
      | .ready (.ok (n + 1)) => exact fun hw => by simpa using ih hw

/-- What an invariant gives of every write that meets a condition holds of all of them, if
they all meet it. -/
theorem forall_writes (inv : S → Prop) (Q P : S × Bytes → Prop)
    (hwrite : ∀ s buf, inv s → Q (s, buf) → P (s, buf) ∧ inv (W.write buf s).2)
    (hflush : ∀ s, inv s → inv (W.flush s).2) (hshutdown : ∀ s, inv s → inv (W.shutdown s).2)
    (ops : List WriteOp) {s : S} (h : inv s) (hq : ∀ c ∈ W.writes ops s, Q c) :
    ∀ c ∈ W.writes ops s, P c := by
  induction ops generalizing s with
  | nil => exact List.forall_mem_nil _
  | cons op ops ih =>
    cases op with
    | flush => exact ih (hflush s h) hq
    | shutdown => exact ih (hshutdown s h) hq
    | write buf =>
      obtain ⟨hfirst, hrest⟩ := List.forall_mem_cons.mp hq
      obtain ⟨hp, hi⟩ := hwrite s buf h hfirst
      exact List.forall_mem_cons.mpr ⟨hp, ih hi hrest⟩

/-- A write keeps an invariant whatever it accepts. -/
theorem Accepts.exists {inv : List Bytes → S → Prop} {log : List Bytes} {buf : Bytes}
    {x : Poll (Except ε Nat) × S} (h : Accepts inv log buf x) : ∃ log', inv log' x.2 := by
  obtain ⟨a, s⟩ := x
  match a with
  | .pending | .ready (.error e) | .ready (.ok 0) => exact ⟨log, h⟩
  | .ready (.ok (n + 1)) => exact ⟨_, h⟩

/-- What the writes offer. -/
def offered (ops : List WriteOp) : List Bytes :=
  ops.filterMap fun
    | .write buf => some buf
    | _ => none

/-- A writer that accepts a buffer as a whole or not at all accepts some of the buffers
it is offered. -/
theorem run_sublist (ok : S → Prop) (hwrite : ∀ s buf, ok s → ok (W.write buf s).2
      ∧ ∀ n, (W.write buf s).1 = .ready (.ok (n + 1)) → n + 1 = buf.length)
    (hflush : ∀ s, ok s → ok (W.flush s).2) (hshutdown : ∀ s, ok s → ok (W.shutdown s).2)
    (ops : List WriteOp) {s : S} (h : ok s) : (W.run ops s).1.Sublist (offered ops) := by
  induction ops generalizing s with
  | nil => exact .slnil
  | cons op ops ih =>
    cases op with
    | flush => exact ih (hflush s h)
    | shutdown => exact ih (hshutdown s h)
    | write buf =>
      have hw := hwrite s buf h
      rw [run]
      revert hw
      rcases W.write buf s with ⟨a, s'⟩
      rintro ⟨hs', hlen⟩
      match a with
      | .pending | .ready (.error e) | .ready (.ok 0) => exact (ih hs').cons buf
      | .ready (.ok (n + 1)) =>
        show (buf.take (n + 1) :: (W.run ops s').1).Sublist (buf :: offered ops)
        rw [hlen n rfl, List.take_length]
        exact (ih hs').cons_cons buf

end ByteWriter

end ByteStream
