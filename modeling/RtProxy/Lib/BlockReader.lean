/-
Readers that collect one block at a time.

The state tells how long the next block is, and a complete block tells the next state
and the bytes to hand out.  What such a reader hands out depends on the bytes of the
stream only, not on the pieces they arrive in or on the sizes of the caller's buffers.
-/
import RtProxy.Lib.Framing

namespace ByteStream

variable {σ ε : Type}

/-- How a reader goes on in a state: with a block, by passing bytes through, or not at
all. -/
inductive Mode
  | block (need : Nat) (pos : 0 < need)
  | raw
  | eof
deriving Repr

structure Machine (σ ε : Type) where
  mode : σ → Mode
  /-- A complete block; an error leaves the machine in the state given. -/
  block : σ → Bytes → σ × Except ε Bytes
  /-- The stream has ended inside a block that has these bytes. -/
  ended : σ → Bytes → Except ε σ

/-- A machine with the part of its block that has arrived and the bytes it is handing
out. -/
structure Reader (σ : Type) where
  state : σ
  buf : Bytes
  plain : Cursor

def Reader.new (s : σ) : Reader σ := ⟨s, [], .empty⟩

namespace Machine

/-- `poll_read` into a buffer with `cap` bytes remaining. -/
def poll (M : Machine σ ε) (cap : Nat) (r : Reader σ) (src : Inbound ε) :
    Poll (Except ε Bytes) × Reader σ × Inbound ε :=
  if r.plain.pos < r.plain.data.length then
    (.ready (.ok (r.plain.take cap).1), { r with plain := (r.plain.take cap).2 }, src)
  else
    match M.mode r.state with
    | .eof => (.ready (.ok []), r, src)
    | .raw => ((src.read cap).1, r, (src.read cap).2)
    | .block need _ =>
      match _h : fill need r.buf src with
      | (.pending, buf, src') => (.pending, { r with buf := buf }, src')
      | (.error e, buf, src') => (.ready (.error e), { r with buf := buf }, src')
      | (.ended, buf, src') =>
        match M.ended r.state buf with
        | .error e => (.ready (.error e), { r with buf := buf }, src')
        | .ok s => (.ready (.ok []), { r with state := s, buf := buf }, src')
      | (.full, buf, src') =>
        match M.block r.state buf with
        | (s, .error e) => (.ready (.error e), { r with state := s, buf := [] }, src')
        | (s, .ok plain) => M.poll cap { state := s, buf := [], plain := .ofBytes plain } src'
termination_by r.buf.length + src.content.length
decreasing_by
  cases filling_of_eq _h with
  | full h hge _ =>
    rw [List.length_append] at hge
    rw [h.content, List.length_append]
    simp only [List.length_nil]
    omega

variable {M : Machine σ ε}

/-- The blocks of a machine as units of a byte string. -/
def next (M : Machine σ ε) (s : σ) (bs : Bytes) : Next σ ε Bytes :=
  match M.mode s with
  | .block need _ =>
    if bs.length < need then .more
    else
      match M.block s (bs.take need) with
      | (_, .error e) => .fail e
      | (s', .ok out) => .unit s' out (bs.drop need)
  | _ => .more

theorem next_block {s : σ} {need : Nat} {pos : 0 < need} (h : M.mode s = .block need pos)
    {bs : Bytes} (hlen : need ≤ bs.length) :
    M.next s bs = match M.block s (bs.take need) with
      | (_, .error e) => .fail e
      | (s', .ok out) => .unit s' out (bs.drop need) := by
  simp only [next, h, if_neg (Nat.not_lt.mpr hlen)]

theorem next_short {s : σ} {need : Nat} {pos : 0 < need} (h : M.mode s = .block need pos)
    {bs : Bytes} (hlen : bs.length < need) : M.next s bs = .more := by
  simp only [next, h, if_pos hlen]

theorem next_append {s : σ} {bs : Bytes} (h : M.next s bs ≠ .more) (more : Bytes) :
    ∃ need pos, M.mode s = .block need pos ∧ need ≤ bs.length
      ∧ (bs ++ more).take need = bs.take need ∧ (bs ++ more).drop need = bs.drop need ++ more := by
  cases hm : M.mode s with
  | block need pos =>
    have hlen : need ≤ bs.length := by
      by_contra hlt
      exact h (next_short hm (by omega))
    exact ⟨need, pos, rfl, hlen, List.take_append_of_le_length hlen,
      List.drop_append_of_le_length hlen⟩
  | raw | eof => simp [next, hm] at h

def framing (M : Machine σ ε) : Framing σ ε Bytes where
  next := M.next
  shrinks := by
    intro s bs s' out rest h
    obtain ⟨need, pos, hm, hlen, -, -⟩ := next_append (by rw [h]; simp) []
    rw [next_block hm hlen] at h
    split at h
    · cases h
    · cases h
      rw [List.length_drop]
      omega
  unit_append := by
    intro s bs s' out rest h more
    obtain ⟨need, pos, hm, hlen, htake, hdrop⟩ := next_append (by rw [h]; simp) more
    rw [next_block hm hlen] at h
    rw [next_block hm (by rw [List.length_append]; omega), htake, hdrop]
    split at h
    · cases h
    · cases h
      rfl
  fail_append := by
    intro s bs e h more
    obtain ⟨need, pos, hm, hlen, htake, hdrop⟩ := next_append (by rw [h]; simp) more
    rw [next_block hm hlen] at h
    rw [next_block hm (by rw [List.length_append]; omega), htake, hdrop]
    split at h
    · cases h
      rfl
    · cases h

theorem framing_next (s : σ) (bs : Bytes) : M.framing.next s bs = M.next s bs := rfl

/-- A machine whose blocks put out no more than they hold. -/
theorem next_length_le (hM : ∀ s bs s' out, M.block s bs = (s', .ok out) → out.length ≤ bs.length)
    {s s' : σ} {bs out rest : Bytes} (h : M.framing.next s bs = .unit s' out rest) :
    out.length + rest.length ≤ bs.length := by
  have hnext : M.next s bs ≠ .more := by
    rw [← framing_next, h]
    simp
  obtain ⟨need, pos, hm, hlen, -, -⟩ := next_append hnext []
  rw [framing_next, next_block hm hlen] at h
  rcases hb : M.block s (bs.take need) with ⟨s'', r⟩
  rw [hb] at h
  cases r with
  | error e => cases h
  | ok out' =>
    cases h
    have hle := hM _ _ _ _ hb
    rw [List.length_take] at hle
    rw [List.length_drop]
    omega

/-- A whole block and what follows it. -/
theorem next_whole {s s' : σ} {need : Nat} {pos : 0 < need} {block out : Bytes}
    (h : M.mode s = .block need pos) (hlen : block.length = need)
    (hb : M.block s block = (s', .ok out)) (bs : Bytes) :
    M.framing.next s (block ++ bs) = .unit s' out bs := by
  rw [framing_next, next_block h (by rw [List.length_append]; omega), List.take_left' hlen,
    List.drop_left' hlen, hb]

/-- The part of a block that has arrived is short of it. -/
def Short (M : Machine σ ε) (s : σ) (buf : Bytes) : Prop :=
  ∀ need pos, M.mode s = .block need pos → buf.length < need

theorem next_eq_more_of_short {s : σ} {buf : Bytes} (h : M.Short s buf) : M.next s buf = .more := by
  cases hm : M.mode s with
  | block need pos => exact next_short hm (h need pos hm)
  | raw | eof => simp [next, hm]

theorem stuck_of_short {s : σ} {buf : Bytes} (h : M.Short s buf) : M.framing.Stuck s buf :=
  Framing.stuck_of_more (next_eq_more_of_short h)

theorem short_nil (s : σ) : M.Short s [] := fun _ pos _ => pos

/-! ## What every poll keeps -/

/-- A property of the state and the bytes to come, which a block, bytes passed through and
the end of the stream keep. -/
structure Keeps (M : Machine σ ε) (P : σ → Bytes → Prop) : Prop where
  block : ∀ {s bs need pos}, M.mode s = .block need pos → need ≤ bs.length → P s bs →
    P (M.block s (bs.take need)).1 (bs.drop need)
  raw : ∀ {s bs mid bs'}, M.mode s = .raw → P s (bs ++ mid ++ bs') → P s (bs ++ bs')
  ended : ∀ {s bs t}, M.Short s bs → M.ended s bs = .ok t → P s bs → P t bs ∧ M.Short t bs

/-- A reader between two polls. -/
structure Between (M : Machine σ ε) (P : σ → Bytes → Prop) (s : Reader σ × Inbound ε) : Prop where
  short : M.Short s.1.state s.1.buf
  holds : P s.1.state (s.1.buf ++ s.2.content)

/-- What a poll comes to, with the state and the bytes it is decided by. -/
inductive Answer (M : Machine σ ε) (P : σ → Bytes → Prop) (src : Inbound ε) :
    Poll (Except ε Bytes) × Reader σ × Inbound ε → Prop
  | pending {r' : Reader σ} {src' : Inbound ε} (hidle : r'.plain.rest = [])
      (hw : src'.waits < src.waits ∨ src.closed = false) : Answer M P src (.pending, r', src')
  | transport {e : ε} {r' : Reader σ} {src' : Inbound ε} (hidle : r'.plain.rest = [])
      (he : .error e ∈ src.arrivals) : Answer M P src (.ready (.error e), r', src')
  | failed {s : σ} {bs : Bytes} {need : Nat} {pos : 0 < need} {e : ε} {r' : Reader σ}
      {src' : Inbound ε} (hidle : r'.plain.rest = []) (hm : M.mode s = .block need pos)
      (hlen : need ≤ bs.length) (hp : P s bs) (hb : M.block s (bs.take need) = (r'.state, .error e))
      (hrest : r'.buf ++ src'.content = bs.drop need) : Answer M P src (.ready (.error e), r', src')
  | cut {s : σ} {bs : Bytes} {e : ε} {r' : Reader σ} {src' : Inbound ε}
      (hidle : r'.plain.rest = []) (hs : M.Short s bs) (hp : P s bs)
      (he : M.ended s bs = .error e) : Answer M P src (.ready (.error e), r', src')
  | handed {s t : σ} {bs out got : Bytes} {need : Nat} {pos : 0 < need}
      {x : Reader σ × Inbound ε} (hm : M.mode s = .block need pos) (hlen : need ≤ bs.length)
      (hp : P s bs) (hb : M.block s (bs.take need) = (t, .ok out)) (hne : out ≠ []) :
      Answer M P src (.ready (.ok got), x)
  | ended {s t : σ} {bs : Bytes} {x : Reader σ × Inbound ε} (hs : M.Short s bs) (hp : P s bs)
      (he : M.ended s bs = .ok t) : Answer M P src (.ready (.ok []), x)
  | raw {s : σ} {bs : Bytes} {a : Poll (Except ε Bytes)} {x : Reader σ × Inbound ε}
      (hm : M.mode s = .raw) (hp : P s bs)
      (he : ∀ e, a = .ready (.error e) → .error e ∈ src.arrivals) : Answer M P src (a, x)
  | eof {s : σ} {bs : Bytes} {x : Reader σ × Inbound ε} (hm : M.mode s = .eof) (hp : P s bs) :
      Answer M P src (.ready (.ok []), x)

/-- The rest of a poll that has read something already. -/
theorem Answer.after {P : σ → Bytes → Prop} {got : Bytes} {src mid : Inbound ε}
    {x : Poll (Except ε Bytes) × Reader σ × Inbound ε} (hg : src.Gives got mid)
    (h : M.Answer P mid x) : M.Answer P src x := by
  cases h with
  | pending hidle hw =>
    refine .pending hidle ?_
    rcases hw with hw | hw
    · exact .inl (Nat.lt_of_lt_of_le hw hg.waits)
    · exact .inr (hg.closed ▸ hw)
  | transport hidle he => exact .transport hidle (hg.errors _ he)
  | failed hidle hm hlen hp hb hrest => exact .failed hidle hm hlen hp hb hrest
  | cut hidle hs hp he => exact .cut hidle hs hp he
  | handed hm hlen hp hb hne => exact .handed hm hlen hp hb hne
  | ended hs hp he => exact .ended hs hp he
  | raw hm hp he => exact .raw hm hp fun e h => hg.errors _ (he e h)
  | eof hm hp => exact .eof hm hp

/-- A poll of a reader with nothing to hand out. -/
theorem Keeps.polled {P : σ → Bytes → Prop} (hP : M.Keeps P) (cap : Nat) {r : Reader σ}
    {src : Inbound ε} (h : M.Between P (r, src)) (hidle : r.plain.rest = []) :
    M.Between P (M.poll cap r src).2 ∧ M.Answer P src (M.poll cap r src)
      ∧ ∃ got, src.Gives got (M.poll cap r src).2.2 := by
  induction hn : r.buf.length + src.content.length using Nat.strong_induction_on
    generalizing r src with
  | _ n ih =>
    subst hn
    obtain ⟨hshort, hholds⟩ := h
    rw [Machine.poll, if_neg (Cursor.rest_eq_nil.mp hidle)]
    split
    · rename_i hm
      exact ⟨⟨hshort, hholds⟩, .eof hm hholds, [], .rfl⟩
    · rename_i hm
      obtain ⟨got, hg⟩ := src.gives_read cap
      have hsplit : P r.state (r.buf ++ got ++ (src.read cap).2.content) := by
        rw [List.append_assoc, ← hg.content]
        exact hholds
      exact ⟨⟨hshort, hP.raw hm hsplit⟩, .raw hm hholds fun _ h =>
        Inbound.error_mem_of_read h, got, hg⟩
    · rename_i need pos hm
      have hlt := hshort need pos hm
      have hpart {got : Bytes} {src' : Inbound ε} (hg : src.Gives got src')
          (hlt' : (r.buf ++ got).length < need) :
          M.Between P ({ r with buf := r.buf ++ got }, src') := by
        refine ⟨fun need' pos' hm' => ?_, ?_⟩
        · rw [hm] at hm'
          cases hm'
          exact hlt'
        · show P r.state (r.buf ++ got ++ src'.content)
          rw [List.append_assoc, ← hg.content]
          exact hholds
      split
      · rename_i buf src' heq
        cases filling_of_eq heq with
        | waits hg hlt' hw => exact ⟨hpart hg hlt', .pending hidle (.inl hw), _, hg⟩
        | idle hg hlt' _ hopen => exact ⟨hpart hg hlt', .pending hidle (.inr hopen), _, hg⟩
      · rename_i e buf src' heq
        cases filling_of_eq heq with
        | failed hg hlt' he => exact ⟨hpart hg hlt', .transport hidle he, _, hg⟩
      · rename_i buf src' heq
        cases filling_of_eq heq with
        | @ended got _ hg hlt' hnil _ =>
          obtain ⟨hs, hh⟩ := hpart hg hlt'
          have hcontent : src'.content = [] := by simp [Inbound.content, hnil]
          have hbs : P r.state (r.buf ++ got) := by
            have hh' : P r.state (r.buf ++ got ++ src'.content) := hh
            rwa [hcontent, List.append_nil] at hh'
          split
          · rename_i e he
            exact ⟨⟨hs, hh⟩, .cut hidle hs hbs he, _, hg⟩
          · rename_i t he
            obtain ⟨hh', hs'⟩ := hP.ended hs he hbs
            refine ⟨⟨hs', ?_⟩, .ended hs hbs he, _, hg⟩
            show P t (r.buf ++ got ++ src'.content)
            rwa [hcontent, List.append_nil]
      · rename_i buf src' heq
        cases filling_of_eq heq with
        | @full got _ hg hge hle =>
          have hlen := length_of_full hlt hge hle
          have hle' : need ≤ (r.buf ++ got ++ src'.content).length := by
            rw [List.length_append]
            omega
          have hh : P r.state (r.buf ++ got ++ src'.content) := by
            rw [List.append_assoc, ← hg.content]
            exact hholds
          have htake : (r.buf ++ got ++ src'.content).take need = r.buf ++ got := List.take_left' hlen
          have hdrop : (r.buf ++ got ++ src'.content).drop need = src'.content :=
            List.drop_left' hlen
          have hb := hP.block hm hle' hh
          rw [htake, hdrop] at hb
          split
          · rename_i s e hs
            rw [hs] at hb
            rw [← htake] at hs
            exact ⟨⟨short_nil s, hb⟩, .failed hidle hm hle' hh hs hdrop.symm, _, hg⟩
          · rename_i s plain hs
            rw [hs] at hb
            by_cases hplain : plain = []
            · subst hplain
              obtain ⟨hnext, hans, got', hg'⟩ := ih _ (by
                rw [List.length_append] at hlen
                rw [hg.content, List.length_append, List.length_nil]
                omega) (r := ⟨s, [], .ofBytes []⟩) ⟨short_nil s, hb⟩ rfl rfl
              exact ⟨hnext, hans.after hg, _, hg.trans hg'⟩
            · have hpos : (Cursor.ofBytes plain).pos < (Cursor.ofBytes plain).data.length :=
                List.length_pos_iff.mpr hplain
              rw [Machine.poll, if_pos hpos]
              rw [← htake] at hs
              exact ⟨⟨short_nil s, hb⟩, .handed hm hle' hh hs hplain, _, hg⟩

theorem Keeps.poll {P : σ → Bytes → Prop} (hP : M.Keeps P) (cap : Nat) {r : Reader σ}
    {src : Inbound ε} (h : M.Between P (r, src)) : M.Between P (M.poll cap r src).2 := by
  by_cases hplain : r.plain.pos < r.plain.data.length
  · rw [Machine.poll, if_pos hplain]
    exact ⟨h.short, h.holds⟩
  · exact (hP.polled cap h (Cursor.rest_eq_nil.mpr hplain)).1

/-! ## Bytes in one piece -/

/-- A poll that finds the whole of its block. -/
theorem poll_piece {s : σ} {need : Nat} {pos : 0 < need} (hm : M.mode s = .block need pos)
    {bs : Bytes} (hlen : need ≤ bs.length) (cap : Nat) {plain : Cursor} (hidle : plain.rest = []) :
    M.poll cap ⟨s, [], plain⟩ (.piece bs) =
      match M.block s (bs.take need) with
      | (t, .error e) => (.ready (.error e), ⟨t, [], plain⟩, .piece (bs.drop need))
      | (t, .ok out) => M.poll cap ⟨t, [], .ofBytes out⟩ (.piece (bs.drop need)) := by
  rw [Machine.poll, if_neg (Cursor.rest_eq_nil.mp hidle)]
  split
  · rename_i hm'
    rw [hm] at hm'
    cases hm'
  · rename_i hm'
    rw [hm] at hm'
    cases hm'
  · rename_i need' pos' hm'
    rw [hm] at hm'
    cases hm'
    have hfill := @fill_piece ε need bs pos hlen
    split
    all_goals
      rename_i heq
      rw [hfill] at heq
      cases heq
    rfl

/-- A poll that finds the end before. -/
theorem poll_piece_short {s : σ} {need : Nat} {pos : 0 < need} (hm : M.mode s = .block need pos)
    {bs : Bytes} (hlt : bs.length < need) (cap : Nat) {plain : Cursor} (hidle : plain.rest = []) :
    M.poll cap ⟨s, [], plain⟩ (.piece bs) =
      match M.ended s bs with
      | .error e => (.ready (.error e), ⟨s, bs, plain⟩, .piece [])
      | .ok t => (.ready (.ok []), ⟨t, bs, plain⟩, .piece []) := by
  rw [Machine.poll, if_neg (Cursor.rest_eq_nil.mp hidle)]
  split
  · rename_i hm'
    rw [hm] at hm'
    cases hm'
  · rename_i hm'
    rw [hm] at hm'
    cases hm'
  · rename_i need' pos' hm'
    rw [hm] at hm'
    cases hm'
    have hfill := @fill_piece_short ε need bs hlt
    split
    all_goals
      rename_i heq
      rw [hfill] at heq
      cases heq
    rfl

/-! ## A run of polls -/

/-- The reader and the transport after some polls. -/
def polls (M : Machine σ ε) (caps : List Nat) (s : Reader σ × Inbound ε) : Reader σ × Inbound ε :=
  caps.foldl (fun s cap => (M.poll cap s.1 s.2).2) s

theorem Keeps.polls {P : σ → Bytes → Prop} (hP : M.Keeps P) (caps : List Nat)
    {s : Reader σ × Inbound ε} (h : M.Between P s) : M.Between P (M.polls caps s) := by
  induction caps generalizing s with
  | nil => exact h
  | cons cap caps ih => exact ih (hP.poll cap h)

/-! ## A record of the blocks -/

section

variable {α : Type} {calls : σ → Bytes → List α}

/-- The machine with a record of what it does with its blocks. -/
def logged (M : Machine σ ε) (calls : σ → Bytes → List α) : Machine (σ × List α) ε :=
  { mode := fun s => M.mode s.1
    block := fun s block => (((M.block s.1 block).1, s.2 ++ calls s.1 block), (M.block s.1 block).2)
    ended := fun s buf => (M.ended s.1 buf).map fun t => (t, s.2) }

/-- The reader without the record. -/
def unlogged (r : Reader (σ × List α)) : Reader σ := ⟨r.state.1, r.buf, r.plain⟩

/-- The record changes nothing. -/
theorem poll_logged (cap : Nat) (r : Reader (σ × List α)) (src : Inbound ε) :
    M.poll cap (unlogged r) src =
      (((M.logged calls).poll cap r src).1, unlogged ((M.logged calls).poll cap r src).2.1,
        ((M.logged calls).poll cap r src).2.2) := by
  induction hn : r.buf.length + src.content.length using Nat.strong_induction_on
    generalizing r src with
  | _ n ih =>
    subst hn
    have hbuf : (unlogged r).buf = r.buf := rfl
    rw [poll, poll]
    by_cases hplain : r.plain.pos < r.plain.data.length
    · have hplain' : (unlogged r).plain.pos < (unlogged r).plain.data.length := hplain
      rw [if_pos hplain, if_pos hplain']
      rfl
    have hplain' : ¬ (unlogged r).plain.pos < (unlogged r).plain.data.length := hplain
    rw [if_neg hplain, if_neg hplain']
    have hmode : (M.logged calls).mode r.state = M.mode (unlogged r).state := rfl
    rw [hmode]
    split
    · rfl
    · rfl
    · rename_i need pos hm
      rw [hbuf]
      split
      · rfl
      · rfl
      · rename_i buf src' heq
        have hended : (M.logged calls).ended r.state buf
            = (M.ended (unlogged r).state buf).map fun t => (t, r.state.2) := rfl
        rw [hended]
        cases M.ended (unlogged r).state buf <;> rfl
      · rename_i buf src' heq
        have hblock : (M.logged calls).block r.state buf
            = (((M.block (unlogged r).state buf).1, r.state.2 ++ calls r.state.1 buf),
              (M.block (unlogged r).state buf).2) := rfl
        rw [hblock]
        rcases M.block (unlogged r).state buf with ⟨s, e | plain⟩
        · rfl
        · refine ih _ ?_ ⟨(s, r.state.2 ++ calls r.state.1 buf), [], .ofBytes plain⟩ src' rfl
          cases filling_of_eq heq with
          | full h hge _ =>
            rw [List.length_append] at hge
            rw [h.content, List.length_append, List.length_nil]
            omega

theorem polls_logged (caps : List Nat) (r : Reader (σ × List α)) (src : Inbound ε) :
    M.polls caps (unlogged r, src) =
      (unlogged ((M.logged calls).polls caps (r, src)).1,
        ((M.logged calls).polls caps (r, src)).2) := by
  induction caps generalizing r src with
  | nil => rfl
  | cons cap caps ih =>
    show M.polls caps (M.poll cap (unlogged r) src).2 = _
    rw [poll_logged]
    exact ih _ _

/-- A unit of the machine with a record is one of the machine. -/
theorem next_logged {s s' : σ × List α} {bs out rest : Bytes}
    (h : (M.logged calls).next s bs = .unit s' out rest) :
    ∃ need pos, M.mode s.1 = .block need pos ∧ need ≤ bs.length
      ∧ s' = ((M.block s.1 (bs.take need)).1, s.2 ++ calls s.1 (bs.take need))
      ∧ rest = bs.drop need := by
  obtain ⟨need, pos, hm, hlen, -, -⟩ := next_append (by rw [h]; simp) []
  rw [next_block hm hlen] at h
  refine ⟨need, pos, hm, hlen, ?_⟩
  split at h
  · cases h
  · rename_i heq
    cases h
    exact ⟨(congrArg Prod.fst heq).symm, rfl⟩

/-- A unit of the machine is one of the machine with a record. -/
theorem next_record {s s' : σ} {block bs out : Bytes}
    (h : M.framing.next s (block ++ bs) = .unit s' out bs) (log : List α) :
    (M.logged calls).framing.next (s, log) (block ++ bs)
      = .unit (s', log ++ calls s block) out bs := by
  rw [framing_next] at h
  obtain ⟨need, pos, hm, hlen, -, -⟩ := next_append (by rw [h]; simp) []
  rw [next_block hm hlen] at h
  split at h
  · cases h
  · rename_i heq
    injection h with hs hout hrest
    subst hs hout
    have hneed : block.length = need := by
      have hl := congrArg List.length hrest
      rw [List.length_drop, List.length_append] at hl
      rw [List.length_append] at hlen
      omega
    rw [List.take_left' hneed] at heq
    have hm' : (M.logged calls).mode (s, log) = .block need pos := hm
    refine next_whole hm' hneed ?_ bs
    show (((M.block s block).1, log ++ calls s block), (M.block s block).2) = _
    rw [heq]

theorem record_grows {s t : σ × List α} {bs left : Bytes} {outs : List Bytes}
    (h : (M.logged calls).framing.Reads s bs outs t left) : s.2 <+: t.2 := by
  induction h with
  | refl => exact List.prefix_rfl
  | unit hn _ ih =>
    obtain ⟨need, pos, -, -, rfl, -⟩ := next_logged hn
    exact (List.prefix_append _ _).trans ih

/-- What a machine is going to read ends in `t`, or it has stopped before. -/
def Ahead (M : Machine σ ε) (calls : σ → Bytes → List α) (t : σ × List α) (left rest : Bytes)
    (s : σ × List α) (bs : Bytes) : Prop :=
  (∃ outs, (M.logged calls).framing.Reads s (bs ++ rest) outs t left)
    ∨ (M.mode s.1 = .eof ∧ s.2 <+: t.2)

theorem Ahead.record {t s : σ × List α} {left rest bs : Bytes}
    (h : M.Ahead calls t left rest s bs) : s.2 <+: t.2 := by
  rcases h with ⟨outs, hr⟩ | ⟨-, hp⟩
  · exact record_grows hr
  · exact hp

/-- A reader of a part of the bytes does with its blocks what a reader of all of them does
with the first ones. -/
theorem record_prefix (hraw : ∀ s, M.mode s ≠ .raw)
    (heof : ∀ {s buf t}, M.ended s buf = .ok t → M.mode t = .eof) {init : σ} {p rest left : Bytes}
    {outs : List Bytes} {t : σ × List α}
    (h : (M.logged calls).framing.Reads (init, []) (p ++ rest) outs t left)
    (hmore : M.next t.1 left = .more) {src : Inbound ε} (hsrc : src.content = p) (caps : List Nat) :
    ((M.logged calls).polls caps (.new (init, []), src)).1.state.2 <+: t.2 := by
  have hkeeps : (M.logged calls).Keeps (M.Ahead calls t left rest) := by
    refine ⟨fun {s bs need pos} hm hlen hs => ?_, fun hm => absurd hm (hraw _),
      fun {s bs t'} hs he hp => ?_⟩
    · have hm' : M.mode s.1 = .block need pos := hm
      rcases hs with ⟨outs, hr⟩ | ⟨he, -⟩
      · cases hr with
        | refl =>
          rw [next_block hm' (by rw [List.length_append]; omega)] at hmore
          split at hmore <;> cases hmore
        | unit hn hr =>
          obtain ⟨need', pos', hm'', -, rfl, rfl⟩ := next_logged hn
          rw [hm'] at hm''
          cases hm''
          rw [List.take_append_of_le_length hlen, List.drop_append_of_le_length hlen] at hr
          exact .inl ⟨_, hr⟩
      · rw [hm'] at he
        cases he
    · have he' : (M.ended s.1 bs).map (fun u => (u, s.2)) = .ok t' := he
      cases hu : M.ended s.1 bs with
      | error e =>
        rw [hu] at he'
        cases he'
      | ok u =>
        rw [hu] at he'
        cases he'
        refine ⟨.inr ⟨heof hu, hp.record⟩, fun need pos hm => ?_⟩
        have hm' : M.mode u = .block need pos := hm
        rw [heof hu] at hm'
        cases hm'
  have hnew : (M.logged calls).Between (M.Ahead calls t left rest) (.new (init, []), src) := by
    refine ⟨short_nil _, .inl ⟨outs, ?_⟩⟩
    show (M.logged calls).framing.Reads (init, []) (src.content ++ rest) outs t left
    rw [hsrc]
    exact h
  exact (hkeeps.polls caps hnew).holds.record

end

open Framing

/-! ## What a poll does -/

/-- The reader has read a whole number of blocks of the stream `total` and handed out
`log` of their contents. -/
structure Reading (M : Machine σ ε) (init : σ) (total : Bytes) (log : List Bytes)
    (r : Reader σ) (src : Inbound ε) (outs : List Bytes) : Prop where
  reads : M.framing.Reads init total outs r.state (r.buf ++ src.content)
  short : M.Short r.state r.buf
  handed : Handed log r.plain.rest outs

/-- The stream ended in a state in which that is in order. -/
def Ended (M : Machine σ ε) (init : σ) (total : Bytes) (log : List Bytes) : Prop :=
  ∃ outs t left, M.framing.Reads init total outs t left ∧ M.Short t left ∧ Handed log [] outs
    ∧ (M.mode t = .eof ∨ ∃ t', M.ended t left = .ok t')

/-- The stream ended too early, or a block of it is defective. -/
def Failed (M : Machine σ ε) (init : σ) (total : Bytes) (log : List Bytes) (e : ε) : Prop :=
  ∃ outs t left, M.framing.Reads init total outs t left ∧ Handed log [] outs
    ∧ ((M.Short t left ∧ M.ended t left = .error e) ∨ M.next t left = .fail e)

theorem reading_new (init : σ) (src : Inbound ε) :
    M.Reading init src.content [] (Reader.new init) src [] :=
  ⟨.refl, short_nil _, .nil⟩

/-- What a poll of a reader of `src` returns and leaves. -/
inductive Polling (M : Machine σ ε) (init : σ) (total : Bytes) (log : List Bytes)
    (src : Inbound ε) : Poll (Except ε Bytes) × Reader σ × Inbound ε → Prop
  | pending {got : Bytes} {r' : Reader σ} {src' : Inbound ε} {outs : List Bytes}
      (hg : src.Gives got src') (h : M.Reading init total log r' src' outs)
      (hw : src'.waits < src.waits
        ∨ src.closed = false ∧ src'.content = [] ∧ r'.plain.rest = []) :
      Polling M init total log src (.pending, r', src')
  | bytes {got : Bytes} {r' : Reader σ} {src' : Inbound ε} {outs : List Bytes} {b : UInt8}
      {bs : Bytes} (hg : src.Gives got src')
      (h : M.Reading init total (log ++ [b :: bs]) r' src' outs) :
      Polling M init total log src (.ready (.ok (b :: bs)), r', src')
  | ended {r' : Reader σ} {src' : Inbound ε} (h : M.Ended init total log) :
      Polling M init total log src (.ready (.ok []), r', src')
  | failed {r' : Reader σ} {src' : Inbound ε} {e : ε} (h : M.Failed init total log e) :
      Polling M init total log src (.ready (.error e), r', src')
  | transport {r' : Reader σ} {src' : Inbound ε} {e : ε} (h : .error e ∈ src.arrivals) :
      Polling M init total log src (.ready (.error e), r', src')

/-- The rest of a poll that has read something already. -/
theorem Polling.after {init : σ} {total got : Bytes} {log : List Bytes} {src mid : Inbound ε}
    {x : Poll (Except ε Bytes) × Reader σ × Inbound ε} (hg : src.Gives got mid)
    (h : M.Polling init total log mid x) : M.Polling init total log src x := by
  cases h with
  | pending hg' h hw =>
    refine .pending (hg.trans hg') h ?_
    rcases hw with hw | ⟨hopen, hall⟩
    · exact .inl (Nat.lt_of_lt_of_le hw hg.waits)
    · exact .inr ⟨hg.closed ▸ hopen, hall⟩
  | bytes hg' h => exact .bytes (hg.trans hg') h
  | ended h => exact .ended h
  | failed h => exact .failed h
  | transport h => exact .transport (hg.errors _ h)

theorem polling {init : σ} {total : Bytes} {log outs : List Bytes} {r : Reader σ}
    {src : Inbound ε} {cap : Nat}
    (hraw : ∀ outs t left, M.framing.Reads init total outs t left → M.mode t ≠ .raw)
    (hcap : 0 < cap) (h : M.Reading init total log r src outs) :
    M.Polling init total log src (M.poll cap r src) := by
  induction hn : r.buf.length + src.content.length using Nat.strong_induction_on
    generalizing r src outs with
  | _ n ih =>
    subst hn
    obtain ⟨hreads, hshort, hhanded⟩ := h
    rw [poll]
    by_cases hplain : r.plain.pos < r.plain.data.length
    · rw [if_pos hplain]
      have hne := Cursor.take_ne_nil hplain hcap
      rw [r.plain.take_spec cap] at hhanded
      have htake := hhanded.take hne
      revert hne htake
      cases hbs : (r.plain.take cap).1 with
      | nil => exact fun hne => absurd rfl hne
      | cons b bs => exact fun _ htake => .bytes .rfl ⟨hreads, hshort, htake⟩
    · rw [if_neg hplain]
      rw [Cursor.rest_eq_nil.mpr hplain] at hhanded
      split
      · rename_i hm
        exact .ended ⟨outs, _, _, hreads, fun need pos hb => (by rw [hm] at hb; cases hb), hhanded,
          .inl hm⟩
      · rename_i hm
        exact absurd hm (hraw _ _ _ hreads)
      · rename_i need pos hm
        have hlt := hshort need pos hm
        have hsplit {got : Bytes} {src' : Inbound ε} (hg : src.Gives got src') :
            r.buf ++ src.content = (r.buf ++ got) ++ src'.content := by
          rw [hg.content, List.append_assoc]
        have hpart {got : Bytes} {src' : Inbound ε} (hg : src.Gives got src')
            (hlt' : (r.buf ++ got).length < need) :
            M.Reading init total log { r with buf := r.buf ++ got } src' outs := by
          refine ⟨hsplit hg ▸ hreads, fun need' pos' hm' => ?_, ?_⟩
          · rw [hm] at hm'
            cases hm'
            exact hlt'
          · rw [Cursor.rest_eq_nil.mpr hplain]
            exact hhanded
        split
        · rename_i buf src' heq
          cases filling_of_eq heq with
          | waits hg hlt' hw => exact .pending hg (hpart hg hlt') (.inl hw)
          | idle hg hlt' hnil hopen =>
            refine .pending hg (hpart hg hlt') (.inr ⟨hopen, ?_, Cursor.rest_eq_nil.mpr hplain⟩)
            rw [Inbound.content, hnil]
            rfl
        · rename_i e buf src' heq
          cases filling_of_eq heq with
          | failed _ _ he => exact .transport he
        · rename_i buf src' heq
          cases filling_of_eq heq with
          | @ended got _ hg hlt' hnil _ =>
            have hend : M.framing.Reads init total outs r.state (r.buf ++ got) := by
              have hcontent : src'.content = [] := by simp [Inbound.content, hnil]
              rw [hsplit hg, hcontent, List.append_nil] at hreads
              exact hreads
            have hs := (hpart hg hlt').short
            split
            · rename_i e he
              exact .failed ⟨outs, _, _, hend, hhanded, .inl ⟨hs, he⟩⟩
            · rename_i s he
              exact .ended ⟨outs, _, _, hend, hs, hhanded, .inr ⟨s, he⟩⟩
        · rename_i buf src' heq
          cases filling_of_eq heq with
          | @full got _ hg hge hle =>
            have hlen := length_of_full hlt hge hle
            have henough : need ≤ (r.buf ++ src.content).length := by
              rw [hsplit hg, List.length_append]
              omega
            have hnext := next_block hm henough
            rw [hsplit hg, List.take_left' hlen, List.drop_left' hlen] at hnext
            rw [hsplit hg] at hreads
            split
            · rename_i s e hb
              rw [hb] at hnext
              exact .failed ⟨outs, _, _, hreads, hhanded, .inr hnext⟩
            · rename_i s plain hb
              rw [hb] at hnext
              have hmeasure : ([] : Bytes).length + src'.content.length
                  < r.buf.length + src.content.length := by
                rw [List.length_append] at hlen
                rw [hg.content, List.length_append, List.length_nil]
                omega
              have h' : M.Reading init total log ⟨s, [], .ofBytes plain⟩ src' (outs ++ [plain]) :=
                ⟨hreads.tail hnext, short_nil s, hhanded.load plain⟩
              exact (ih _ hmeasure h' rfl).after hg

/-! ## A whole reading -/

section

variable {init : σ} {src : Inbound ε} {caps : List Nat}

/-- The invariant of a caller that reads `src`. -/
def Driving (M : Machine σ ε) (init : σ) (src : Inbound ε) (log : List Bytes)
    (s : Reader σ × Inbound ε) : Prop :=
  (∃ outs, M.Reading init src.content log s.1 s.2 outs) ∧ ∃ got, src.Gives got s.2

theorem polled (hu : ∀ e, .error e ∉ src.arrivals)
    (hraw : ∀ outs t left, M.framing.Reads init src.content outs t left → M.mode t ≠ .raw)
    (log : List Bytes) (s : Reader σ × Inbound ε) (cap : Nat) (hcap : 0 < cap)
    (h : M.Driving init src log s) :
    Polled (M.Driving init src) (M.Ended init src.content) (M.Failed init src.content) log
      (M.poll cap s.1 s.2) := by
  obtain ⟨⟨outs, hr⟩, got, hg⟩ := h
  have hp := polling hraw hcap hr
  revert hp
  rcases M.poll cap s.1 s.2 with ⟨a, s'⟩
  intro hp
  cases hp with
  | pending hg' h _ => exact ⟨⟨_, h⟩, _, hg.trans hg'⟩
  | bytes hg' h => exact ⟨⟨_, h⟩, _, hg.trans hg'⟩
  | ended h => exact h
  | failed h => exact h
  | transport h => exact absurd h (hg.unfailing hu _)

/-- What the caller has when it stops. -/
theorem driven (hu : ∀ e, .error e ∉ src.arrivals)
    (hraw : ∀ outs t left, M.framing.Reads init src.content outs t left → M.mode t ≠ .raw)
    (hcaps : ∀ c ∈ caps, 0 < c) :
    Driven (M.Driving init src) (M.Ended init src.content) (M.Failed init src.content)
      (drive (fun cap s => M.poll cap s.1 s.2) caps (Reader.new init, src)) :=
  ByteStream.driven (polled hu hraw) hcaps ⟨⟨[], reading_new init src⟩, [], .rfl⟩

/-- What the bytes of a stream read as decides what the caller gets and how the stream
ends for it. -/
theorem settled {outs : List Bytes} {t : σ} {left : Bytes}
    (hu : ∀ e, .error e ∉ src.arrivals)
    (hraw : ∀ outs t left, M.framing.Reads init src.content outs t left → M.mode t ≠ .raw)
    (hreads : M.framing.Reads init src.content outs t left) (hshort : M.Short t left)
    (hcaps : ∀ c ∈ caps, 0 < c) {log : List Bytes} {out : Outcome ε} {s : Reader σ × Inbound ε}
    (h : drive (fun cap s => M.poll cap s.1 s.2) caps (Reader.new init, src) = (log, out, s)) :
    (∃ outs' more ready, outs = outs' ++ more ∧ Handed log ready outs')
      ∧ (out = .ended → Handed log [] outs ∧ (M.mode t = .eof ∨ ∃ t', M.ended t left = .ok t'))
      ∧ (∀ e, out = .failed e → Handed log [] outs ∧ M.ended t left = .error e) := by
  have hd := driven hu hraw hcaps
  rw [h] at hd
  have hstuck := stuck_of_short hshort
  cases out with
  | running =>
    obtain ⟨⟨outs', hr⟩, -⟩ := hd
    obtain ⟨more, hmore, -⟩ := hr.reads.continues hreads hstuck
    exact ⟨⟨outs', more, _, hmore, hr.handed⟩, by simp, by simp⟩
  | ended =>
    obtain ⟨outs', t', left', hr, hs, hh, hend⟩ := hd
    obtain ⟨rfl, rfl, rfl⟩ := hr.unique (stuck_of_short hs) hreads hstuck
    exact ⟨⟨_, [], [], by simp, hh⟩, fun _ => ⟨hh, hend⟩, by simp⟩
  | failed e =>
    obtain ⟨outs', t', left', hr, hh, hend⟩ := hd
    have hstuck' : M.framing.Stuck t' left' := by
      rcases hend with ⟨hs, -⟩ | hf
      · exact stuck_of_short hs
      · exact Framing.stuck_of_fail hf
    obtain ⟨rfl, rfl, rfl⟩ := hr.unique hstuck' hreads hstuck
    refine ⟨⟨_, [], [], by simp, hh⟩, by simp, fun e' he => ?_⟩
    cases he
    rcases hend with ⟨-, he⟩ | hf
    · exact ⟨hh, he⟩
    · rw [next_eq_more_of_short hshort] at hf
      cases hf

/-- What a reading has handed out is a part of all there is. -/
theorem Reading.flatten_le {outs outs' : List Bytes} {t : σ} {left : Bytes}
    (hreads : M.framing.Reads init src.content outs t left) (hstuck : M.framing.Stuck t left)
    {log : List Bytes} {r : Reader σ} {src' : Inbound ε}
    (h : M.Reading init src.content log r src' outs') :
    log.flatten.length ≤ outs.flatten.length := by
  obtain ⟨more, rfl, -⟩ := h.reads.continues hreads hstuck
  have hflat := congrArg List.length h.handed.flatten
  simp only [List.length_append, List.flatten_append] at hflat ⊢
  omega

/-- A caller that reads often enough gets all there is, whether the stream ends or not. -/
theorem drive_delivers {outs : List Bytes} {t : σ} {left : Bytes}
    (hu : ∀ e, .error e ∉ src.arrivals)
    (hraw : ∀ outs t left, M.framing.Reads init src.content outs t left → M.mode t ≠ .raw)
    (hreads : M.framing.Reads init src.content outs t left) (hshort : M.Short t left)
    (hcaps : ∀ c ∈ caps, 0 < c) (hlen : src.waits + outs.flatten.length ≤ caps.length) :
    PiecesOf (drive (fun cap s => M.poll cap s.1 s.2) caps (Reader.new init, src)).1
      (outs.filter (· ≠ [])) := by
  have hstuck := stuck_of_short hshort
  have hsame {log outs' : List Bytes} {t' : σ} {left' : Bytes}
      (hr : M.framing.Reads init src.content outs' t' left') (hs : M.framing.Stuck t' left')
      (hh : Handed log [] outs') : outs.flatten.length ≤ log.flatten.length := by
    obtain ⟨rfl, -, -⟩ := hr.unique hs hreads hstuck
    rw [← hh.flatten, List.append_nil]
  have hall : outs.flatten.length
      ≤ (drive (fun cap s => M.poll cap s.1 s.2) caps (Reader.new init, src)).1.flatten.length := by
    let all (log : List Bytes) : Prop := outs.flatten.length ≤ log.flatten.length
    have hnew : M.Driving init src [] (Reader.new init, src) :=
      ⟨⟨[], reading_new init src⟩, [], .rfl⟩
    refine drive_completes (fun log s => s.2.waits + (outs.flatten.length - log.flatten.length))
      (polled hu hraw) (fun log s cap hcap h => show all log ∨ _ from ?_)
      (fun log bs s h (hlog : all log) => show all _ from ?_) hcaps hnew
      (.inr (by simpa using hlen))
    · obtain ⟨⟨outs', hr⟩, got, hg⟩ := h
      have hp := polling hraw hcap hr
      have hle := hr.flatten_le hreads hstuck
      revert hp
      rcases M.poll cap s.1 s.2 with ⟨a, r', src'⟩
      intro hp
      cases hp with
      | pending hg' h hw =>
        rcases hw with hw | ⟨-, hnone, hplain⟩
        · right
          simp only [Polled]
          omega
        · left
          have hr' := h.reads
          rw [hnone, List.append_nil] at hr'
          exact hsame hr' (stuck_of_short h.short) (hplain ▸ h.handed)
      | bytes hg' h =>
        right
        have hle' := h.flatten_le hreads hstuck
        have hw := hg'.waits
        simp only [Polled]
        simp only [List.flatten_append, List.flatten_singleton, List.length_append,
          List.length_cons] at hle' ⊢
        omega
      | ended h =>
        obtain ⟨outs', t', left', hr', hs, hh, -⟩ := h
        exact .inl (hsame hr' (stuck_of_short hs) hh)
      | failed h =>
        obtain ⟨outs', t', left', hr', hh, hend⟩ := h
        refine .inl (hsame hr' ?_ hh)
        rcases hend with ⟨hs, -⟩ | hf
        · exact stuck_of_short hs
        · exact Framing.stuck_of_fail hf
      | transport h => exact absurd h (hg.unfailing hu _)
    · show _ ≤ (log ++ [bs]).flatten.length
      rw [List.flatten_append, List.length_append]
      exact Nat.le_add_right_of_le hlog
  obtain ⟨⟨outs', more, ready, rfl, hh⟩, -⟩ := settled hu hraw hreads hshort hcaps rfl
  have hflat := congrArg List.length hh.flatten
  simp only [List.length_append, List.flatten_append] at hflat hall
  obtain rfl : ready = [] := List.eq_nil_of_length_eq_zero (by omega)
  have hmore : more.filter (· ≠ []) = [] := by
    have hnil : more.flatten = [] := List.eq_nil_of_length_eq_zero (by omega)
    rw [List.filter_eq_nil_iff]
    intro out hout
    simpa using List.flatten_eq_nil_iff.mp hnil out hout
  rw [List.filter_append, hmore, List.append_nil]
  exact hh.pieces

/-- A caller that reads often enough gets to the end of a stream that ends. -/
theorem drive_stops {outs : List Bytes} {t : σ} {left : Bytes}
    (hu : ∀ e, .error e ∉ src.arrivals) (hclosed : src.closed = true)
    (hraw : ∀ outs t left, M.framing.Reads init src.content outs t left → M.mode t ≠ .raw)
    (hreads : M.framing.Reads init src.content outs t left) (hstuck : M.framing.Stuck t left)
    (hcaps : ∀ c ∈ caps, 0 < c) (hlen : src.waits + outs.flatten.length < caps.length) :
    (drive (fun cap s => M.poll cap s.1 s.2) caps (Reader.new init, src)).2.1 ≠ .running := by
  refine ByteStream.drive_stops
    (fun log s => s.2.waits + (outs.flatten.length - log.flatten.length))
    (polled hu hraw) (fun log s cap hcap h => ?_) hcaps
    ⟨⟨[], reading_new init src⟩, [], .rfl⟩ (by simpa using hlen)
  obtain ⟨⟨outs', hr⟩, got, hg⟩ := h
  have hp := polling hraw hcap hr
  have hle := hr.flatten_le hreads hstuck
  revert hp
  rcases M.poll cap s.1 s.2 with ⟨a, s'⟩
  intro hp
  cases hp with
  | pending hg' h hw =>
    rw [hg.closed, hclosed] at hw
    simp only [Polled]
    simp only [Bool.true_eq_false, false_and, or_false] at hw
    omega
  | bytes hg' h =>
    have hle' := h.flatten_le hreads hstuck
    have hw := hg'.waits
    simp only [Polled]
    simp only [List.flatten_append, List.flatten_singleton, List.length_append,
      List.length_cons] at hle' ⊢
    omega
  | ended | failed | transport => trivial

end

end Machine

end ByteStream
