import RtProxy.Relay.Conn

/-!
What follows a rejection (`RelayConn::poll_read` in `relay.rs`).

A client that reads a bad version or a status other than OK reports an error, but its
read state is left where it was.  The bytes after the header are read as another response,
and one that is in order makes the connection usable again.
-/

namespace RtProxy
namespace Relay

open ByteStream

/-! ## The bytes after a rejection -/

/-- A response header that `poll_read` rejects. -/
def Rejected (version status : UInt8) : Prop :=
  version ≠ RELAY_VERSION1 ∨ status ≠ RELAY_STATUS_OK

instance (version status : UInt8) : Decidable (Rejected version status) :=
  inferInstanceAs (Decidable (_ ∨ _))

inductive Rejection : IoError → Prop
  | version : Rejection ⟨.other, "relay: bad version"⟩
  | status (status : UInt8) (h : status ≠ RELAY_STATUS_OK) :
      Rejection ⟨.other, s!"relay: {relayStatusText status}"⟩

/-- Datagrams that hold one with contents, or end between two. -/
def Delivering : Bytes → Prop
  | [] => True
  | [_] => False
  | hi :: lo :: rest =>
    if Bytes.beNat [hi, lo] = 0 then Delivering rest
    else rest = [] ∨ Bytes.beNat [hi, lo] ≤ rest.length

/-- Groups of four bytes of which the first that passes as a response is followed by its
features and by data. -/
def Reviving (udp : Bool) : Bytes → Prop
  | version :: status :: hi :: lo :: rest =>
    if Rejected version status then Reviving udp rest
    else Bytes.beNat [hi, lo] ≤ rest.length ∧
      (udp = true → Delivering (rest.drop (Bytes.beNat [hi, lo])))
  | _ => False

/-- A rejected response before bytes that make up for it. -/
def Revived (udp : Bool) : Bytes → Prop
  | version :: status :: _ :: _ :: rest => Rejected version status ∧ Reviving udp rest
  | _ => False

/-- From a state on, the bytes to come are going to be handed out, or end in order. -/
def Alive (udp : Bool) : ReadState → Bytes → Prop
  | .response, bs => Reviving udp bs
  | .responseFeatures len _, bs => len ≤ bs.length ∧ (udp = true → Delivering (bs.drop len))
  | .raw, _ => True
  | .length, bs => Delivering bs
  | .payload dlen _, bs => bs = [] ∨ dlen ≤ bs.length
  | .eof, _ => True

theorem exists_header {bs : Bytes} (h : RELAY_HEADER_LEN ≤ bs.length) :
    ∃ version status hi lo rest, bs = version :: status :: hi :: lo :: rest := by
  match bs with
  | version :: status :: hi :: lo :: rest => exact ⟨version, status, hi, lo, rest, rfl⟩
  | [] | [_] | [_, _] | [_, _, _] => simp [RELAY_HEADER_LEN] at h

theorem alive_dataPhase (udp : Bool) (bs : Bytes) :
    Alive udp (dataPhase udp) bs ↔ (udp = true → Delivering bs) := by
  cases udp <;> simp [dataPhase, Alive]

theorem onBlock_rejected {udp : Bool} {version status : UInt8} (h : Rejected version status)
    (hi lo : UInt8) :
    ∃ e, Rejection e ∧ onBlock udp .response [version, status, hi, lo] = (.response, .error e) := by
  by_cases hv : version = RELAY_VERSION1
  · have hs : status ≠ RELAY_STATUS_OK := h.resolve_left fun hne => hne hv
    exact ⟨_, .status status hs, by simp [onBlock, hv, hs]⟩
  · exact ⟨_, .version, by simp [onBlock, hv]⟩

theorem onBlock_accepted {udp : Bool} {version status : UInt8} (h : ¬ Rejected version status)
    (hi lo : UInt8) :
    onBlock udp .response [version, status, hi, lo] =
      if pos : 0 < Bytes.beNat [hi, lo] then (.responseFeatures (Bytes.beNat [hi, lo]) pos, .ok [])
      else (dataPhase udp, .ok []) := by
  simp only [Rejected, not_or, not_not] at h
  simp [onBlock, h.1, h.2]

theorem onBlock_length (udp : Bool) (hi lo : UInt8) :
    onBlock udp .length [hi, lo] =
      if pos : 0 < Bytes.beNat [hi, lo] then (.payload (Bytes.beNat [hi, lo]) pos, .ok [])
      else (.length, .ok []) := rfl

theorem dataPhase_ne (udp : Bool) : dataPhase udp ≠ .response := by
  cases udp <;> simp [dataPhase]

/-- A response that is rejected is waited for again, and nothing else is. -/
theorem onBlock_response {udp : Bool} {s : ReadState} {block : Bytes}
    (h : (onBlock udp s block).1 = .response) : s = .response := by
  cases s with
  | response => rfl
  | responseFeatures => exact absurd h (dataPhase_ne udp)
  | raw | payload | eof => cases h
  | length =>
    rw [onBlock] at h
    split at h <;> cases h

theorem response_of_error {udp : Bool} {s t : ReadState} {block : Bytes} {e : IoError}
    (h : onBlock udp s block = (t, .error e)) : t = .response := by
  unfold onBlock at h
  split at h
  · split at h
    · cases h
      rfl
    split at h
    · cases h
      rfl
    split at h <;> cases h
  · cases h
  · split at h <;> cases h
  · cases h
  · cases h
  · cases h

theorem not_alive_block {udp : Bool} {s : ReadState} {bs : Bytes} {need : Nat} {pos : 0 < need}
    (hm : s.mode = .block need pos) (hlen : need ≤ bs.length) (h : ¬ Alive udp s bs) :
    ¬ Alive udp (onBlock udp s (bs.take need)).1 (bs.drop need)
      ∧ ∀ out, (onBlock udp s (bs.take need)).2 = .ok out → out = [] := by
  cases s with
  | raw | eof => exact absurd trivial h
  | payload dlen hpos =>
    cases hm
    exact absurd (.inr hlen) h
  | responseFeatures len hpos =>
    cases hm
    have hdrop : ¬ (udp = true → Delivering (bs.drop need)) := fun hd => h ⟨hlen, hd⟩
    exact ⟨fun ha => hdrop ((alive_dataPhase udp _).mp ha), fun out ho => by cases ho; rfl⟩
  | length =>
    cases hm
    match bs with
    | [] | [_] => simp [RELAY_DGRAM_LEN_SIZE] at hlen
    | hi :: lo :: rest =>
      rw [Alive, Delivering] at h
      show ¬ Alive udp (onBlock udp .length [hi, lo]).1 rest
        ∧ ∀ out, (onBlock udp .length [hi, lo]).2 = .ok out → out = []
      rw [onBlock_length]
      by_cases hzero : Bytes.beNat [hi, lo] = 0
      · rw [if_pos hzero] at h
        rw [dif_neg (by omega)]
        exact ⟨h, fun out ho => by cases ho; rfl⟩
      · rw [if_neg hzero] at h
        rw [dif_pos (by omega)]
        exact ⟨h, fun out ho => by cases ho; rfl⟩
  | response =>
    cases hm
    obtain ⟨version, status, hi, lo, rest, rfl⟩ := exists_header hlen
    rw [Alive, Reviving] at h
    show ¬ Alive udp (onBlock udp .response [version, status, hi, lo]).1 rest
      ∧ ∀ out, (onBlock udp .response [version, status, hi, lo]).2 = .ok out → out = []
    by_cases hr : Rejected version status
    · rw [if_pos hr] at h
      obtain ⟨e, -, hb⟩ := @onBlock_rejected udp _ _ hr hi lo
      rw [hb]
      exact ⟨h, fun out ho => by cases ho⟩
    · rw [if_neg hr] at h
      rw [onBlock_accepted hr]
      by_cases hpos : 0 < Bytes.beNat [hi, lo]
      · rw [dif_pos hpos]
        exact ⟨h, fun out ho => by cases ho; rfl⟩
      · rw [dif_neg hpos]
        have hzero : Bytes.beNat [hi, lo] = 0 := by omega
        rw [hzero, List.drop_zero] at h
        refine ⟨fun ha => h ⟨Nat.zero_le _, (alive_dataPhase udp _).mp ha⟩, fun out ho => ?_⟩
        cases ho
        rfl

/-- A stream ends in order between two datagrams. -/
theorem ended_in_order {s t : ReadState} {bs : Bytes} (he : onEnded s bs = .ok t) :
    t = .eof ∧ bs = [] := by
  unfold onEnded at he
  split at he
  · cases he
  · cases he
  · split at he
    · cases he
      exact ⟨rfl, by assumption⟩
    · cases he

/-- Bytes that do not revive the connection do not end in order either. -/
theorem not_alive_ended {udp : Bool} {s t : ReadState} {bs : Bytes} (he : onEnded s bs = .ok t)
    (h : ¬ Alive udp s bs) : False := by
  obtain ⟨-, rfl⟩ := ended_in_order he
  cases s with
  | response | responseFeatures => cases he
  | raw | length | payload | eof => simp [Alive, Delivering] at h

theorem alive_of_mode {udp : Bool} {s : ReadState} (h : s.mode = .raw ∨ s.mode = .eof) (bs : Bytes) :
    Alive udp s bs := by
  cases s with
  | raw | eof => trivial
  | response | responseFeatures | length | payload => rcases h with h | h <;> cases h

theorem keeps_not_alive (udp : Bool) : (machine udp).Keeps fun s bs => ¬ Alive udp s bs := by
  exact ⟨fun hm hlen h => (not_alive_block hm hlen h).1,
    fun hm h => absurd (alive_of_mode (.inl hm) _) h, fun _ he h => (not_alive_ended he h).elim⟩

/-! ## Polls -/

/-- What the polls of a reader return. -/
def RelayConn.answers : List Nat → RelayConn → List (Poll (Except IoError Bytes))
  | [], _ => []
  | cap :: caps, c => (c.pollRead cap).1 :: answers caps (c.pollRead cap).2

theorem pollRead_eq (cap : Nat) (c : RelayConn) :
    c.pollRead cap = (((machine c.udp).poll cap c.reader c.inner.inbound).1,
      { c with
        reader := ((machine c.udp).poll cap c.reader c.inner.inbound).2.1
        inner := { c.inner with
          inbound := ((machine c.udp).poll cap c.reader c.inner.inbound).2.2 } }) := rfl

def Rejects (a : Poll (Except IoError Bytes)) : Prop := ∃ e, a = .ready (.error e) ∧ Rejection e

/-- No poll after a rejection returns `Ok`. -/
def Final (l : List (Poll (Except IoError Bytes))) : Prop :=
  l.Pairwise fun a b => Rejects a → ∀ bs, b ≠ .ready (.ok bs)

/-- After a rejection that is final nothing is handed out. -/
theorem answers_of_not_alive {udp : Bool} {c : RelayConn} (hudp : c.udp = udp)
    (h : (machine udp).Between (fun s bs => ¬ Alive udp s bs) (c.reader, c.inner.inbound))
    (hidle : c.reader.plain.rest = []) (caps : List Nat) :
    ∀ a ∈ c.answers caps, ∀ bs, a ≠ .ready (.ok bs) := by
  induction caps generalizing c with
  | nil => exact fun a ha => by cases ha
  | cons cap caps ih =>
    subst hudp
    obtain ⟨hnext, hans, -⟩ := (keeps_not_alive c.udp).polled cap h hidle
    rw [RelayConn.answers, pollRead_eq]
    revert hnext hans
    generalize (machine c.udp).poll cap c.reader c.inner.inbound = x
    obtain ⟨a, r', src'⟩ := x
    intro hnext hans
    have hquiet : (∀ bs, a ≠ .ready (.ok bs)) ∧ r'.plain.rest = [] := by
      cases hans with
      | pending hi => exact ⟨fun bs h => (by cases h), hi⟩
      | transport hi | failed hi | cut hi => exact ⟨fun bs h => (by cases h), hi⟩
      | handed hm hlen hp hb hne =>
        exact absurd ((not_alive_block hm hlen hp).2 _ (congrArg Prod.snd hb)) hne
      | ended hs hp he => exact (not_alive_ended he hp).elim
      | raw hm hp => exact absurd (alive_of_mode (.inl hm) _) hp
      | eof hm hp => exact absurd (alive_of_mode (.inr hm) _) hp
    intro a' ha'
    rcases List.mem_cons.mp ha' with rfl | ha'
    · exact hquiet.1
    · exact ih (c := { c with reader := r', inner := { c.inner with inbound := src' } }) rfl hnext
        hquiet.2 a' ha'

/-- Before a rejection the response has not been read, or it has passed; after one the
connection is going to stay silent. -/
def Ready (udp : Bool) (first : Bytes) (s : ReadState) (bs : Bytes) : Prop :=
  (s = .response ∧ bs = first) ∨ (s = .response ∧ ¬ Reviving udp bs) ∨ s ≠ .response

/-- A rejected response is read to its end. -/
theorem ready_rejected {udp : Bool} {first bs : Bytes} {s : ReadState} {need : Nat}
    {pos : 0 < need} (hfirst : ¬ Revived udp first) (h : Ready udp first s bs)
    (hm : s.mode = .block need pos) (hlen : need ≤ bs.length)
    (hb : (onBlock udp s (bs.take need)).1 = .response) : ¬ Reviving udp (bs.drop need) := by
  obtain rfl := onBlock_response hb
  cases hm
  obtain ⟨version, status, hi, lo, rest, rfl⟩ := exists_header hlen
  have hb' : (onBlock udp .response [version, status, hi, lo]).1 = .response := hb
  have hr : Rejected version status := by
    by_contra hr
    rw [onBlock_accepted hr] at hb'
    split at hb'
    · cases hb'
    · exact dataPhase_ne udp hb'
  intro hrev
  rcases h with ⟨-, rfl⟩ | ⟨-, hdead⟩ | hne
  · exact hfirst ⟨hr, hrev⟩
  · rw [Reviving, if_pos hr] at hdead
    exact hdead hrev
  · exact hne rfl

theorem keeps_ready {udp : Bool} {first : Bytes} (hfirst : ¬ Revived udp first) :
    (machine udp).Keeps (Ready udp first) := by
  refine ⟨fun {s bs need pos} hm hlen h => ?_, fun {s bs mid bs'} hm _ => ?_,
    fun {s bs t} hs he _ => ?_⟩
  · by_cases hb : (onBlock udp s (bs.take need)).1 = .response
    · exact .inr (.inl ⟨hb, ready_rejected hfirst h hm hlen hb⟩)
    · exact .inr (.inr hb)
  · exact .inr (.inr fun hs => by rw [hs] at hm; cases hm)
  · obtain ⟨rfl, rfl⟩ := ended_in_order he
    exact ⟨.inr (.inr (by simp)), fun need pos hm => by cases hm⟩

theorem not_rejection_of_cut {s : ReadState} {bs : Bytes} {e : IoError}
    (he : onEnded s bs = .error e) : ¬ Rejection e := by
  have heof : e.kind = .unexpectedEof := by
    unfold onEnded at he
    split at he
    · cases he
      rfl
    · cases he
      rfl
    · split at he
      · cases he
      · cases he
        rfl
  intro hr
  cases hr <;> cases heof

theorem final_answers {udp : Bool} {first : Bytes} (hfirst : ¬ Revived udp first) {c : RelayConn}
    (hudp : c.udp = udp) (h : (machine udp).Between (Ready udp first) (c.reader, c.inner.inbound))
    (herr : ∀ e, .error e ∈ c.inner.inbound.arrivals → ¬ Rejection e) (caps : List Nat) :
    Final (c.answers caps) := by
  induction caps generalizing c with
  | nil => exact .nil
  | cons cap caps ih =>
    subst hudp
    have hnext := (keeps_ready hfirst).poll cap h
    by_cases hplain : c.reader.plain.pos < c.reader.plain.data.length
    · have hpoll : (machine c.udp).poll cap c.reader c.inner.inbound
          = (.ready (.ok (c.reader.plain.take cap).1),
            { c.reader with plain := (c.reader.plain.take cap).2 }, c.inner.inbound) := by
        rw [Machine.poll, if_pos hplain]
      rw [RelayConn.answers, pollRead_eq, hpoll]
      rw [hpoll] at hnext
      refine .cons (fun _ _ hr => ?_) (ih rfl hnext herr)
      obtain ⟨e, he, -⟩ := hr
      cases he
    · obtain ⟨-, hans, got, hg⟩ := (keeps_ready hfirst).polled cap h (Cursor.rest_eq_nil.mpr hplain)
      rw [RelayConn.answers, pollRead_eq]
      revert hnext hans hg
      generalize (machine c.udp).poll cap c.reader c.inner.inbound = x
      obtain ⟨a, r', src'⟩ := x
      intro hnext hans hg
      refine .cons (fun b hb hr => ?_)
        (ih rfl hnext fun e he => herr e (hg.errors e he))
      obtain ⟨e, rfl, hr⟩ := hr
      cases hans with
      | transport _ he => exact absurd hr (herr e he)
      | cut _ _ _ he => exact absurd hr (not_rejection_of_cut he)
      | raw _ _ he => exact absurd hr (herr e (he e rfl))
      | failed hidle hm hlen hp hb' hrest =>
        have hstate := response_of_error hb'
        have hdead := ready_rejected hfirst hp hm hlen ((congrArg Prod.fst hb').trans hstate)
        refine answers_of_not_alive (c := { c with reader := r', inner := { c.inner with inbound := src' } })
          rfl ⟨hnext.short, ?_⟩ hidle caps b hb
        show ¬ Alive c.udp r'.state (r'.buf ++ src'.content)
        rw [hstate, hrest]
        exact hdead

/-! ## A connection that is revived -/

section

variable {plain : Cursor}

theorem poll_raw (udp : Bool) (bs : Bytes) (hidle : plain.rest = []) :
    ∃ out x, (machine udp).poll 1 ⟨.raw, [], plain⟩ (.piece bs) = (.ready (.ok out), x) := by
  have hpoll : (machine udp).poll 1 ⟨.raw, [], plain⟩ (.piece bs)
      = (((Inbound.piece bs).read 1).1, ⟨.raw, [], plain⟩, ((Inbound.piece bs).read 1).2) := by
    rw [Machine.poll, if_neg (Cursor.rest_eq_nil.mp hidle)]
    rfl
  rw [hpoll]
  cases bs with
  | nil => exact ⟨_, _, rfl⟩
  | cons b bs => exact ⟨_, _, rfl⟩

theorem poll_payload {udp : Bool} {dlen : Nat} (hpos : 0 < dlen) {bs : Bytes}
    (h : bs = [] ∨ dlen ≤ bs.length) (hidle : plain.rest = []) :
    ∃ out x, (machine udp).poll 1 ⟨.payload dlen hpos, [], plain⟩ (.piece bs)
      = (.ready (.ok out), x) := by
  have hm : (machine udp).mode (.payload dlen hpos) = .block dlen hpos := rfl
  rcases h with rfl | hlen
  · have hshort : ([] : Bytes).length < dlen := hpos
    rw [Machine.poll_piece_short hm hshort 1 hidle]
    exact ⟨_, _, rfl⟩
  · rw [Machine.poll_piece hm hlen 1 hidle]
    have hne : 0 < (bs.take dlen).length := by
      rw [List.length_take]
      omega
    show ∃ out x, (machine udp).poll 1 ⟨.length, [], .ofBytes (bs.take dlen)⟩ _ = _
    have hplain : (Cursor.ofBytes (bs.take dlen)).pos < (Cursor.ofBytes (bs.take dlen)).data.length :=
      hne
    rw [Machine.poll, if_pos hplain]
    exact ⟨_, _, rfl⟩

theorem poll_length {udp : Bool} {bs : Bytes} (h : Delivering bs) (hidle : plain.rest = []) :
    ∃ out x, (machine udp).poll 1 ⟨.length, [], plain⟩ (.piece bs) = (.ready (.ok out), x) := by
  have hm : (machine udp).mode .length = .block RELAY_DGRAM_LEN_SIZE (by decide) := rfl
  induction bs using Delivering.induct generalizing plain with
  | case1 =>
    rw [Machine.poll_piece_short hm (by decide) 1 hidle]
    exact ⟨_, _, rfl⟩
  | case2 => exact h.elim
  | case3 hi lo rest hzero ih =>
    rw [Delivering, if_pos hzero] at h
    rw [Machine.poll_piece hm (by simp [RELAY_DGRAM_LEN_SIZE]) 1 hidle]
    have hb : (machine udp).block .length ((hi :: lo :: rest).take RELAY_DGRAM_LEN_SIZE)
        = (.length, .ok []) := by
      show onBlock udp .length [hi, lo] = _
      rw [onBlock_length, dif_neg (by omega)]
    rw [hb]
    exact ih h rfl
  | case4 hi lo rest hzero =>
    rw [Delivering, if_neg hzero] at h
    rw [Machine.poll_piece hm (by simp [RELAY_DGRAM_LEN_SIZE]) 1 hidle]
    have hb : (machine udp).block .length ((hi :: lo :: rest).take RELAY_DGRAM_LEN_SIZE)
        = (.payload (Bytes.beNat [hi, lo]) (Nat.pos_of_ne_zero hzero), .ok []) := by
      show onBlock udp .length [hi, lo] = _
      rw [onBlock_length, dif_pos (Nat.pos_of_ne_zero hzero)]
    rw [hb]
    exact poll_payload (Nat.pos_of_ne_zero hzero) h rfl

theorem poll_dataPhase {udp : Bool} {bs : Bytes} (h : udp = true → Delivering bs)
    (hidle : plain.rest = []) :
    ∃ out x, (machine udp).poll 1 ⟨dataPhase udp, [], plain⟩ (.piece bs) = (.ready (.ok out), x) := by
  cases udp with
  | false => exact poll_raw false bs hidle
  | true => exact poll_length (h rfl) hidle

/-- An accepted response lets the same poll reach the data. -/
theorem poll_accepted {udp : Bool} {version status hi lo : UInt8} {rest : Bytes}
    (hr : ¬ Rejected version status) (hlen : Bytes.beNat [hi, lo] ≤ rest.length)
    (h : udp = true → Delivering (rest.drop (Bytes.beNat [hi, lo]))) (hidle : plain.rest = []) :
    ∃ out x, (machine udp).poll 1 ⟨.response, [], plain⟩
      (.piece (version :: status :: hi :: lo :: rest)) = (.ready (.ok out), x) := by
  have hm : (machine udp).mode .response = .block RELAY_HEADER_LEN (by decide) := rfl
  rw [Machine.poll_piece hm (by simp [RELAY_HEADER_LEN]) 1 hidle]
  have hb : (machine udp).block .response
      ((version :: status :: hi :: lo :: rest).take RELAY_HEADER_LEN)
        = onBlock udp .response [version, status, hi, lo] := rfl
  rw [hb, onBlock_accepted hr]
  by_cases hpos : 0 < Bytes.beNat [hi, lo]
  · rw [dif_pos hpos]
    show ∃ out x, (machine udp).poll 1 ⟨.responseFeatures _ hpos, [], .ofBytes []⟩ (.piece rest) = _
    have hm' : (machine udp).mode (.responseFeatures _ hpos) = .block _ hpos := rfl
    rw [Machine.poll_piece hm' hlen 1 rfl]
    exact poll_dataPhase h rfl
  · rw [dif_neg hpos]
    have hzero : Bytes.beNat [hi, lo] = 0 := by omega
    rw [hzero] at h
    exact poll_dataPhase h rfl

end

/-- A rejected response is reported, and the next one is waited for. -/
theorem pollRead_rejected {c : RelayConn} {version status hi lo : UInt8} {rest : Bytes}
    (hr : Rejected version status) (hreader : c.reader = ⟨.response, [], .empty⟩)
    (hsrc : c.inner.inbound = .piece (version :: status :: hi :: lo :: rest)) :
    ∃ e, Rejection e ∧ c.pollRead 1 = (.ready (.error e),
      { c with inner := { c.inner with inbound := .piece rest } }) := by
  obtain ⟨e, he, hb⟩ := @onBlock_rejected c.udp _ _ hr hi lo
  refine ⟨e, he, ?_⟩
  have hm : (machine c.udp).mode .response = .block RELAY_HEADER_LEN (by decide) := rfl
  have hb' : (machine c.udp).block .response
      ((version :: status :: hi :: lo :: rest).take RELAY_HEADER_LEN)
        = (.response, .error e) := hb
  have hpoll : (machine c.udp).poll 1 c.reader c.inner.inbound
      = (.ready (.error e), ⟨.response, [], .empty⟩, .piece rest) := by
    rw [hreader, hsrc, Machine.poll_piece hm (by simp [RELAY_HEADER_LEN]) 1 rfl, hb']
    rfl
  rw [pollRead_eq, hpoll, ← hreader]

/-- Some poll hands bytes out, or reports the end, after all. -/
theorem answers_of_reviving {udp : Bool} {bs : Bytes} (h : Reviving udp bs) {c : RelayConn}
    (hudp : c.udp = udp) (hreader : c.reader = ⟨.response, [], .empty⟩)
    (hsrc : c.inner.inbound = .piece bs) :
    ∃ caps, ∃ out, .ready (.ok out) ∈ c.answers caps := by
  induction bs using Reviving.induct generalizing c with
  | case1 version status hi lo rest hr ih =>
    rw [Reviving, if_pos hr] at h
    obtain ⟨e, -, hread⟩ := pollRead_rejected hr hreader hsrc
    obtain ⟨caps, out, hmem⟩ := ih h
      (c := { c with inner := { c.inner with inbound := .piece rest } }) hudp hreader rfl
    refine ⟨1 :: caps, out, ?_⟩
    rw [RelayConn.answers, hread]
    exact List.mem_cons_of_mem _ hmem
  | case2 version status hi lo rest hr =>
    subst hudp
    rw [Reviving, if_neg hr] at h
    obtain ⟨out, x, hpoll⟩ := @poll_accepted .empty _ _ _ _ _ _ hr h.1 h.2 rfl
    refine ⟨[1], out, ?_⟩
    rw [RelayConn.answers, pollRead_eq, hreader, hsrc, hpoll]
    exact List.mem_cons_self
  | case3 => exact absurd h (by simp [Reviving])

/-- A rejection is final, in whatever pieces the bytes arrive, if and only if the bytes after
the rejected response do not make up for it. -/
theorem rejection_final (udp : Bool) (bs : Bytes) :
    (∀ (src : Inbound IoError) (grants : List (Grant IoError)) (caps : List Nat),
        src.content = bs → (∀ e, .error e ∈ src.arrivals → ¬ Rejection e) →
          Final ((RelayConn.client (.new src grants) udp).answers caps)) ↔
      ¬ Revived udp bs := by
  constructor
  · intro h hrev
    match bs with
    | version :: status :: hi :: lo :: rest =>
      obtain ⟨hr, hrest⟩ := hrev
      let c := RelayConn.client (.new (.piece (version :: status :: hi :: lo :: rest)) []) udp
      obtain ⟨e, he, hread⟩ := @pollRead_rejected c version status hi lo rest hr rfl rfl
      obtain ⟨caps, out, hmem⟩ := @answers_of_reviving udp rest hrest
        { c with inner := { c.inner with inbound := .piece rest } } rfl rfl rfl
      have hcontent : (Inbound.piece (version :: status :: hi :: lo :: rest) : Inbound IoError).content
          = version :: status :: hi :: lo :: rest := (Inbound.delivers_ofBytes _).content
      have hfinal := h (.piece (version :: status :: hi :: lo :: rest)) [] (1 :: caps) hcontent
        fun e he => absurd he ((Inbound.delivers_ofBytes _).unfailing e)
      have hanswers : c.answers (1 :: caps) = _ :: _ := rfl
      rw [hanswers, hread] at hfinal
      exact List.rel_of_pairwise_cons hfinal hmem ⟨e, rfl, he⟩ out rfl
    | [] | [_] | [_, _] | [_, _, _] => exact hrev
  · intro hrev src grants caps hsrc herr
    exact @final_answers udp bs hrev (.client (.new src grants) udp) rfl
      ⟨Machine.short_nil _, .inl ⟨rfl, hsrc⟩⟩ herr caps

/-- A rejected response, then one that is accepted, and a byte of data. -/
theorem rejection_revived :
    (RelayConn.client (.new (.piece [0x01, 0x07, 0x00, 0x00, 0x01, 0x00, 0x00, 0x00, 0x68]) [])
        false).answers [1, 1]
        = [.ready (.error ⟨.other, "relay: network unreachable"⟩), .ready (.ok [0x68])] ∧
      ¬ Final ((RelayConn.client
        (.new (.piece [0x01, 0x07, 0x00, 0x00, 0x01, 0x00, 0x00, 0x00, 0x68]) []) false).answers
          [1, 1]) := by
  have hm : (machine false).mode .response = .block RELAY_HEADER_LEN (by decide) := rfl
  have hreject : (machine false).poll 1 (.new .response)
      (.piece [0x01, 0x07, 0x00, 0x00, 0x01, 0x00, 0x00, 0x00, 0x68])
        = (.ready (.error ⟨.other, "relay: network unreachable"⟩), .new .response,
          .piece [0x01, 0x00, 0x00, 0x00, 0x68]) := by
    rw [Reader.new, Machine.poll_piece hm (by decide) 1 rfl]
    rfl
  have hrevive : ((machine false).poll 1 (.new .response)
      (.piece [0x01, 0x00, 0x00, 0x00, 0x68])).1 = .ready (.ok [0x68]) := by
    rw [Reader.new, Machine.poll_piece hm (by decide) 1 rfl]
    show ((machine false).poll 1 ⟨.raw, [], .ofBytes []⟩ (.piece [0x68])).1 = _
    rw [Machine.poll]
    rfl
  have hanswers : (RelayConn.client
      (.new (.piece [0x01, 0x07, 0x00, 0x00, 0x01, 0x00, 0x00, 0x00, 0x68]) []) false).answers [1, 1]
        = [.ready (.error ⟨.other, "relay: network unreachable"⟩), .ready (.ok [0x68])] := by
    simp [RelayConn.answers, pollRead_eq, RelayConn.client, Transport.new, hreject, hrevive]
  refine ⟨hanswers, fun h => ?_⟩
  rw [hanswers] at h
  have hstatus : Rejection ⟨.other, "relay: network unreachable"⟩ := .status 0x07 (by decide)
  exact List.rel_of_pairwise_cons h List.mem_cons_self ⟨_, rfl, hstatus⟩ [0x68] rfl

end Relay
end RtProxy
