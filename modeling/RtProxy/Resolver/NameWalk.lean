import RtProxy.Lib.Checked
import RtProxy.Lib.DnsWire
import RtProxy.Resolver.Names

/-!
Which compressed names are read (`decode_name` in `resolver.rs`).

The loop takes one step of the walk through the name for each unit of its budget, and the
budget is one more than the message has offsets.  So it runs out exactly when the walk comes
back to an offset, and every other walk is read to its end.
-/

namespace RtProxy.Resolver

open Bytes Dns

/-- The loop of `decode_name` as it indexes the message. -/
def decodeNameLoopAt (buf : Bytes) :
    Nat → String → Nat → Nat → Bool → Except Panic (Except String (String × Nat))
  | 0, _, _, _, _ => return .error "compression pointer loop"
  | budget + 1, name, pos, endPos, jumped =>
    if buf.length ≤ pos then return .error "truncated name"
    else do
      let len ← Checked.index buf pos
      if len = 0 then return .ok (if name = "" then "." else name, if jumped then endPos else pos + 1)
      else if len &&& 0xC0 = 0 then
        if buf.length < pos + 1 + len.toNat then return .error "truncated label"
        else
          let label ← Checked.slice buf (pos + 1) (pos + 1 + len.toNat)
          decodeNameLoopAt buf budget (name ++ Text.fromUtf8Lossy label ++ ".")
            (pos + 1 + len.toNat) endPos jumped
      else if len &&& 0xC0 = 0xC0 then
        if buf.length < pos + 2 then return .error "truncated compression pointer"
        else
          let lo ← Checked.index buf (pos + 1)
          let ptr := (len &&& 0x3F).toNat <<< 8 ||| lo.toNat
          if buf.length ≤ ptr then return .error "compression pointer out of range"
          else decodeNameLoopAt buf budget name ptr (if jumped then endPos else pos + 2) true
      else return .error "reserved label type"

/-- `decode_name` as it indexes the message. -/
def decodeNameAt (buf : Bytes) (start : Nat) : Except Panic (Except String (String × Nat)) :=
  decodeNameLoopAt buf (buf.length + 1) "" start start false

/-- Every index and every slice is in range. -/
theorem decodeNameLoopAt_eq (buf : Bytes) (budget : Nat) (name : String) (pos endPos : Nat)
    (jumped : Bool) : decodeNameLoopAt buf budget name pos endPos jumped =
      .ok (decodeNameLoop buf budget name pos endPos jumped) := by
  induction budget generalizing name pos endPos jumped with
  | zero => rfl
  | succ budget ih =>
    rw [decodeNameLoopAt, decodeNameLoop]
    by_cases hpos : buf.length ≤ pos
    · rw [if_pos hpos, List.getElem?_eq_none hpos]
      rfl
    · have hlt : pos < buf.length := Nat.not_le.mp hpos
      rw [if_neg hpos, List.getElem?_eq_getElem hlt, Checked.index_ok hlt, Checked.ok_bind]
      simp only
      by_cases hzero : buf[pos] = 0
      · rw [if_pos hzero, if_pos hzero]
        rfl
      by_cases hlabel : buf[pos] &&& 0xC0 = 0
      · rw [if_neg hzero, if_neg hzero, if_pos hlabel, if_pos hlabel]
        by_cases hroom : buf.length < pos + 1 + buf[pos].toNat
        · rw [if_pos hroom, if_pos hroom]
          rfl
        · rw [if_neg hroom, if_neg hroom, Checked.slice_ok (by omega), Checked.ok_bind,
            ih]
      by_cases hpointer : buf[pos] &&& 0xC0 = 0xC0
      · rw [if_neg hzero, if_neg hzero, if_neg hlabel, if_neg hlabel, if_pos hpointer,
          if_pos hpointer]
        by_cases hroom : buf.length < pos + 2
        · rw [if_pos hroom, List.getElem?_eq_none (by omega)]
          rfl
        · have hnext : pos + 1 < buf.length := by omega
          rw [if_neg hroom, List.getElem?_eq_getElem hnext, Checked.index_ok hnext,
            Checked.ok_bind]
          simp only
          by_cases hin : buf.length ≤ (buf[pos] &&& 0x3F).toNat <<< 8 ||| buf[pos + 1].toNat
          · rw [if_pos hin, if_pos hin]
            rfl
          · rw [if_neg hin, if_neg hin, ih]
      · rw [if_neg hzero, if_neg hzero, if_neg hlabel, if_neg hlabel, if_neg hpointer,
          if_neg hpointer]
        rfl

/-! ## One step -/

section

variable {buf : Bytes} {budget p p' : Nat}

/-- Where the walk goes on, so does the loop. -/
theorem decodeNameLoop_follows (h : Follows buf True p p') (budget : Nat) (name : String)
    (endPos : Nat) (jumped : Bool) : ∃ name' endPos' jumped',
      decodeNameLoop buf (budget + 1) name p endPos jumped =
        decodeNameLoop buf budget name' p' endPos' jumped' := by
  cases h with
  | @label l hpos hlen hat =>
    obtain ⟨hbyte, hbytes⟩ := At.cons_iff.mp hat
    obtain ⟨hzero, hmask⟩ := mask_length l.length hlen hpos
    have hnat := NameIn.toNat_length hlen
    have hroom := hbytes.length_le
    rw [decodeNameLoop, hbyte]
    simp only [hnat]
    rw [if_neg hzero, if_pos hmask, if_neg (by omega)]
    exact ⟨_, _, _, rfl⟩
  | @pointer hi lo _ hhi hat hin =>
    obtain ⟨hbyte, hrest⟩ := At.cons_iff.mp hat
    obtain ⟨hzero, hnot, hmask, -⟩ :=
      mask_pointer hi.toNat hi.toNat_lt (UInt8.le_iff_toNat_le.mp hhi)
    rw [UInt8.ofNat_toNat] at hzero hnot hmask
    rw [decodeNameLoop, hbyte]
    simp only [At.singleton_iff.mp hrest]
    rw [if_neg hzero, if_neg hnot, if_pos hmask, pointer_eq hhi lo, if_neg (Nat.not_le.mpr hin)]
    exact ⟨_, _, _, rfl⟩

/-- A budget that runs out has been spent on a step. -/
theorem follows_of_loop {name : String} {endPos : Nat} {jumped : Bool}
    (h : decodeNameLoop buf (budget + 1) name p endPos jumped =
      .error "compression pointer loop") :
    ∃ p' name' endPos' jumped', Follows buf True p p' ∧
      decodeNameLoop buf budget name' p' endPos' jumped' = .error "compression pointer loop" := by
  rw [decodeNameLoop] at h
  cases hbyte : buf[p]? with
  | none =>
    rw [hbyte] at h
    exact absurd (Except.error.inj h) (by decide)
  | some len =>
    rw [hbyte] at h
    have hof : UInt8.ofNat len.toNat = len := UInt8.ofNat_toNat
    simp only at h
    by_cases hzero : len = 0
    · rw [if_pos hzero] at h
      cases h
    by_cases hmask : len &&& 0xC0 = 0
    · rw [if_neg hzero, if_pos hmask] at h
      by_cases hroom : buf.length < p + 1 + len.toNat
      · rw [if_pos hroom] at h
        exact absurd (Except.error.inj h) (by decide)
      · rw [if_neg hroom] at h
        obtain ⟨hat, hlength⟩ := at_of_length (Nat.not_lt.mp hroom)
        have hlen : len.toNat < 64 := lt_of_mask len.toNat len.toNat_lt (by rwa [hof])
        have hne : len.toNat ≠ 0 := fun h0 => hzero (UInt8.toNat_inj.mp h0)
        have hlabel : At buf p (UInt8.ofNat ((buf.drop (p + 1)).take len.toNat).length ::
            (buf.drop (p + 1)).take len.toNat) := by
          rw [hlength, hof]
          exact At.cons_iff.mpr ⟨hbyte, hat⟩
        have hfollows : Follows buf True p _ := .label (by omega) (by omega) hlabel
        rw [hlength] at hfollows
        exact ⟨_, _, _, _, hfollows, h⟩
    rw [if_neg hzero, if_neg hmask] at h
    by_cases hptr : len &&& 0xC0 = 0xC0
    · rw [if_pos hptr] at h
      have hhi : 0xC0 ≤ len := by
        rw [UInt8.le_iff_toNat_le]
        exact le_of_mask len.toNat len.toNat_lt (by rwa [hof])
      cases hlo : buf[p + 1]? with
      | none =>
        rw [hlo] at h
        exact absurd (Except.error.inj h) (by decide)
      | some lo =>
        rw [hlo] at h
        simp only [pointer_eq hhi] at h
        by_cases hin : buf.length ≤ (len.toNat - 0xC0) * 256 + lo.toNat
        · rw [if_pos hin] at h
          exact absurd (Except.error.inj h) (by decide)
        · rw [if_neg hin] at h
          exact ⟨_, _, _, _, .pointer trivial hhi
            (At.cons_iff.mpr ⟨hbyte, At.singleton_iff.mpr hlo⟩) (Nat.not_le.mp hin), h⟩
    · rw [if_neg hptr] at h
      exact absurd (Except.error.inj h) (by decide)

/-! ## The budget -/

/-- A budget that runs out is the length of a walk. -/
theorem steps_of_loop {name : String} {endPos : Nat} {jumped : Bool}
    (h : decodeNameLoop buf budget name p endPos jumped = .error "compression pointer loop") :
    ∃ f : Nat → Nat, f 0 = p ∧ ∀ i < budget, Follows buf True (f i) (f (i + 1)) := by
  induction budget generalizing name p endPos jumped with
  | zero => exact ⟨fun _ => p, rfl, fun i hi => absurd hi (Nat.not_lt_zero i)⟩
  | succ budget ih =>
    obtain ⟨p', name', endPos', jumped', hstep, hrest⟩ := follows_of_loop h
    obtain ⟨f, rfl, hf⟩ := ih hrest
    refine ⟨fun i => Nat.casesOn i p f, rfl, fun i hi => ?_⟩
    cases i with
    | zero => exact hstep
    | succ i => exact hf i (by omega)

/-- On a walk that never ends every budget runs out. -/
theorem loop_of_revisits (h : Revisits (Follows buf True) p) (budget : Nat) (name : String)
    (endPos : Nat) (jumped : Bool) :
    decodeNameLoop buf budget name p endPos jumped = .error "compression pointer loop" := by
  induction budget generalizing name p endPos jumped with
  | zero => rfl
  | succ budget ih =>
    obtain ⟨p', hstep, hrest⟩ := h.step
    obtain ⟨name', endPos', jumped', heq⟩ :=
      decodeNameLoop_follows hstep budget name endPos jumped
    rw [heq, ih hrest]

theorem decodeName_loop_iff (buf : Bytes) (start : Nat) :
    decodeName buf start = .error "compression pointer loop" ↔
      Revisits (Follows buf True) start := by
  constructor
  · intro h
    obtain ⟨f, rfl, hf⟩ := steps_of_loop h
    exact revisits_of_steps hf fun i hi => (hf i hi).lt_length
  · exact fun h => loop_of_revisits h _ _ _ _

end

/-- Decoding a name ends without an access out of range.  It reports a loop exactly if the
walk comes back to an offset, and succeeds exactly if it reaches a zero byte; then the
offset it gives is just past the first pointer or the zero byte, and inside the message. -/
theorem decode_name_exact (buf : Bytes) (start : Nat) :
    ∃ r, decodeNameAt buf start = .ok r ∧
      (r = .error "compression pointer loop" ↔ Revisits (Follows buf True) start) ∧
      ((∃ name e, r = .ok (name, e)) ↔ ReachesZero buf start) ∧
      ∀ name e, r = .ok (name, e) → EndsAt buf start e ∧ e ≤ buf.length := by
  refine ⟨decodeName buf start, decodeNameLoopAt_eq _ _ _ _ _ _, decodeName_loop_iff buf start,
    ?_, fun name e h => ?_⟩
  · rw [← reads_iff_reachesZero]
    constructor
    · rintro ⟨name, e, h⟩
      obtain ⟨ls, hreads, -⟩ := decodeName_eq_ok.mp h
      exact ⟨ls, e, hreads⟩
    · rintro ⟨ls, e, hreads⟩
      exact ⟨_, e, decodeName_eq_ok.mpr ⟨ls, hreads, rfl⟩⟩
  · obtain ⟨ls, hreads, -⟩ := decodeName_eq_ok.mp h
    exact ⟨hreads.endsAt, hreads.endsAt.le_length⟩

/-- A pointer to itself. -/
example : decodeNameAt [0xC0, 0x00] 0 = .ok (.error "compression pointer loop") := by decide

end RtProxy.Resolver
