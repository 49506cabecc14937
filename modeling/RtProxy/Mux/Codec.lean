import RtProxy.Mux.Decoding

/-!
The frame codec in both directions (`MuxFrame::encode_into`, `MuxFrame::decode`).

The length field has two bytes, and only PSH and UPD have it read back.  A frame within
these bounds is the same on both sides of the wire, however the bytes behind it go on.
-/

namespace RtProxy
namespace Mux

open Session

namespace MuxFrame

/-- `encode_into`: the result, and what `out` is afterwards. -/
def encodeOnto (f : MuxFrame) (out : Bytes) : Except IoError Unit × Bytes :=
  if f.data.length > MAX_FRAME_DATA then
    (.error ⟨.invalidInput,
      s!"smux: frame payload {f.data.length} exceeds the {MAX_FRAME_DATA}-byte protocol limit"⟩, out)
  else (.ok (), out ++ f.header.encode ++ f.data)

/-- A command of the protocol with a payload that it may have. -/
structure Codable (f : MuxFrame) : Prop where
  known : f.cmd ∈ [CMD_SYN, CMD_FIN, CMD_PSH, CMD_NOP, CMD_UPD]
  fits : f.data.length ≤ MAX_FRAME_DATA
  empty : f.cmd = CMD_SYN ∨ f.cmd = CMD_FIN ∨ f.cmd = CMD_NOP → f.data = []

variable {f : MuxFrame} {buf : Bytes}

/-! ## Encoding -/

theorem encodeOnto_fails (f : MuxFrame) (out : Bytes) :
    ((∃ e, (f.encodeOnto out).1 = .error e) ↔ MAX_FRAME_DATA < f.data.length) ∧
      ((∃ e, (f.encodeOnto out).1 = .error e) → (f.encodeOnto out).2 = out) := by
  unfold encodeOnto
  by_cases hlen : f.data.length > MAX_FRAME_DATA
  · rw [if_pos hlen]
    exact ⟨⟨fun _ => hlen, fun _ => ⟨_, rfl⟩⟩, fun _ => rfl⟩
  · rw [if_neg hlen]
    have hok : ¬ ∃ e, (Except.ok () : Except IoError Unit) = .error e := by simp
    exact ⟨⟨fun h => absurd h hok, fun h => absurd h hlen⟩, fun h => absurd h hok⟩

theorem encode_of_fits (h : f.data.length ≤ MAX_FRAME_DATA) :
    f.encode = .ok (f.header.encode ++ f.data) := by
  rw [encode, encodeInto, if_neg (by omega), List.nil_append]

/-- The length field holds the length. -/
theorem toNat_length_header (h : f.data.length ≤ MAX_FRAME_DATA) :
    f.header.length.toNat = f.data.length := by
  show (UInt16.ofNat f.data.length).toNat = _
  rw [UInt16.toNat_ofNat_of_lt']
  unfold MAX_FRAME_DATA at h
  simp only [UInt16.size]
  omega

/-! ## Decoding -/

theorem Codable.check (h : Codable f) : checkHeader f.version f.header = .ok () := by
  have hknown := h.known
  simp only [List.mem_cons, List.not_mem_nil, or_false] at hknown
  have hversion : ¬ f.header.version ≠ f.version := not_not_intro rfl
  unfold checkHeader
  rw [if_neg hversion, if_pos]
  show f.cmd = CMD_NOP ∨ f.cmd = CMD_SYN ∨ f.cmd = CMD_FIN ∨ f.cmd = CMD_PSH ∨ f.cmd = CMD_UPD
  tauto

/-- The decoder takes the whole payload and no more. -/
theorem Codable.declared_header (h : Codable f) : declared f.header = f.data.length := by
  unfold declared
  by_cases hp : f.header.cmd = CMD_PSH ∨ f.header.cmd = CMD_UPD
  · rw [if_pos hp, toNat_length_header h.fits]
  · have hknown := h.known
    simp only [List.mem_cons, List.not_mem_nil, or_false] at hknown
    have hnot : ¬ (f.cmd = CMD_PSH ∨ f.cmd = CMD_UPD) := hp
    rw [if_neg hp, h.empty (by tauto)]
    rfl

theorem Codable.decode_append (h : Codable f) (rest : Bytes) :
    decode (f.header.encode ++ f.data ++ rest) = .ok (some (f, (f.header.encode ++ f.data).length)) := by
  have hlong : ¬ (f.data ++ rest).length < f.data.length := by
    rw [List.length_append]
    omega
  rw [List.append_assoc, decode_encode_append h.check, h.declared_header, if_neg hlong,
    List.take_left, length_encode_append]
  rfl

/-- Less than the frame is no frame yet. -/
theorem Codable.decode_front (h : Codable f) {front : Bytes}
    (hfront : front <+: f.header.encode ++ f.data) (hne : front ≠ f.header.encode ++ f.data) :
    decode front = .ok none := by
  obtain ⟨rest, hrest⟩ := hfront
  by_cases hshort : front.length < HEADER_SIZE
  · rw [decode, if_pos hshort]
  · obtain ⟨hdr, data, rfl⟩ := exists_header (Nat.le_of_not_lt hshort)
    rw [List.append_assoc] at hrest
    obtain ⟨hhdr, hdata⟩ := List.append_inj hrest
      ((MuxHeader.length_encode hdr).trans (MuxHeader.length_encode f.header).symm)
    obtain rfl := header_injective hhdr
    have hdrop : rest ≠ [] := by
      rintro rfl
      rw [List.append_nil] at hdata
      exact hne (congrArg _ hdata)
    have hpos := List.length_pos_iff.mpr hdrop
    have hlen := congrArg List.length hdata
    rw [List.length_append] at hlen
    rw [decode_encode_append h.check, h.declared_header, if_pos (by omega)]

/-- What a frame was read from. -/
theorem header_of_decode {n : Nat} (h : decode buf = .ok (some (f, n))) :
    ∃ (hdr : MuxHeader) (rest : Bytes), buf = hdr.encode ++ (f.data ++ rest) ∧
      hdr.frame f.data = f ∧ n = HEADER_SIZE + f.data.length := by
  have hlong : ¬ buf.length < HEADER_SIZE := by
    intro hshort
    rw [decode, if_pos hshort] at h
    cases h
  obtain ⟨hdr, after, rfl⟩ := exists_header (Nat.le_of_not_lt hlong)
  cases hcheck : checkHeader hdr.version hdr with
  | error e =>
    rw [decode_encode_error hcheck] at h
    cases h
  | ok u =>
    rw [decode_encode_append hcheck] at h
    by_cases hshort : after.length < declared hdr
    · rw [if_pos hshort] at h
      cases h
    · rw [if_neg hshort] at h
      have htake : (after.take (declared hdr)).length = declared hdr :=
        List.length_take_of_le (Nat.le_of_not_lt hshort)
      cases h
      refine ⟨hdr, after.drop (declared hdr), ?_, rfl, ?_⟩
      · show hdr.encode ++ after = hdr.encode ++ (after.take _ ++ _)
        rw [List.take_append_drop]
      · exact congrArg _ htake.symm

/-- A frame whose header tells its length is encoded as it was read. -/
theorem encode_of_decode {n : Nat} (h : decode buf = .ok (some (f, n)))
    (hlen : (MuxHeader.decode (buf.take HEADER_SIZE)).length.toNat = f.data.length) :
    f.encode = .ok (buf.take n) := by
  obtain ⟨hdr, rest, rfl, hframe, rfl⟩ := header_of_decode h
  rw [take_encode, MuxHeader.decode_encode] at hlen
  have hfits : f.data.length ≤ MAX_FRAME_DATA := by
    have hlt := hdr.length.toNat_lt
    unfold MAX_FRAME_DATA
    omega
  have hheader : f.header = hdr := by
    have hfield : UInt16.ofNat f.data.length = hdr.length := by
      rw [← hlen, UInt16.ofNat_toNat]
    rw [header, hfield, ← hframe]
    rfl
  have htake : (hdr.encode ++ (f.data ++ rest)).take (HEADER_SIZE + f.data.length) =
      hdr.encode ++ f.data := by
    rw [← List.append_assoc]
    refine List.take_left' ?_
    rw [List.length_append, MuxHeader.length_encode]
  rw [encode_of_fits hfits, hheader, htake]

/-! ## Both ways -/

/-- A frame that may be sent is read back, wherever the bytes are cut; one that may not be
leaves no bytes behind; and a frame that was read is written as it was. -/
theorem frame_round_trip (f : MuxFrame) :
    (Codable f → ∃ bs, f.encode = .ok bs ∧
      (∀ rest, decode (bs ++ rest) = .ok (some (f, bs.length))) ∧
      ∀ front, front <+: bs → front ≠ bs → decode front = .ok none) ∧
    (∀ out, ((∃ e, (f.encodeOnto out).1 = .error e) ↔ MAX_FRAME_DATA < f.data.length) ∧
      ((∃ e, (f.encodeOnto out).1 = .error e) → (f.encodeOnto out).2 = out)) ∧
    ∀ buf n, decode buf = .ok (some (f, n)) →
      (MuxHeader.decode (buf.take HEADER_SIZE)).length.toNat = f.data.length →
      f.encode = .ok (buf.take n) := by
  refine ⟨fun h => ?_, f.encodeOnto_fails, fun buf n => encode_of_decode⟩
  exact ⟨_, encode_of_fits h.fits, h.decode_append, fun front => h.decode_front⟩

/-- A PSH frame, cut and whole. -/
theorem frame_round_trip_psh : ∃ bs, encode ⟨VERSION_1, CMD_PSH, 3, [0xAA, 0xBB]⟩ = .ok bs ∧
    decode (bs ++ [0x01]) = .ok (some (⟨VERSION_1, CMD_PSH, 3, [0xAA, 0xBB]⟩, bs.length)) := by
  have hcodable : Codable ⟨VERSION_1, CMD_PSH, 3, [0xAA, 0xBB]⟩ :=
    ⟨by decide, by decide, fun h => absurd h (by decide)⟩
  obtain ⟨bs, hencode, hdecode, -⟩ := (frame_round_trip _).1 hcodable
  exact ⟨bs, hencode, hdecode [0x01]⟩

end MuxFrame
end Mux
end RtProxy
