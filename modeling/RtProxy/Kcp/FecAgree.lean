import RtProxy.Kcp.Datagram
import RtProxy.Kcp.FecWindow

/-!
What decoder and encoder agree on.

The shards that an encoder emits are fed to a new decoder in any order.  The call that
completes a group returns the data shards that were not fed, and no other call of the
group returns anything, unless a shard comes a lap of the numbers after another that is
still in the window.
-/

namespace RtProxy
namespace Kcp

open Checked

/-- A packet as `packet_unframe_fec` hands it to the decoder. -/
def FecElement.received (pkt : Bytes) (now : Nat) : FecElement :=
  let body := pkt.drop CRYPT_HEADER_SIZE
  { seqid := UInt32.ofNat (Bytes.leNat (body.take 4))
    flag := (fecFlag body).getD 0
    data := body.drop FEC_HEADER_SIZE
    at' := now }

/-- What the decoder is fed of the packets that an encoder emits. -/
def FecEncoder.elements (enc : FecEncoder) (blocks : Nat → Bytes) (feeds : List Feed) :
    List FecElement :=
  feeds.map fun f => .received (enc.emitted blocks f.pos) f.now

def FecEncoder.sending (enc : FecEncoder) (blocks : Nat → Bytes) : Sending where
  datashard := enc.datashard
  parityshard := enc.parityshard
  codec := enc.codec
  blocks := blocks

/-- The window has room at every call, and nothing in it has expired. -/
def FecDecoder.Quiet : List FecElement → FecDecoder → Prop
  | [], _ => True
  | e :: rest, dec => dec.rx.length < dec.rxlimit ∧ (∀ x ∈ dec.rx, e.at' - x.at' ≤ EXPIRY)
    ∧ ∀ out dec', dec.decode e.seqid e.flag e.data e.at' = .ok (out, dec') → Quiet rest dec'

namespace Sending

/-- The positions of the group `k` that are fed. -/
def fedOf (s : Sending) (k : Nat) (feeds : List Feed) : List Nat :=
  Threshold.fed (· / s.shardSize) (feeds.map Feed.pos) k

/-- What the call that feeds `f` after `pre` returns. -/
structure Owed (s : Sending) (pre : List Feed) (f : Feed) (out : List Bytes) : Prop where
  /-- Only data shards of the group of `f`, each of which reads back as its block. -/
  own : ∀ payload ∈ out, ∃ i < s.datashard, payload = s.dataShard (f.pos / s.shardSize) i
    ∧ fecPayloadSegments payload = some (s.blocks (f.pos / s.shardSize * s.datashard + i))
  early : (s.fedOf (f.pos / s.shardSize) (pre ++ [f])).Nodup →
    (s.fedOf (f.pos / s.shardSize) pre).length + 1 < s.datashard → out = []
  /-- At the last shard that is needed, every data shard not yet fed. -/
  complete : (s.fedOf (f.pos / s.shardSize) (pre ++ [f])).Nodup →
    (s.fedOf (f.pos / s.shardSize) pre).length + 1 = s.datashard →
    out = ((List.range s.datashard).filter fun i =>
      f.pos / s.shardSize * s.shardSize + i ∉ (pre ++ [f]).map Feed.pos).map
        (s.dataShard (f.pos / s.shardSize))
  late : (s.fedOf (f.pos / s.shardSize) (pre ++ [f])).Nodup →
    s.datashard < (s.fedOf (f.pos / s.shardSize) pre).length + 1 →
    s.parityshard < s.datashard → out = []

end Sending

/-- Every call of a run returns what it owes. -/
def Agrees (enc : FecEncoder) (dec : FecDecoder) (blocks : Nat → Bytes) (feeds : List Feed) : Prop :=
  ∃ outs dec', dec.decodeAll (enc.elements blocks feeds) = .ok (outs, dec')
    ∧ ∀ pre f post, feeds = pre ++ f :: post →
      ∃ out, outs[pre.length]? = some out ∧ (enc.sending blocks).Owed pre f out

/-! ## One call -/

namespace Sending

variable {s : Sending}

theorem flagAt_eq (s : Sending) (pos : Nat) : s.flagAt pos = TYPE_DATA ∨ s.flagAt pos = TYPE_PARITY := by
  rw [flagAt]
  split
  · exact .inl rfl
  · exact .inr rfl

theorem received_packetAt (s : Sending) (pos now : Nat) :
    FecElement.received (s.packetAt pos) now = s.element ⟨pos, now⟩ := by
  rw [FecElement.received, packetAt]
  simp only [drop_shardPacket, seqid_shardBody, payload_shardBody,
    fecFlag_shardBody _ _ (s.flagAt_eq pos)]
  rfl

theorem mem_owed {k : Nat} {M : Finset Nat} {payload : Bytes} (h : payload ∈ s.owed k M) :
    ∃ i < s.datashard, payload = s.dataShard k i := by
  obtain ⟨i, hi, rfl⟩ := List.mem_map.mp h
  exact ⟨i, List.mem_range.mp (List.mem_filter.mp hi).1, rfl⟩

/-- A data shard reads back as its block. -/
theorem fecPayloadSegments_dataShard (hs : s.Valid) (k i : Nat) :
    fecPayloadSegments (s.dataShard k i) = some (s.blocks (k * s.datashard + i)) := by
  have hlen := (hs.blocks (k * s.datashard + i)).2
  exact fecPayloadSegments_dataPayload (by omega) _

/-- A group has no more members than places. -/
theorem length_fedOf_le (hs : s.Valid) {k : Nat} {feeds : List Feed} (h : (s.fedOf k feeds).Nodup) :
    (s.fedOf k feeds).length ≤ s.shardSize := by
  have hM : ∀ pos ∈ (s.fedOf k feeds).toFinset, pos / s.shardSize = k := by
    intro pos hin
    exact (Threshold.mem_fed.mp (List.mem_toFinset.mp hin)).2
  calc (s.fedOf k feeds).length = (s.fedOf k feeds).toFinset.card := (List.toFinset_card_of_nodup h).symm
    _ ≤ _ := card_le_length hs.pos hM
    _ ≤ (List.range s.shardSize).length := List.length_filter_le _ _
    _ = s.shardSize := List.length_range

/-- A step of the window returns what the call owes. -/
theorem owed_of_step (hs : s.Valid) (pre : List Feed) (f : Feed) : s.Owed pre f
    (if Threshold.Fires (· / s.shardSize) s.datashard
        (Threshold.window (· / s.shardSize) s.datashard (pre.map Feed.pos)) f.pos then
      s.owed (f.pos / s.shardSize) (Threshold.members (· / s.shardSize)
        (Insert.insert f.pos (Threshold.window (· / s.shardSize) s.datashard (pre.map Feed.pos)))
        (f.pos / s.shardSize))
    else []) := by
  have happend : (pre ++ [f]).map Feed.pos = pre.map Feed.pos ++ [f.pos] := List.map_append
  have hfires (h : (s.fedOf (f.pos / s.shardSize) (pre ++ [f])).Nodup) :
      Threshold.Fires (· / s.shardSize) s.datashard
        (Threshold.window (· / s.shardSize) s.datashard (pre.map Feed.pos)) f.pos
      ↔ (s.fedOf (f.pos / s.shardSize) pre).length % s.datashard + 1 = s.datashard := by
    rw [fedOf, happend] at h
    exact Threshold.fires_iff hs.data_pos h
  refine ⟨fun payload hmem => ?_, fun h hlt => if_neg ?_, fun h heq => ?_, fun h hgt hfew => if_neg ?_⟩
  · split at hmem
    · obtain ⟨i, hi, rfl⟩ := mem_owed hmem
      exact ⟨i, hi, rfl, fecPayloadSegments_dataShard hs _ i⟩
    · cases hmem
  · rw [hfires h, Nat.mod_eq_of_lt (by omega)]
    omega
  · have hlt : (s.fedOf (f.pos / s.shardSize) pre).length < s.datashard := by omega
    rw [if_pos ((hfires h).mpr (by rw [Nat.mod_eq_of_lt hlt, heq])), owed]
    refine congrArg _ (List.filter_congr fun i hi => ?_)
    have hdiv := (block_pos (f.pos / s.shardSize) (show i < s.shardSize by
      have := List.mem_range.mp hi
      rw [shardSize]
      omega)).1
    have hmem : f.pos / s.shardSize * s.shardSize + i ∈ Threshold.members (· / s.shardSize)
        (Insert.insert f.pos (Threshold.window (· / s.shardSize) s.datashard (pre.map Feed.pos)))
        (f.pos / s.shardSize) ↔ f.pos / s.shardSize * s.shardSize + i ∈ (pre ++ [f]).map Feed.pos := by
      rw [Threshold.members_insert (· / s.shardSize), Threshold.members_window hlt, Finset.mem_insert,
        List.mem_toFinset, Threshold.mem_fed, happend, List.mem_append, List.mem_singleton, or_comm]
      exact or_congr_left (and_iff_left hdiv)
    exact decide_eq_decide.mpr (not_congr hmem)
  · have hle := length_fedOf_le hs h
    have hsucc : (s.fedOf (f.pos / s.shardSize) (pre ++ [f])).length
        = (s.fedOf (f.pos / s.shardSize) pre).length + 1 := by
      rw [fedOf, happend]
      exact (congrArg List.length (Threshold.fed_append_same (· / s.shardSize) _ f.pos)).trans
        List.length_append
    have hsize : s.shardSize = s.datashard + s.parityshard := rfl
    rw [hfires h, Nat.mod_eq_sub_mod (by omega), Nat.mod_eq_of_lt (by omega)]
    omega

end Sending

/-! ## Every call -/

namespace FecDecoder

variable {s : Sending} {dec : FecDecoder}

theorem decodeAll_cons {e : FecElement} {rest : List FecElement} {out : List Bytes}
    {dec' : FecDecoder} (h : dec.decode e.seqid e.flag e.data e.at' = .ok (out, dec')) :
    dec.decodeAll (e :: rest)
      = dec'.decodeAll rest >>= fun res => .ok (out :: res.1, res.2) := by
  rw [decodeAll, h, ok_bind]

/-- A run goes on owing what is owed, when its window is the one of the feeds `done`. -/
theorem Tracks.run (hs : s.Valid) {feeds held : List Feed} (h : dec.Tracks s held)
    (done : List Feed)
    (hwindow : positions held
      = Threshold.window (· / s.shardSize) s.datashard (done.map Feed.pos))
    (hheld : ∀ e ∈ held, e ∈ done) (hquiet : dec.Quiet (feeds.map s.element))
    (hnear : (done ++ feeds).Pairwise fun f f' =>
      f'.now - f.now ≤ EXPIRY → Near s.shardSize f.pos f'.pos) :
    ∃ outs dec', dec.decodeAll (feeds.map s.element) = .ok (outs, dec')
      ∧ ∀ pre f post, feeds = pre ++ f :: post →
        ∃ out, outs[pre.length]? = some out ∧ s.Owed (done ++ pre) f out := by
  induction feeds generalizing dec done held with
  | nil => exact ⟨[], dec, rfl, fun pre f post heq => by simp at heq⟩
  | cons f feeds ih =>
    obtain ⟨hroom, hfresh, hrest⟩ := hquiet
    rw [h.rx, List.length_map] at hroom
    have hfresh' : ∀ e ∈ held, f.now - e.now ≤ EXPIRY := by
      intro e he
      exact hfresh (s.element e) (h.rx ▸ List.mem_map_of_mem he)
    have hapart : ∀ e ∈ held, Near s.shardSize e.pos f.pos := by
      intro e he
      exact (List.pairwise_append.mp hnear).2.2 e (hheld e he) f List.mem_cons_self (hfresh' e he)
    obtain ⟨held', htracks, hstep, hsub, hdecode⟩ := h.decode hs f hapart hroom hfresh'
    have howes := Sending.owed_of_step hs done f
    rw [← hwindow] at howes
    obtain ⟨out, hdecode, howed⟩ : ∃ out, dec.decode (seqAt s.shardSize f.pos) (s.flagAt f.pos)
        (s.payloadAt f.pos) f.now = .ok (out, dec.withRx (held'.map s.element))
        ∧ s.Owed done f out := ⟨_, hdecode, howes⟩
    have hwindow' : positions held'
        = Threshold.window (· / s.shardSize) s.datashard ((done ++ [f]).map Feed.pos) := by
      rw [hstep, hwindow, List.map_append]
      exact (Threshold.window_append _ _).symm
    obtain ⟨outs, dec', hall, howes⟩ := ih htracks (done ++ [f]) hwindow'
      (fun e he => by
        rcases hsub e he with rfl | he
        · exact List.mem_append_right _ List.mem_cons_self
        · exact List.mem_append_left _ (hheld e he))
      (hrest _ _ hdecode) (by simpa using hnear)
    refine ⟨out :: outs, dec', ?_, fun pre f' post heq => ?_⟩
    · rw [List.map_cons, decodeAll_cons hdecode, hall]
      rfl
    · cases pre with
      | nil =>
        obtain ⟨rfl, -⟩ := List.cons.inj heq
        exact ⟨out, rfl, (List.append_nil done).symm ▸ howed⟩
      | cons f₀ pre =>
        obtain ⟨rfl, htail⟩ := List.cons.inj heq
        obtain ⟨out', hout, howed'⟩ := howes pre f' post htail
        refine ⟨out', hout, ?_⟩
        rw [List.append_assoc] at howed'
        exact howed'

end FecDecoder

section

variable {rs : NewCodec} (hrs : rs.Lawful) {d p : UInt32} {enc : FecEncoder} {blocks : Nat → Bytes}

include hrs

theorem valid_sending (henc : FecEncoder.new rs d p = some enc)
    (hblocks : ∀ n, 1 ≤ (blocks n).length ∧ (blocks n).length ≤ 65533) :
    (enc.sending blocks).Valid ∧ enc.Sends (enc.sending blocks) 0 0 := by
  obtain ⟨hat, hd, hp, hcache, hmax, hcodec⟩ := FecEncoder.at_new hrs.bounded henc
  obtain ⟨hdpos, hppos, hle, hlawful⟩ := hrs _ _ _ hcodec
  rw [← hd] at hdpos hle hlawful
  rw [← hp] at hppos hle hlawful
  refine ⟨⟨hdpos, hppos, hle, hlawful, hblocks⟩, ⟨rfl, rfl, rfl, ?_, hcache, ?_⟩⟩
  · rw [Nat.zero_mul]
    exact hat
  · rw [hmax]
    rfl

theorem elements_eq (henc : FecEncoder.new rs d p = some enc)
    (hblocks : ∀ n, 1 ≤ (blocks n).length ∧ (blocks n).length ≤ 65533) (feeds : List Feed) :
    enc.elements blocks feeds = feeds.map (enc.sending blocks).element := by
  obtain ⟨hs, hsends⟩ := valid_sending hrs henc hblocks
  refine List.map_congr_left fun f _ => ?_
  have hemitted : enc.emitted blocks f.pos = (enc.sending blocks).packetAt f.pos :=
    FecEncoder.emitted_eq hs hsends f.pos
  rw [hemitted]
  exact Sending.received_packetAt _ _ _

/-- Decoder and encoder agree on every run in which shards that the decoder may hold together
are less than half the circle of numbers apart. -/
theorem fec_agreement (henc : FecEncoder.new rs d p = some enc) {dec : FecDecoder}
    (hdec : FecDecoder.new rs d p = some dec)
    (hblocks : ∀ n, 1 ≤ (blocks n).length ∧ (blocks n).length ≤ 65533) {feeds : List Feed}
    (hquiet : dec.Quiet (enc.elements blocks feeds))
    (hnear : feeds.Pairwise fun f f' =>
      f'.now - f.now ≤ FecDecoder.EXPIRY → Near (d.toNat + p.toNat) f.pos f'.pos) :
    Agrees enc dec blocks feeds := by
  obtain ⟨-, hd, hp, -, -, hcodec⟩ := FecEncoder.at_new hrs.bounded henc
  obtain ⟨hs, -⟩ := valid_sending hrs henc hblocks
  have helements := elements_eq hrs henc hblocks feeds
  have hsize : (enc.sending blocks).shardSize = d.toNat + p.toNat := by
    rw [← hd, ← hp]
    rfl
  have htracks : dec.Tracks (enc.sending blocks) [] := by
    unfold FecDecoder.new at hdec
    rw [hcodec] at hdec
    split at hdec
    · cases hdec
    · cases hdec
      exact ⟨hd.symm, hp.symm, hsize.symm, rfl, rfl, .nil⟩
  obtain ⟨outs, dec', hall, howes⟩ := htracks.run hs [] rfl (by simp)
    (helements ▸ hquiet) (hsize ▸ hnear)
  exact ⟨outs, dec', helements ▸ hall, howes⟩

end

/-! ## Two data and one parity shard -/

/-- Twice a byte in the field of 256 elements that the crate works in. -/
def double (x : UInt8) : UInt8 := if x < 0x80 then x <<< 1 else (x <<< 1) ^^^ 0x1D

def half (x : UInt8) : UInt8 := if x &&& 1 = 0 then x >>> 1 else ((x ^^^ 0x1D) >>> 1) ||| 0x80

/-- The product with `0xF4`, the inverse of 3. -/
def third (x : UInt8) : UInt8 :=
  double^[7] x ^^^ double^[6] x ^^^ double^[5] x ^^^ double^[4] x ^^^ double^[2] x

def parityByte (a b : UInt8) : UInt8 := a ^^^ double a ^^^ double b

theorem parity_left (a b : UInt8) : third (parityByte a b ^^^ double b) = a := by
  have htriple : ∀ n : Fin 256,
      third (UInt8.ofNat n ^^^ double (UInt8.ofNat n)) = UInt8.ofNat n := by decide +kernel
  have ha := htriple ⟨a.toNat, a.toNat_lt⟩
  rw [parityByte, UInt8.xor_assoc, UInt8.xor_self, UInt8.xor_zero]
  rwa [UInt8.ofNat_toNat] at ha

theorem parity_right (a b : UInt8) : half (parityByte a b ^^^ (a ^^^ double a)) = b := by
  have htwice : ∀ n : Fin 256, half (double (UInt8.ofNat n)) = UInt8.ofNat n := by decide +kernel
  have hb := htwice ⟨b.toNat, b.toNat_lt⟩
  rw [parityByte, UInt8.xor_comm, ← UInt8.xor_assoc, UInt8.xor_self, UInt8.zero_xor]
  rwa [UInt8.ofNat_toNat] at hb

/-- The crate's codec for two data and one parity shard. -/
def fieldCodec : ReedSolomon where
  encode
    | [a, b, c] =>
      if a.length = b.length ∧ b.length = c.length ∧ a ≠ [] then
        some [a, b, List.zipWith parityByte a b]
      else none
    | _ => none
  reconstructData
    | [some a, some b, c] => some [some a, some b, c]
    | [some a, none, some c] =>
      some [some a, some (List.zipWith (fun c a => half (c ^^^ (a ^^^ double a))) c a), some c]
    | [none, some b, some c] =>
      some [some (List.zipWith (fun c b => third (c ^^^ double b)) c b), some b, some c]
    | _ => none
  lengths_encode := by
    intro shards out h
    split at h
    · split at h
      · rename_i heq
        cases h
        simp [heq.1, heq.2.1]
      · cases h
    · cases h
  length_reconstructData := by
    intro shards out h
    split at h <;> cases h <;> rfl

theorem zipWith_parity_left (a b : Bytes) (h : a.length = b.length) :
    List.zipWith (fun c b => third (c ^^^ double b)) (List.zipWith parityByte a b) b = a := by
  induction a generalizing b with
  | nil => rfl
  | cons x a ih =>
    cases b with
    | nil => cases h
    | cons y b =>
      rw [List.zipWith_cons_cons, List.zipWith_cons_cons, parity_left, ih b (Nat.succ.inj h)]

theorem zipWith_parity_right (a b : Bytes) (h : a.length = b.length) :
    List.zipWith (fun c a => half (c ^^^ (a ^^^ double a))) (List.zipWith parityByte a b) a = b := by
  induction a generalizing b with
  | nil => exact (List.length_eq_zero_iff.mp h.symm).symm
  | cons x a ih =>
    cases b with
    | nil => cases h
    | cons y b =>
      rw [List.zipWith_cons_cons, List.zipWith_cons_cons, parity_right, ih b (Nat.succ.inj h)]

theorem encode_fieldCodec {shards out : List Bytes} (h : fieldCodec.encode shards = some out) :
    ∃ a b c, shards = [a, b, c] ∧ a.length = b.length ∧ out = [a, b, List.zipWith parityByte a b] := by
  unfold fieldCodec at h
  simp only at h
  split at h
  · split at h
    · rename_i heq
      cases h
      exact ⟨_, _, _, rfl, heq.1, rfl⟩
    · cases h
  · cases h

theorem fieldCodec_lawful : fieldCodec.Lawful 2 1 where
  encodes := by
    intro shards len hcount hlen hshards
    obtain ⟨a, b, c, rfl⟩ := List.length_eq_three.mp hcount
    have ha := hshards a (by simp)
    have hb := hshards b (by simp)
    have hc := hshards c (by simp)
    have hne : a ≠ [] := List.ne_nil_of_length_pos (ha ▸ hlen)
    exact ⟨_, if_pos ⟨ha.trans hb.symm, hb.trans hc.symm, hne⟩, rfl⟩
  restores := by
    intro shards out held len _ _ _ hencode hcount hagree henough
    obtain ⟨a, b, c, -, hab, rfl⟩ := encode_fieldCodec hencode
    obtain ⟨x, y, z, rfl⟩ := List.length_eq_three.mp hcount
    have hx (v : Bytes) (hv : x = some v) : v = a := by
      have := hagree 0 v (by rw [hv]; rfl)
      exact (Option.some.inj this).symm
    have hy (v : Bytes) (hv : y = some v) : v = b := by
      have := hagree 1 v (by rw [hv]; rfl)
      exact (Option.some.inj this).symm
    have hz (v : Bytes) (hv : z = some v) : v = List.zipWith parityByte a b := by
      have := hagree 2 v (by rw [hv]; rfl)
      exact (Option.some.inj this).symm
    have hsome : ∃ z', fieldCodec.reconstructData [x, y, z] = some [some a, some b, z'] := by
      rcases x with _ | x <;> rcases y with _ | y <;> rcases z with _ | z
      case some.some.none =>
        rw [hx x rfl, hy y rfl]
        exact ⟨_, rfl⟩
      case some.some.some =>
        rw [hx x rfl, hy y rfl]
        exact ⟨_, rfl⟩
      case some.none.some =>
        rw [hx x rfl, hz z rfl]
        refine ⟨some (List.zipWith parityByte a b), ?_⟩
        show some [some a, some _, some _] = _
        rw [zipWith_parity_right a b hab]
      case none.some.some =>
        rw [hy y rfl, hz z rfl]
        refine ⟨some (List.zipWith parityByte a b), ?_⟩
        show some [some _, some b, some _] = _
        rw [zipWith_parity_left a b hab]
      all_goals exact absurd henough (by simp)
    obtain ⟨z', hz'⟩ := hsome
    refine ⟨_, hz', fun i hi => ?_⟩
    match i, hi with
    | 0, _ => rfl
    | 1, _ => rfl

def newFieldCodec : NewCodec
  | 2, 1 => some fieldCodec
  | _, _ => none

theorem newFieldCodec_lawful : newFieldCodec.Lawful := by
  intro d p codec h
  unfold newFieldCodec at h
  split at h
  · cases h
    exact ⟨by decide, by decide, by decide, fieldCodec_lawful⟩
  · cases h

def fieldEncoder : FecEncoder :=
  { next := 0, paws := 0xFFFFFFFF, datashard := 2, parityshard := 1, codec := fieldCodec,
    cache := [], maxSize := 0 }

def fieldDecoder : FecDecoder :=
  { datashard := 2, parityshard := 1, shardSize := 3, rxlimit := 9, rx := [], codec := fieldCodec }

theorem fieldDecoder_valid (rx : List FecElement) : (fieldDecoder.withRx rx).Valid := by
  have h : fieldDecoder.Valid := ⟨by decide, by decide, rfl, by decide⟩
  exact h.withRx rx

/-- One shard alone stays in the window. -/
theorem decode_fieldDecoder (seqid : UInt32) (h : seqid.toNat < lastCell 3) (flag : UInt16)
    (data : Bytes) (now : Nat) : fieldDecoder.decode seqid flag data now
      = .ok ([], fieldDecoder.withRx [⟨seqid, flag, data, now⟩]) := by
  rw [FecDecoder.decode_of_slot (i := 0) rfl (Nat.zero_le _)]
  show ((fieldDecoder.withRx [⟨seqid, flag, data, now⟩]).recover seqid 0 >>= _) = _
  rw [FecDecoder.recover_eq (fieldDecoder_valid _) h, if_neg, ok_bind, FecDecoder.trim_keeps, ok_bind]
  · exact Nat.le_of_ble_eq_true rfl
  · intro e he
    rw [List.mem_singleton.mp he]
    exact (Nat.sub_self now).trans_le (Nat.zero_le _)
  · rintro ⟨-, hwide⟩
    have hend : (fieldDecoder.withRx [⟨seqid, flag, data, now⟩]).searchEnd seqid 0 = 0 :=
      Nat.min_eq_right (Nat.zero_le _)
    have htwo : (fieldDecoder.withRx [⟨seqid, flag, data, now⟩]).datashard = 2 := rfl
    rw [hend, Nat.zero_sub, htwo] at hwide
    exact absurd hwide (by decide)

/-- The second data shard of a group that was there first, and the first one. -/
theorem decode_fieldDecoder_second (x y : Bytes) :
    (fieldDecoder.withRx [⟨1, TYPE_DATA, x, 0⟩]).decode 0 TYPE_DATA y 0 = .ok ([], fieldDecoder) := by
  rw [FecDecoder.decode_of_slot (i := 0) rfl (Nat.zero_le _)]
  simp [FecDecoder.recover, fieldDecoder, rem32, sub32, add32, FecDecoder.withRx, FecDecoder.gather,
    index, asI32, Gathered.add, Gathered.new, setAt, FecDecoder.finish, FecDecoder.freeRange, drain,
    FecDecoder.trim, FecDecoder.boundWindow, FecDecoder.expire, FecDecoder.expired]

/-- Each block is its own number. -/
def numbered (n : Nat) : Bytes := [UInt8.ofNat n]

theorem length_numbered (n : Nat) : 1 ≤ (numbered n).length ∧ (numbered n).length ≤ 65533 :=
  ⟨Nat.le_refl 1, Nat.le_of_ble_eq_true rfl⟩

theorem new_fieldEncoder : FecEncoder.new newFieldCodec 2 1 = some fieldEncoder := rfl

theorem new_fieldDecoder : FecDecoder.new newFieldCodec 2 1 = some fieldDecoder := rfl

/-- A lost data shard, given back by the parity shard. -/
theorem fec_agreement_lost :
    Agrees fieldEncoder fieldDecoder numbered [⟨0, 0⟩, ⟨2, 10⟩] := by
  have helements := elements_eq newFieldCodec_lawful new_fieldEncoder length_numbered
    [⟨0, 0⟩, ⟨2, 10⟩]
  refine fec_agreement newFieldCodec_lawful new_fieldEncoder new_fieldDecoder length_numbered ?_
    (List.pairwise_pair.mpr fun _ => ⟨by decide, by decide⟩)
  rw [helements]
  refine ⟨by decide, by simp [fieldDecoder], fun out dec' hdecode => ?_⟩
  have hfirst := decode_fieldDecoder 0 (by decide) TYPE_DATA
    ((fieldEncoder.sending numbered).payloadAt 0) 0
  cases hfirst.symm.trans hdecode
  exact ⟨Nat.le_of_ble_eq_true rfl, by simp [Sending.element, FecDecoder.EXPIRY], fun _ _ _ => trivial⟩

/-- A second data shard, and then the other two shards of a group a lap later. -/
def lap : List Feed := [⟨1, 0⟩, ⟨lastCell 3, 0⟩, ⟨lastCell 3 + 2, 0⟩]

/-- A shard that is a lap older takes the place of a data shard, and the group that the
parity shard completes is not there any more. -/
theorem fec_agreement_lap :
    FecEncoder.new newFieldCodec 2 1 = some fieldEncoder
      ∧ FecDecoder.new newFieldCodec 2 1 = some fieldDecoder ∧ newFieldCodec.Lawful
      ∧ (∀ n, 1 ≤ (numbered n).length ∧ (numbered n).length ≤ 65533)
      ∧ fieldDecoder.Quiet (fieldEncoder.elements numbered lap)
      ∧ ¬ Agrees fieldEncoder fieldDecoder numbered lap := by
  have helements := elements_eq newFieldCodec_lawful new_fieldEncoder length_numbered lap
  have hlap : lap.map (fieldEncoder.sending numbered).element
      = [⟨1, TYPE_DATA, (fieldEncoder.sending numbered).payloadAt 1, 0⟩,
        ⟨0, TYPE_DATA, (fieldEncoder.sending numbered).payloadAt (lastCell 3), 0⟩,
        ⟨2, TYPE_PARITY, (fieldEncoder.sending numbered).payloadAt (lastCell 3 + 2), 0⟩] := rfl
  have hfirst := decode_fieldDecoder 1 (by decide) TYPE_DATA
    ((fieldEncoder.sending numbered).payloadAt 1) 0
  have hsecond := decode_fieldDecoder_second ((fieldEncoder.sending numbered).payloadAt 1)
    ((fieldEncoder.sending numbered).payloadAt (lastCell 3))
  have hthird := decode_fieldDecoder 2 (by decide) TYPE_PARITY
    ((fieldEncoder.sending numbered).payloadAt (lastCell 3 + 2)) 0
  rw [hlap] at helements
  refine ⟨new_fieldEncoder, new_fieldDecoder, newFieldCodec_lawful, length_numbered, ?_, ?_⟩
  · rw [helements]
    refine ⟨by decide, by simp [fieldDecoder], fun out dec' hdecode => ?_⟩
    cases hfirst.symm.trans hdecode
    refine ⟨Nat.le_of_ble_eq_true rfl, by simp [FecDecoder.EXPIRY], fun out dec' hdecode => ?_⟩
    cases hsecond.symm.trans hdecode
    exact ⟨by decide, by simp [fieldDecoder], fun _ _ _ => trivial⟩
  · rintro ⟨outs, dec', hall, howes⟩
    rw [helements, FecDecoder.decodeAll_cons hfirst, FecDecoder.decodeAll_cons hsecond,
      FecDecoder.decodeAll_cons hthird] at hall
    cases hall
    obtain ⟨out, hout, howed⟩ := howes [⟨1, 0⟩, ⟨lastCell 3, 0⟩] ⟨lastCell 3 + 2, 0⟩ [] rfl
    cases hout
    have hcomplete := howed.complete (by decide) (by decide)
    exact absurd (congrArg List.length hcomplete) (by simp; decide)

end Kcp
end RtProxy
