import RtProxy.Kcp.FecEncode

/-!
What a datagram of the framer comes back as.

The framer lays the size field, the FEC header, the checksum and the cipher around a
block; both ways to undo it give the block of a data packet and nothing for a parity
packet.
-/

namespace RtProxy
namespace Kcp

open Checked

/-! ## Reading a shard back -/

/-- A shard as it stands behind the nonce and the checksum. -/
def shardBody (seqid : UInt32) (flag : UInt16) (payload : Bytes) : Bytes :=
  Bytes.le 4 seqid.toNat ++ (Bytes.le 2 flag.toNat ++ payload)

theorem drop_shardPacket (seqid : UInt32) (flag : UInt16) (payload : Bytes) :
    (shardPacket seqid flag payload).drop CRYPT_HEADER_SIZE = shardBody seqid flag payload :=
  List.drop_left' List.length_replicate

section

variable (seqid : UInt32) {flag : UInt16} (payload : Bytes)

theorem length_shardBody (flag : UInt16) :
    (shardBody seqid flag payload).length = FEC_HEADER_SIZE + payload.length := by
  rw [shardBody, List.length_append, List.length_append, Bytes.length_le, Bytes.length_le,
    FEC_HEADER_SIZE]
  omega

theorem seqid_shardBody (flag : UInt16) :
    UInt32.ofNat (Bytes.leNat ((shardBody seqid flag payload).take 4)) = seqid := by
  have hlt : seqid.toNat < 256 ^ 4 := seqid.toNat_lt
  rw [shardBody, List.take_left' (Bytes.length_le _ _), Bytes.leNat_le hlt, UInt32.ofNat_toNat]

theorem payload_shardBody (flag : UInt16) :
    (shardBody seqid flag payload).drop FEC_HEADER_SIZE = payload := by
  rw [shardBody, ← List.append_assoc, List.drop_left']
  rw [List.length_append, Bytes.length_le, Bytes.length_le]
  rfl

theorem fecFlag_shardBody (hflag : flag = TYPE_DATA ∨ flag = TYPE_PARITY) :
    fecFlag (shardBody seqid flag payload) = some flag := by
  have hlt : flag.toNat < 256 ^ 2 := flag.toNat_lt
  have hlen : ¬ (shardBody seqid flag payload).length < FEC_HEADER_SIZE := by
    rw [length_shardBody]
    omega
  have hread : UInt16.ofNat (Bytes.leNat (((shardBody seqid flag payload).drop 4).take 2)) = flag := by
    rw [shardBody, List.drop_left' (Bytes.length_le _ _), List.take_left' (Bytes.length_le _ _),
      Bytes.leNat_le hlt, UInt16.ofNat_toNat]
  rw [fecFlag, if_neg hlen]
  simp only [hread, if_pos hflag]

end

/-- The size field counts itself. -/
theorem fecPayloadSegments_dataPayload {segments : Bytes} (h : 2 + segments.length < 2 ^ 16)
    (padding : Bytes) : fecPayloadSegments (dataPayload segments ++ padding) = some segments := by
  have hlen : (Bytes.le 2 (2 + segments.length)).length = 2 := Bytes.length_le _ _
  have hsize : Bytes.leNat ((dataPayload segments ++ padding).take 2) = 2 + segments.length := by
    rw [dataPayload, List.append_assoc, List.take_left' hlen]
    exact Bytes.leNat_le h
  have hwhole : (dataPayload segments).length = 2 + segments.length := by
    rw [dataPayload, List.length_append, hlen]
  have hshort : ¬ (dataPayload segments ++ padding).length < 2 := by
    rw [List.length_append, hwhole]
    omega
  have hfits : ¬ (2 + segments.length < 2
      ∨ 2 + segments.length > (dataPayload segments ++ padding).length) := by
    rw [List.length_append, hwhole]
    omega
  rw [fecPayloadSegments, if_neg hshort]
  simp only [hsize]
  rw [if_neg hfits, List.take_left' hwhole, dataPayload, List.drop_left' hlen]

/-! ## A new decoder -/

namespace FecDecoder

variable {dec : FecDecoder}

/-- The bounds of the group of a shard are around its number. -/
theorem within_group (hv : dec.Valid) {seqid : UInt32}
    (hlt : seqid.toNat < lastCell dec.shardSize) :
    ¬ 0 < asI32 (seqid - dec.groupEnd seqid) ∧ 0 ≤ asI32 (seqid - dec.groupBegin seqid) := by
  rw [groupEnd, groupBegin]
  have hgroup := hv.toNat_group
  have hpos := hv.pos
  have hle := hv.le
  have hbegin := toNat_shardBegin seqid (UInt32.ofNat dec.shardSize)
  have hfits := (cell_lt_iff hpos).mpr hlt
  rw [hgroup] at hbegin
  have hafter : (seqid - seqid % UInt32.ofNat dec.shardSize + UInt32.ofNat dec.shardSize).toNat
      = seqid.toNat / dec.shardSize * dec.shardSize + dec.shardSize := by
    rw [UInt32.toNat_add, hbegin, hgroup]
    exact Nat.mod_eq_of_lt hfits
  have hend : (seqid - seqid % UInt32.ofNat dec.shardSize + UInt32.ofNat dec.shardSize - 1).toNat
      = seqid.toNat / dec.shardSize * dec.shardSize + dec.shardSize - 1 := by
    rw [UInt32.toNat_sub_of_le, hafter]
    · rfl
    · rw [UInt32.le_iff_toNat_le, hafter]
      show 1 ≤ _
      omega
  have hdiv := Nat.div_add_mod seqid.toNat dec.shardSize
  have hmod := Nat.mod_lt seqid.toNat hpos
  rw [Nat.mul_comm] at hdiv
  refine ⟨not_asI32_sub_pos ?_ ?_, asI32_sub_nonneg ?_ ?_⟩
  all_goals simp only [hend, hbegin]
  all_goals omega

/-- One shard in an empty window recovers nothing, unless it is parity and as good as the
data. -/
theorem decode_fresh (hv : dec.Valid) (hnil : dec.rx = []) {seqid : UInt32}
    (hlt : seqid.toNat < lastCell dec.shardSize) {flag : UInt16}
    (hfew : 2 ≤ dec.datashard ∨ flag = TYPE_DATA) (data : Bytes) (now : Nat) :
    ∃ dec', dec.decode seqid flag data now = .ok ([], dec') := by
  let e : FecElement := ⟨seqid, flag, data, now⟩
  have hv' := hv.withRx [e]
  have hrecover : ∃ dec', (dec.withRx [e]).recover seqid 0 = .ok ([], dec') := by
    rw [recover_eq hv' hlt]
    have hbegin : (dec.withRx [e]).searchBegin seqid 0 = 0 := Nat.zero_sub _
    have hend : (dec.withRx [e]).searchEnd seqid 0 = 0 := Nat.min_eq_right (Nat.zero_le _) |>.trans rfl
    rw [hbegin, hend]
    split
    · rename_i hmany
      have hone : dec.datashard = 1 := Nat.le_antisymm hmany.2 hv.data_pos
      have hflag : flag = TYPE_DATA := hfew.resolve_left (by omega)
      obtain ⟨hafter, hbefore⟩ := within_group hv' hlt
      have hgroup := hv.toNat_group
      have hidx : (seqid % UInt32.ofNat dec.shardSize).toNat < dec.shardSize := by
        rw [UInt32.toNat_mod, hgroup]
        exact Nat.mod_lt _ hv.pos
      obtain ⟨hadd, -⟩ := add_ok (Gathered.Sized.new dec.shardSize) hidx 0 e
      have hgather : gather [e] (UInt32.ofNat dec.shardSize) ((dec.withRx [e]).groupBegin seqid)
          ((dec.withRx [e]).groupEnd seqid) 1 0 (Gathered.new dec.shardSize)
            = .ok ((Gathered.new dec.shardSize).adding 0 (seqid % UInt32.ofNat dec.shardSize).toNat e) := by
        rw [gather, index_ok (by simp), ok_bind]
        show (if 0 < asI32 (seqid - _) then _ else if 0 ≤ asI32 (seqid - _) then _ else _) = _
        rw [if_neg hafter, if_pos hbefore]
        show (rem32 seqid _ >>= _) = _
        rw [rem32_ok hv.group_ne_zero, ok_bind]
        show (Gathered.add 0 _ e _ >>= _) = _
        rw [hadd, ok_bind, gather]
      have hfinish : ∃ dec', (dec.withRx [e]).finish ((Gathered.new dec.shardSize).adding 0
          (seqid % UInt32.ofNat dec.shardSize).toNat e) = .ok ([], dec') := by
        rw [finish, if_pos, freeRange_ok, ok_bind]
        · exact ⟨_, rfl⟩
        · simp [Gathered.adding, Gathered.new, e, hflag, withRx, hone]
      obtain ⟨dec', hdec'⟩ := hfinish
      refine ⟨dec', ?_⟩
      show (gather [e] (UInt32.ofNat dec.shardSize) _ _ 1 0 (Gathered.new dec.shardSize) >>= _) = _
      rw [hgather, ok_bind, hdec']
    · exact ⟨_, rfl⟩
  obtain ⟨dec', hdec'⟩ := hrecover
  obtain ⟨rx, -, htrim⟩ := trim_ok now dec'
  refine ⟨dec'.withRx rx, ?_⟩
  have hslot : slot dec.rx seqid dec.rx.length = .ok (some 0) := by
    rw [hnil]
    rfl
  rw [decode_of_slot hslot (Nat.zero_le _), hnil]
  show ((dec.withRx [e]).recover seqid 0 >>= _) = _
  rw [hdec', ok_bind, htrim, ok_bind]

end FecDecoder

/-! ## Both ways back -/

theorem usableSegments_dataPayload {segments : Bytes} (hlen : IKCP_OVERHEAD ≤ segments.length)
    (h : 2 + segments.length < 2 ^ 16) : usableSegments (dataPayload segments) = some segments := by
  have hsegs := fecPayloadSegments_dataPayload h []
  rw [List.append_nil] at hsegs
  rw [usableSegments, hsegs]
  exact if_pos hlen

/-- What is stripped of the FEC framing is the end of the packet. -/
theorem fecStrip_suffix {data segments : Bytes} (h : fecStrip data = some segments) :
    segments <:+ data := by
  unfold fecStrip at h
  split at h
  · split at h
    · cases h
      exact List.drop_suffix _ _
    · cases h
  · cases h
    exact List.suffix_refl _

theorem fecStrip_data (seqid : UInt32) (segments : Bytes) :
    fecStrip (shardBody seqid TYPE_DATA (dataPayload segments)) = some segments := by
  have hlen : (shardBody seqid TYPE_DATA (dataPayload segments)).length ≥ FEC_HEADER_SIZE_PLUS2 := by
    rw [length_shardBody, dataPayload, List.length_append, Bytes.length_le, FEC_HEADER_SIZE_PLUS2]
    omega
  have hdrop : (shardBody seqid TYPE_DATA (dataPayload segments)).drop FEC_HEADER_SIZE_PLUS2
      = segments := by
    rw [FEC_HEADER_SIZE_PLUS2, ← List.drop_drop, payload_shardBody, dataPayload,
      List.drop_left' (Bytes.length_le _ _)]
  rw [fecStrip, fecFlag_shardBody _ _ (.inl rfl)]
  simp only [hdrop]
  exact if_pos ⟨trivial, hlen⟩

theorem fecStrip_parity (seqid : UInt32) (payload : Bytes) :
    fecStrip (shardBody seqid TYPE_PARITY payload) = none := by
  rw [fecStrip, fecFlag_shardBody _ _ (.inr rfl)]
  exact if_neg fun h => absurd h.1 (by decide)

section

variable (crypt : Crypt) {nonce : Bytes}

/-- The range that `packet_unframe` returns holds what is stripped. -/
theorem packetUnframe_sealWith (hnonce : nonce.length = NONCE_SIZE) {pkt segments : Bytes}
    (hstrip : fecStrip (pkt.drop CRYPT_HEADER_SIZE) = some segments)
    (hlen : IKCP_OVERHEAD ≤ segments.length) : ∃ buf first last,
      packetUnframe crypt (PacketFramer.sealWith crypt nonce pkt) = some (buf, first, last)
        ∧ (buf.take last).drop first = segments := by
  obtain ⟨buf, hopen, hbody⟩ := openPacket_sealWith crypt hnonce pkt
  have hsuffix : segments <:+ buf :=
    (fecStrip_suffix hstrip).trans (hbody ▸ List.drop_suffix CRYPT_HEADER_SIZE buf)
  refine ⟨buf, buf.length - segments.length, buf.length, ?_, ?_⟩
  · rw [packetUnframe, hopen]
    simp only [hbody, hstrip]
    exact if_neg (Nat.not_lt.mpr hlen)
  · rw [List.take_length]
    exact (List.suffix_iff_eq_drop.mp hsuffix).symm

theorem packetUnframe_parity (hnonce : nonce.length = NONCE_SIZE) (seqid : UInt32)
    (payload : Bytes) : packetUnframe crypt
      (PacketFramer.sealWith crypt nonce (shardPacket seqid TYPE_PARITY payload)) = none := by
  obtain ⟨buf, hopen, hbody⟩ :=
    openPacket_sealWith crypt hnonce (shardPacket seqid TYPE_PARITY payload)
  rw [packetUnframe, hopen]
  simp only [hbody, drop_shardPacket, fecStrip_parity]

/-- A shard goes to the decoder, and its own segments come first. -/
theorem packetUnframeFec_shard (hnonce : nonce.length = NONCE_SIZE) {dec : FecDecoder}
    (hv : dec.Valid) (hnil : dec.rx = []) {seqid : UInt32}
    (hlt : seqid.toNat < lastCell dec.shardSize) {flag : UInt16}
    (hflag : flag = TYPE_DATA ∨ flag = TYPE_PARITY)
    (hfew : 2 ≤ dec.datashard ∨ flag = TYPE_DATA) (payload : Bytes) (now : Nat) :
    ∃ decoder, packetUnframeFec crypt
        (PacketFramer.sealWith crypt nonce (shardPacket seqid flag payload)) (some dec) now
      = .ok (if flag = TYPE_DATA then (usableSegments payload).toList else [], decoder) := by
  obtain ⟨buf, hopen, hbody⟩ := openPacket_sealWith crypt hnonce (shardPacket seqid flag payload)
  obtain ⟨dec', hdec'⟩ := FecDecoder.decode_fresh hv hnil hlt hfew payload now
  rw [drop_shardPacket] at hbody
  have hlen : ¬ (shardBody seqid flag payload).length < FEC_HEADER_SIZE := by
    rw [length_shardBody]
    omega
  refine ⟨some dec', ?_⟩
  rw [packetUnframeFec]
  simp only [hopen, hbody, fecFlag_shardBody seqid payload hflag, if_neg hlen,
    seqid_shardBody, payload_shardBody, hdec', ok_bind, List.filterMap_nil, List.append_nil]

/-- A packet without FEC passes through. -/
theorem packetUnframeFec_none {pkt segments : Bytes} {buf : Bytes} {first last : Nat}
    (h : packetUnframe crypt pkt = some (buf, first, last))
    (hsegs : (buf.take last).drop first = segments) (now : Nat) :
    packetUnframeFec crypt pkt none now = .ok ([segments], none) := by
  rw [packetUnframeFec, h]
  simp only [hsegs]

end

/-- A segment's command byte is not the flag of a shard. -/
theorem fecStrip_segments {segments : Bytes} {cmd : UInt8} (hcmd : segments[4]? = some cmd)
    (hlo : 81 ≤ cmd.toNat) (hhi : cmd.toNat ≤ 84) : fecStrip segments = some segments := by
  have hflag : fecFlag segments = none := by
    rw [fecFlag]
    split
    · rfl
    rename_i hlen
    have hlen' : 4 + 2 ≤ segments.length := Nat.not_lt.mp hlen
    have hread : (segments.drop 4).take 2 = [segments[4], segments[5]] := by
      rw [List.drop_eq_getElem_cons (by omega), List.drop_eq_getElem_cons (by omega)]
      rfl
    rw [List.getElem?_eq_getElem (by omega), Option.some.injEq] at hcmd
    have hfrg : segments[5].toNat < 256 := segments[5].toNat_lt
    have hnat : (UInt16.ofNat (Bytes.leNat ((segments.drop 4).take 2))).toNat
        = cmd.toNat + 256 * segments[5].toNat := by
      rw [hread, hcmd]
      simp only [Bytes.leNat]
      exact UInt16.toNat_ofNat_of_lt' (by show _ < 2 ^ 16; omega)
    refine if_neg ?_
    rintro (h | h)
    all_goals
      rw [h] at hnat
      simp only [TYPE_DATA, TYPE_PARITY, UInt16.reduceToNat] at hnat
      omega
  rw [fecStrip, hflag]

/-- Both ways undo the datagrams queued for a block: the first yields the block, and the
others, which are parity, yield nothing. -/
def Undone (rs : NewCodec) (crypt : Crypt) (d p : UInt32) (segments : Bytes) (pkt : Bytes)
    (parity : List Bytes) : Prop :=
  (∀ now, ∃ decoder, packetUnframeFec crypt pkt (FecDecoder.new rs d p) now
      = .ok ([segments], decoder))
    ∧ (∃ buf first last, packetUnframe crypt pkt = some (buf, first, last)
      ∧ (buf.take last).drop first = segments)
    ∧ ∀ q ∈ parity, packetUnframe crypt q = none
      ∧ (2 ≤ d.toNat → ∀ now, ∃ decoder, packetUnframeFec crypt q (FecDecoder.new rs d p) now
        = .ok ([], decoder))

/-! ## Every write of a session -/

theorem exists_of_forall₂ {α β : Type} {R : α → β → Prop} {xs : List α} {ys : List β}
    (h : List.Forall₂ R xs ys) {y : β} (hy : y ∈ ys) : ∃ x ∈ xs, R x y := by
  induction h with
  | nil => cases hy
  | cons hr _ ih =>
    rcases List.mem_cons.mp hy with rfl | hy
    · exact ⟨_, List.mem_cons_self, hr⟩
    · obtain ⟨x, hx, hr'⟩ := ih hy
      exact ⟨x, List.mem_cons_of_mem _ hx, hr'⟩

/-- The framer of a session with these settings. -/
structure Framed (rs : NewCodec) (crypt : Crypt) (d p : UInt32) (framer : PacketFramer) : Prop where
  crypt_eq : framer.crypt = crypt
  fec : (framer.fec = none ∧ FecEncoder.new rs d p = none)
    ∨ ∃ enc pos, framer.fec = some enc ∧ enc.At pos ∧ enc.datashard = d.toNat
      ∧ enc.parityshard = p.toNat ∧ (FecEncoder.new rs d p).isSome

theorem decoder_of_encoder (rs : NewCodec) (d p : UInt32) :
    (FecEncoder.new rs d p).isSome = (FecDecoder.new rs d p).isSome := by
  unfold FecEncoder.new FecDecoder.new
  split
  · rfl
  · split <;> rfl

namespace PacketFramer

@[simp] theorem crypt_enqueue (pkt : Bytes) (framer : PacketFramer) :
    (framer.enqueue pkt).crypt = framer.crypt := rfl

@[simp] theorem fec_enqueue (pkt : Bytes) (framer : PacketFramer) :
    (framer.enqueue pkt).fec = framer.fec := rfl

theorem foldl_enqueue_keeps (pkts : List Bytes) (framer : PacketFramer) :
    (pkts.foldl (fun framer pkt => framer.enqueue pkt) framer).crypt = framer.crypt
      ∧ (pkts.foldl (fun framer pkt => framer.enqueue pkt) framer).fec = framer.fec := by
  induction pkts generalizing framer with
  | nil => exact ⟨rfl, rfl⟩
  | cons pkt pkts ih => exact ih (framer.enqueue pkt)

end PacketFramer

namespace Framed

variable {rs : NewCodec} {crypt : Crypt} {d p : UInt32} {framer : PacketFramer}

theorem new (hrs : rs.Bounded) (crypt : Crypt) (d p : UInt32) (rng : Rng) :
    Framed rs crypt d p (PacketFramer.new rs crypt d p rng) := by
  refine ⟨rfl, ?_⟩
  cases h : FecEncoder.new rs d p with
  | none => exact .inl ⟨h, rfl⟩
  | some enc =>
    obtain ⟨hat, hd, hp, -⟩ := FecEncoder.at_new hrs h
    exact .inr ⟨enc, 0, h, hat, hd, hp, rfl⟩

theorem write (h : Framed rs crypt d p framer) (segments : Bytes) :
    Framed rs crypt d p (framer.write segments) := by
  rcases h.fec with ⟨hnone, hoff⟩ | ⟨enc, pos, hsome, hat, hd, hp, hon⟩
  · rw [PacketFramer.write_none hnone]
    exact ⟨h.crypt_eq, .inl ⟨hnone, hoff⟩⟩
  · obtain ⟨⟨pos', hat'⟩, ⟨hd', hp'⟩, -⟩ := hat.frame segments
    obtain ⟨hcrypt, hfec⟩ := PacketFramer.foldl_enqueue_keeps
      ((enc.frame segments).1 :: (enc.frame segments).2.1)
      { framer with fec := some (enc.frame segments).2.2 }
    rw [PacketFramer.write_some hsome]
    exact ⟨hcrypt.trans h.crypt_eq,
      .inr ⟨_, pos', hfec, hat', hd'.trans hd, hp'.trans hp, hon⟩⟩

theorem writeAll (h : Framed rs crypt d p framer) (blocks : List Bytes) :
    Framed rs crypt d p (framer.writeAll blocks) := by
  induction blocks generalizing framer with
  | nil => exact h
  | cons segments blocks ih => exact ih (h.write segments)

/-- What one write of such a framer queues is undone both ways. -/
theorem undone (hrs : rs.Bounded) (h : Framed rs crypt d p framer) {segments : Bytes}
    (hlen : IKCP_OVERHEAD ≤ segments.length) (hmtu : framer.headerLen + segments.length ≤ MTU_LIMIT)
    (hplain : FecEncoder.new rs d p = none →
      ∃ cmd, segments[4]? = some cmd ∧ 81 ≤ cmd.toNat ∧ cmd.toNat ≤ 84) :
    ∃ pkt parity, (framer.write segments).queue = framer.queue ++ pkt :: parity
      ∧ Undone rs crypt d p segments pkt parity := by
  rcases h.fec with ⟨hnone, hoff⟩ | ⟨enc, pos, hsome, hat, hd, hp, hon⟩
  · obtain ⟨cmd, hcmd, hlo, hhi⟩ := hplain hoff
    have hdec : FecDecoder.new rs d p = none := by
      have hsame := decoder_of_encoder rs d p
      rw [hoff] at hsame
      exact Option.not_isSome_iff_eq_none.mp (by simp [← hsame])
    have hstrip : fecStrip ((List.replicate CRYPT_HEADER_SIZE (0 : UInt8) ++ segments).drop
        CRYPT_HEADER_SIZE) = some segments := by
      rw [List.drop_left' List.length_replicate]
      exact fecStrip_segments hcmd hlo hhi
    have hnonce := framer.rng.length_fillBytes NONCE_SIZE
    obtain ⟨buf, first, last, hrange, hsegs⟩ :=
      packetUnframe_sealWith crypt hnonce hstrip hlen
    refine ⟨_, [], ?_, fun now => ⟨none, ?_⟩, ⟨buf, first, last, hrange, hsegs⟩, by simp⟩
    · rw [PacketFramer.write_none hnone, PacketFramer.enqueue, h.crypt_eq]
    · rw [hdec]
      exact packetUnframeFec_none crypt hrange hsegs now
  · have hsize : 2 + segments.length < 2 ^ 16 := by
      rw [MTU_LIMIT] at hmtu
      omega
    obtain ⟨dec, hdec⟩ : ∃ dec, FecDecoder.new rs d p = some dec := by
      rw [← Option.isSome_iff_exists, ← decoder_of_encoder]
      exact hon
    obtain ⟨hv, hnil, hshards, hdata⟩ := FecDecoder.valid_new hrs hdec
    rw [← hd, ← hp] at hshards
    have hlt (pos : Nat) : (seqAt (enc.datashard + enc.parityshard) pos).toNat
        < lastCell dec.shardSize := by
      rw [hshards]
      exact toNat_seqAt_lt hat.pos_shards hat.le pos
    obtain ⟨sealed, hqueue, hsealed⟩ := PacketFramer.foldl_enqueue
      ((enc.frame segments).1 :: (enc.frame segments).2.1)
      { framer with fec := some (enc.frame segments).2.2 }
    rw [← PacketFramer.write_some hsome] at hqueue
    cases hsealed with
    | @cons _ pkt _ parity hpkt hparity =>
      obtain ⟨nonce, hnonce, rfl⟩ := hpkt
      rw [h.crypt_eq, FecEncoder.frame_fst hat] at hqueue
      refine ⟨_, parity, hqueue, fun now => ?_, ?_, fun q hq => ?_⟩
      · obtain ⟨decoder, hdecoder⟩ := packetUnframeFec_shard crypt hnonce hv hnil (hlt pos)
          (.inl rfl) (.inr rfl) (dataPayload segments) now
        rw [hdec, hdecoder, usableSegments_dataPayload hlen hsize]
        exact ⟨decoder, rfl⟩
      · refine packetUnframe_sealWith crypt hnonce ?_ hlen
        rw [drop_shardPacket]
        exact fecStrip_data _ segments
      · obtain ⟨shard, hshard, nonce', hnonce', rfl⟩ := exists_of_forall₂ hparity hq
        obtain ⟨pos', payload, rfl⟩ := (hat.frame segments).2.2 shard hshard
        rw [h.crypt_eq]
        refine ⟨packetUnframe_parity crypt hnonce' _ payload, fun htwo now => ?_⟩
        obtain ⟨decoder, hdecoder⟩ := packetUnframeFec_shard crypt hnonce' hv hnil
          (hlt pos') (.inr rfl) (.inl (hdata ▸ htwo)) payload now
        rw [hdec, hdecoder]
        exact ⟨decoder, rfl⟩

end Framed

/-- Every datagram that a session's framer queues comes back as what it was made from. -/
theorem datagram_round_trip {rs : NewCodec} (hrs : rs.Bounded) (crypt : Crypt) (d p : UInt32)
    (rng : Rng) (blocks : List Bytes) {segments : Bytes} (hlen : IKCP_OVERHEAD ≤ segments.length)
    (hmtu : ((PacketFramer.new rs crypt d p rng).writeAll blocks).headerLen + segments.length
      ≤ MTU_LIMIT)
    (hplain : FecEncoder.new rs d p = none →
      ∃ cmd, segments[4]? = some cmd ∧ 81 ≤ cmd.toNat ∧ cmd.toNat ≤ 84) :
    ∃ pkt parity, (((PacketFramer.new rs crypt d p rng).writeAll blocks).write segments).queue
        = ((PacketFramer.new rs crypt d p rng).writeAll blocks).queue ++ pkt :: parity
      ∧ Undone rs crypt d p segments pkt parity :=
  ((Framed.new hrs crypt d p rng).writeAll blocks).undone hrs hlen hmtu hplain

/-- A push segment without data. -/
def pushSegment : Bytes := [1, 0, 0, 0, 81] ++ List.replicate 19 0

/-- One data and one parity shard, nothing written before. -/
theorem datagram_round_trip_push :
    ∃ pkt parity, ((PacketFramer.new newCopyCodec ⟨.none⟩ 1 1 ⟨fun _ => 0⟩).write pushSegment).queue
        = pkt :: parity
      ∧ Undone newCopyCodec ⟨.none⟩ 1 1 pushSegment pkt parity :=
  datagram_round_trip newCopyCodec_bounded ⟨.none⟩ 1 1 ⟨fun _ => 0⟩ [] (by decide) (by decide)
    (fun h => by cases h)

end Kcp
end RtProxy
