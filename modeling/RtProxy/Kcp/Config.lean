import RtProxy.Kcp.Datagram
import RtProxy.Mux.Frame

/-!
The settings of a KCP session and what is made of them (`KcpConfig` and `spawn_session`
in `kcp.rs`).

The code that is started from the settings has limits of its own: the `kcp` crate on its
MTU, the `reed_solomon_erasure` crate on the number of shards.  `honoured_iff` tells which
of the settings that `validate` accepts are within them.
-/

namespace RtProxy

/-- `mux_config_from_values` of `mux_transport.rs`; zero stands for the default. -/
def Mux.muxConfigFromValues (smuxVer : UInt32) (smuxBuf streamBuf keepaliveSecs : Nat) :
    Except IoError MuxConfig :=
  if smuxVer.toNat > 255 then
    .error ⟨.invalidInput, s!"smux: unsupported protocol version {smuxVer}"⟩
  else
    let config : MuxConfig := { MuxConfig.default with
      version := if smuxVer = 0 then VERSION_1 else smuxVer.toUInt8
      maxReceiveBuffer := if smuxBuf = 0 then MuxConfig.default.maxReceiveBuffer else smuxBuf
      maxStreamBuffer := if streamBuf = 0 then MuxConfig.default.maxStreamBuffer else streamBuf
      keepAliveInterval :=
        if keepaliveSecs = 0 then MuxConfig.default.keepAliveInterval
        else keepaliveSecs * 10 ^ 9 }
    match config.verify with
    | .error e => .error e
    | .ok () => .ok config

namespace Kcp

structure KcpConfig where
  key : String
  crypt : String
  mode : String
  mtu : UInt32
  sndwnd : UInt32
  rcvwnd : UInt32
  datashard : UInt32
  parityshard : UInt32
  acknodelay : Bool
  nodelay : UInt32
  interval : UInt32
  resend : UInt32
  nc : UInt32
  sockbuf : UInt32
  smuxbuf : UInt32
  streambuf : UInt32
  smuxver : UInt32
  keepalive : UInt32
  tcp : Bool
deriving Repr, DecidableEq

/-- A constructor of ciphers: the session key and the cipher of a name (`Crypt::new`). -/
abbrev NewCrypt := String → String → Except String Crypt

namespace KcpConfig

/-- `KcpConfig::default`. -/
def default : KcpConfig where
  key := "it's a secrect"
  crypt := "aes"
  mode := "fast"
  mtu := 1350
  sndwnd := 1024
  rcvwnd := 1024
  datashard := 10
  parityshard := 3
  acknodelay := false
  nodelay := 0
  interval := 50
  resend := 0
  nc := 0
  sockbuf := 4194304
  smuxbuf := 0
  streambuf := 0
  smuxver := 1
  keepalive := 10
  tcp := false

/-- The settings of a mode. -/
def withMode (nodelay interval : UInt32) (config : KcpConfig) : KcpConfig :=
  { config with nodelay := nodelay, interval := interval, resend := 2, nc := 1 }

def modePreset (config : KcpConfig) : KcpConfig :=
  match config.mode with
  | "normal" => config.withMode 0 40
  | "fast" => config.withMode 0 30
  | "fast2" => config.withMode 1 20
  | "fast3" => config.withMode 1 10
  | _ => config

def init (config : KcpConfig) : KcpConfig :=
  let config := config.modePreset
  { config with
    smuxver := if config.smuxver = 0 then 1 else config.smuxver
    smuxbuf := if config.smuxbuf = 0 then config.sockbuf else config.smuxbuf
    streambuf := if config.streambuf = 0 then config.sockbuf / 2 else config.streambuf }

variable (config : KcpConfig)

def fecOverhead : Nat :=
  if config.datashard > 0 ∧ config.parityshard > 0 then FEC_HEADER_SIZE_PLUS2 else 0

def muxConfig : Except String Mux.MuxConfig :=
  (Mux.muxConfigFromValues config.smuxver config.smuxbuf.toNat config.streambuf.toNat
    config.keepalive.toNat).mapError (·.msg)

/-- The MTU handed to the ARQ core. -/
def arqMtu : Nat := config.mtu.toNat - CRYPT_HEADER_SIZE - config.fecOverhead

/-- Rejects what the module cannot honour. -/
def validate (newCrypt : NewCrypt) : Except String Unit :=
  let reserved := CRYPT_HEADER_SIZE + config.fecOverhead
  let mtu := config.mtu.toNat
  if config.tcp then
    .error ("kcp: ?tcp=true (tcpraw fake-TCP framing) is not implemented; remove it or use " ++
      "the ftcp:// transport")
  else if config.smuxver > 1 then
    .error s!"kcp: smuxver={config.smuxver} is not implemented, only smux v1"
  else if mtu > MTU_LIMIT then
    .error s!"kcp: mtu={mtu} exceeds the {MTU_LIMIT}-byte datagram a kcp-go peer will read"
  else if mtu ≤ reserved + IKCP_OVERHEAD + 1 then
    .error (s!"kcp: mtu={mtu} leaves no room for the {reserved}-byte header and " ++
      s!"{IKCP_OVERHEAD}-byte KCP segment")
  else
    match newCrypt config.key config.crypt with
    | .error e => .error e
    | .ok _ =>
      match config.muxConfig with
      | .error e => .error e
      | .ok _ => .ok ()

end KcpConfig

/-! ## A session -/

/-- `Kcp::set_mtu` of the `kcp` crate. -/
abbrev SetMtu := Nat → Except String Unit

/-- What `spawn_session` hands to its driver. -/
structure Session where
  conv : UInt32
  framer : PacketFramer
  nodelay : Bool
  updateInterval : Int
  resend : Int
  nc : Bool
  sndwnd : UInt16
  rcvwnd : UInt16
  mtu : Nat
  /-- in milliseconds -/
  interval : Nat
  ackNodelay : Bool

section

variable (rs : NewCodec) (setMtu : SetMtu)

def spawnSession (conv : UInt32) (config : KcpConfig) (crypt : Crypt) (rng : Rng) :
    Except IoError Session :=
  match setMtu config.arqMtu with
  | .error e => .error ⟨.invalidInput, e⟩
  | .ok () =>
    .ok {
      conv := conv
      framer := PacketFramer.new rs crypt config.datashard config.parityshard rng
      nodelay := config.nodelay ≠ 0
      updateInterval := Checked.asI32 config.interval
      resend := Checked.asI32 config.resend
      nc := config.nc ≠ 0
      sndwnd := UInt16.ofNat (min config.sndwnd.toNat 65535)
      rcvwnd := UInt16.ofNat (min config.rcvwnd.toNat 65535)
      mtu := config.arqMtu
      interval := max 10 (min config.interval.toNat 5000)
      ackNodelay := config.acknodelay }

/-- The decoder of a peer, at a listener as at a dialer. -/
def newDecoder (config : KcpConfig) : Option FecDecoder :=
  FecDecoder.new rs config.datashard config.parityshard

/-- A session can be started, corrects errors in both directions if it is meant to, and
keeps to the size of a datagram.  The core writes blocks of at most its MTU. -/
structure Honoured (config : KcpConfig) (crypt : Crypt) : Prop where
  starts : ∀ conv rng, ∃ session, spawnSession rs setMtu conv config crypt rng = .ok session
  corrects : config.datashard ≠ 0 → config.parityshard ≠ 0 →
    (FecEncoder.new rs config.datashard config.parityshard).isSome
      ∧ (newDecoder rs config).isSome
      ∧ config.datashard.toNat + config.parityshard.toNat < 2 ^ 32
  bounded : ∀ conv rng session, spawnSession rs setMtu conv config crypt rng = .ok session →
    ∀ blocks : List Bytes, (∀ segments ∈ blocks, segments.length ≤ session.mtu) →
      ∀ dgram ∈ (session.framer.writeAll blocks).queue, dgram.length ≤ config.mtu.toNat

end

/-! ## The size of a datagram -/

namespace PacketFramer

/-- There is room for blocks of `cap` bytes in a datagram of `m`, and no datagram is
longer. -/
structure Bounded (m cap : Nat) (framer : PacketFramer) : Prop where
  room : framer.headerLen + cap ≤ m
  fec : ∀ enc, framer.fec = some enc → enc.Within m
  queue : ∀ dgram ∈ framer.queue, dgram.length ≤ m

theorem length_sealWith (crypt : Crypt) {nonce pkt : Bytes} (hnonce : nonce.length = NONCE_SIZE)
    (hpkt : CRYPT_HEADER_SIZE ≤ pkt.length) : (sealWith crypt nonce pkt).length = pkt.length := by
  rw [sealWith, Crypt.length_encrypt, List.length_append, List.length_append, hnonce,
    Bytes.length_le, List.length_drop]
  rw [CRYPT_HEADER_SIZE] at hpkt ⊢
  omega

theorem length_of_mem_foldl_enqueue {m : Nat} {pkts : List Bytes}
    (hpkts : ∀ pkt ∈ pkts, CRYPT_HEADER_SIZE ≤ pkt.length ∧ pkt.length ≤ m)
    {framer : PacketFramer} (hqueue : ∀ dgram ∈ framer.queue, dgram.length ≤ m) :
    ∀ dgram ∈ (pkts.foldl (fun framer pkt => framer.enqueue pkt) framer).queue,
      dgram.length ≤ m := by
  obtain ⟨sealed, heq, hsealed⟩ := foldl_enqueue pkts framer
  rw [heq]
  intro dgram hdgram
  rcases List.mem_append.mp hdgram with hdgram | hdgram
  · exact hqueue dgram hdgram
  · obtain ⟨pkt, hpkt, nonce, hnonce, rfl⟩ := exists_of_forall₂ hsealed hdgram
    obtain ⟨hlow, hhigh⟩ := hpkts pkt hpkt
    rw [length_sealWith _ hnonce hlow]
    exact hhigh

theorem Bounded.write {m cap : Nat} {framer : PacketFramer} (h : framer.Bounded m cap)
    {segments : Bytes} (hcap : segments.length ≤ cap) : (framer.write segments).Bounded m cap := by
  have hroom := h.room
  cases hfec : framer.fec with
  | none =>
    rw [headerLen, hfec] at hroom
    have hpkt : ∀ pkt ∈ [List.replicate CRYPT_HEADER_SIZE (0 : UInt8) ++ segments],
        CRYPT_HEADER_SIZE ≤ pkt.length ∧ pkt.length ≤ m := by
      intro pkt hpkt
      rw [List.mem_singleton.mp hpkt, List.length_append, List.length_replicate]
      simp only [Option.isSome_none, Bool.false_eq_true, if_false] at hroom
      omega
    rw [write_none hfec]
    exact ⟨h.room, fun enc henc => h.fec enc henc, length_of_mem_foldl_enqueue hpkt h.queue⟩
  | some enc =>
    rw [headerLen, hfec, Option.isSome_some, if_pos rfl] at hroom
    have hframe : CRYPT_HEADER_SIZE + FEC_HEADER_SIZE_PLUS2 + segments.length ≤ m := by omega
    obtain ⟨hnext, hpkts⟩ := (h.fec enc hfec).frame hframe
    obtain ⟨-, hkept⟩ := foldl_enqueue_keeps ((enc.frame segments).1 :: (enc.frame segments).2.1)
      { framer with fec := some (enc.frame segments).2.2 }
    rw [write_some hfec]
    refine ⟨?_, fun enc' henc' => ?_, length_of_mem_foldl_enqueue hpkts h.queue⟩
    · rw [headerLen, hkept]
      exact hroom
    · rw [hkept] at henc'
      cases henc'
      exact hnext

theorem Bounded.writeAll {m cap : Nat} {framer : PacketFramer} (h : framer.Bounded m cap)
    {blocks : List Bytes} (hcap : ∀ segments ∈ blocks, segments.length ≤ cap) :
    (framer.writeAll blocks).Bounded m cap := by
  induction blocks generalizing framer with
  | nil => exact h
  | cons segments blocks ih =>
    rw [List.forall_mem_cons] at hcap
    exact ih (h.write hcap.1) hcap.2

end PacketFramer

/-! ## Which settings are honoured -/

/-- What the crate says of `ReedSolomon::new`. -/
def NewCodec.Documented (rs : NewCodec) : Prop :=
  ∀ d p, (rs d p).isSome ↔ 0 < d ∧ 0 < p ∧ d + p ≤ 256

/-- What the crate says of `set_mtu`. -/
def SetMtu.Documented (setMtu : SetMtu) : Prop := ∀ n, setMtu n = .ok () ↔ 50 ≤ n

namespace KcpConfig

/-- The settings are within the limits of both crates. -/
def Fits (config : KcpConfig) : Prop :=
  if config.datashard = 0 ∨ config.parityshard = 0 then 70 ≤ config.mtu.toNat
  else 78 ≤ config.mtu.toNat ∧ config.datashard.toNat + config.parityshard.toNat ≤ 256

variable {config : KcpConfig}

theorem pos_iff_ne_zero {n : UInt32} : n > 0 ↔ n ≠ 0 := by
  rw [gt_iff_lt, UInt32.lt_iff_toNat_lt, ne_eq, ← UInt32.toNat_inj]
  exact Nat.pos_iff_ne_zero

theorem fecOverhead_off (h : config.datashard = 0 ∨ config.parityshard = 0) :
    config.fecOverhead = 0 := by
  rw [fecOverhead, if_neg]
  rw [pos_iff_ne_zero, pos_iff_ne_zero]
  rintro ⟨hd, hp⟩
  exact h.elim hd hp

theorem fecOverhead_on (h : ¬ (config.datashard = 0 ∨ config.parityshard = 0)) :
    config.fecOverhead = 8 := by
  rw [fecOverhead, if_pos]
  · rfl
  · rw [pos_iff_ne_zero, pos_iff_ne_zero]
    exact not_or.mp h

/-- The room that `validate` makes sure of. -/
theorem room_of_validate {newCrypt : NewCrypt} (h : config.validate newCrypt = .ok ()) :
    config.arqMtu + (CRYPT_HEADER_SIZE + config.fecOverhead) = config.mtu.toNat := by
  unfold validate at h
  simp only at h
  split_ifs at h with htcp hver hlimit hroom
  rw [arqMtu]
  omega

end KcpConfig

theorem isSome_newEncoder {rs : NewCodec} (hrs : rs.Documented) {d p : UInt32}
    (h : ¬ (d = 0 ∨ p = 0)) : (FecEncoder.new rs d p).isSome ↔ d.toNat + p.toNat ≤ 256 := by
  obtain ⟨hd, hp⟩ := not_or.mp h
  have hd' : 0 < d.toNat := UInt32.lt_iff_toNat_lt.mp (KcpConfig.pos_iff_ne_zero.mpr hd)
  have hp' : 0 < p.toNat := UInt32.lt_iff_toNat_lt.mp (KcpConfig.pos_iff_ne_zero.mpr hp)
  have hcodec := hrs d.toNat p.toNat
  rw [FecEncoder.new, if_neg h]
  cases hc : rs d.toNat p.toNat with
  | none =>
    rw [hc] at hcodec
    simp only [Option.isSome_none, Bool.false_eq_true, false_iff] at hcodec ⊢
    exact fun hle => hcodec ⟨hd', hp', hle⟩
  | some codec =>
    rw [hc] at hcodec
    exact iff_of_true rfl (hcodec.mp rfl).2.2

/-- The framer of a session has room for the blocks of its core. -/
theorem bounded_new {rs : NewCodec} {newCrypt : NewCrypt} {config : KcpConfig}
    (hvalid : config.validate newCrypt = .ok ()) (crypt : Crypt) (rng : Rng) :
    (PacketFramer.new rs crypt config.datashard config.parityshard rng).Bounded
      config.mtu.toNat config.arqMtu := by
  have hroom := KcpConfig.room_of_validate hvalid
  refine ⟨?_, fun enc henc => FecEncoder.within_new henc _, fun dgram h => by cases h⟩
  rw [PacketFramer.headerLen, PacketFramer.new]
  dsimp only
  by_cases hoff : config.datashard = 0 ∨ config.parityshard = 0
  · have hnone : FecEncoder.new rs config.datashard config.parityshard = none := by
      rw [FecEncoder.new, if_pos hoff]
    rw [hnone]
    simp only [Option.isSome_none, Bool.false_eq_true, if_false]
    omega
  · rw [KcpConfig.fecOverhead_on hoff] at hroom
    have hle : (if (FecEncoder.new rs config.datashard config.parityshard).isSome
        then FEC_HEADER_SIZE_PLUS2 else 0) ≤ 8 := by
      split_ifs
      · exact Nat.le_refl 8
      · exact Nat.zero_le 8
    omega

theorem spawnSession_eq_ok {rs : NewCodec} {setMtu : SetMtu} {conv : UInt32} {config : KcpConfig}
    {crypt : Crypt} {rng : Rng} {session : Session}
    (h : spawnSession rs setMtu conv config crypt rng = .ok session) :
    setMtu config.arqMtu = .ok () ∧ session.mtu = config.arqMtu
      ∧ session.framer = PacketFramer.new rs crypt config.datashard config.parityshard rng := by
  unfold spawnSession at h
  split at h
  · cases h
  · rename_i hset
    cases h
    exact ⟨hset, rfl, rfl⟩

/-- Settings that `validate` accepts are honoured exactly if they leave the core an MTU of
50 bytes and ask for no more shards than the codec has. -/
theorem honoured_iff {rs : NewCodec} (hrs : rs.Documented) {setMtu : SetMtu}
    (hmtu : setMtu.Documented) (newCrypt : NewCrypt) (config : KcpConfig) (crypt : Crypt)
    (hvalid : config.validate newCrypt = .ok ()) :
    Honoured rs setMtu config crypt ↔ config.Fits := by
  have hroom := KcpConfig.room_of_validate hvalid
  constructor
  · rintro ⟨hstarts, hcorrects, -⟩
    obtain ⟨session, hsession⟩ := hstarts 0 ⟨fun _ => 0⟩
    have hset := (hmtu config.arqMtu).mp (spawnSession_eq_ok hsession).1
    rw [CRYPT_HEADER_SIZE, NONCE_SIZE, CRC_SIZE] at hroom
    rw [KcpConfig.Fits]
    split_ifs with hoff
    · omega
    · rw [KcpConfig.fecOverhead_on hoff] at hroom
      obtain ⟨hd, hp⟩ := not_or.mp hoff
      refine ⟨?_, (isSome_newEncoder hrs hoff).mp (hcorrects hd hp).1⟩
      omega
  · intro hfits
    rw [KcpConfig.Fits] at hfits
    refine ⟨fun conv rng => ?_, fun hd hp => ?_, fun conv rng session hsession blocks hcap => ?_⟩
    · have hset : setMtu config.arqMtu = .ok () := by
        refine (hmtu config.arqMtu).mpr ?_
        rw [CRYPT_HEADER_SIZE, NONCE_SIZE, CRC_SIZE] at hroom
        split_ifs at hfits with hoff
        · rw [KcpConfig.fecOverhead_off hoff] at hroom
          omega
        · rw [KcpConfig.fecOverhead_on hoff] at hroom
          omega
      rw [spawnSession, hset]
      exact ⟨_, rfl⟩
    · have hon : ¬ (config.datashard = 0 ∨ config.parityshard = 0) := not_or.mpr ⟨hd, hp⟩
      rw [if_neg hon] at hfits
      have henc := (isSome_newEncoder hrs hon).mpr hfits.2
      refine ⟨henc, ?_, by omega⟩
      rw [newDecoder, ← decoder_of_encoder]
      exact henc
    · obtain ⟨-, hsize, hframer⟩ := spawnSession_eq_ok hsession
      rw [hsize] at hcap
      rw [hframer]
      exact ((bounded_new hvalid crypt rng).writeAll hcap).queue

/-! ## Settings beyond the limits -/

/-- A codec that is never asked. -/
def idleCodec : ReedSolomon where
  encode _ := none
  reconstructData _ := none
  lengths_encode := fun h => by cases h
  length_reconstructData := fun h => by cases h

/-- `ReedSolomon::new`, with the code for one shard of each kind only. -/
def limitedCodec : NewCodec := fun d p =>
  if 0 < d ∧ 0 < p ∧ d + p ≤ 256 then
    if d = 1 ∧ p = 1 then some copyCodec else some idleCodec
  else none

theorem limitedCodec_documented : limitedCodec.Documented := by
  intro d p
  unfold limitedCodec
  by_cases h : 0 < d ∧ 0 < p ∧ d + p ≤ 256
  · rw [if_pos h]
    refine iff_of_true ?_ h
    split_ifs <;> rfl
  · rw [if_neg h]
    exact iff_of_false Bool.false_ne_true h

def coreMtu : SetMtu := fun n => if n < 50 then .error s!"invalid mtu: {n}" else .ok ()

theorem coreMtu_documented : coreMtu.Documented := by
  intro n
  unfold coreMtu
  split_ifs with h
  · exact iff_of_false (fun heq => by cases heq) (Nat.not_le.mpr h)
  · exact iff_of_true rfl (Nat.not_lt.mp h)

/-- The cipher of `crypt=none`. -/
def plainCrypt : NewCrypt := fun _ _ => .ok ⟨.none⟩

example : KcpConfig.default.init.validate plainCrypt = .ok () := rfl

/-- The default settings with one shard of each kind. -/
theorem honoured_pair :
    Honoured limitedCodec coreMtu { KcpConfig.default with datashard := 1, parityshard := 1 }
      ⟨.none⟩ :=
  (honoured_iff limitedCodec_documented coreMtu_documented plainCrypt _ _ rfl).mpr
    (by unfold KcpConfig.Fits; decide)

/-- With 300 shards there is no error correction, and with an MTU of 60 bytes no session,
though both are accepted. -/
theorem accepted_not_honoured :
    (({ KcpConfig.default with datashard := 200, parityshard := 100 } : KcpConfig).validate
        plainCrypt = .ok ()
      ∧ ¬ Honoured limitedCodec coreMtu
        { KcpConfig.default with datashard := 200, parityshard := 100 } ⟨.none⟩)
      ∧ ({ KcpConfig.default with mtu := 60 } : KcpConfig).validate plainCrypt = .ok ()
      ∧ ¬ Honoured limitedCodec coreMtu { KcpConfig.default with mtu := 60 } ⟨.none⟩ := by
  refine ⟨⟨rfl, fun h => ?_⟩, rfl, fun h => ?_⟩
  · have henc := (h.corrects (by decide) (by decide)).1
    cases henc
  · obtain ⟨session, hsession⟩ := h.starts 0 ⟨fun _ => 0⟩
    cases hsession

end Kcp
end RtProxy
