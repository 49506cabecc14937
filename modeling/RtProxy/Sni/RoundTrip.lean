import RtProxy.Lib.Base64
import RtProxy.Sni.Records

/-!
The rewrite of a ClientHello and back (`sni.rs`).

The client shows the decoy and appends the encoded name; the server takes the name out of
the extension and writes it over the decoy, so that the record names its own destination
again.
-/

namespace RtProxy
namespace Sni

/-- What the engine promises: decoding inverts encoding, and the encoding is as long as
its digits. -/
structure Engine.Lawful (engine : Engine) : Prop where
  decode_encode : ∀ bs, engine.decode (Text.utf8 (engine.encode bs)) = some bs
  length_encode : ∀ bs, (Text.utf8 (engine.encode bs)).length = (4 * bs.length + 2) / 3

/-- The name of the first server name extension. -/
def serverName (exts : List Extension) : Option String :=
  (exts.find? fun ext => ext.1 = EXT_SERVER_NAME).bind fun ext => sniName ext.2

/-- The first server name with another body. -/
def setName (name : String) : List Extension → List Extension
  | [] => []
  | ext :: exts =>
    if ext.1 = EXT_SERVER_NAME then (ext.1, sniBody name) :: exts else ext :: setName name exts

/-- The parts of a record that names another host. -/
def Parts.named (p : Parts) (name : String) : Parts := { p with exts := setName name p.exts }

/-- The record, the handshake, the extensions block and every extension are as long as
their lengths say. -/
structure Consistent (record : Bytes) : Prop where
  size : record.length = 5 + Bytes.beNat ((record.drop 3).take 2)
  handshake : (record.drop 5).length = 4 + Bytes.beNat (((record.drop 5).drop 1).take 3)
  block : ∃ start stop exts, extensionsSpan (record.drop 5) = some (start, stop)
    ∧ ((record.drop 5).drop start).take (stop - start) = encodeExtensions exts
    ∧ ∀ ext ∈ exts, ext.2.length < 2 ^ 16

/-- The host that a record names. -/
def nameOf (record : Bytes) : Option String := do
  let p ← readParts record
  serverName p.exts

/-! ## Names -/

theorem length_sniBody (name : String) : (sniBody name).length = 5 + (Text.utf8 name).length := by
  rw [sniBody, List.length_append, List.length_append, List.length_append, Bytes.length_be,
    Bytes.length_be]
  rfl

theorem sniName_sniBody {name : String} (h : (Text.utf8 name).length < 2 ^ 16) :
    sniName (sniBody name) = some name := by
  have hlen := length_sniBody name
  have hthree : (Bytes.be 2 ((Text.utf8 name).length + 3) ++ [0x00]).length = 3 := by
    rw [List.length_append, Bytes.length_be]
    rfl
  have hfive : (Bytes.be 2 ((Text.utf8 name).length + 3) ++ [0x00] ++
      Bytes.be 2 (Text.utf8 name).length).length = 5 := by
    rw [List.length_append, hthree, Bytes.length_be]
  have hdrop : (sniBody name).drop 3 = Bytes.be 2 (Text.utf8 name).length ++ Text.utf8 name := by
    rw [sniBody, List.append_assoc, List.drop_left' hthree]
  have hdrop' : (sniBody name).drop 5 = Text.utf8 name := by rw [sniBody, List.drop_left' hfive]
  have hnat : Bytes.beNat (((sniBody name).drop 3).take 2) = (Text.utf8 name).length := by
    rw [hdrop, List.take_left' (Bytes.length_be 2 _), Bytes.beNat_be h]
  rw [sniName, if_neg (by omega)]
  simp only [hnat]
  rw [if_neg (by omega), hdrop', List.take_length, Text.fromUtf8_utf8]

theorem length_of_sniName {body : Bytes} {name : String} (h : sniName body = some name) :
    5 + (Text.utf8 name).length ≤ body.length := by
  unfold sniName at h
  split_ifs at h with hfive
  simp only at h
  split_ifs at h with hlen
  rw [Text.utf8_of_fromUtf8 h, List.length_take, List.length_drop]
  omega

theorem decode_encodeServerName {engine : Engine} (h : engine.Lawful) (name : String) :
    decodeServerName engine (encodeServerName engine name) = some name := by
  have hcrc : (Bytes.be 4 (crc32Ieee (Text.utf8 name)).toNat).length = 4 := Bytes.length_be 4 _
  have hnat : UInt32.ofNat (Bytes.beNat (Bytes.be 4 (crc32Ieee (Text.utf8 name)).toNat)) =
      crc32Ieee (Text.utf8 name) := by
    rw [Bytes.beNat_be (UInt32.toNat_lt _), UInt32.ofNat_toNat]
  rw [decodeServerName, encodeServerName, h.decode_encode]
  simp only [Option.bind_eq_bind, Option.bind_some]
  rw [if_neg (by rw [List.length_append, hcrc]; omega), List.drop_left' hcrc, h.decode_encode,
    Option.bind_some, List.take_left' hcrc, hnat, if_neg (by simp), Text.fromUtf8_utf8]

/-! ## Extensions -/

variable {engine : Engine} {exts : List Extension} {n d : String}

theorem serverName_cons (ext : Extension) (exts : List Extension) : serverName (ext :: exts) =
    if ext.1 = EXT_SERVER_NAME then sniName ext.2 else serverName exts := by
  unfold serverName
  by_cases h : ext.1 = EXT_SERVER_NAME <;> simp [h]

theorem serverName_setName (hname : serverName exts = some n) (hd : (Text.utf8 d).length < 2 ^ 16) :
    serverName (setName d exts) = some d := by
  induction exts with
  | nil => cases hname
  | cons ext exts ih =>
    rw [serverName_cons] at hname
    rw [setName]
    split_ifs at hname ⊢ with h
    · rw [serverName_cons, if_pos h, sniName_sniBody hd]
    · rw [serverName_cons, if_neg h, ih hname]

theorem setName_setName (n d : String) (exts : List Extension) :
    setName n (setName d exts) = setName n exts := by
  induction exts with
  | nil => rfl
  | cons ext exts ih =>
    by_cases h : ext.1 = EXT_SERVER_NAME
    · rw [setName, if_pos h, setName, if_pos h, setName, if_pos h]
    · rw [setName, if_neg h, setName, if_neg h, setName, if_neg h, ih]

/-- Another name does not change the types. -/
theorem types_setName (d : String) (exts : List Extension) :
    (setName d exts).map Prod.fst = exts.map Prod.fst := by
  induction exts with
  | nil => rfl
  | cons ext exts ih =>
    rw [setName]
    split_ifs
    · rfl
    · rw [List.map_cons, List.map_cons, ih]

theorem serverName_append (hname : serverName exts = some n) (exts' : List Extension) :
    serverName (exts ++ exts') = some n := by
  induction exts with
  | nil => cases hname
  | cons ext exts ih =>
    rw [serverName_cons] at hname
    rw [List.cons_append, serverName_cons]
    split_ifs at hname ⊢
    · exact hname
    · exact ih hname

/-- What the client makes of the extensions. -/
theorem editName_client (hname : serverName exts = some n) (hd : d ≠ "") :
    editName engine d true exts = (setName d exts, d,
      some (EXT_GOST_HOST, Text.utf8 (encodeServerName engine n))) := by
  induction exts with
  | nil => cases hname
  | cons ext exts ih =>
    rw [serverName_cons] at hname
    rw [editName, setName]
    by_cases h : ext.1 = EXT_SERVER_NAME
    · rw [if_pos h] at hname ⊢
      simp [h, hd, hname]
    · rw [if_neg h] at hname ⊢
      simp [h, ih hname]

/-- What the server makes of them when it knows the destination. -/
theorem editName_server (hn : n ≠ "") (exts : List Extension) :
    editName engine n false exts = (setName n exts, n, none) := by
  induction exts with
  | nil => rfl
  | cons ext exts ih =>
    rw [editName, setName]
    by_cases h : ext.1 = EXT_SERVER_NAME
    · simp [h, hn]
    · simp [h, ih]

theorem takeHost_append (h : engine.Lawful) (hgost : ∀ ext ∈ exts, ext.1 ≠ EXT_GOST_HOST)
    (host name : String) :
    takeHost engine host (exts ++ [(EXT_GOST_HOST, Text.utf8 (encodeServerName engine name))]) =
      (name, exts) := by
  induction exts with
  | nil =>
    rw [List.nil_append, takeHost, if_pos rfl, Text.fromUtf8Lossy_utf8, decode_encodeServerName h]
    rfl
  | cons ext exts ih =>
    obtain ⟨hext, hexts⟩ := List.forall_mem_cons.mp hgost
    rw [List.cons_append, takeHost, if_neg hext]
    simp only [ih hexts]

/-! ## Lengths -/

theorem encodeExtensions_cons (ext : Extension) (exts : List Extension) :
    encodeExtensions (ext :: exts) = encodeExtension ext ++ encodeExtensions exts :=
  List.flatMap_cons

theorem encodeExtensions_append (exts exts' : List Extension) :
    encodeExtensions (exts ++ exts') = encodeExtensions exts ++ encodeExtensions exts' :=
  List.flatMap_append

/-- The name is no longer than the body it stands in. -/
theorem length_setName (hname : serverName exts = some n) (d : String) :
    (encodeExtensions (setName d exts)).length + (Text.utf8 n).length ≤
      (encodeExtensions exts).length + (Text.utf8 d).length := by
  induction exts with
  | nil => cases hname
  | cons ext exts ih =>
    rw [serverName_cons] at hname
    rw [setName]
    split_ifs at hname ⊢ with h
    · have hbody := length_of_sniName hname
      rw [encodeExtensions_cons, encodeExtensions_cons, List.length_append, List.length_append,
        length_encodeExtension, length_encodeExtension, length_sniBody]
      omega
    · have hrest := ih hname
      rw [encodeExtensions_cons, encodeExtensions_cons, List.length_append, List.length_append]
      omega

theorem length_serverName (hname : serverName exts = some n) :
    (Text.utf8 n).length ≤ (encodeExtensions exts).length := by
  have h := length_setName hname ""
  have hempty : (Text.utf8 "").length = 0 := rfl
  omega

theorem fits_setName (h : ∀ ext ∈ exts, ext.2.length < 2 ^ 16) (hd : (sniBody d).length < 2 ^ 16) :
    ∀ ext ∈ setName d exts, ext.2.length < 2 ^ 16 := by
  induction exts with
  | nil => exact List.forall_mem_nil _
  | cons ext exts ih =>
    obtain ⟨hext, hexts⟩ := List.forall_mem_cons.mp h
    rw [setName]
    split_ifs
    · exact List.forall_mem_cons.mpr ⟨hd, hexts⟩
    · exact List.forall_mem_cons.mpr ⟨hext, ih hexts⟩

/-- The name is encoded twice, with the checksum in between. -/
theorem length_encodeServerName (h : engine.Lawful) (name : String) :
    (Text.utf8 (encodeServerName engine name)).length =
      (4 * (4 + (4 * (Text.utf8 name).length + 2) / 3) + 2) / 3 := by
  rw [encodeServerName, h.length_encode, List.length_append, Bytes.length_be, h.length_encode]

/-! ## Records -/

namespace Parts

variable {p : Parts}

theorem consistent_bytes (h : p.Wf) : Consistent p.bytes := by
  have hle := le_of_opens h.opens
  have hlen := length_setLength_hello h.opens
  have hhello := h.hello
  have hall := p.length_hello
  have hbe : (Bytes.be 2 (setLength p.hello).length).length = 2 := Bytes.length_be 2 _
  have hfive : (p.front ++ Bytes.be 2 (setLength p.hello).length).length = 5 := by
    rw [List.length_append, h.front, hbe]
  have hdrop : p.bytes.drop 5 = setLength p.hello := by rw [bytes, List.drop_left' hfive]
  constructor
  · rw [bytes, List.length_append, hfive, List.append_assoc, List.drop_left' h.front,
      List.take_left' hbe, Bytes.beNat_be (by omega)]
  · rw [hdrop, hlen, setLength_eq, beNat_announce (by omega) (by omega)]
    omega
  · have hspan := span_hello (p := p.settled) (h.opens.announce _) (length_block_lt (p := p) h)
    have hblock := block_hello p.settled
    rw [hdrop, setLength_hello h.opens]
    refine ⟨_, _, p.exts, hspan, ?_, h.exts⟩
    rw [Nat.add_sub_cancel_left]
    exact hblock

/-- The length that the handshake announced does not matter to the record. -/
theorem bytes_settled (h : Opens p.opening) (exts : List Extension) :
    { p.settled with exts := exts }.bytes = { p with exts := exts }.bytes := by
  have hle := le_of_opens h
  have hlen : (Parts.hello { p.settled with exts := exts }).length =
      (Parts.hello { p with exts := exts }).length := by
    rw [length_hello, length_hello, settled, length_announce (by omega)]
  have hset : setLength (Parts.hello { p.settled with exts := exts }) =
      setLength (Parts.hello { p with exts := exts }) := by
    rw [setLength_eq, setLength_eq, hlen, announce_hello (p := { p.settled with exts := exts })
      (h.announce _), announce_hello (p := { p with exts := exts }) h, settled]
    simp only [announce_announce (show 4 ≤ p.opening.length by omega)]
  rw [bytes, bytes, hset]
  rfl

theorem wf_named (h : p.Wf) {n d : String} (hname : serverName p.exts = some n)
    (hd : (Text.utf8 d).length ≤ (Text.utf8 n).length) : (p.named d).Wf := by
  have hlen := length_setName hname d
  have hn := length_serverName hname
  have hall := p.length_hello
  have hall' := (p.named d).length_hello
  have hhello := h.hello
  have hopens := le_of_opens h.opens
  have hbody : (sniBody d).length < 2 ^ 16 := by
    rw [length_sniBody]
    omega
  refine ⟨h.front, h.handshake, h.opens, fits_setName h.exts hbody, ?_⟩
  rw [hall']
  show p.opening.length + 2 + (encodeExtensions (setName d p.exts)).length + p.tail.length < _
  omega

end Parts

/-! ## The rewrite -/

theorem rewriteClientHello_client {record : Bytes} {p : Parts} (hread : readParts record = some p)
    (hname : serverName p.exts = some n) (hd : d ≠ "") :
    rewriteClientHello engine record d true = some ({ p with exts := setName d p.exts ++
      [(EXT_GOST_HOST, Text.utf8 (encodeServerName engine n))] }.bytes, d) := by
  rw [rewriteClientHello, hread]
  simp only [Option.bind_eq_bind, Option.bind_some, if_true, editName_client hname hd]
  rfl

theorem rewriteClientHello_server (h : engine.Lawful) {record : Bytes} {p : Parts}
    (hread : readParts record = some { p with
      exts := exts ++ [(EXT_GOST_HOST, Text.utf8 (encodeServerName engine n))] })
    (hgost : ∀ ext ∈ exts, ext.1 ≠ EXT_GOST_HOST) (hn : n ≠ "") :
    rewriteClientHello engine record "" false = some ({ p with exts := setName n exts }.bytes, n) := by
  rw [rewriteClientHello, hread]
  simp only [Option.bind_eq_bind, Option.bind_some, Bool.false_eq_true, if_false,
    takeHost_append h hgost, editName_server hn, Option.toList_none, List.append_nil]
  rfl

/-- The extensions that the client writes. -/
def shownExts (engine : Engine) (n d : String) (exts : List Extension) : List Extension :=
  setName d exts ++ [(EXT_GOST_HOST, Text.utf8 (encodeServerName engine n))]

theorem gost_setName (h : ∀ ext ∈ exts, ext.1 ≠ EXT_GOST_HOST) (d : String) :
    ∀ ext ∈ setName d exts, ext.1 ≠ EXT_GOST_HOST := by
  intro ext hext
  have hmem : ext.1 ∈ exts.map Prod.fst := by
    rw [← types_setName d exts]
    exact List.mem_map_of_mem hext
  obtain ⟨ext', hext', htype⟩ := List.mem_map.mp hmem
  rw [← htype]
  exact h ext' hext'

/-- A name from a record of a TLS size fits its encoding. -/
theorem wf_shown (hengine : engine.Lawful) {p : Parts} (hwf : p.Wf) (hhello : p.hello.length ≤ 16384)
    (hname : serverName p.exts = some n) (hd : (Text.utf8 d).length ≤ 255) :
    Parts.Wf { p with exts := shownExts engine n d p.exts } := by
  have hall := p.length_hello
  have hn := length_serverName hname
  have hset := length_setName hname d
  have hencoded := length_encodeServerName hengine n
  have hbody : (sniBody d).length < 2 ^ 16 := by
    rw [length_sniBody]
    omega
  have hexts : (encodeExtensions (shownExts engine n d p.exts)).length =
      (encodeExtensions (setName d p.exts)).length +
        (4 + (Text.utf8 (encodeServerName engine n)).length) := by
    rw [shownExts, encodeExtensions_append, List.length_append, encodeExtensions_cons,
      List.length_append, length_encodeExtension]
    rfl
  refine ⟨hwf.front, hwf.handshake, hwf.opens, ?_, ?_⟩
  · rw [shownExts, List.forall_mem_append]
    refine ⟨fits_setName hwf.exts hbody, List.forall_mem_singleton.mpr ?_⟩
    show (Text.utf8 (encodeServerName engine n)).length < 2 ^ 16
    omega
  · rw [Parts.length_hello]
    show p.opening.length + 2 + (encodeExtensions (shownExts engine n d p.exts)).length +
      p.tail.length < 2 ^ 16
    omega

/-- The client shows the decoy in a consistent record, and the server restores the record
with its own name, without what was left over after its extensions. -/
theorem sni_round_trip (hengine : engine.Lawful) {record : Bytes} {p : Parts}
    (hread : readParts record = some p)
    (hexact : record.length = 5 + Bytes.beNat ((record.drop 3).take 2))
    (hmax : record.length ≤ 16389) (hname : serverName p.exts = some n) (hn : n ≠ "")
    (hgost : ∀ ext ∈ p.exts, ext.1 ≠ EXT_GOST_HOST)
    (hd : 1 ≤ (Text.utf8 d).length ∧ (Text.utf8 d).length ≤ 255) :
    (∃ len blockLen junk, record = p.front ++ len ++
        (p.opening ++ blockLen ++ (encodeExtensions p.exts ++ junk) ++ p.tail)
      ∧ len.length = 2 ∧ blockLen.length = 2 ∧ junk.length < 4)
      ∧ ∃ shown, rewriteClientHello engine record d true = some (shown, d) ∧ Consistent shown
        ∧ nameOf shown = some d
        ∧ rewriteClientHello engine shown "" false = some ((p.named n).bytes, n)
        ∧ Consistent (p.named n).bytes ∧ nameOf (p.named n).bytes = some n := by
  obtain ⟨hwf, len, blockLen, junk, more, heq, hlen, hblockLen, hjunk, hnat, -⟩ :=
    Parts.wf_of_readParts hread
  have hsize : record.length = 5 + (p.hello.length + junk.length) + more.length := by
    have hlens := congrArg List.length heq
    have hparts := p.length_hello
    simp only [List.length_append, hwf.front, hlen, hblockLen] at hlens
    omega
  have hfield : (record.drop 3).take 2 = len := by
    rw [heq, List.append_assoc, List.append_assoc, List.drop_left' hwf.front, List.take_left' hlen]
  have hmore : more = [] := by
    rw [hfield, hnat] at hexact
    exact List.length_eq_zero_iff.mp (by omega)
  have hd' : d ≠ "" := by
    rintro rfl
    exact absurd hd.1 (by decide)
  have hshown := wf_shown hengine hwf (by omega) hname hd.2
  have hreadShown := Parts.readParts_bytes hshown
  have hnamed := Parts.wf_named hwf hname (Nat.le_refl _)
  have hfits : (Text.utf8 n).length < 2 ^ 16 := by
    have hlong := length_serverName hname
    have hparts := p.length_hello
    omega
  refine ⟨⟨len, blockLen, junk, ?_, hlen, hblockLen, hjunk⟩,
    Parts.bytes { p with exts := shownExts engine n d p.exts }, ?_, ?_, ?_, ?_, ?_, ?_⟩
  · rw [hmore, List.append_nil] at heq
    exact heq
  · exact rewriteClientHello_client hread hname hd'
  · exact Parts.consistent_bytes hshown
  · rw [nameOf, hreadShown]
    exact serverName_append (serverName_setName hname (by omega)) _
  · rw [rewriteClientHello_server (p := Parts.settled { p with exts := shownExts engine n d p.exts })
      hengine hreadShown (gost_setName hgost d) hn, setName_setName]
    exact congrArg (fun bytes => some (bytes, n)) (Parts.bytes_settled
      (p := { p with exts := shownExts engine n d p.exts }) hwf.opens (setName n p.exts))
  · exact Parts.consistent_bytes hnamed
  · rw [nameOf, Parts.readParts_bytes hnamed]
    exact serverName_setName hname hfits

def urlSafeNoPad : Engine := ⟨Base64.encode, Base64.decode⟩

theorem lawful_urlSafeNoPad : urlSafeNoPad.Lawful := ⟨Base64.decode_encode, Base64.length_encode⟩

/-- The parts of a small ClientHello for `secret.example`. -/
def secretParts : Parts :=
  { front := [0x16, 0x03, 0x01]
    opening := [0x01, 0x00, 0x00, 0x42, 0x03, 0x03] ++ List.replicate 32 0x00 ++
      [0x00, 0x00, 0x02, 0x00, 0x2F, 0x01, 0x00]
    exts := [(EXT_SERVER_NAME, sniBody "secret.example")]
    tail := [] }

theorem sni_round_trip_secret :
    ∃ shown, rewriteClientHello urlSafeNoPad secretParts.bytes "decoy.example" true =
        some (shown, "decoy.example")
      ∧ nameOf shown = some "decoy.example"
      ∧ rewriteClientHello urlSafeNoPad shown "" false = some (secretParts.bytes, "secret.example") := by
  have hread : readParts secretParts.bytes = some secretParts := by decide
  have h := sni_round_trip (n := "secret.example") (d := "decoy.example") lawful_urlSafeNoPad hread
    (by decide) (by decide) (by decide) (by decide) (by decide)
    (by decide)
  obtain ⟨-, shown, hclient, -, hname, hserver, -, -⟩ := h
  exact ⟨shown, hclient, hname, hserver⟩

end Sni
end RtProxy
