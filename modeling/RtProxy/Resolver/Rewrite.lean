import RtProxy.Lib.DnsWire
import RtProxy.Resolver.Codec

/-!
The query that is sent on when the resolver adds a client subnet.

The packet is decoded, its OPT record replaced and the result encoded again.  Names go
through their texts on the way, so a label with a dot or with bytes that are no text
comes out as something else; and data are copied as they are, pointers included.
-/

namespace RtProxy.Resolver

open Bytes

def DEFAULT_UDP_SIZE : UInt16 := 1232

/-- The outbound packet of `exchange` when a source address is configured. -/
def rewrite (ip : Net.IpAddr) (mq : Message) : Except String Bytes :=
  let size := mq.edns0UdpSize.getD DEFAULT_UDP_SIZE
  let m := mq.removeOpt
  Message.encode { m with additionals := m.additionals ++ [edns0SubnetOpt ip size] }

/-! ## The specification -/

/-- The records of a section that are kept. -/
def kept (rrs : List Dns.Record) : List Dns.Record := rrs.filter (·.rtype ≠ TYPE_OPT)

/-- Two messages, each in its buffer, that say the same but for their OPT records. -/
structure SameQuery (buf buf' : Bytes) (w w' : Dns.Message) : Prop where
  id : w'.id = w.id
  flags : w'.flags = w.flags
  questions : w'.questions = w.questions
  answers : List.Forall₂ (Dns.SameRecord buf buf') (kept w.answers) (kept w'.answers)
  authorities : List.Forall₂ (Dns.SameRecord buf buf') (kept w.authorities) (kept w'.authorities)
  additionals : List.Forall₂ (Dns.SameRecord buf buf') (kept w.additionals) (kept w'.additionals)

/-- The packet that is sent on says what the client's packet says. -/
def Carries (packet out : Bytes) (w : Dns.Message) : Prop :=
  ∃ w', Dns.ReadsMessage out w' ∧ SameQuery packet out w w'

/-- The labels of the questions and of the kept records are texts without a dot. -/
structure CleanNames (w : Dns.Message) : Prop where
  questions : ∀ q ∈ w.questions, ∀ l ∈ q.name, Clean l
  answers : ∀ rr ∈ kept w.answers, ∀ l ∈ rr.name, Clean l
  authorities : ∀ rr ∈ kept w.authorities, ∀ l ∈ rr.name, Clean l
  additionals : ∀ rr ∈ kept w.additionals, ∀ l ∈ rr.name, Clean l

/-- There is one more place in the additional section. -/
def HasRoom (w : Dns.Message) : Prop := (kept w.additionals).length < 65535

/-- A label of a spelled name has become too long for the encoder. -/
def TooLong (mq : Message) : Prop :=
  (∃ q ∈ mq.questions, ¬ NameFits q.name)
    ∨ ∃ rr ∈ mq.answers ++ mq.authorities ++ mq.removeOpt.additionals, ¬ NameFits rr.name

/-- None of the kept records has a compressed name in its data. -/
def Uncompressed (w : Dns.Message) : Prop :=
  ∀ rr ∈ kept w.answers ++ kept w.authorities ++ kept w.additionals, ¬ rr.Compressed

/-! ## What becomes of a section -/

/-- A record and what it is written as after having been decoded. -/
def Rewritten (rr rr' : Dns.Record) : Prop :=
  rr'.name = labelsOf (printName rr.name) ∧ rr'.rtype = rr.rtype ∧ rr'.rclass = rr.rclass
    ∧ rr'.ttl = rr.ttl ∧ rr'.rdata = rr.rdata

theorem rewritten_of_writes {rrs ws : List Dns.Record}
    (h : List.Forall₂ Rr.Writes (rrs.map Rr.ofWire) ws) : List.Forall₂ Rewritten rrs ws := by
  rw [List.forall₂_map_left_iff] at h
  exact h

theorem kept_rewritten {rrs ws : List Dns.Record} (h : List.Forall₂ Rewritten rrs ws) :
    List.Forall₂ Rewritten (kept rrs) (kept ws) := by
  induction h with
  | nil => exact .nil
  | @cons rr w rrs ws hw _ ih =>
    have htype := hw.2.1
    unfold kept at ih ⊢
    by_cases hopt : rr.rtype = TYPE_OPT
    · rwa [List.filter_cons_of_neg (by simp [hopt]), List.filter_cons_of_neg (by simp [htype, hopt])]
    · rw [List.filter_cons_of_pos (by simp [hopt]), List.filter_cons_of_pos (by simp [htype, hopt])]
      exact .cons hw ih

/-- Clean and uncompressed records come out as they were. -/
theorem same_of_rewritten {buf buf' : Bytes} {rrs ws : List Dns.Record}
    (h : List.Forall₂ Rewritten rrs ws) (hclean : ∀ rr ∈ rrs, ∀ l ∈ rr.name, Clean l)
    (hplain : ∀ rr ∈ rrs, ¬ rr.Compressed)
    (hrrs : ∀ rr ∈ rrs, At buf rr.start rr.rdata ∧ ∀ l ∈ rr.name, 0 < l.length)
    (hws : ∀ w ∈ ws, At buf' w.start w.rdata) :
    List.Forall₂ (Dns.SameRecord buf buf') rrs ws := by
  induction h with
  | nil => exact .nil
  | @cons rr w rrs ws hw _ ih =>
    rw [List.forall_mem_cons] at hclean hplain hrrs hws
    refine .cons ?_ (ih hclean.2 hplain.2 hrrs.2 hws.2)
    obtain ⟨hname, htype, hclass, httl, hdata⟩ := hw
    refine ⟨?_, htype, hclass, httl, fun d => ?_, fun _ => hdata⟩
    · rw [hname]
      exact (labelsOf_printName_iff hrrs.1.2).mpr hclean.1
    · exact Dns.Record.holds_iff hplain.1 htype hdata hrrs.1.1 hws.1 d

/-- Records that come out as they were have clean names. -/
theorem clean_of_same {buf buf' : Bytes} {rrs ws : List Dns.Record}
    (h : List.Forall₂ Rewritten rrs ws) (hsame : List.Forall₂ (Dns.SameRecord buf buf') rrs ws) :
    ∀ rr ∈ rrs, ∀ l ∈ rr.name, Clean l := by
  induction h with
  | nil => exact fun rr hrr => absurd hrr List.not_mem_nil
  | @cons rr w rrs ws hw _ ih =>
    cases hsame with
    | cons hfirst hrest =>
      rw [List.forall_mem_cons]
      refine ⟨fun l hl => ?_, ih hrest⟩
      rw [← hfirst.1, hw.1] at hl
      exact (labelsOf_clean l hl).1

theorem questions_rewritten {qs : List Dns.Question} (hpos : ∀ q ∈ qs, ∀ l ∈ q.name, 0 < l.length) :
    (qs.map Question.ofWire).map Question.toWire = qs ↔ ∀ q ∈ qs, ∀ l ∈ q.name, Clean l := by
  rw [List.map_map]
  have hone (q : Dns.Question) (hq : q ∈ qs) :
      (Question.toWire ∘ Question.ofWire) q = q ↔ ∀ l ∈ q.name, Clean l := by
    rw [← labelsOf_printName_iff (hpos q hq)]
    show Dns.Question.mk (labelsOf (printName q.name)) q.qtype q.qclass = q ↔ _
    constructor
    · exact fun h => congrArg Dns.Question.name h
    · intro h
      rw [h]
  constructor
  · intro h q hq
    have hmap : qs.map (Question.toWire ∘ Question.ofWire) = qs.map id := by rw [h, List.map_id]
    exact (hone q hq).mp (List.map_inj_left.mp hmap q hq)
  · intro h
    refine (List.map_congr_left fun q hq => ?_).trans (List.map_id qs)
    exact (hone q hq).mpr (h q hq)

/-! ## The packet that is sent on -/

/-- What the message that is encoded has in its sections. -/
theorem removeOpt_ofWire (w : Dns.Message) :
    (Message.ofWire w).removeOpt.additionals = (kept w.additionals).map Rr.ofWire := by
  show (w.additionals.map Rr.ofWire).filter _ = (w.additionals.filter _).map Rr.ofWire
  rw [List.filter_map]
  rfl

/-- An option has the address and eight bytes more. -/
theorem edns0SubnetOpt_fits (ip : Net.IpAddr) (size : UInt16) :
    NameFits (edns0SubnetOpt ip size).name ∧ (edns0SubnetOpt ip size).rdata.length ≤ 65535 := by
  have hname : labelsOf (edns0SubnetOpt ip size).name = [] := labelsOf_dot
  refine ⟨?_, ?_⟩
  · rw [NameFits, hname]
    exact fun l hl => absurd hl List.not_mem_nil
  unfold edns0SubnetOpt
  cases ip with
  | v4 ip => simp [Net.Ipv4Addr.octets]
  | v6 ip =>
    have h (segments : List UInt16) :
        (segments.flatMap fun s => be 2 s.toNat).length = 2 * segments.length := by
      induction segments with
      | nil => rfl
      | cons s segments ih =>
        rw [List.flatMap_cons, List.length_append, length_be, ih, List.length_cons]
        omega
    simp [Net.Ipv6Addr.octets, h, ip.eight]

/-- The rewriting is refused for a label that has become too long, and for nothing
else. -/
theorem rewrite_ok_iff {ip : Net.IpAddr} {packet : Bytes} {w : Dns.Message}
    (hw : Dns.ReadsMessage packet w) :
    (∃ out, rewrite ip (Message.ofWire w) = .ok out) ↔ ¬ TooLong (Message.ofWire w) := by
  have hdata : ∀ rr ∈ (Message.ofWire w).answers ++ (Message.ofWire w).authorities
      ++ (Message.ofWire w).removeOpt.additionals, rr.rdata.length ≤ 65535 := by
    obtain ⟨p, q, r, s, -, ha, hn, hx⟩ := hw.body
    have short {p q : Nat} {ws : List Dns.Record} (h : Items (Dns.ReadsRecord packet) p ws q) :
        ∀ rr ∈ ws.map Rr.ofWire, rr.rdata.length ≤ 65535 := by
      intro rr hrr
      obtain ⟨w, hw, rfl⟩ := List.mem_map.mp hrr
      obtain ⟨p, q, hread⟩ := h.mem w hw
      exact Nat.le_of_lt_succ hread.1
    rw [List.forall_mem_append, List.forall_mem_append]
    refine ⟨⟨short ha, short hn⟩, fun rr hrr => ?_⟩
    exact short hx rr (List.mem_of_mem_filter hrr)
  unfold rewrite TooLong
  simp only [Message.encode_ok_iff]
  constructor
  · rintro ⟨hq, hrr⟩ (⟨q, hmem, hlong⟩ | ⟨rr, hmem, hlong⟩)
    · exact hlong (hq q hmem)
    · refine hlong (hrr rr ?_).1
      rw [← List.append_assoc]
      exact List.mem_append_left _ hmem
  · intro h
    obtain ⟨hq, hrr⟩ := not_or.mp h
    refine ⟨fun q hmem => ?_, fun rr hmem => ?_⟩
    · by_contra hlong
      exact hq ⟨q, hmem, hlong⟩
    · rw [← List.append_assoc, List.mem_append] at hmem
      rcases hmem with hmem | hmem
      · refine ⟨?_, hdata rr hmem⟩
        by_contra hlong
        exact hrr ⟨rr, hmem, hlong⟩
      · rw [List.mem_singleton.mp hmem]
        exact edns0SubnetOpt_fits ip _

/-- The message the outbound packet holds. -/
theorem reads_rewrite {ip : Net.IpAddr} {packet out : Bytes} {w : Dns.Message}
    (hw : Dns.ReadsMessage packet w) (h : rewrite ip (Message.ofWire w) = .ok out) :
    ∃ as ns xs opt, List.Forall₂ Rewritten w.answers as ∧ List.Forall₂ Rewritten w.authorities ns
      ∧ List.Forall₂ Rewritten (kept w.additionals) xs ∧ opt.rtype = TYPE_OPT
      ∧ Dns.ReadsMessage out ⟨w.id, w.flags, (w.questions.map Question.ofWire).map Question.toWire,
        as, ns, (xs ++ [opt]).take (((kept w.additionals).length + 1) % 65536)⟩ := by
  unfold rewrite at h
  obtain ⟨as, ns, xs, has, hns, hxs, hreads⟩ := Message.reads_encode h
    (by show (w.questions.map _).length < _; rw [List.length_map]; exact hw.questions)
    (by show (w.answers.map _).length < _; rw [List.length_map]; exact hw.answers)
    (by show (w.authorities.map _).length < _; rw [List.length_map]; exact hw.authorities)
  simp only [removeOpt_ofWire] at hxs hreads
  -- the last record written is the option
  have hfront := (List.forall₂_take_append _ _ _ hxs.flip).flip
  obtain ⟨opt, _, hopt, hnil, hlast⟩ :=
    List.forall₂_cons_right_iff.mp (List.forall₂_drop_append _ _ _ hxs.flip)
  rw [List.forall₂_nil_right_iff.mp hnil] at hlast
  rw [List.length_append, List.length_map,
    ← List.take_append_drop ((kept w.additionals).map Rr.ofWire).length xs, hlast] at hreads
  exact ⟨as, ns, _, opt, rewritten_of_writes has, rewritten_of_writes hns,
    rewritten_of_writes hfront, hopt.2.1, hreads⟩

/-- A record of a message stands in its buffer. -/
theorem at_rdata {buf : Bytes} {w : Dns.Message} (hw : Dns.ReadsMessage buf w) :
    ∀ rr ∈ w.answers ++ w.authorities ++ w.additionals,
      At buf rr.start rr.rdata ∧ ∀ l ∈ rr.name, 0 < l.length := by
  obtain ⟨p, q, r, s, -, ha, hn, hx⟩ := hw.body
  have one {p q : Nat} {ws : List Dns.Record} (h : Items (Dns.ReadsRecord buf) p ws q) :
      ∀ rr ∈ ws, At buf rr.start rr.rdata ∧ ∀ l ∈ rr.name, 0 < l.length := by
    intro rr hrr
    obtain ⟨p, q, -, e, hname, hstart, -, hat⟩ := h.mem rr hrr
    refine ⟨?_, fun l hl => (hname.labels l hl).1⟩
    have hdata := hat.right
    rwa [Dns.Record.length_fixed, ← hstart] at hdata
  rw [List.forall_mem_append, List.forall_mem_append]
  exact ⟨⟨one ha, one hn⟩, one hx⟩

theorem question_labels {buf : Bytes} {w : Dns.Message} (hw : Dns.ReadsMessage buf w) :
    ∀ q ∈ w.questions, ∀ l ∈ q.name, 0 < l.length := by
  obtain ⟨p, -, -, -, hq, -⟩ := hw.body
  intro q hmem l hl
  obtain ⟨p, r, e, hname, -⟩ := hq.mem q hmem
  exact (hname.labels l hl).1

theorem kept_of_opt {ws : List Dns.Record} {opt : Dns.Record} (h : opt.rtype = TYPE_OPT) :
    kept (ws ++ [opt]) = kept ws := by
  unfold kept
  rw [List.filter_append, List.filter_cons_of_neg (by simp [h]), List.filter_nil, List.append_nil]

theorem kept_kept (ws : List Dns.Record) : kept (kept ws) = kept ws := by
  unfold kept
  rw [List.filter_filter]
  simp only [Bool.and_self]

/-- What is sent on says something else if a name is not clean or a record is lost. -/
theorem clean_of_carries {ip : Net.IpAddr} {packet out : Bytes} {w : Dns.Message}
    (hw : Dns.ReadsMessage packet w) (hout : rewrite ip (Message.ofWire w) = .ok out)
    (h : Carries packet out w) : CleanNames w ∧ HasRoom w := by
  obtain ⟨v, hv, hsame⟩ := h
  obtain ⟨as, ns, xs, opt, has, hns, hxs, hopt, hreads⟩ := reads_rewrite hw hout
  obtain rfl := hv.unique hreads
  have hroom : HasRoom w := by
    by_contra hfull
    have hle : (kept w.additionals).length ≤ 65535 :=
      Nat.le_trans (List.length_filter_le _ _) (Nat.le_of_lt_succ hw.additionals)
    have hlen : (kept w.additionals).length = 65535 := by
      unfold HasRoom at hfull
      omega
    have hnone := hsame.additionals.length_eq
    have hzero : (65535 + 1) % 65536 = 0 := by decide
    dsimp only at hnone
    rw [hlen, hzero, List.take_zero] at hnone
    exact absurd hnone (by decide)
  refine ⟨⟨?_, ?_, ?_, ?_⟩, hroom⟩
  · exact (questions_rewritten (question_labels hw)).mp hsame.questions
  · exact clean_of_same (kept_rewritten has) hsame.answers
  · exact clean_of_same (kept_rewritten hns) hsame.authorities
  · have hadd := hsame.additionals
    dsimp only at hadd
    have hxlen := hxs.length_eq
    rw [Nat.mod_eq_of_lt (Nat.succ_lt_succ hroom), hxlen, List.take_of_length_le (by simp),
      kept_of_opt hopt] at hadd
    have hkept := kept_rewritten hxs
    rw [kept_kept] at hkept
    exact clean_of_same hkept hadd

/-- Clean names, room for the new record and data without pointers are enough. -/
theorem carries_of_clean {ip : Net.IpAddr} {packet out : Bytes} {w : Dns.Message}
    (hw : Dns.ReadsMessage packet w) (hout : rewrite ip (Message.ofWire w) = .ok out)
    (hclean : CleanNames w) (hroom : HasRoom w) (hplain : Uncompressed w) :
    Carries packet out w := by
  obtain ⟨as, ns, xs, opt, has, hns, hxs, hopt, hreads⟩ := reads_rewrite hw hout
  have hxlen := hxs.length_eq
  rw [Nat.mod_eq_of_lt (Nat.succ_lt_succ hroom), hxlen,
    List.take_of_length_le (by simp)] at hreads
  have hkept := kept_rewritten hxs
  rw [kept_kept] at hkept
  have hold := at_rdata hw
  have hnew := at_rdata hreads
  simp only [Uncompressed, List.forall_mem_append] at hplain hold hnew
  refine ⟨_, hreads, rfl, rfl, ?_, ?_, ?_, ?_⟩
  · exact (questions_rewritten (question_labels hw)).mpr hclean.questions
  · exact same_of_rewritten (kept_rewritten has) hclean.answers hplain.1.1
      (fun rr hrr => hold.1.1 rr (List.mem_of_mem_filter hrr))
      (fun rr hrr => (hnew.1.1 rr (List.mem_of_mem_filter hrr)).1)
  · exact same_of_rewritten (kept_rewritten hns) hclean.authorities hplain.1.2
      (fun rr hrr => hold.1.2 rr (List.mem_of_mem_filter hrr))
      (fun rr hrr => (hnew.1.2 rr (List.mem_of_mem_filter hrr)).1)
  · show List.Forall₂ _ _ (kept (xs ++ [opt]))
    rw [kept_of_opt hopt]
    exact same_of_rewritten hkept hclean.additionals hplain.2
      (fun rr hrr => hold.2 rr (List.mem_of_mem_filter hrr))
      (fun rr hrr => (hnew.2.1 rr (List.mem_of_mem_filter hrr)).1)

end RtProxy.Resolver
