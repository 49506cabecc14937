import Mathlib.Data.List.Forall2
import RtProxy.Resolver.Names

/-!
The codec and the wire.

`Message.decode` reads the messages of RFC 1035, every one of them, and `Message.encode`
writes one without pointers whose names are the labels of the texts.  A message whose
texts are the spellings of their labels is therefore read back as it was.
-/

namespace RtProxy.Resolver

open Bytes

/-! ## Decoding -/

def Question.ofWire (w : Dns.Question) : Question := ⟨printName w.name, w.qtype, w.qclass⟩

def Rr.ofWire (w : Dns.Record) : Rr := ⟨printName w.name, w.rtype, w.rclass, w.ttl, w.rdata⟩

def Message.ofWire (w : Dns.Message) : Message :=
  { id := w.id, flags := w.flags, questions := w.questions.map Question.ofWire
    answers := w.answers.map Rr.ofWire, authorities := w.authorities.map Rr.ofWire
    additionals := w.additionals.map Rr.ofWire }

theorem Question.decode_eq_ok {buf : Bytes} {p r : Nat} {q : Question} :
    Question.decode buf p = .ok (q, r)
      ↔ ∃ w, Dns.ReadsQuestion buf p w r ∧ q = Question.ofWire w := by
  unfold Question.decode
  rw [Except.bind_eq_ok_iff]
  constructor
  · rintro ⟨⟨name, next⟩, hname, h⟩
    simp only [Except.bind_eq_ok_iff] at h
    obtain ⟨qtype, htype, qclass, hclass, hok⟩ := h
    cases hok
    obtain ⟨ls, hls, rfl⟩ := decodeName_eq_ok.mp hname
    refine ⟨⟨ls, qtype, qclass⟩, ⟨next, hls, rfl, At.append_iff.mpr ⟨be16_eq_ok.mp htype, ?_⟩⟩, rfl⟩
    rw [length_be]
    exact be16_eq_ok.mp hclass
  · rintro ⟨w, ⟨e, hname, rfl, hat⟩, rfl⟩
    refine ⟨⟨printName w.name, e⟩, decodeName_eq_ok.mpr ⟨w.name, hname, rfl⟩, ?_⟩
    simp only [Except.bind_eq_ok_iff]
    have hright := hat.right
    rw [length_be] at hright
    exact ⟨w.qtype, be16_eq_ok.mpr hat.left, w.qclass, be16_eq_ok.mpr hright, rfl⟩

theorem Rr.decode_eq_ok {buf : Bytes} {p r : Nat} {rr : Rr} : Rr.decode buf p = .ok (rr, r)
    ↔ ∃ w, Dns.ReadsRecord buf p w r ∧ rr = Rr.ofWire w := by
  unfold Rr.decode
  rw [Except.bind_eq_ok_iff]
  constructor
  · rintro ⟨⟨name, next⟩, hname, h⟩
    simp only [Except.bind_eq_ok_iff] at h
    obtain ⟨rtype, htype, rclass, hclass, ttl, httl, rdlen, hlen, hok⟩ := h
    split_ifs at hok with hroom
    cases hok
    obtain ⟨ls, hls, rfl⟩ := decodeName_eq_ok.mp hname
    obtain ⟨hdata, hdlen⟩ := at_of_length (Nat.not_lt.mp hroom)
    refine ⟨⟨ls, rtype, rclass, ttl, (buf.drop (next + 10)).take rdlen.toNat, next + 10⟩,
      ⟨?_, next, hls, rfl, by rw [hdlen], ?_⟩, rfl⟩
    · rw [hdlen]
      exact rdlen.toNat_lt
    · simp only [Dns.Record.fixed, hdlen, At.append_iff, List.length_append, length_be]
      exact ⟨⟨⟨⟨be16_eq_ok.mp htype, be16_eq_ok.mp hclass⟩, be32_eq_ok.mp httl⟩,
        be16_eq_ok.mp hlen⟩, hdata⟩
  · rintro ⟨w, ⟨hshort, e, hname, hstart, rfl, hat⟩, rfl⟩
    refine ⟨⟨printName w.name, e⟩, decodeName_eq_ok.mpr ⟨w.name, hname, rfl⟩, ?_⟩
    simp only [Except.bind_eq_ok_iff]
    simp only [Dns.Record.fixed, At.append_iff, List.length_append, length_be] at hat
    obtain ⟨⟨⟨⟨htype, hclass⟩, httl⟩, hlen⟩, hdata⟩ := hat
    have hnat : (UInt16.ofNat w.rdata.length).toNat = w.rdata.length :=
      UInt16.toNat_ofNat_of_lt' hshort
    rw [← hnat] at hlen
    refine ⟨w.rtype, be16_eq_ok.mpr htype, w.rclass, be16_eq_ok.mpr hclass, w.ttl,
      be32_eq_ok.mpr httl, _, be16_eq_ok.mpr hlen, ?_⟩
    have hbefore := hlen.length_le
    have hdlen := hdata.length_le
    rw [length_be] at hbefore
    have htake : (buf.drop (e + 10)).take w.rdata.length = w.rdata := take_eq_of_at hdata
    rw [hnat, if_neg (by omega), htake]
    rfl

/-- The decoder reads the messages that can be read, all of them. -/
theorem Message.decode_eq_ok {buf : Bytes} {m : Message} :
    Message.decode buf = .ok m ↔ ∃ w, Dns.ReadsMessage buf w ∧ m = Message.ofWire w := by
  have questions {p n r : Nat} {qs : List Question} :
      readMany (Question.decode buf) n p = .ok (qs, r)
        ↔ ∃ ws, Items (Dns.ReadsQuestion buf) p ws r ∧ qs = ws.map Question.ofWire
          ∧ ws.length = n := by
    rw [readMany_eq_ok]
    simp only [Question.decode_eq_ok, Items.map_iff]
    constructor
    · rintro ⟨⟨ws, hws, rfl⟩, hlen⟩
      exact ⟨ws, hws, rfl, by rw [← hlen, List.length_map]⟩
    · rintro ⟨ws, hws, rfl, hlen⟩
      exact ⟨⟨ws, hws, rfl⟩, by rw [List.length_map, hlen]⟩
  have records {p n r : Nat} {rrs : List Rr} :
      readMany (Rr.decode buf) n p = .ok (rrs, r)
        ↔ ∃ ws, Items (Dns.ReadsRecord buf) p ws r ∧ rrs = ws.map Rr.ofWire
          ∧ ws.length = n := by
    rw [readMany_eq_ok]
    simp only [Rr.decode_eq_ok, Items.map_iff]
    constructor
    · rintro ⟨⟨ws, hws, rfl⟩, hlen⟩
      exact ⟨ws, hws, rfl, by rw [← hlen, List.length_map]⟩
    · rintro ⟨ws, hws, rfl, hlen⟩
      exact ⟨⟨ws, hws, rfl⟩, by rw [List.length_map, hlen]⟩
  unfold Message.decode
  constructor
  · intro h
    split_ifs at h with hshort
    simp only [Except.bind_eq_ok_iff] at h
    obtain ⟨id, hid, flags, hflags, qd, hqd, an, han, ns, hns, ar, har, ⟨qs, p⟩, hqs, h⟩ := h
    simp only at h
    obtain ⟨⟨answers, q⟩, hanswers, h⟩ := h
    simp only at h
    obtain ⟨⟨authorities, r⟩, hauthorities, h⟩ := h
    simp only at h
    obtain ⟨⟨additionals, s⟩, hadditionals, h⟩ := h
    cases h
    obtain ⟨wqs, hwqs, rfl, hqlen⟩ := questions.mp hqs
    obtain ⟨was, hwas, rfl, halen⟩ := records.mp hanswers
    obtain ⟨wns, hwns, rfl, hnlen⟩ := records.mp hauthorities
    obtain ⟨wxs, hwxs, rfl, hxlen⟩ := records.mp hadditionals
    refine ⟨⟨id, flags, wqs, was, wns, wxs⟩, ⟨?_, ?_, ?_, ?_, ?_, p, q, r, s, hwqs, hwas, hwns,
      hwxs⟩, rfl⟩
    · rw [hqlen]; exact qd.toNat_lt
    · rw [halen]; exact an.toNat_lt
    · rw [hnlen]; exact ns.toNat_lt
    · rw [hxlen]; exact ar.toNat_lt
    · simp only [Dns.Message.header, hqlen, halen, hnlen, hxlen, At.append_iff,
        List.length_append, length_be]
      exact ⟨⟨⟨⟨⟨be16_eq_ok.mp hid, be16_eq_ok.mp hflags⟩, be16_eq_ok.mp hqd⟩,
        be16_eq_ok.mp han⟩, be16_eq_ok.mp hns⟩, be16_eq_ok.mp har⟩
  · rintro ⟨w, h, rfl⟩
    obtain ⟨p, q, r, s, hqs, hanswers, hauthorities, hadditionals⟩ := h.body
    have hle := h.header.length_le
    have hheader := h.header
    have hq : (UInt16.ofNat w.questions.length).toNat = w.questions.length :=
      UInt16.toNat_ofNat_of_lt' h.questions
    have ha : (UInt16.ofNat w.answers.length).toNat = w.answers.length :=
      UInt16.toNat_ofNat_of_lt' h.answers
    have hn : (UInt16.ofNat w.authorities.length).toNat = w.authorities.length :=
      UInt16.toNat_ofNat_of_lt' h.authorities
    have hx : (UInt16.ofNat w.additionals.length).toNat = w.additionals.length :=
      UInt16.toNat_ofNat_of_lt' h.additionals
    rw [Dns.Message.header, ← hq, ← ha, ← hn, ← hx] at hheader
    simp only [At.append_iff, List.length_append, length_be] at hheader
    obtain ⟨⟨⟨⟨⟨hid, hflags⟩, hqd⟩, han⟩, hns⟩, har⟩ := hheader
    rw [Dns.Message.length_header] at hle
    rw [if_neg (by omega)]
    simp only [Except.bind_eq_ok_iff]
    refine ⟨_, be16_eq_ok.mpr hid, _, be16_eq_ok.mpr hflags, _, be16_eq_ok.mpr hqd, _,
      be16_eq_ok.mpr han, _, be16_eq_ok.mpr hns, _, be16_eq_ok.mpr har, ⟨_, p⟩,
      questions.mpr ⟨_, hqs, rfl, hq.symm⟩, ?_⟩
    simp only
    refine ⟨⟨_, q⟩, records.mpr ⟨_, hanswers, rfl, ha.symm⟩, ?_⟩
    simp only
    refine ⟨⟨_, r⟩, records.mpr ⟨_, hauthorities, rfl, hn.symm⟩, ?_⟩
    simp only
    exact ⟨⟨_, s⟩, records.mpr ⟨_, hadditionals, rfl, hx.symm⟩, rfl⟩

/-! ## Encoding -/

/-- What a question is on the wire. -/
def Question.toWire (q : Question) : Dns.Question := ⟨labelsOf q.name, q.qtype, q.qclass⟩

/-- What a record is on the wire; where its data stand is not its own choice. -/
def Rr.Writes (rr : Rr) (w : Dns.Record) : Prop :=
  w.name = labelsOf rr.name ∧ w.rtype = rr.rtype ∧ w.rclass = rr.rclass ∧ w.ttl = rr.ttl
    ∧ w.rdata = rr.rdata

theorem readsName_encodeName {buf name : Bytes} {text : String} {p : Nat}
    (h : encodeName text = .ok name) (hat : At buf p name) :
    Dns.ReadsName buf True p (labelsOf text) (p + name.length) := by
  obtain ⟨hlen, rfl⟩ := encodeName_eq_ok.mp h
  exact .encode (fun l hl => ⟨(labelsOf_clean l hl).2, hlen l hl⟩) hat

theorem Question.reads_encode {buf bs : Bytes} {q : Question} {p : Nat} (h : q.encode = .ok bs)
    (hat : At buf p bs) : Dns.ReadsQuestion buf p q.toWire (p + bs.length) := by
  unfold Question.encode at h
  simp only [Except.bind_eq_ok_iff, Except.ok.injEq] at h
  obtain ⟨name, hname, rfl⟩ := h
  refine ⟨p + name.length, readsName_encodeName hname hat.left, ?_, hat.right⟩
  simp only [List.length_append, length_be]
  omega

theorem Rr.reads_encode {buf bs : Bytes} {rr : Rr} {p : Nat} (h : rr.encode = .ok bs)
    (hat : At buf p bs) : ∃ w, rr.Writes w ∧ Dns.ReadsRecord buf p w (p + bs.length) := by
  unfold Rr.encode at h
  rw [Except.bind_eq_ok_iff] at h
  obtain ⟨name, hname, h⟩ := h
  split_ifs at h with hlong
  cases h
  refine ⟨⟨labelsOf rr.name, rr.rtype, rr.rclass, rr.ttl, rr.rdata, p + name.length + 10⟩,
    ⟨rfl, rfl, rfl, rfl, rfl⟩, by show rr.rdata.length < 65536; omega, p + name.length,
    readsName_encodeName hname hat.left, rfl, ?_, hat.right⟩
  simp only [List.length_append, length_be]
  omega

/-- A section is read as what its items were written as. -/
theorem reads_encodeAll {α β : Type} {buf : Bytes} {f : α → Except String Bytes}
    {writes : α → β → Prop} {read : Nat → β → Nat → Prop}
    (hf : ∀ a bs p, f a = .ok bs → At buf p bs → ∃ b, writes a b ∧ read p b (p + bs.length))
    {as : List α} {bs : Bytes} {p : Nat} (h : encodeAll f as = .ok bs) (hat : At buf p bs) :
    ∃ ws, List.Forall₂ writes as ws ∧ Items read p ws (p + bs.length) := by
  induction as generalizing bs p with
  | nil =>
    cases h
    exact ⟨[], .nil, .nil p⟩
  | cons a as ih =>
    obtain ⟨first, more, hfirst, hmore, rfl⟩ := encodeAll_cons.mp h
    obtain ⟨w, hw, hread⟩ := hf a first p hfirst hat.left
    obtain ⟨ws, hws, hreads⟩ := ih hmore hat.right
    rw [List.length_append, ← Nat.add_assoc]
    exact ⟨w :: ws, .cons hw hws, .cons hread hreads⟩

theorem be_two_mod (n : Nat) : be 2 (n % 65536) = be 2 n := by
  have hlow : n % 65536 % 256 = n % 256 := by omega
  have hhigh : n % 65536 / 256 % 256 = n / 256 % 256 := by omega
  simp only [be, le, hlow, hhigh]

/-- What an encoded message reads as.  The count of the additional records is cut to
sixteen bits, and so are then the records. -/
theorem Message.reads_encode {m : Message} {bs : Bytes} (h : m.encode = .ok bs)
    (hq : m.questions.length < 65536) (ha : m.answers.length < 65536)
    (hn : m.authorities.length < 65536) :
    ∃ as ns xs, List.Forall₂ Rr.Writes m.answers as ∧ List.Forall₂ Rr.Writes m.authorities ns
      ∧ List.Forall₂ Rr.Writes m.additionals xs
      ∧ Dns.ReadsMessage bs ⟨m.id, m.flags, m.questions.map Question.toWire, as, ns,
        xs.take (m.additionals.length % 65536)⟩ := by
  unfold Message.encode at h
  simp only [Except.bind_eq_ok_iff, Except.ok.injEq] at h
  obtain ⟨bq, hbq, ba, hba, bn, hbn, bx, hbx, hbs⟩ := h
  have hat : At bs 0 (m.header ++ bq ++ ba ++ bn ++ bx) := by
    rw [hbs]
    exact List.prefix_rfl
  have hheader : m.header.length = 12 := by simp [Message.header]
  simp only [At.append_iff, List.length_append, hheader, Nat.zero_add] at hat
  obtain ⟨⟨⟨⟨hat0, hatq⟩, hata⟩, hatn⟩, hatx⟩ := hat
  have hquestions : ∃ qs, List.Forall₂ (fun q w => q.toWire = w) m.questions qs
      ∧ Items (Dns.ReadsQuestion bs) 12 qs (12 + bq.length) :=
    reads_encodeAll (fun q bs p h hat => ⟨_, rfl, Question.reads_encode h hat⟩) hbq hatq
  obtain ⟨qs, hqs, hqread⟩ := hquestions
  obtain ⟨as, has, haread⟩ := reads_encodeAll (fun rr bs p => Rr.reads_encode) hba hata
  obtain ⟨ns, hns, hnread⟩ := reads_encodeAll (fun rr bs p => Rr.reads_encode) hbn hatn
  obtain ⟨xs, hxs, hxread⟩ := reads_encodeAll (fun rr bs p => Rr.reads_encode) hbx hatx
  have hqs' : m.questions.map Question.toWire = qs := by
    rw [← List.forall₂_map_left_iff, List.forall₂_eq_eq_eq] at hqs
    exact hqs
  obtain ⟨r, hxread⟩ := hxread.take (m.additionals.length % 65536)
  refine ⟨as, ns, xs, has, hns, hxs, ?_⟩
  have hlen : (xs.take (m.additionals.length % 65536)).length = m.additionals.length % 65536 := by
    rw [List.length_take, ← hxs.length_eq]
    exact Nat.min_eq_left (Nat.mod_le _ _)
  constructor
  · rwa [List.length_map]
  · rwa [← has.length_eq]
  · rwa [← hns.length_eq]
  · rw [hlen]
    exact Nat.mod_lt _ (by decide)
  · show At bs 0 (Dns.Message.header _)
    unfold Dns.Message.header
    simp only [List.length_map, ← has.length_eq, ← hns.length_eq, hlen, be_two_mod]
    exact hat0
  · rw [← hqs'] at hqread
    exact ⟨_, _, _, r, hqread, haread, hnread, hxread⟩

/-! ## Round trip -/

/-- Each label with a dot after it. -/
def dotted : List String → String
  | [] => ""
  | label :: labels => label ++ "." ++ dotted labels

/-- The root, or labels that fit and have no dot, each followed by one. -/
def IsName (name : String) : Prop :=
  name = "." ∨ ∃ labels : List String, labels ≠ [] ∧ name = dotted labels
    ∧ ∀ label ∈ labels, label ≠ "" ∧ (Text.utf8 label).length ≤ 63 ∧ '.' ∉ label.toList

theorem labelsOf_dotted {labels : List String}
    (h : ∀ label ∈ labels, label ≠ "" ∧ (Text.utf8 label).length ≤ 63 ∧ '.' ∉ label.toList) :
    labelsOf (dotted labels) = labels.map Text.utf8
      ∧ labelText (labels.map Text.utf8) = dotted labels := by
  induction labels with
  | nil => exact ⟨labelsOf_empty, rfl⟩
  | cons label labels ih =>
    obtain ⟨hne, -, hdot⟩ := h label List.mem_cons_self
    obtain ⟨hof, htext⟩ := ih fun l hl => h l (List.mem_cons_of_mem _ hl)
    rw [dotted, labelsOf_cons hne hdot, hof, List.map_cons, labelText, htext,
      Text.fromUtf8Lossy_utf8]
    exact ⟨rfl, rfl⟩

/-- A name in good form is the spelling of its labels, and they fit. -/
theorem IsName.labels {name : String} (h : IsName name) :
    printName (labelsOf name) = name ∧ ∀ l ∈ labelsOf name, l.length < 64 := by
  rcases h with rfl | ⟨labels, hne, rfl, hlabels⟩
  · rw [labelsOf_dot]
    exact ⟨rfl, fun l hl => absurd hl List.not_mem_nil⟩
  · obtain ⟨hof, htext⟩ := labelsOf_dotted hlabels
    rw [hof]
    constructor
    · unfold printName
      rw [if_neg (fun h => hne (List.map_eq_nil_iff.mp (labelText_eq_empty.mp h))), htext]
    · intro l hl
      obtain ⟨label, hlabel, rfl⟩ := List.mem_map.mp hl
      have hlen := (hlabels label hlabel).2.1
      omega

/-- The messages the wire has room for. -/
structure Message.Fits (m : Message) : Prop where
  questions : m.questions.length ≤ 65535
  answers : m.answers.length ≤ 65535
  authorities : m.authorities.length ≤ 65535
  additionals : m.additionals.length ≤ 65535
  asked : ∀ q ∈ m.questions, IsName q.name
  records : ∀ rr ∈ m.answers ++ m.authorities ++ m.additionals,
    IsName rr.name ∧ rr.rdata.length ≤ 65535

/-- The labels of a name fit. -/
def NameFits (name : String) : Prop := ∀ l ∈ labelsOf name, l.length < 64

theorem encodeAll_ok_iff {α : Type} {f : α → Except String Bytes} {as : List α} :
    (∃ bs, encodeAll f as = .ok bs) ↔ ∀ a ∈ as, ∃ bs, f a = .ok bs := by
  induction as with
  | nil => exact iff_of_true ⟨[], rfl⟩ fun a ha => absurd ha List.not_mem_nil
  | cons a as ih =>
    rw [List.forall_mem_cons, ← ih]
    constructor
    · rintro ⟨bs, h⟩
      obtain ⟨first, more, hfirst, hmore, -⟩ := encodeAll_cons.mp h
      exact ⟨⟨first, hfirst⟩, ⟨more, hmore⟩⟩
    · rintro ⟨⟨first, hfirst⟩, ⟨more, hmore⟩⟩
      exact ⟨_, encodeAll_cons.mpr ⟨first, more, hfirst, hmore, rfl⟩⟩

theorem Question.encode_ok_iff {q : Question} : (∃ bs, q.encode = .ok bs) ↔ NameFits q.name := by
  constructor
  · rintro ⟨bs, h⟩
    obtain ⟨name, hname, -⟩ := Except.bind_eq_ok_iff.mp h
    exact (encodeName_eq_ok.mp hname).1
  · intro h
    have hname := encodeName_eq_ok.mpr ⟨h, rfl⟩
    unfold Question.encode
    rw [hname]
    exact ⟨_, rfl⟩

theorem Rr.encode_ok_iff {rr : Rr} :
    (∃ bs, rr.encode = .ok bs) ↔ NameFits rr.name ∧ rr.rdata.length ≤ 65535 := by
  constructor
  · rintro ⟨bs, h⟩
    obtain ⟨name, hname, h⟩ := Except.bind_eq_ok_iff.mp h
    refine ⟨(encodeName_eq_ok.mp hname).1, ?_⟩
    split_ifs at h with hlong
    exact Nat.not_lt.mp hlong
  · rintro ⟨h, hlen⟩
    have hname := encodeName_eq_ok.mpr ⟨h, rfl⟩
    unfold Rr.encode
    rw [hname]
    exact ⟨_, if_neg (Nat.not_lt.mpr hlen)⟩

/-- A message is refused for a label or for data that do not fit. -/
theorem Message.encode_ok_iff {m : Message} : (∃ bs, m.encode = .ok bs)
    ↔ (∀ q ∈ m.questions, NameFits q.name)
      ∧ ∀ rr ∈ m.answers ++ m.authorities ++ m.additionals,
        NameFits rr.name ∧ rr.rdata.length ≤ 65535 := by
  simp only [← Question.encode_ok_iff, ← Rr.encode_ok_iff, List.forall_mem_append,
    ← encodeAll_ok_iff]
  unfold Message.encode
  constructor
  · rintro ⟨bs, h⟩
    simp only [Except.bind_eq_ok_iff] at h
    obtain ⟨bq, hbq, ba, hba, bn, hbn, bx, hbx, -⟩ := h
    exact ⟨⟨bq, hbq⟩, ⟨⟨ba, hba⟩, ⟨bn, hbn⟩⟩, ⟨bx, hbx⟩⟩
  · rintro ⟨⟨bq, hbq⟩, ⟨⟨ba, hba⟩, ⟨bn, hbn⟩⟩, ⟨bx, hbx⟩⟩
    rw [hbq, hba, hbn, hbx]
    exact ⟨_, rfl⟩

theorem Question.ofWire_toWire {q : Question} (h : IsName q.name) :
    Question.ofWire q.toWire = q := by
  show Question.mk (printName (labelsOf q.name)) q.qtype q.qclass = q
  rw [h.labels.1]

theorem Rr.ofWire_of_writes {rrs : List Rr} {ws : List Dns.Record}
    (h : List.Forall₂ Rr.Writes rrs ws) (hnames : ∀ rr ∈ rrs, IsName rr.name) :
    ws.map Rr.ofWire = rrs := by
  induction h with
  | nil => rfl
  | cons hw _ ih =>
    obtain ⟨hname, htype, hclass, httl, hdata⟩ := hw
    rw [List.map_cons, ih fun rr hrr => hnames rr (List.mem_cons_of_mem _ hrr), Rr.ofWire, hname,
      htype, hclass, httl, hdata, (hnames _ List.mem_cons_self).labels.1]

/-- Every message that fits is encoded, and read back as it was. -/
theorem Message.decodes_encoded {m : Message} (h : m.Fits) :
    ∃ bs, m.encode = .ok bs ∧ Message.decode bs = .ok m := by
  obtain ⟨bs, hbs⟩ := Message.encode_ok_iff.mpr ⟨fun q hq => (h.asked q hq).labels.2,
    fun rr hrr => ⟨(h.records rr hrr).1.labels.2, (h.records rr hrr).2⟩⟩
  refine ⟨bs, hbs, ?_⟩
  obtain ⟨as, ns, xs, has, hns, hxs, hreads⟩ := Message.reads_encode hbs
    (Nat.lt_succ_of_le h.questions) (Nat.lt_succ_of_le h.answers)
    (Nat.lt_succ_of_le h.authorities)
  refine Message.decode_eq_ok.mpr ⟨_, hreads, ?_⟩
  have hall : xs.take (m.additionals.length % 65536) = xs := by
    have hx := h.additionals
    rw [Nat.mod_eq_of_lt (by omega), hxs.length_eq, List.take_length]
  have hquestions : (m.questions.map Question.toWire).map Question.ofWire = m.questions := by
    rw [List.map_map]
    refine (List.map_congr_left fun q hq => ?_).trans (List.map_id _)
    exact Question.ofWire_toWire (h.asked q hq)
  rw [hall, Message.ofWire]
  simp only [hquestions]
  rw [Rr.ofWire_of_writes has fun rr hrr =>
      (h.records rr (List.mem_append_left _ (List.mem_append_left _ hrr))).1,
    Rr.ofWire_of_writes hns fun rr hrr =>
      (h.records rr (List.mem_append_left _ (List.mem_append_right _ hrr))).1,
    Rr.ofWire_of_writes hxs fun rr hrr =>
      (h.records rr (List.mem_append_right _ hrr)).1]

/-- A reply with the address of `a.b`, its name server, and a client-subnet option. -/
def subnetReply : Message where
  id := 7
  flags := 0x8180
  questions := [⟨"a.b.", TYPE_A, CLASS_IN⟩]
  answers := [⟨"a.b.", TYPE_A, CLASS_IN, 60, [10, 0, 0, 1]⟩]
  authorities := [⟨"b.", 2, CLASS_IN, 60, [2, 110, 115, 0]⟩]
  additionals := [⟨".", TYPE_OPT, 4096, 0, [0, 8, 0, 7, 0, 1, 24, 0, 10, 0, 0]⟩]

theorem Message.decodes_encoded_reply :
    ∃ bs, subnetReply.encode = .ok bs ∧ Message.decode bs = .ok subnetReply := by
  have hname (labels : List String) (hne : labels ≠ [])
      (h : ∀ label ∈ labels, label ≠ "" ∧ (Text.utf8 label).length ≤ 63 ∧ '.' ∉ label.toList) :
      IsName (dotted labels) := .inr ⟨labels, hne, rfl, h⟩
  have hab : IsName "a.b." := hname ["a", "b"] (by decide) (by decide)
  refine Message.decodes_encoded ⟨by decide, by decide, by decide, by decide, ?_, ?_⟩
  · exact List.forall_mem_singleton.mpr hab
  · have hb : IsName "b." := hname ["b"] (by decide) (by decide)
    show ∀ rr ∈ [_, _, _], _
    simp only [List.forall_mem_cons]
    exact ⟨⟨hab, by decide⟩, ⟨hb, by decide⟩, ⟨.inl rfl, by decide⟩, List.forall_mem_nil _⟩

end RtProxy.Resolver
