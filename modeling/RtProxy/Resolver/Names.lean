import RtProxy.Resolver.Message

/-!
Names as the codec reads and writes them.

Reading a name follows RFC 1035 to the letter: the loop accepts what `ReadsName` reads
and nothing else, and its budget refuses no name.  What is lost is in the text, where
the bytes of a label become characters and its dots become separators.
-/

namespace RtProxy.Resolver

open Bytes

/-! ## Fields -/

theorem be32_bytes {bs : Bytes} (h : bs.length = 4) :
    be 4 (UInt32.ofNat (beNat bs)).toNat = bs := by
  have hlt := beNat_lt bs
  rw [h] at hlt
  rw [UInt32.toNat_ofNat_of_lt' hlt, be_of_length h]

theorem ofNat_beNat_be32 (x : UInt32) : UInt32.ofNat (beNat (be 4 x.toNat)) = x := by
  rw [beNat_be x.toNat_lt, UInt32.ofNat_toNat]

/-- What a fixed-width field reads. -/
theorem take_eq_of_at {buf bs : Bytes} {pos : Nat} (h : At buf pos bs) :
    (buf.drop pos).take bs.length = bs := (List.prefix_iff_eq_take.mp h).symm

theorem at_of_length {buf : Bytes} {pos n : Nat} (h : pos + n ≤ buf.length) :
    At buf pos ((buf.drop pos).take n) ∧ ((buf.drop pos).take n).length = n := by
  refine ⟨List.take_prefix n _, ?_⟩
  rw [List.length_take, List.length_drop]
  omega

theorem be16_eq_ok {buf : Bytes} {pos : Nat} {x : UInt16} :
    be16 buf pos = .ok x ↔ At buf pos (be 2 x.toNat) := by
  unfold be16
  constructor
  · intro h
    split_ifs at h with hlen
    cases h
    obtain ⟨hat, hlen⟩ := at_of_length (Nat.not_lt.mp hlen)
    rwa [be_port hlen]
  · intro h
    have hle := h.length_le
    have htake := take_eq_of_at h
    rw [length_be] at hle htake
    rw [if_neg (by omega), htake, ofNat_beNat_port]

theorem be32_eq_ok {buf : Bytes} {pos : Nat} {x : UInt32} :
    be32 buf pos = .ok x ↔ At buf pos (be 4 x.toNat) := by
  unfold be32
  constructor
  · intro h
    split_ifs at h with hlen
    cases h
    obtain ⟨hat, hlen⟩ := at_of_length (Nat.not_lt.mp hlen)
    rwa [be32_bytes hlen]
  · intro h
    have hle := h.length_le
    have htake := take_eq_of_at h
    rw [length_be] at hle htake
    rw [if_neg (by omega), htake, ofNat_beNat_be32]

/-! ## The text of a name -/

/-- Each label with a dot after it. -/
def labelText : List Dns.Label → String
  | [] => ""
  | l :: ls => Text.fromUtf8Lossy l ++ "." ++ labelText ls

/-- How a name on the wire is spelled. -/
def printName (ls : List Dns.Label) : String :=
  if labelText ls = "" then "." else labelText ls

/-- The labels a text is written as. -/
def labelsOf (name : String) : List Dns.Label :=
  ((Text.split name '.').filter (· ≠ "")).map Text.utf8

/-- A label that its text tells: some text without a dot. -/
def Clean (l : Dns.Label) : Prop := ∃ s : String, Text.utf8 s = l ∧ '.' ∉ s.toList

theorem Clean.utf8_lossy {l : Dns.Label} (h : Clean l) : Text.utf8 (Text.fromUtf8Lossy l) = l := by
  obtain ⟨s, rfl, -⟩ := h
  rw [Text.fromUtf8Lossy_utf8]

theorem Clean.dot_notMem {l : Dns.Label} (h : Clean l) : '.' ∉ (Text.fromUtf8Lossy l).toList := by
  obtain ⟨s, rfl, hdot⟩ := h
  rwa [Text.fromUtf8Lossy_utf8]

theorem labelsOf_clean {name : String} : ∀ l ∈ labelsOf name, Clean l ∧ 0 < l.length := by
  intro l hl
  obtain ⟨s, hs, rfl⟩ := List.mem_map.mp hl
  obtain ⟨hmem, hne⟩ := List.mem_filter.mp hs
  obtain ⟨piece, hpiece, rfl⟩ := List.mem_map.mp hmem
  refine ⟨⟨_, rfl, ?_⟩, ?_⟩
  · rw [String.toList_ofList]
    exact Text.not_mem_of_mem_pieces hpiece
  · refine List.length_pos_iff.mpr fun hnil => ?_
    rw [Text.utf8_eq_nil] at hnil
    exact of_decide_eq_true hne hnil

theorem labelsOf_empty : labelsOf "" = [] := rfl

theorem labelsOf_dot : labelsOf "." = [] := rfl

theorem labelsOf_cons {label : String} (hne : label ≠ "") (hdot : '.' ∉ label.toList)
    (rest : String) : labelsOf (label ++ "." ++ rest) = Text.utf8 label :: labelsOf rest := by
  have hlist : (label ++ "." ++ rest).toList = label.toList ++ '.' :: rest.toList := by
    rw [String.toList_append, String.toList_append, List.append_assoc]
    rfl
  have hof : String.ofList label.toList = label := String.ofList_toList
  unfold labelsOf Text.split
  rw [hlist, Text.pieces_append hdot, List.map_cons, hof,
    List.filter_cons_of_pos (by simpa using hne), List.map_cons]

theorem labelText_eq_empty {ls : List Dns.Label} : labelText ls = "" ↔ ls = [] := by
  cases ls with
  | nil => exact iff_of_true rfl rfl
  | cons l ls =>
    refine iff_of_false (fun h => ?_) (List.cons_ne_nil _ _)
    have hlist := congrArg String.toList h
    rw [labelText, String.toList_append, String.toList_append] at hlist
    have hlen := congrArg List.length hlist
    rw [List.length_append, List.length_append] at hlen
    have hdot : ".".toList.length = 1 := rfl
    have hempty : "".toList.length = 0 := rfl
    omega

/-- The labels of a printed name, when all of them are clean, are the labels. -/
theorem labelsOf_printName {ls : List Dns.Label} (h : ∀ l ∈ ls, Clean l ∧ 0 < l.length) :
    labelsOf (printName ls) = ls := by
  have htext : labelsOf (labelText ls) = ls := by
    induction ls with
    | nil => exact labelsOf_empty
    | cons l ls ih =>
      obtain ⟨hclean, hpos⟩ := h l List.mem_cons_self
      have hne : Text.fromUtf8Lossy l ≠ "" := by
        intro hnil
        rw [← Text.utf8_eq_nil, hclean.utf8_lossy] at hnil
        rw [hnil] at hpos
        exact Nat.lt_irrefl 0 hpos
      rw [labelText, labelsOf_cons hne hclean.dot_notMem, hclean.utf8_lossy,
        ih fun l hl => h l (List.mem_cons_of_mem _ hl)]
  unfold printName
  split_ifs with hempty
  · rw [labelText_eq_empty.mp hempty]
    exact labelsOf_dot
  · exact htext

/-- A printed name is written as its labels if and only if they are clean. -/
theorem labelsOf_printName_iff {ls : List Dns.Label} (hpos : ∀ l ∈ ls, 0 < l.length) :
    labelsOf (printName ls) = ls ↔ ∀ l ∈ ls, Clean l := by
  constructor
  · intro h l hl
    rw [← h] at hl
    exact (labelsOf_clean l hl).1
  · intro h
    exact labelsOf_printName fun l hl => ⟨h l hl, hpos l hl⟩

/-! ## Writing -/

theorem encodeLabel_eq_ok {label : String} {bs : Bytes} : encodeLabel label = .ok bs
    ↔ (Text.utf8 label).length < 64
      ∧ bs = UInt8.ofNat (Text.utf8 label).length :: Text.utf8 label := by
  unfold encodeLabel
  split_ifs with h
  · refine iff_of_false (fun hok => nomatch hok) fun hlen => ?_
    omega
  · rw [Except.ok.injEq, eq_comm]
    exact ⟨fun hbs => ⟨by omega, hbs⟩, fun hbs => hbs.2⟩

theorem encodeAll_cons {α : Type} {f : α → Except String Bytes} {a : α} {as : List α}
    {bs : Bytes} : encodeAll f (a :: as) = .ok bs
      ↔ ∃ first more, f a = .ok first ∧ encodeAll f as = .ok more ∧ bs = first ++ more := by
  rw [encodeAll]
  simp only [Except.bind_eq_ok_iff, Except.ok.injEq]
  constructor
  · rintro ⟨first, hfirst, more, hmore, rfl⟩
    exact ⟨first, more, hfirst, hmore, rfl⟩
  · rintro ⟨first, more, hfirst, hmore, rfl⟩
    exact ⟨first, hfirst, more, hmore, rfl⟩

/-- A name is refused for a long label only, and otherwise written as its labels. -/
theorem encodeName_eq_ok {name : String} {bs : Bytes} : encodeName name = .ok bs
    ↔ (∀ l ∈ labelsOf name, l.length < 64) ∧ bs = Dns.encodeLabels (labelsOf name) := by
  unfold encodeName labelsOf
  simp only [Except.bind_eq_ok_iff, Except.ok.injEq]
  generalize (Text.split name '.').filter (· ≠ "") = parts
  induction parts generalizing bs with
  | nil =>
    constructor
    · rintro ⟨labels, h, rfl⟩
      cases h
      exact ⟨fun l hl => absurd hl List.not_mem_nil, rfl⟩
    · rintro ⟨-, rfl⟩
      exact ⟨[], rfl, rfl⟩
  | cons part parts ih =>
    rw [List.map_cons, Dns.encodeLabels, List.forall_mem_cons]
    constructor
    · rintro ⟨labels, h, rfl⟩
      obtain ⟨first, more, hfirst, hmore, rfl⟩ := encodeAll_cons.mp h
      obtain ⟨hlen, rfl⟩ := encodeLabel_eq_ok.mp hfirst
      obtain ⟨hrest, hbs⟩ := ih.mp ⟨more, hmore, rfl⟩
      exact ⟨⟨hlen, hrest⟩, by rw [List.append_assoc, hbs]⟩
    · rintro ⟨⟨hlen, hrest⟩, rfl⟩
      obtain ⟨more, hmore, hbs⟩ := ih.mpr ⟨hrest, rfl⟩
      exact ⟨_, encodeAll_cons.mpr ⟨_, more, encodeLabel_eq_ok.mpr ⟨hlen, rfl⟩, hmore, rfl⟩,
        by rw [List.append_assoc, hbs]⟩

/-! ## Reading -/

theorem mask_length : ∀ n < 64, 0 < n → UInt8.ofNat n ≠ 0 ∧ UInt8.ofNat n &&& 0xC0 = 0 := by
  decide

theorem mask_pointer : ∀ n < 256, 0xC0 ≤ n → UInt8.ofNat n ≠ 0 ∧ UInt8.ofNat n &&& 0xC0 ≠ 0
    ∧ UInt8.ofNat n &&& 0xC0 = 0xC0 ∧ (UInt8.ofNat n &&& 0x3F).toNat = n - 0xC0 := by
  decide +kernel

theorem lt_of_mask : ∀ n < 256, UInt8.ofNat n &&& 0xC0 = 0 → n < 64 := by
  decide +kernel

theorem le_of_mask : ∀ n < 256, UInt8.ofNat n &&& 0xC0 = 0xC0 → 0xC0 ≤ n := by
  decide +kernel

/-- The fourteen bits of a pointer. -/
theorem pointer_eq {hi : UInt8} (h : 0xC0 ≤ hi) (lo : UInt8) :
    (hi &&& 0x3F).toNat <<< 8 ||| lo.toNat = (hi.toNat - 0xC0) * 256 + lo.toNat := by
  obtain ⟨-, -, -, hbits⟩ := mask_pointer hi.toNat hi.toNat_lt (UInt8.le_iff_toNat_le.mp h)
  rw [UInt8.ofNat_toNat] at hbits
  rw [hbits, ← Nat.shiftLeft_add_eq_or_of_lt lo.toNat_lt, Nat.shiftLeft_eq]

theorem append_labelText (name : String) (l : Dns.Label) (ls : List Dns.Label) :
    name ++ labelText (l :: ls) = name ++ Text.fromUtf8Lossy l ++ "." ++ labelText ls := by
  rw [labelText, String.append_assoc, String.append_assoc, String.append_assoc]

/-- A name that can be read is read, whatever has been read before it. -/
theorem decodeNameLoop_of_nameIn {buf : Bytes} {n pos q : Nat} {ls : List Dns.Label}
    (h : Dns.NameIn buf True n pos ls q) {budget : Nat} (hb : n ≤ budget) (name : String)
    (endPos : Nat) (jumped : Bool) : decodeNameLoop buf budget name pos endPos jumped
      = .ok (if name ++ labelText ls = "" then "." else name ++ labelText ls,
        if jumped then endPos else q) := by
  induction h generalizing budget name endPos jumped with
  | root hat =>
    obtain ⟨b, rfl⟩ : ∃ b, budget = b + 1 := ⟨budget - 1, by omega⟩
    rw [decodeNameLoop, At.singleton_iff.mp hat, labelText, String.append_empty]
    rfl
  | @label n p q l ls hpos hlen hat _ ih =>
    obtain ⟨b, rfl⟩ : ∃ b, budget = b + 1 := ⟨budget - 1, by omega⟩
    obtain ⟨hbyte, hbytes⟩ := At.cons_iff.mp hat
    obtain ⟨hzero, hmask⟩ := mask_length l.length hlen hpos
    have hnat := Dns.NameIn.toNat_length hlen
    have hroom := hbytes.length_le
    rw [decodeNameLoop, hbyte]
    simp only [hnat]
    rw [if_neg hzero, if_pos hmask, if_neg (by omega), take_eq_of_at hbytes,
      ih (by omega), append_labelText]
  | @pointer n p q hi lo ls _ hhi hat more ih =>
    obtain ⟨b, rfl⟩ : ∃ b, budget = b + 1 := ⟨budget - 1, by omega⟩
    obtain ⟨hbyte, hrest⟩ := At.cons_iff.mp hat
    obtain ⟨hzero, hnot, hmask, -⟩ :=
      mask_pointer hi.toNat hi.toNat_lt (UInt8.le_iff_toNat_le.mp hhi)
    rw [UInt8.ofNat_toNat] at hzero hnot hmask
    have hlt := more.lt_length
    rw [← pointer_eq hhi lo] at hlt
    rw [decodeNameLoop, hbyte]
    simp only [At.singleton_iff.mp hrest]
    rw [if_neg hzero, if_neg hnot, if_pos hmask, if_neg (by omega), pointer_eq hhi lo,
      ih (by omega)]
    cases jumped <;> rfl

/-- What the loop reads is a name. -/
theorem nameIn_of_decodeNameLoop {buf : Bytes} {budget : Nat} {name : String} {pos endPos : Nat}
    {jumped : Bool} {x : String × Nat}
    (h : decodeNameLoop buf budget name pos endPos jumped = .ok x) :
    ∃ n ls q, Dns.NameIn buf True n pos ls q := by
  induction budget generalizing name pos endPos jumped with
  | zero => cases h
  | succ budget ih =>
    rw [decodeNameLoop] at h
    cases hbyte : buf[pos]? with
    | none => rw [hbyte] at h; cases h
    | some len =>
      rw [hbyte] at h
      simp only at h
      by_cases hzero : len = 0
      · subst hzero
        exact ⟨1, [], pos + 1, .root (At.singleton_iff.mpr hbyte)⟩
      · have hof : UInt8.ofNat len.toNat = len := UInt8.ofNat_toNat
        rw [if_neg hzero] at h
        by_cases hmask : len &&& 0xC0 = 0
        · rw [if_pos hmask] at h
          split_ifs at h with hroom
          obtain ⟨n, ls, q, hmore⟩ := ih h
          obtain ⟨hat, hlength⟩ := at_of_length (Nat.not_lt.mp hroom)
          have hlen : len.toNat < 64 := lt_of_mask len.toNat len.toNat_lt (by rwa [hof])
          have hne : len.toNat ≠ 0 := fun h0 => hzero (UInt8.toNat_inj.mp h0)
          refine ⟨n + 1, _, q, .label (by rw [hlength]; omega) (by rwa [hlength]) ?_
            (by rwa [hlength])⟩
          rw [hlength, hof]
          exact At.cons_iff.mpr ⟨hbyte, hat⟩
        · rw [if_neg hmask] at h
          by_cases hptr : len &&& 0xC0 = 0xC0
          · rw [if_pos hptr] at h
            have hhi : 0xC0 ≤ len := by
              rw [UInt8.le_iff_toNat_le]
              exact le_of_mask len.toNat len.toNat_lt (by rwa [hof])
            cases hlo : buf[pos + 1]? with
            | none => rw [hlo] at h; cases h
            | some lo =>
              rw [hlo] at h
              simp only [pointer_eq hhi] at h
              by_cases hroom : buf.length ≤ (len.toNat - 0xC0) * 256 + lo.toNat
              · rw [if_pos hroom] at h
                cases h
              rw [if_neg hroom] at h
              obtain ⟨n, ls, q, hmore⟩ := ih h
              exact ⟨n + 1, ls, _, .pointer trivial hhi
                (At.cons_iff.mpr ⟨hbyte, At.singleton_iff.mpr hlo⟩) hmore⟩
          · rw [if_neg hptr] at h
            cases h

/-- The decoder reads the names that can be read, all of them, and spells them. -/
theorem decodeName_eq_ok {buf : Bytes} {start e : Nat} {name : String} :
    decodeName buf start = .ok (name, e)
      ↔ ∃ ls, Dns.ReadsName buf True start ls e ∧ name = printName ls := by
  have hread {n q : Nat} {ls : List Dns.Label} (h : Dns.NameIn buf True n start ls q) :
      decodeName buf start = .ok (printName ls, q) := by
    have hloop := decodeNameLoop_of_nameIn h
      (Nat.le_trans h.steps_le (Nat.le_succ _)) "" start false
    rwa [String.empty_append] at hloop
  constructor
  · intro h
    obtain ⟨n, ls, q, hname⟩ := nameIn_of_decodeNameLoop h
    rw [hread hname] at h
    cases h
    exact ⟨ls, ⟨n, hname⟩, rfl⟩
  · rintro ⟨ls, ⟨n, hname⟩, rfl⟩
    exact hread hname

end RtProxy.Resolver
