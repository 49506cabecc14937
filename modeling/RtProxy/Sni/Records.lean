import RtProxy.Sni.ClientHello

/-!
Records that are read back (`sni.rs`).

A record whose lengths are written anew is read back with the same extensions and nothing
left over, as long as every part fits its length field.
-/

namespace RtProxy
namespace Sni

/-! ## Extensions -/

theorem length_encodeExtension (ext : Extension) :
    (encodeExtension ext).length = 4 + ext.2.length := by
  rw [encodeExtension, List.length_append, List.length_append, Bytes.length_be, Bytes.length_be]

theorem parseFrom_short {fuel : Nat} {block : Bytes} (h : block.length < 4) :
    parseFrom fuel block = some [] := by
  cases fuel with
  | zero => rfl
  | succ fuel => rw [parseFrom, if_pos h]

theorem parseFrom_cons {fuel : Nat} {ext : Extension} (h : ext.2.length < 2 ^ 16) (rest : Bytes) :
    parseFrom (fuel + 1) (encodeExtension ext ++ rest) = (parseFrom fuel rest).map (ext :: ·) := by
  obtain ⟨type, body⟩ := ext
  have htype : (Bytes.be 2 type.toNat).length = 2 := Bytes.length_be 2 _
  have hlen : (Bytes.be 2 body.length).length = 2 := Bytes.length_be 2 _
  have hblock : encodeExtension (type, body) ++ rest =
      Bytes.be 2 type.toNat ++ (Bytes.be 2 body.length ++ (body ++ rest)) := by
    simp [encodeExtension]
  have hdrop : (Bytes.be 2 type.toNat ++ (Bytes.be 2 body.length ++ (body ++ rest))).drop 2 =
      Bytes.be 2 body.length ++ (body ++ rest) := List.drop_left' htype
  have hdrop' : (Bytes.be 2 type.toNat ++ (Bytes.be 2 body.length ++ (body ++ rest))).drop 4 =
      body ++ rest := by
    rw [← List.drop_drop (i := 2) (j := 2), hdrop, List.drop_left' hlen]
  have htake : (Bytes.be 2 type.toNat ++ (Bytes.be 2 body.length ++ (body ++ rest))).take 2 =
      Bytes.be 2 type.toNat := List.take_left' htype
  have hlong : ¬ (Bytes.be 2 type.toNat ++ (Bytes.be 2 body.length ++ (body ++ rest))).length < 4 := by
    rw [List.length_append, List.length_append, htype, hlen]
    omega
  have hbody : Bytes.beNat ((Bytes.be 2 body.length ++ (body ++ rest)).take 2) = body.length := by
    rw [List.take_left' hlen, Bytes.beNat_be h]
  rw [hblock, parseFrom, if_neg hlong]
  simp only [hdrop, hdrop', htake, hbody, Bytes.ofNat_beNat_port]
  rw [if_neg (by simp), List.drop_left, List.take_left]

theorem parseFrom_encode {exts : List Extension} (h : ∀ ext ∈ exts, ext.2.length < 2 ^ 16)
    {junk : Bytes} (hjunk : junk.length < 4) {fuel : Nat} (hfuel : exts.length ≤ fuel) :
    parseFrom fuel (encodeExtensions exts ++ junk) = some exts := by
  induction exts generalizing fuel with
  | nil => exact parseFrom_short hjunk
  | cons ext exts ih =>
    obtain ⟨hext, hexts⟩ := List.forall_mem_cons.mp h
    obtain ⟨fuel, rfl⟩ : ∃ k, fuel = k + 1 := ⟨fuel - 1, by simp at hfuel; omega⟩
    rw [encodeExtensions, List.flatMap_cons, List.append_assoc, parseFrom_cons hext]
    have := ih hexts (Nat.le_of_succ_le_succ hfuel)
    rw [encodeExtensions] at this
    rw [this]
    rfl

theorem length_le_encodeExtensions (exts : List Extension) :
    exts.length ≤ (encodeExtensions exts).length := by
  induction exts with
  | nil => exact Nat.le_refl 0
  | cons ext exts ih =>
    rw [encodeExtensions, List.flatMap_cons, List.length_append, length_encodeExtension,
      List.length_cons]
    rw [encodeExtensions] at ih
    omega

/-- Extensions are read back, with up to three bytes after them. -/
theorem parseExtensions_encode {exts : List Extension} (h : ∀ ext ∈ exts, ext.2.length < 2 ^ 16)
    {junk : Bytes} (hjunk : junk.length < 4) :
    parseExtensions (encodeExtensions exts ++ junk) = some exts := by
  refine parseFrom_encode h hjunk ?_
  have := length_le_encodeExtensions exts
  rw [List.length_append]
  omega

theorem cut_four {block : Bytes} (h : 4 ≤ block.length) :
    ∃ a b rest, block = a ++ (b ++ rest) ∧ a.length = 2 ∧ b.length = 2 := by
  refine ⟨block.take 2, (block.drop 2).take 2, (block.drop 2).drop 2, ?_, ?_, ?_⟩
  · rw [List.take_append_drop, List.take_append_drop]
  · rw [List.length_take]
    omega
  · rw [List.length_take, List.length_drop]
    omega

theorem eq_of_parseFrom {fuel : Nat} {block : Bytes} {exts : List Extension}
    (hfuel : block.length ≤ fuel) (h : parseFrom fuel block = some exts) :
    (∀ ext ∈ exts, ext.2.length < 2 ^ 16)
      ∧ ∃ junk, junk.length < 4 ∧ block = encodeExtensions exts ++ junk := by
  induction fuel generalizing block exts with
  | zero =>
    have hnil : block = [] := List.length_eq_zero_iff.mp (Nat.le_zero.mp hfuel)
    cases h
    exact ⟨nofun, [], by decide, hnil⟩
  | succ fuel ih =>
    rw [parseFrom] at h
    simp only at h
    split_ifs at h with hshort hlong
    · cases h
      exact ⟨nofun, block, hshort, rfl⟩
    · obtain ⟨exts', hexts, rfl⟩ := Option.map_eq_some_iff.mp h
      obtain ⟨type, len, rest, rfl, htype, hlen⟩ := cut_four (Nat.le_of_not_lt hshort)
      have hdrop : (type ++ (len ++ rest)).drop 4 = rest := by
        rw [← List.drop_drop (i := 2) (j := 2), List.drop_left' htype, List.drop_left' hlen]
      rw [hdrop, List.drop_left' htype, List.take_left' hlen] at hlong hexts ⊢
      rw [List.take_left' htype]
      have hbound : Bytes.beNat len < 2 ^ 16 := by
        have := Bytes.beNat_lt len
        rwa [hlen] at this
      have hbody : (rest.take (Bytes.beNat len)).length = Bytes.beNat len :=
        List.length_take_of_le (Nat.le_of_not_lt hlong)
      have hfuel' : (rest.drop (Bytes.beNat len)).length ≤ fuel := by
        rw [List.length_append, List.length_append] at hfuel
        rw [List.length_drop]
        omega
      obtain ⟨hall, junk, hjunk, hrest⟩ := ih hfuel' hexts
      have hencode : encodeExtension (UInt16.ofNat (Bytes.beNat type), rest.take (Bytes.beNat len)) =
          type ++ (len ++ rest.take (Bytes.beNat len)) := by
        rw [encodeExtension, Bytes.be_port htype, hbody, Bytes.be_of_length hlen, List.append_assoc]
      refine ⟨List.forall_mem_cons.mpr ⟨?_, hall⟩, junk, hjunk, ?_⟩
      · show (rest.take (Bytes.beNat len)).length < 2 ^ 16
        rw [hbody]
        exact hbound
      · rw [encodeExtensions, List.flatMap_cons, hencode]
        rw [encodeExtensions] at hrest
        rw [List.append_assoc, List.append_assoc, List.append_assoc, ← hrest, List.take_append_drop]

theorem eq_of_parseExtensions {block : Bytes} {exts : List Extension}
    (h : parseExtensions block = some exts) : (∀ ext ∈ exts, ext.2.length < 2 ^ 16)
      ∧ ∃ junk, junk.length < 4 ∧ block = encodeExtensions exts ++ junk :=
  eq_of_parseFrom (Nat.le_refl _) h

/-! ## Where the extensions are -/

/-- The offset depends on the bytes from the version up to it. -/
theorem lengthOffset_congr {hello hello' : Bytes} {i : Nat} (h : lengthOffset hello = some i)
    (hsame : ∀ j, 4 ≤ j → j < i → hello'[j]? = hello[j]?) : lengthOffset hello' = some i := by
  unfold lengthOffset at h ⊢
  simp only [Option.bind_eq_bind] at h ⊢
  obtain ⟨sessionLen, hsession, h⟩ := Option.bind_eq_some_iff.mp h
  obtain ⟨high, hhigh, h⟩ := Option.bind_eq_some_iff.mp h
  obtain ⟨low, hlow, h⟩ := Option.bind_eq_some_iff.mp h
  obtain ⟨compLen, hcomp, h⟩ := Option.bind_eq_some_iff.mp h
  have hi := Option.some.inj h
  rw [hsame _ (by omega) (by omega), hsession, Option.bind_some]
  rw [hsame _ (by omega) (by omega), hhigh, Option.bind_some]
  rw [hsame _ (by omega) (by omega), hlow, Option.bind_some]
  rw [hsame _ (by omega) (by omega), hcomp, Option.bind_some]
  exact h

theorem le_of_lengthOffset {hello : Bytes} {i : Nat} (h : lengthOffset hello = some i) : 42 ≤ i := by
  unfold lengthOffset at h
  simp only [Option.bind_eq_bind] at h
  obtain ⟨sessionLen, -, h⟩ := Option.bind_eq_some_iff.mp h
  obtain ⟨high, -, h⟩ := Option.bind_eq_some_iff.mp h
  obtain ⟨low, -, h⟩ := Option.bind_eq_some_iff.mp h
  obtain ⟨compLen, -, h⟩ := Option.bind_eq_some_iff.mp h
  have hi := Option.some.inj h
  omega

theorem extensionsSpan_eq_some {hello : Bytes} {start stop : Nat} :
    extensionsSpan hello = some (start, stop) ↔
      ∃ i high low, lengthOffset hello = some i ∧ hello[i]? = some high ∧ hello[i + 1]? = some low
        ∧ start = i + 2 ∧ stop = start + Bytes.beNat [high, low] ∧ stop ≤ hello.length := by
  unfold extensionsSpan
  simp only [Option.bind_eq_bind]
  constructor
  · intro h
    obtain ⟨i, hi, h⟩ := Option.bind_eq_some_iff.mp h
    obtain ⟨high, hhigh, h⟩ := Option.bind_eq_some_iff.mp h
    obtain ⟨low, hlow, h⟩ := Option.bind_eq_some_iff.mp h
    split_ifs at h with hlen
    cases h
    exact ⟨i, high, low, hi, hhigh, hlow, rfl, rfl, Nat.le_of_not_lt hlen⟩
  · rintro ⟨i, high, low, hi, hhigh, hlow, rfl, rfl, hle⟩
    rw [hi, Option.bind_some, hhigh, Option.bind_some, hlow, Option.bind_some,
      if_neg (Nat.not_lt_of_le hle)]

/-- An opening that ends where the extensions block is announced. -/
def Opens (opening : Bytes) : Prop := lengthOffset opening = some opening.length

theorem extensionsSpan_opens {opening block tail : Bytes} (h : Opens opening)
    (hblock : block.length < 2 ^ 16) :
    extensionsSpan (opening ++ Bytes.be 2 block.length ++ block ++ tail) =
      some (opening.length + 2, opening.length + 2 + block.length) := by
  have hlen : (Bytes.be 2 block.length).length = 2 := Bytes.length_be 2 _
  obtain ⟨high, low, hbytes⟩ : ∃ high low, Bytes.be 2 block.length = [high, low] :=
    List.length_eq_two.mp hlen
  have hnat : Bytes.beNat [high, low] = block.length := by
    rw [← hbytes, Bytes.beNat_be hblock]
  rw [extensionsSpan_eq_some, hbytes]
  refine ⟨opening.length, high, low, ?_, ?_, ?_, rfl, by rw [hnat], ?_⟩
  · refine lengthOffset_congr h fun j _ hj => ?_
    rw [List.append_assoc, List.append_assoc, List.getElem?_append_left hj]
  · simp
  · rw [List.append_assoc, List.append_assoc, List.getElem?_append_right (by omega)]
    simp
  · simp
    omega

/-- The block and the bytes around it. -/
theorem eq_of_extensionsSpan {hello : Bytes} {start stop : Nat}
    (h : extensionsSpan hello = some (start, stop)) :
    Opens (hello.take (start - 2)) ∧ ∃ len, len.length = 2
      ∧ Bytes.beNat len = ((hello.drop start).take (stop - start)).length
      ∧ hello = hello.take (start - 2) ++ len ++ (hello.drop start).take (stop - start) ++
        hello.drop stop := by
  obtain ⟨i, high, low, hi, hhigh, hlow, rfl, rfl, hle⟩ := extensionsSpan_eq_some.mp h
  have hlow' : i + 1 < hello.length := (List.getElem?_eq_some_iff.mp hlow).1
  have htake : (hello.take i).length = i := List.length_take_of_le (by omega)
  have hblock : ((hello.drop (i + 2)).take (Bytes.beNat [high, low])).length =
      Bytes.beNat [high, low] := List.length_take_of_le (by rw [List.length_drop]; omega)
  have hsub : i + 2 + Bytes.beNat [high, low] - (i + 2) = Bytes.beNat [high, low] := by omega
  rw [Nat.add_sub_cancel, hsub]
  constructor
  · rw [Opens, htake]
    refine lengthOffset_congr hi fun j _ hj => ?_
    rw [List.getElem?_take_of_lt hj]
  · refine ⟨[high, low], rfl, hblock.symm, ?_⟩
    have hdrop : hello.drop i = [high, low] ++ hello.drop (i + 2) := by
      obtain ⟨hlt, hget⟩ := List.getElem?_eq_some_iff.mp hhigh
      obtain ⟨hlt', hget'⟩ := List.getElem?_eq_some_iff.mp hlow
      rw [List.drop_eq_getElem_cons hlt, List.drop_eq_getElem_cons hlt', hget, hget']
      rfl
    calc hello = hello.take i ++ hello.drop i := (List.take_append_drop i hello).symm
      _ = hello.take i ++ ([high, low] ++ hello.drop (i + 2)) := by rw [hdrop]
      _ = hello.take i ++ ([high, low] ++ ((hello.drop (i + 2)).take (Bytes.beNat [high, low]) ++
            (hello.drop (i + 2)).drop (Bytes.beNat [high, low]))) := by rw [List.take_append_drop]
      _ = _ := by
          rw [List.drop_drop]
          simp only [List.append_assoc]

/-! ## The handshake length -/

/-- The handshake with another length. -/
def announce (n : Nat) (hello : Bytes) : Bytes := hello.take 1 ++ Bytes.be 3 n ++ hello.drop 4

theorem setLength_eq (hello : Bytes) : setLength hello = announce (hello.length - 4) hello := rfl

theorem announce_append {hello : Bytes} (h : 4 ≤ hello.length) (n : Nat) (rest : Bytes) :
    announce n (hello ++ rest) = announce n hello ++ rest := by
  rw [announce, announce, List.take_append_of_le_length (by omega),
    List.drop_append_of_le_length h, List.append_assoc, List.append_assoc, List.append_assoc]

theorem length_announce {hello : Bytes} (h : 4 ≤ hello.length) (n : Nat) :
    (announce n hello).length = hello.length := by
  simp [announce]
  omega

theorem announce_announce {hello : Bytes} (h : 4 ≤ hello.length) (m n : Nat) :
    announce m (announce n hello) = announce m hello := by
  have hone : (hello.take 1).length = 1 := List.length_take_of_le (by omega)
  have hfour : (hello.take 1 ++ Bytes.be 3 n).length = 4 := by
    rw [List.length_append, hone, Bytes.length_be]
  have htake : (announce n hello).take 1 = hello.take 1 := by
    rw [announce, List.append_assoc, List.take_left' hone]
  have hdrop : (announce n hello).drop 4 = hello.drop 4 := by
    rw [announce, List.drop_left' hfour]
  rw [announce, htake, hdrop, announce]

theorem getElem?_announce {hello : Bytes} (h : 4 ≤ hello.length) (n : Nat) {j : Nat} (hj : 4 ≤ j) :
    (announce n hello)[j]? = hello[j]? := by
  have hone : (hello.take 1).length = 1 := List.length_take_of_le (by omega)
  have hfour : (hello.take 1 ++ Bytes.be 3 n).length = 4 := by
    rw [List.length_append, hone, Bytes.length_be]
  rw [announce, List.getElem?_append_right (by omega), hfour, List.getElem?_drop]
  congr 1
  omega

theorem le_of_opens {opening : Bytes} (h : Opens opening) : 42 ≤ opening.length :=
  le_of_lengthOffset h

theorem Opens.announce {opening : Bytes} (h : Opens opening) (n : Nat) :
    Opens (announce n opening) := by
  have hle := le_of_opens h
  rw [Opens, length_announce (by omega)]
  exact lengthOffset_congr h fun j hj _ => getElem?_announce (by omega) n hj

/-- The length that is announced. -/
theorem beNat_announce {hello : Bytes} (h : 4 ≤ hello.length) {n : Nat} (hn : n < 2 ^ 24) :
    Bytes.beNat (((announce n hello).drop 1).take 3) = n := by
  have hone : (hello.take 1).length = 1 := List.length_take_of_le (by omega)
  rw [announce, List.append_assoc, List.drop_left' hone, List.take_left' (Bytes.length_be 3 n)]
  exact Bytes.beNat_be hn

/-! ## Records -/

namespace Parts

/-- What fits the lengths of a record. -/
structure Wf (p : Parts) : Prop where
  front : p.front.length = 3
  handshake : p.front.head? = some TLS_HANDSHAKE
  opens : Opens p.opening
  exts : ∀ ext ∈ p.exts, ext.2.length < 2 ^ 16
  hello : p.hello.length < 2 ^ 16

/-- The record as it is read back: its handshake announces the length it has. -/
def settled (p : Parts) : Parts := { p with opening := announce (p.hello.length - 4) p.opening }

variable {p : Parts}

theorem length_hello (p : Parts) : p.hello.length =
    p.opening.length + 2 + (encodeExtensions p.exts).length + p.tail.length := by
  rw [hello, List.length_append, List.length_append, List.length_append, Bytes.length_be]

theorem announce_hello (h : Opens p.opening) (n : Nat) : announce n p.hello =
    announce n p.opening ++ Bytes.be 2 (encodeExtensions p.exts).length ++
      encodeExtensions p.exts ++ p.tail := by
  have hle := le_of_opens h
  rw [hello, List.append_assoc, List.append_assoc, announce_append (by omega), List.append_assoc,
    List.append_assoc]

theorem setLength_hello (h : Opens p.opening) : setLength p.hello = p.settled.hello := by
  rw [setLength_eq, announce_hello h]
  rfl

theorem length_setLength_hello (h : Opens p.opening) :
    (setLength p.hello).length = p.hello.length := by
  have hle := le_of_opens h
  rw [setLength_hello h, length_hello, length_hello, settled, length_announce (by omega)]

theorem length_block_lt (h : p.Wf) : (encodeExtensions p.exts).length < 2 ^ 16 := by
  have hlen := p.length_hello
  have hhello := h.hello
  omega

theorem span_hello (h : Opens p.opening) (hblock : (encodeExtensions p.exts).length < 2 ^ 16) :
    extensionsSpan p.hello = some (p.opening.length + 2,
      p.opening.length + 2 + (encodeExtensions p.exts).length) :=
  extensionsSpan_opens h hblock

theorem take_hello (p : Parts) : p.hello.take p.opening.length = p.opening := by
  rw [hello, List.append_assoc, List.append_assoc, List.take_left]

theorem length_start (p : Parts) : (p.opening ++ Bytes.be 2 (encodeExtensions p.exts).length).length =
    p.opening.length + 2 := by
  rw [List.length_append, Bytes.length_be]

theorem block_hello (p : Parts) : (p.hello.drop (p.opening.length + 2)).take
    (encodeExtensions p.exts).length = encodeExtensions p.exts := by
  rw [hello, List.append_assoc, List.drop_left' p.length_start, List.take_left]

theorem drop_hello (p : Parts) : p.hello.drop (p.opening.length + 2 +
    (encodeExtensions p.exts).length) = p.tail := by
  rw [hello, List.drop_left']
  rw [List.length_append, p.length_start]

/-- A record whose parts fit is read back. -/
theorem readParts_bytes (h : p.Wf) : readParts p.bytes = some p.settled := by
  have hlen : (setLength p.hello).length < 2 ^ 16 := by
    rw [length_setLength_hello h.opens]
    exact h.hello
  have hbe : (Bytes.be 2 (setLength p.hello).length).length = 2 := Bytes.length_be 2 _
  have hfive : p.bytes.length = 5 + (setLength p.hello).length := by
    rw [bytes, List.length_append, List.length_append, h.front, hbe]
  have hhead : p.bytes.head? = some TLS_HANDSHAKE := by
    rw [bytes, List.append_assoc, List.head?_append, h.handshake]
    rfl
  have hfront : p.bytes.take 3 = p.front := by
    rw [bytes, List.append_assoc, List.take_left' h.front]
  have hbody : Bytes.beNat ((p.bytes.drop 3).take 2) = (setLength p.hello).length := by
    rw [bytes, List.append_assoc, List.drop_left' h.front, List.take_left' hbe, Bytes.beNat_be hlen]
  have hdrop : p.bytes.drop 5 = setLength p.hello := by
    rw [bytes, List.drop_left']
    rw [List.length_append, h.front, hbe]
  have hspan := span_hello (p := p.settled) (h.opens.announce _) (length_block_lt (p := p) h)
  have hparse : parseExtensions (encodeExtensions p.exts) = some p.exts := by
    have := parseExtensions_encode h.exts (by decide : ([] : Bytes).length < 4)
    rwa [List.append_nil] at this
  rw [readParts, if_neg (by rw [hfive, hhead]; simp)]
  simp only [hbody]
  rw [if_neg (by rw [hfive]; omega), hdrop, List.take_length, setLength_hello h.opens, hfront, hspan]
  simp only [Option.bind_eq_bind, Option.bind_some, Nat.add_sub_cancel_left, Nat.add_sub_cancel]
  have hblock := block_hello p.settled
  have htail := drop_hello p.settled
  rw [hblock, htail, take_hello]
  show (parseExtensions (encodeExtensions p.exts)).bind _ = _
  rw [hparse, Option.bind_some]
  rfl

/-- What is read is what fits, and the record is made of it. -/
theorem wf_of_readParts {record : Bytes} (h : readParts record = some p) : p.Wf
    ∧ ∃ len blockLen junk more, record = p.front ++ len ++
        (p.opening ++ blockLen ++ (encodeExtensions p.exts ++ junk) ++ p.tail) ++ more
      ∧ len.length = 2 ∧ blockLen.length = 2 ∧ junk.length < 4
      ∧ Bytes.beNat len = p.hello.length + junk.length
      ∧ Bytes.beNat blockLen = (encodeExtensions p.exts).length + junk.length := by
  unfold readParts at h
  split_ifs at h with hshort
  simp only at h
  split_ifs at h with hlong
  rw [not_or, not_not] at hshort
  obtain ⟨⟨start, stop⟩, hspan, h⟩ := Option.bind_eq_some_iff.mp h
  obtain ⟨exts, hparse, h⟩ := Option.bind_eq_some_iff.mp h
  cases h
  dsimp only at hparse ⊢
  have hfive : 5 ≤ record.length := Nat.le_of_not_lt hshort.1
  have hlen : ((record.drop 3).take 2).length = 2 := by
    rw [List.length_take, List.length_drop]
    omega
  generalize hbody : Bytes.beNat ((record.drop 3).take 2) = bodyLen at hlong hspan hparse ⊢
  have hbound : bodyLen < 2 ^ 16 := by
    have := Bytes.beNat_lt ((record.drop 3).take 2)
    rwa [hlen, hbody] at this
  have hhello : ((record.drop 5).take bodyLen).length = bodyLen :=
    List.length_take_of_le (by rw [List.length_drop]; omega)
  have hrecord : record = record.take 3 ++ (record.drop 3).take 2 ++ (record.drop 5).take bodyLen ++
      (record.drop 5).drop bodyLen := by
    conv_lhs => rw [← List.take_append_drop 3 record, ← List.take_append_drop 2 (record.drop 3),
      List.drop_drop, ← List.take_append_drop bodyLen (record.drop (3 + 2))]
    simp only [List.append_assoc]
  generalize (record.drop 5).take bodyLen = hello at *
  obtain ⟨hopens, blockLen, hblockLen, hnat, heq⟩ := eq_of_extensionsSpan hspan
  obtain ⟨hexts, junk, hjunk, hblock⟩ := eq_of_parseExtensions hparse
  rw [hblock] at hnat heq
  rw [List.length_append] at hnat
  have hsum : hello.length = (hello.take (start - 2)).length + 2 + (encodeExtensions exts).length +
      junk.length + (hello.drop stop).length := by
    conv_lhs => rw [heq]
    simp only [List.length_append, hblockLen]
    omega
  have hparts := length_hello ⟨record.take 3, hello.take (start - 2), exts, hello.drop stop⟩
  simp only at hparts
  refine ⟨⟨List.length_take_of_le (by omega), ?_, hopens, hexts, by omega⟩, ?_⟩
  · rw [List.head?_take, if_neg (by decide)]
    exact hshort.2
  · refine ⟨(record.drop 3).take 2, blockLen, junk, (record.drop 5).drop bodyLen, ?_, hlen,
      hblockLen, hjunk, by omega, hnat⟩
    rw [← heq]
    exact hrecord

end Parts

end Sni
end RtProxy
