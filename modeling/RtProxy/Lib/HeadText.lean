/-
The head of a request or a response as lines of text.

A reader of lines takes the white space off each and stops at the first that is blank.  What
it makes of a head that was written line by line is the lines that were written.
-/
import RtProxy.Lib.Trim

namespace Text

/-- The lines up to a blank one or the end, trimmed; there are at most `fuel`. -/
def trimmedLines : Nat → Bytes → Option (List String)
  | 0, _ => some []
  | fuel + 1, bs => do
    let line ← fromUtf8 (cutLine bs).1
    if trim line = "" then some []
    else (trimmedLines fuel (cutLine bs).2).map (trim line :: ·)

/-- The first line, and the lines after it up to a blank one. -/
def readHead (bs : Bytes) : Option (String × List String) := do
  let line ← fromUtf8 (cutLine bs).1
  -- every line but the last takes a byte
  let lines ← trimmedLines ((cutLine bs).2.length + 1) (cutLine bs).2
  some (line, lines)

/-- A text that can stand on a line of its own. -/
structure Line (s : String) : Prop where
  oneLine : '\n' ∉ s.toList
  shown : trim s ≠ ""

/-- A head, written line by line. -/
def headBytes (first : String) (lines : List String) : Bytes :=
  utf8 (first ++ "\r\n") ++ lines.flatMap (fun line => utf8 (line ++ "\r\n")) ++ utf8 "\r\n"

/-! ## White space -/

theorem trim_append_white {s w : String} (h : ∀ c ∈ w.toList, isWhite c = true) :
    trim (s ++ w) = trim s := by
  have happ := trimWhile_append (a := []) (List.forall_mem_nil _) h s.toList
  rw [List.nil_append] at happ
  rw [trim_eq, trim_eq, String.toList_append, happ]

theorem trim_trim (s : String) : trim (trim s) = trim s := by
  rw [trim_eq, trim_eq, String.toList_ofList, trimWhile_trimWhile fun _ => id]

theorem trimWhile_sublist (p : Char → Bool) (x : List Char) : (trimWhile p x).Sublist x := by
  have hend : (dropEndWhile p (x.dropWhile p)).Sublist (x.dropWhile p) := by
    unfold dropEndWhile
    have hrev := (List.dropWhile_sublist p (l := (x.dropWhile p).reverse)).reverse
    rwa [List.reverse_reverse] at hrev
  exact hend.trans (List.dropWhile_sublist p)

theorem mem_of_mem_trim {s : String} {c : Char} (h : c ∈ (trim s).toList) : c ∈ s.toList := by
  rw [trim_eq, String.toList_ofList] at h
  exact (trimWhile_sublist isWhite s.toList).subset h

/-- A text with no white space at its ends. -/
theorem trim_eq_self {s : String} (hhead : ∀ c ∈ s.toList.head?, isWhite c = false)
    (hlast : ∀ c ∈ s.toList.getLast?, isWhite c = false) : trim s = s := by
  have hdrop {l : List Char} (hl : ∀ c ∈ l.head?, isWhite c = false) :
      l.dropWhile isWhite = l := by
    cases l with
    | nil => rfl
    | cons c l => exact List.dropWhile_cons_of_neg (by simp [hl c rfl])
  have hrev : ∀ c ∈ s.toList.reverse.head?, isWhite c = false := by
    rw [List.head?_reverse]
    exact hlast
  rw [trim_eq, trimWhile, dropEndWhile, hdrop hhead, hdrop hrev, List.reverse_reverse,
    String.ofList_toList]

theorem trim_ne_empty {s : String} {c : Char} (hc : c ∈ s.toList) (hwhite : isWhite c = false) :
    trim s ≠ "" := by
  intro hempty
  have hnil : trimWhile isWhite s.toList = [] := by
    rw [← String.toList_inj, trim_eq, String.toList_ofList] at hempty
    exact hempty
  obtain ⟨b, hb, hsplit⟩ := exists_dropEndWhile isWhite (s.toList.dropWhile isWhite)
  have hdrop : s.toList.dropWhile isWhite = b := by
    rw [hsplit]
    show trimWhile isWhite s.toList ++ b = b
    rw [hnil, List.nil_append]
  rw [← List.takeWhile_append_dropWhile (p := isWhite) (l := s.toList), hdrop, List.mem_append] at hc
  rcases hc with hc | hc
  · rw [List.mem_takeWhile_imp hc] at hwhite
    cases hwhite
  · rw [hb c hc] at hwhite
    cases hwhite

/-- Characters next to each other that are all alike. -/
theorem isWhite_of_isChain {a : Char} {l : List Char}
    (h : (a :: l).IsChain fun a b => (isWhite a == isWhite b) = true) :
    ∀ c ∈ l, isWhite c = isWhite a := by
  induction l generalizing a with
  | nil => exact List.forall_mem_nil _
  | cons b l ih =>
    obtain ⟨hab, hl⟩ := List.isChain_cons_cons.mp h
    have hab' : isWhite a = isWhite b := by simpa using hab
    rw [List.forall_mem_cons, hab']
    exact ⟨rfl, ih hl⟩

/-- There is no white space in a word. -/
theorem not_white_of_word {s w : String} (h : w ∈ splitWhitespace s) :
    ∀ c ∈ w.toList, isWhite c = false := by
  obtain ⟨l, hl, rfl⟩ := List.mem_map.mp h
  obtain ⟨hmem, hword⟩ := List.mem_filter.mp hl
  rw [String.toList_ofList]
  cases l with
  | nil => exact List.forall_mem_nil _
  | cons a l =>
    have hsame := isWhite_of_isChain (List.isChain_of_mem_splitBy hmem)
    have ha : isWhite a = false := by
      by_contra hwhite
      rw [Bool.not_eq_false] at hwhite
      have hall : (a :: l).all isWhite = true :=
        List.all_eq_true.mpr (List.forall_mem_cons.mpr ⟨hwhite, fun c hc => (hsame c hc).trans hwhite⟩)
      rw [hall] at hword
      cases hword
    exact List.forall_mem_cons.mpr ⟨ha, fun c hc => (hsame c hc).trans ha⟩

/-! ## Reading lines -/

theorem cutLine_text {s : String} (h : '\n' ∉ s.toList) (rest : Bytes) :
    cutLine (utf8 (s ++ "\r\n") ++ rest) = (utf8 (s ++ "\r\n"), rest) := by
  have hend : utf8 "\r\n" = [0x0D, 0x0A] := by decide
  have hnot : (0x0A : UInt8) ∉ utf8 s ++ [0x0D] := by
    rw [List.mem_append, not_or, mem_utf8 (by decide)]
    exact ⟨h, by decide⟩
  have hsplit : utf8 (s ++ "\r\n") ++ rest = (utf8 s ++ [0x0D]) ++ 0x0A :: rest := by
    rw [utf8_append, hend]
    simp
  rw [hsplit, cutLine_append_of_not_mem hnot, cutLine, if_pos rfl, utf8_append, hend]
  simp

theorem trimmedLines_headBytes {lines : List String} (h : ∀ line ∈ lines, Line line) {fuel : Nat}
    (hfuel : lines.length < fuel) (rest : Bytes) :
    trimmedLines fuel
        (lines.flatMap (fun line => utf8 (line ++ "\r\n")) ++ (utf8 "\r\n" ++ rest)) =
      some (lines.map trim) := by
  have hwhite : ∀ c ∈ "\r\n".toList, isWhite c = true := by decide
  induction lines generalizing fuel with
  | nil =>
    obtain ⟨fuel, rfl⟩ := Nat.exists_eq_succ_of_ne_zero (Nat.ne_of_gt hfuel)
    have hblank : '\n' ∉ "".toList := by simp
    rw [List.flatMap_nil, List.nil_append, trimmedLines]
    show (fromUtf8 (cutLine (utf8 ("" ++ "\r\n") ++ rest)).1 >>= _) = _
    rw [cutLine_text hblank, fromUtf8_utf8]
    rfl
  | cons line lines ih =>
    obtain ⟨fuel, rfl⟩ := Nat.exists_eq_succ_of_ne_zero (Nat.ne_of_gt (Nat.zero_lt_of_lt hfuel))
    obtain ⟨hline, hlines⟩ := List.forall_mem_cons.mp h
    have htrim := trim_append_white (s := line) hwhite
    rw [List.flatMap_cons, List.append_assoc, trimmedLines, cutLine_text hline.oneLine,
      fromUtf8_utf8]
    simp only [Option.bind_eq_bind, Option.bind_some]
    rw [htrim, if_neg hline.shown, ih hlines (Nat.lt_of_succ_lt_succ hfuel)]
    rfl

theorem length_le_flatMap (lines : List String) :
    lines.length ≤ (lines.flatMap fun line => utf8 (line ++ "\r\n")).length := by
  have hend : (utf8 "\r\n").length = 2 := by decide
  induction lines with
  | nil => simp
  | cons line lines ih =>
    simp only [List.flatMap_cons, List.length_append, List.length_cons, utf8_append, hend] at ih ⊢
    omega

/-- A head that was written is read back, without the white space around its lines. -/
theorem readHead_headBytes {first : String} {lines : List String} (hfirst : '\n' ∉ first.toList)
    (h : ∀ line ∈ lines, Line line) :
    readHead (headBytes first lines) = some (first ++ "\r\n", lines.map trim) := by
  have hlen := length_le_flatMap lines
  have hfuel : lines.length <
      (lines.flatMap (fun line => utf8 (line ++ "\r\n")) ++ utf8 "\r\n").length + 1 := by
    rw [List.length_append]
    omega
  have hlines := trimmedLines_headBytes h hfuel []
  rw [List.append_nil] at hlines
  unfold readHead headBytes
  rw [List.append_assoc, cutLine_text hfirst, fromUtf8_utf8]
  simp only [Option.bind_eq_bind, Option.bind_some, hlines]

/-- At most the last byte of a line is a line feed. -/
theorem cutLine_cases (bs : Bytes) :
    ∃ a, 0x0A ∉ a ∧ ((cutLine bs).1 = a ∨ (cutLine bs).1 = a ++ [0x0A]) := by
  induction bs with
  | nil => exact ⟨[], List.not_mem_nil, .inl rfl⟩
  | cons b bs ih =>
    rw [cutLine]
    by_cases hb : b = 0x0A
    · rw [if_pos hb, hb]
      exact ⟨[], List.not_mem_nil, .inr rfl⟩
    · rw [if_neg hb]
      obtain ⟨a, ha, hline⟩ := ih
      have hnot : 0x0A ∉ b :: a := by
        rw [List.mem_cons, not_or]
        exact ⟨Ne.symm hb, ha⟩
      exact ⟨b :: a, hnot, hline.imp (congrArg (b :: ·)) (congrArg (b :: ·))⟩

theorem oneLine_trim {bs : Bytes} {line : String} (h : fromUtf8 (cutLine bs).1 = some line) :
    '\n' ∉ (trim line).toList := by
  have hbytes := utf8_of_fromUtf8 h
  have hlf {s : String} {a : Bytes} (ha : 0x0A ∉ a) (hs : utf8 s = a) : '\n' ∉ s.toList := by
    intro hmem
    rw [← hs] at ha
    exact ha ((mem_utf8 (by decide) s).mpr hmem)
  obtain ⟨a, ha, hline | hline⟩ := cutLine_cases bs
  · exact fun hmem => hlf ha (hbytes.trans hline) (mem_of_mem_trim hmem)
  · rw [hline] at hbytes
    have hend : [(0x0A : UInt8)] = utf8 (String.ofList ['\n']) := by decide
    rw [hend] at hbytes
    obtain ⟨l, hl, hfront⟩ := exists_of_append_char (by decide) hbytes
    have hsplit : line = String.ofList l ++ "\n" := by
      rw [← String.toList_inj, String.toList_append, String.toList_ofList, hl]
      rfl
    rw [hsplit, trim_append_white (by decide)]
    exact fun hmem => hlf ha hfront (mem_of_mem_trim hmem)

/-- What is read are lines, and trimmed. -/
theorem line_of_trimmedLines {fuel : Nat} {bs : Bytes} {lines : List String}
    (h : trimmedLines fuel bs = some lines) : ∀ line ∈ lines, Line line ∧ trim line = line := by
  induction fuel generalizing bs lines with
  | zero =>
    cases h
    exact List.forall_mem_nil _
  | succ fuel ih =>
    rw [trimmedLines] at h
    obtain ⟨line, htext, h⟩ := Option.bind_eq_some_iff.mp h
    by_cases hblank : trim line = ""
    · rw [if_pos hblank] at h
      cases h
      exact List.forall_mem_nil _
    · rw [if_neg hblank] at h
      obtain ⟨more, hmore, rfl⟩ := Option.map_eq_some_iff.mp h
      rw [List.forall_mem_cons]
      refine ⟨⟨⟨oneLine_trim htext, ?_⟩, trim_trim line⟩, ih hmore⟩
      rwa [trim_trim]

theorem line_of_readHead {bs : Bytes} {first : String} {lines : List String}
    (h : readHead bs = some (first, lines)) : ∀ line ∈ lines, Line line ∧ trim line = line := by
  obtain ⟨text, -, h⟩ := Option.bind_eq_some_iff.mp h
  obtain ⟨read, hread, h⟩ := Option.bind_eq_some_iff.mp h
  cases h
  exact line_of_trimmedLines hread

end Text
