/-
Reading a buffer at offsets.

`At buf p bs` says that the bytes `bs` stand in `buf` from offset `p` on, and
`Items read p as q` that reading one item after another from `p` gives `as` and ends
at `q`.  Formats with pointers need the whole buffer at every read, so a reader is a
relation between two offsets rather than a function on the bytes that are left.
-/
import RtProxy.Lib.Bytes

namespace Bytes

/-- The bytes `bs` stand in the buffer from offset `p` on. -/
def At (buf : Bytes) (p : Nat) (bs : Bytes) : Prop := bs <+: buf.drop p

namespace At

variable {buf a b : Bytes} {p : Nat}

theorem length_le (h : At buf p a) : a.length ≤ buf.length - p := by
  rw [← List.length_drop]
  exact List.IsPrefix.length_le h

theorem append_iff : At buf p (a ++ b) ↔ At buf p a ∧ At buf (p + a.length) b := by
  unfold At
  constructor
  · rintro ⟨rest, h⟩
    refine ⟨⟨b ++ rest, by rw [← h, List.append_assoc]⟩, ⟨rest, ?_⟩⟩
    rw [← List.drop_drop, ← h, List.append_assoc, List.drop_left]
  · rintro ⟨⟨rest, h⟩, hb⟩
    rw [← List.drop_drop, ← h, List.drop_left] at hb
    obtain ⟨more, rfl⟩ := hb
    exact ⟨more, by rw [← h, List.append_assoc]⟩

theorem left (h : At buf p (a ++ b)) : At buf p a := (append_iff.mp h).1

theorem right (h : At buf p (a ++ b)) : At buf (p + a.length) b := (append_iff.mp h).2

/-- Two readings of the same length agree. -/
theorem unique (ha : At buf p a) (hb : At buf p b) (hlen : a.length = b.length) : a = b := by
  rw [At, List.prefix_iff_eq_take] at ha hb
  rw [ha, hb, hlen]

theorem mid (pre bs post : Bytes) : At (pre ++ bs ++ post) pre.length bs := by
  refine ⟨post, ?_⟩
  rw [List.append_assoc, List.drop_left]

/-- What stands in a part of a buffer stands in the buffer. -/
theorem inner {bs : Bytes} {q : Nat} (hbs : At buf p bs) (h : At bs q a) (hq : q ≤ bs.length) :
    At buf (p + q) a := by
  obtain ⟨rest, hrest⟩ := hbs
  obtain ⟨more, hmore⟩ := h
  refine ⟨more ++ rest, ?_⟩
  rw [← List.drop_drop, ← hrest, List.drop_append_of_le_length hq, ← hmore, List.append_assoc]

/-- What stands in the buffer, inside a part of it, stands in the part. -/
theorem within {bs : Bytes} {i : Nat} (hbs : At buf p bs) (h : At buf (p + i) a)
    (hlen : i + a.length ≤ bs.length) : At bs i a := by
  obtain ⟨rest, hrest⟩ := hbs
  rw [At, ← List.drop_drop, ← hrest, List.drop_append_of_le_length (by omega)] at h
  exact List.prefix_of_prefix_length_le h (List.prefix_append _ _)
    (by rw [List.length_drop]; omega)

/-- The byte at an offset. -/
theorem singleton_iff {x : UInt8} : At buf p [x] ↔ buf[p]? = some x := by
  unfold At
  rw [← List.head?_drop]
  cases buf.drop p with
  | nil => simp
  | cons y ys =>
    rw [List.cons_prefix_cons, List.head?_cons, Option.some_inj]
    exact ⟨fun h => h.1.symm, fun h => ⟨h.symm, List.nil_prefix⟩⟩

theorem cons_iff {x : UInt8} : At buf p (x :: a) ↔ buf[p]? = some x ∧ At buf (p + 1) a := by
  rw [← List.singleton_append, append_iff, singleton_iff]
  rfl

/-- The two bytes of a field. -/
theorem field {n : Nat} (h : At buf p (be 2 n)) (hn : n < 2 ^ 16) :
    ∃ hi lo, buf[p]? = some hi ∧ buf[p + 1]? = some lo ∧ beNat [hi, lo] = n := by
  obtain ⟨hi, lo, hbytes⟩ : ∃ hi lo, be 2 n = [hi, lo] := List.length_eq_two.mp (length_be 2 n)
  rw [hbytes] at h
  obtain ⟨hhi, hlo⟩ := cons_iff.mp h
  refine ⟨hi, lo, hhi, singleton_iff.mp hlo, ?_⟩
  rw [← hbytes, beNat_be hn]

end At

end Bytes

/-- Reading items one after another. -/
inductive Items {α : Type} (read : Nat → α → Nat → Prop) : Nat → List α → Nat → Prop
  | nil (p : Nat) : Items read p [] p
  | cons {p q r : Nat} {a : α} {as : List α} (first : read p a q) (more : Items read q as r) :
      Items read p (a :: as) r

namespace Items

variable {α β : Type} {read : Nat → α → Nat → Prop} {p q r : Nat} {as bs : List α}

/-- Items of a deterministic reader, as many of them, are the same items. -/
theorem unique (hread : ∀ p a q a' q', read p a q → read p a' q' → a = a' ∧ q = q')
    (h : Items read p as q) (h' : Items read p bs r) (hlen : as.length = bs.length) :
    as = bs ∧ q = r := by
  induction h generalizing bs with
  | nil =>
    cases h' with
    | nil => exact ⟨rfl, rfl⟩
    | cons => cases hlen
  | cons first _ ih =>
    cases h' with
    | nil => cases hlen
    | cons first' more' =>
      obtain ⟨rfl, rfl⟩ := hread _ _ _ _ _ first first'
      obtain ⟨rfl, rfl⟩ := ih more' (Nat.succ_inj.mp hlen)
      exact ⟨rfl, rfl⟩

theorem mem (h : Items read p as q) : ∀ a ∈ as, ∃ p q, read p a q := by
  induction h with
  | nil => exact fun a ha => absurd ha List.not_mem_nil
  | cons first _ ih => exact List.forall_mem_cons.mpr ⟨⟨_, _, first⟩, ih⟩

/-- Some first items of those read are read as well. -/
theorem take (h : Items read p as q) (n : Nat) : ∃ r, Items read p (as.take n) r := by
  induction h generalizing n with
  | nil p => exact ⟨p, by rw [List.take_nil]; exact .nil p⟩
  | cons first _ ih =>
    cases n with
    | zero => exact ⟨_, .nil _⟩
    | succ n =>
      obtain ⟨r, hr⟩ := ih n
      exact ⟨r, .cons first hr⟩

/-- Reading items and changing each of them on the way. -/
theorem map_iff {g : β → α} {read : Nat → β → Nat → Prop} :
    Items (fun p a q => ∃ b, read p b q ∧ a = g b) p as q
      ↔ ∃ bs, Items read p bs q ∧ as = bs.map g := by
  constructor
  · intro h
    induction h with
    | nil p => exact ⟨[], .nil p, rfl⟩
    | cons first _ ih =>
      obtain ⟨b, hb, rfl⟩ := first
      obtain ⟨bs, hbs, rfl⟩ := ih
      exact ⟨b :: bs, .cons hb hbs, rfl⟩
  · rintro ⟨bs, h, rfl⟩
    induction h with
    | nil p => exact .nil p
    | cons first _ ih => exact .cons ⟨_, first, rfl⟩ ih

end Items

/-- What a composition that succeeds went through. -/
theorem Except.bind_eq_ok_iff {ε α β : Type} {x : Except ε α} {f : α → Except ε β} {b : β} :
    (x >>= f) = .ok b ↔ ∃ a, x = .ok a ∧ f a = .ok b := by
  cases x with
  | error e =>
    constructor
    · intro h
      cases h
    · rintro ⟨a, ha, -⟩
      cases ha
  | ok a =>
    constructor
    · exact fun h => ⟨a, rfl, h⟩
    · rintro ⟨a', ha, hf⟩
      cases ha
      exact hf

/-- Reads `n` items, each from where the one before it ended. -/
def readMany {ε α : Type} (read : Nat → Except ε (α × Nat)) : Nat → Nat → Except ε (List α × Nat)
  | 0, p => .ok ([], p)
  | n + 1, p =>
    match read p with
    | .error e => .error e
    | .ok (a, q) =>
      match readMany read n q with
      | .error e => .error e
      | .ok (as, r) => .ok (a :: as, r)

theorem readMany_eq_ok {ε α : Type} {read : Nat → Except ε (α × Nat)} {n p : Nat} {as : List α}
    {q : Nat} : readMany read n p = .ok (as, q)
      ↔ Items (fun p a q => read p = .ok (a, q)) p as q ∧ as.length = n := by
  induction n generalizing p as with
  | zero =>
    rw [readMany]
    constructor
    · intro h
      cases h
      exact ⟨.nil _, rfl⟩
    · rintro ⟨h, hlen⟩
      cases h with
      | nil => rfl
      | cons => cases hlen
  | succ n ih =>
    rw [readMany]
    constructor
    · intro h
      cases hfirst : read p with
      | error e => rw [hfirst] at h; cases h
      | ok x =>
        obtain ⟨a, p'⟩ := x
        rw [hfirst] at h
        cases hmore : readMany read n p' with
        | error e => simp only [hmore] at h; cases h
        | ok y =>
          obtain ⟨as', r⟩ := y
          simp only [hmore] at h
          cases h
          obtain ⟨hitems, hlen⟩ := ih.mp hmore
          exact ⟨.cons hfirst hitems, by rw [List.length_cons, hlen]⟩
    · rintro ⟨h, hlen⟩
      cases h with
      | nil => cases hlen
      | cons first more =>
        have hmore := ih.mpr ⟨more, Nat.succ_inj.mp hlen⟩
        rw [first]
        simp only [hmore]
