import RtProxy.Handler.Basic

/-!
What the readers of the handlers take from the front of the bytes.
-/

namespace RtProxy

variable {α β : Type} {x : Take α} {a : α} {s s' bs : Bytes}

theorem take_bind {f : α → Take β} (h : x s = .ok (a, s')) : (x >>= f) s = f a s' := by
  show (x s >>= fun p => f p.1 p.2) = f a s'
  rw [h]
  rfl

theorem take_bind_error {f : α → Take β} {e : HandlerError} (h : x s = .error e) :
    (x >>= f) s = .error e := by
  show (x s >>= fun p => f p.1 p.2) = .error e
  rw [h]
  rfl

/-- What a reader that goes on has read first. -/
theorem take_bind_eq_ok {f : α → Take β} {b : β} (h : (x >>= f) s = .ok (b, s')) :
    ∃ a mid, x s = .ok (a, mid) ∧ f a mid = .ok (b, s') := by
  cases hx : x s with
  | error e =>
    rw [take_bind_error hx] at h
    cases h
  | ok p =>
    obtain ⟨a, mid⟩ := p
    rw [take_bind hx] at h
    exact ⟨a, mid, rfl, h⟩

theorem takeByte_cons (b : UInt8) (bs : Bytes) : takeByte (b :: bs) = .ok (b, bs) := rfl

theorem takeExact_append {n : Nat} (h : bs.length = n) (more : Bytes) :
    takeExact n (bs ++ more) = .ok (bs, more) := by
  rw [takeExact, if_neg (by rw [List.length_append]; omega), List.take_left' h, List.drop_left' h]

theorem takeExact_eq_ok {n : Nat} (h : takeExact n s = .ok (bs, s')) :
    s = bs ++ s' ∧ bs.length = n := by
  unfold takeExact at h
  split_ifs at h with hlen
  cases h
  exact ⟨(List.take_append_drop n s).symm, by rw [List.length_take]; omega⟩

theorem takeU16_be (port : UInt16) (more : Bytes) :
    takeU16 (Bytes.be 2 port.toNat ++ more) = .ok (port, more) := by
  rw [takeU16, take_bind (takeExact_append (Bytes.length_be _ _) more)]
  show Except.ok (UInt16.ofNat (Bytes.beNat (Bytes.be 2 port.toNat)), more) = .ok (port, more)
  rw [Bytes.ofNat_beNat_port]

theorem takeCString_go {acc : Bytes} (h : (0 : UInt8) ∉ bs) (more : Bytes) :
    takeCString.go acc (bs ++ 0 :: more) = .ok (acc ++ bs, more) := by
  induction bs generalizing acc with
  | nil => rw [List.nil_append, takeCString.go, if_pos rfl, List.append_nil]
  | cons b bs ih =>
    rw [List.mem_cons, not_or] at h
    rw [List.cons_append, takeCString.go, if_neg (Ne.symm h.1), ih h.2, List.append_assoc]
    rfl

theorem takeCString_append (h : (0 : UInt8) ∉ bs) (more : Bytes) :
    takeCString (bs ++ 0 :: more) = .ok (bs, more) :=
  takeCString_go h more

theorem takeCString_go_eq_ok {acc : Bytes} (h : takeCString.go acc s = .ok (bs, s')) :
    ∃ text, bs = acc ++ text ∧ s = text ++ 0 :: s' ∧ (0 : UInt8) ∉ text := by
  induction s generalizing acc with
  | nil => cases h
  | cons b s ih =>
    rw [takeCString.go] at h
    split_ifs at h with hb
    · cases h
      exact ⟨[], (List.append_nil _).symm, by rw [hb, List.nil_append], List.not_mem_nil⟩
    · obtain ⟨text, rfl, rfl, hnot⟩ := ih h
      refine ⟨b :: text, by rw [List.append_assoc]; rfl, rfl, ?_⟩
      exact List.not_mem_cons_of_ne_of_not_mem (Ne.symm hb) hnot

theorem takeCString_eq_ok : takeCString s = .ok (bs, s') ↔ s = bs ++ 0 :: s' ∧ (0 : UInt8) ∉ bs := by
  constructor
  · intro h
    obtain ⟨text, rfl, rfl, hnot⟩ := takeCString_go_eq_ok h
    exact ⟨rfl, hnot⟩
  · rintro ⟨rfl, h⟩
    exact takeCString_append h s'

/-- A text without a zero byte ends at the first one. -/
theorem cString_inj {a b c d : Bytes} (ha : (0 : UInt8) ∉ a) (hc : (0 : UInt8) ∉ c)
    (h : a ++ 0 :: b = c ++ 0 :: d) : a = c ∧ b = d := by
  have hread := takeCString_append ha b
  rw [h, takeCString_append hc d] at hread
  cases hread
  exact ⟨rfl, rfl⟩

end RtProxy
