import RtProxy.Io
import RtProxy.Lib.BlockReader

/-!
What the wrappers of a byte stream share.

Every wrapper keeps the bytes it still has to write in a buffer and drains it with
the same loop; they differ in the error for a transport that takes nothing.
-/

namespace RtProxy

open ByteStream

/-- The stream under a wrapper, in both directions. -/
structure Transport where
  inbound : Inbound IoError
  outbound : Outbound IoError
deriving Repr, DecidableEq

/-- A transport that is going to bring `src` and to answer writes with `grants`. -/
def Transport.new (src : Inbound IoError) (grants : List (Grant IoError)) : Transport :=
  { inbound := src, outbound := { grants := grants, sent := [] } }

/-- `io::ErrorKind::WriteZero.into()`. -/
def writeZeroErr : IoError := ⟨.writeZero, "write zero"⟩

/-- `io::ErrorKind::UnexpectedEof.into()`. -/
def unexpectedEofErr : IoError := ⟨.unexpectedEof, "unexpected end of file"⟩

/-- The loop of `poll_flush_out`. -/
def drainOut (zero : IoError) (out : Cursor) (dst : Outbound IoError) :
    Poll (Except IoError Unit) × Cursor × Outbound IoError :=
  match flush out dst with
  | (.done, out, dst) => (.ready (.ok ()), out, dst)
  | (.pending, out, dst) => (.pending, out, dst)
  | (.zero, out, dst) => (.ready (.error zero), out, dst)
  | (.error e, out, dst) => (.ready (.error e), out, dst)

theorem drainOut_snd (zero : IoError) (out : Cursor) (dst : Outbound IoError) :
    (drainOut zero out dst).2 = (flush out dst).2 := by
  unfold drainOut
  split <;> rename_i h <;> rw [h]

/-- Draining moves bytes from the buffer to the transport and loses none. -/
theorem drainOut_spec (zero : IoError) (out : Cursor) (dst : Outbound IoError) :
    (drainOut zero out dst).2.2.sent ++ (drainOut zero out dst).2.1.rest = dst.sent ++ out.rest := by
  rw [drainOut_snd]
  exact (flush_spec out dst).1

theorem drainOut_done {zero : IoError} {out : Cursor} {dst : Outbound IoError}
    (h : (drainOut zero out dst).1 = .ready (.ok ())) : (drainOut zero out dst).2.1.rest = [] := by
  have hdone := (flush_spec out dst).2.1
  rw [drainOut_snd]
  unfold drainOut at h
  revert hdone h
  rcases flush out dst with ⟨o, out', dst'⟩
  cases o with
  | done => exact fun _ hdone => hdone rfl
  | pending | zero | error => exact fun h => by cases h

/-- A drain that ends leaves the buffer cleared. -/
theorem drainOut_empty {zero : IoError} {out : Cursor} {dst : Outbound IoError}
    (h : (drainOut zero out dst).1 = .ready (.ok ())) : (drainOut zero out dst).2.1 = .empty := by
  rw [drainOut_snd]
  apply flush_done
  unfold drainOut at h
  revert h
  rcases flush out dst with ⟨o, out', dst'⟩
  cases o with
  | done => exact fun _ => rfl
  | pending | zero | error => exact fun h => by cases h

theorem drainOut_fails_iff (zero : IoError) (out : Cursor) (dst : Outbound IoError) :
    (∃ e, (drainOut zero out dst).1 = .ready (.error e)) ↔ Breaks dst.grants out.rest.length := by
  rw [← flush_breaks]
  unfold drainOut
  rcases flush out dst with ⟨o, out', dst'⟩
  cases o <;> simp

/-- A transport that never fails makes no drain fail. -/
theorem drainOut_willing {zero : IoError} {out : Cursor} {dst : Outbound IoError}
    (h : dst.Willing) :
    (drainOut zero out dst).1 = .ready (.ok ()) ∨ (drainOut zero out dst).1 = .pending := by
  have hw := flush_willing (c := out) h
  unfold drainOut
  split <;> rename_i heq <;> rw [heq] at hw <;> simp at hw ⊢

theorem willing_drainOut {zero : IoError} {out : Cursor} {dst : Outbound IoError}
    (h : dst.Willing) : (drainOut zero out dst).2.2.Willing := by
  rw [drainOut_snd]
  exact h.flush

/-- A transport that takes something at every poll lets a drain end. -/
theorem drainOut_ready (zero : IoError) {out : Cursor} {dst : Outbound IoError} {m : Nat}
    (h : dst.Ready (out.rest.length + m)) :
    (drainOut zero out dst).1 = .ready (.ok ()) ∧ (drainOut zero out dst).2.2.Ready m := by
  obtain ⟨hdone, hready⟩ := flush_ready h
  rw [drainOut_snd]
  refine ⟨?_, hready⟩
  unfold drainOut
  split <;> rename_i heq <;> rw [heq] at hdone <;> cases hdone <;> rfl

end RtProxy
