import RtProxy.Mux.Refine

/-!
Where the payload of the consumed frames goes.

For every stream that is not being dropped, the bytes its reads have returned
and the bytes in its buffer are a prefix of the payload consumed for its id, and
all of it while the table lists the stream.  A set `fin` flag says that the FIN
has been consumed and that no byte is missing.
-/

namespace RtProxy
namespace Mux

/-- The payload the reader is about to push to stream `r`. -/
def ReaderPc.pend (pc : ReaderPc) (r : Nat) : Bytes :=
  match pc with
  | .pshSpend r' data | .pshPush r' data => if r' = r then data else []
  | _ => []

/-- The payload the reader has consumed for an id and not looked a stream up for. -/
def ReaderPc.ahead (pc : ReaderPc) (i : UInt32) : Bytes :=
  match pc with
  | .pshLookup sid data => if sid = i then data else []
  | _ => []

/-- The reader has no payload in hand and no flag to set. -/
def ReaderPc.Idle (pc : ReaderPc) : Prop :=
  (∀ r i, pc.pend r = [] ∧ pc.ahead i = []) ∧ (∀ r, pc ≠ .finSet r)
    ∧ (∀ sid data, pc ≠ .pshLookup sid data) ∧ ∀ sid, pc ≠ .finLookup sid

namespace Session

/-- The messages the reader has consumed. -/
def heard (s : Session) : List Msg := s.parsed.filterMap fun x => msgOf x.1 x.2

/-- The payload consumed for the id of stream `r`. -/
def incoming (s : Session) (r : Nat) : Bytes := Msg.payload (s.objs r).id s.heard

/-- The bytes of stream `r`: read by the application, or waiting for it. -/
def received (s : Session) (r : Nat) : Bytes := (s.handles r).got ++ (s.objs r).content

end Session

structure RoutedAt (s : Session) (r : Nat) : Prop where
  sound : s.received r ++ s.reader.pend r <+: s.incoming r
  exact : s.Registered r →
    s.received r ++ s.reader.pend r ++ s.reader.ahead (s.objs r).id = s.incoming r
  fin : (s.objs r).fin = true ∨ s.reader = .finSet r →
    Msg.fin (s.objs r).id ∈ s.heard ∧ s.received r = s.incoming r
  eof : (s.handles r).eof = true → (s.objs r).fin = true ∧ (s.objs r).content = []

structure Routed (s : Session) : Prop where
  streams : ∀ r, r < s.nextRef → (s.handles r).op.dropping = false → RoutedAt s r
  looking : ∀ sid data, s.reader = .pshLookup sid data → Msg.psh sid data ∈ s.heard
  closing : ∀ sid, s.reader = .finLookup sid → Msg.fin sid ∈ s.heard

namespace RoutedAt

variable {s t : Session} {r : Nat}

/-- A step that moves no byte of stream `r`. -/
theorem congr (h : RoutedAt s r) (hid : (t.objs r).id = (s.objs r).id)
    (hheard : t.heard = s.heard) (hrec : t.received r = s.received r)
    (hpend : t.reader.pend r = s.reader.pend r)
    (hreg : t.Registered r → s.Registered r ∧
      t.reader.ahead (s.objs r).id = s.reader.ahead (s.objs r).id)
    (hfin : (t.objs r).fin = true ∨ t.reader = .finSet r →
      (s.objs r).fin = true ∨ s.reader = .finSet r)
    (heof : (t.handles r).eof = true → (s.handles r).eof = true ∧
      (t.objs r).fin = (s.objs r).fin ∧ (t.objs r).content = (s.objs r).content) : RoutedAt t r := by
  have hinc : t.incoming r = s.incoming r := by
    unfold Session.incoming
    rw [hid, hheard]
  refine ⟨?_, fun hr => ?_, fun hf => ?_, fun he => ?_⟩
  · rw [hrec, hpend, hinc]
    exact h.sound
  · obtain ⟨hs, hahead⟩ := hreg hr
    rw [hrec, hpend, hid, hahead, hinc]
    exact h.exact hs
  · rw [hid, hheard, hrec, hinc]
    exact h.fin (hfin hf)
  · obtain ⟨he', hf, hc⟩ := heof he
    rw [hf, hc]
    exact h.eof he'

/-- A finished stream has nothing on its way. -/
theorem pend_eq_nil (h : RoutedAt s r) (hf : (s.objs r).fin = true ∨ s.reader = .finSet r) :
    s.reader.pend r = [] := by
  have hlen := h.sound.length_le
  rw [(h.fin hf).2, List.length_append] at hlen
  exact List.length_eq_zero_iff.mp (by omega)

end RoutedAt

/-- Nothing the routing speaks of differs in the buffer of a stream. -/
def SameBuffer (a b : StreamState) : Prop := a.id = b.id ∧ a.content = b.content ∧ a.fin = b.fin

theorem SameBuffer.rfl {a : StreamState} : SameBuffer a a := ⟨Eq.refl _, Eq.refl _, Eq.refl _⟩

namespace Routed

variable {s t : Session} {r : Nat}

/-- A step of a thread other than the reader that neither inserts a stream nor
moves a byte: it may change any handle, as long as it changes no history. -/
theorem congr (hr : Routed s) (hobjs : ∀ r, SameBuffer (t.objs r) (s.objs r))
    (hparsed : t.parsed = s.parsed) (hreader : t.reader = s.reader) (hn : t.nextRef = s.nextRef)
    (hreg : ∀ sid r, t.streams sid = some r → s.streams sid = some r)
    (hh : ∀ r, (t.handles r).op.dropping = false → (s.handles r).op.dropping = false ∧
      (t.handles r).got = (s.handles r).got ∧ (t.handles r).eof = (s.handles r).eof) : Routed t := by
  have hheard : t.heard = s.heard := by
    unfold Session.heard
    rw [hparsed]
  refine ⟨fun r hlt hd => ?_, ?_, ?_⟩
  · obtain ⟨hd', hgot, heof⟩ := hh r hd
    obtain ⟨hid, hcontent, hfin⟩ := hobjs r
    rw [hn] at hlt
    refine (hr.streams r hlt hd').congr hid hheard ?_ (by rw [hreader]) ?_ ?_ ?_
    · unfold Session.received
      rw [hgot, hcontent]
    · intro h
      refine ⟨?_, by rw [hreader]⟩
      unfold Session.Registered at h ⊢
      rw [hid] at h
      exact hreg _ _ h
    · rw [hfin, hreader]
      exact id
    · rw [heof, hfin, hcontent]
      exact fun h => ⟨h, rfl, rfl⟩
  · rw [hreader, hheard]
    exact hr.looking
  · rw [hreader, hheard]
    exact hr.closing

/-- A move of the reader between frames. -/
theorem move (hr : Routed s) (hobjs : ∀ r, SameBuffer (t.objs r) (s.objs r))
    (hh : ∀ r, (t.handles r).op.dropping = false → (s.handles r).op.dropping = false ∧
      (t.handles r).got = (s.handles r).got ∧ (t.handles r).eof = (s.handles r).eof)
    (hreg : ∀ sid r, t.streams sid = some r → s.streams sid = some r)
    (hparsed : t.parsed = s.parsed) (hn : t.nextRef = s.nextRef)
    (hold : ∀ r i, s.reader.pend r = [] ∧ s.reader.ahead i = []) (hnew : t.reader.Idle) :
    Routed t := by
  have hheard : t.heard = s.heard := by
    unfold Session.heard
    rw [hparsed]
  refine ⟨fun r hlt hd => ?_, fun sid data h => absurd h (hnew.2.2.1 sid data),
    fun sid h => absurd h (hnew.2.2.2 sid)⟩
  obtain ⟨hd', hgot, heof⟩ := hh r hd
  obtain ⟨hid, hcontent, hfin⟩ := hobjs r
  rw [hn] at hlt
  refine (hr.streams r hlt hd').congr hid hheard ?_ ?_ ?_ ?_ ?_
  · unfold Session.received
    rw [hgot, hcontent]
  · rw [(hnew.1 r 0).1, (hold r 0).1]
  · intro h
    refine ⟨?_, by rw [(hnew.1 r _).2, (hold r _).2]⟩
    unfold Session.Registered at h ⊢
    rw [hid] at h
    exact hreg _ _ h
  · intro h
    rw [hfin] at h
    exact .inl (h.resolve_right (hnew.2.1 r))
  · rw [heof, hfin, hcontent]
    exact fun h => ⟨h, rfl, rfl⟩

/-- A read moves bytes from the buffer to the application. -/
theorem read (hr : Routed s) (hlt : r < s.nextRef) {cap : Room} {cx : Waker}
    (h : (s.handles r).op = .read cap cx) :
    Routed ((s.setObj r ((s.objs r).pollRead s.closed cap cx).1).setHandle r
      ((s.handles r).afterRead ((s.objs r).pollRead s.closed cap cx).2)) := by
  obtain ⟨hsplit, hid, hfin⟩ := (s.objs r).pollRead_spec s.closed cap cx
  have hat := hr.streams r hlt (by rw [h]; rfl)
  refine ⟨fun i hi hd => ?_, hr.looking, hr.closing⟩
  by_cases hir : i = r
  · subst hir
    have hrec : ((s.setObj i ((s.objs i).pollRead s.closed cap cx).1).setHandle i
        ((s.handles i).afterRead ((s.objs i).pollRead s.closed cap cx).2)).received i
        = s.received i := by
      unfold Session.received
      rw [Session.handles_setHandle_self, hsplit, ← List.append_assoc]
      congr 1
      · cases ((s.objs i).pollRead s.closed cap cx).2 <;>
          simp [Handle.afterRead, StreamState.ReadOut.bytes]
      · exact congrArg StreamState.content (Session.objs_setObj_self s i _)
    have hobj : ((s.setObj i ((s.objs i).pollRead s.closed cap cx).1).setHandle i
        ((s.handles i).afterRead ((s.objs i).pollRead s.closed cap cx).2)).objs i
        = ((s.objs i).pollRead s.closed cap cx).1 := Session.objs_setObj_self s i _
    have hinc : ((s.setObj i ((s.objs i).pollRead s.closed cap cx).1).setHandle i
        ((s.handles i).afterRead ((s.objs i).pollRead s.closed cap cx).2)).incoming i
        = s.incoming i := by
      unfold Session.incoming
      rw [hobj, hid]
      rfl
    refine ⟨?_, fun hreg => ?_, fun hf => ?_, fun he => ?_⟩
    · rw [hrec, hinc]
      exact hat.sound
    · rw [hrec, hinc, hobj, hid]
      unfold Session.Registered at hreg
      rw [hobj, hid] at hreg
      exact hat.exact hreg
    · rw [hobj, hid, hrec, hinc]
      rw [hobj, hfin] at hf
      exact hat.fin hf
    · rw [hobj, hfin]
      rw [Session.handles_setHandle_self] at he
      -- end of file is reported now, or was reported before
      have hdone : (s.objs i).fin = true ∧ (s.objs i).content = [] := by
        cases hout : ((s.objs i).pollRead s.closed cap cx).2 with
        | eof => exact StreamState.pollRead_eof cap.2 hout
        | _ =>
          rw [hout] at he
          exact hat.eof he
      rw [hdone.2] at hsplit
      exact ⟨hdone.1, (List.append_eq_nil_iff.mp hsplit.symm).2⟩
  · have hhandle := Session.handles_setHandle_of_ne
      (s.setObj r ((s.objs r).pollRead s.closed cap cx).1) r hir
      ((s.handles r).afterRead ((s.objs r).pollRead s.closed cap cx).2)
    have hobj := Session.objs_setObj_of_ne s r hir ((s.objs r).pollRead s.closed cap cx).1
    have hsame := hr.streams i hi (by rw [← hd, hhandle]; rfl)
    refine hsame.congr (congrArg _ hobj) rfl ?_ rfl (fun hreg => ⟨?_, rfl⟩) (fun hf => ?_)
      (fun he => ⟨?_, congrArg _ hobj, congrArg _ hobj⟩)
    · unfold Session.received
      rw [hhandle]
      exact congrArg _ (congrArg _ hobj)
    · unfold Session.Registered at hreg ⊢
      rw [← congrArg StreamState.id hobj]
      exact hreg
    · rw [← congrArg StreamState.fin hobj]
      exact hf
    · rw [hhandle] at he
      exact he

/-- The reader pushes the payload it holds. -/
theorem pushBytes (hr : Routed s) {data : Bytes} (h : s.reader = .pshPush r data)
    (hobjs : t.objs = Function.update s.objs r ((s.objs r).pushBytes data))
    (hh : t.handles = s.handles) (hs : t.streams = s.streams) (hparsed : t.parsed = s.parsed)
    (hn : t.nextRef = s.nextRef) (hreader : t.reader = .top) : Routed t := by
  have hheard : t.heard = s.heard := by
    unfold Session.heard
    rw [hparsed]
  have hself : t.objs r = (s.objs r).pushBytes data := by rw [hobjs, Function.update_self]
  have hother : ∀ i, i ≠ r → t.objs i = s.objs i := fun i hi => by
    rw [hobjs, Function.update_of_ne hi]
  have hid : ∀ i, (t.objs i).id = (s.objs i).id := by
    intro i
    by_cases hi : i = r
    · rw [hi, hself]
      rfl
    · rw [hother i hi]
  have hreg : ∀ i, t.Registered i → s.Registered i := by
    intro i hi
    unfold Session.Registered at hi ⊢
    rwa [hid, hs] at hi
  refine ⟨fun i hlt hd => ?_, fun sid d hp => ?_, fun sid hp => ?_⟩
  · rw [hn] at hlt
    rw [hh] at hd
    have hat := hr.streams i hlt hd
    by_cases hi : i = r
    · subst hi
      have hpend : s.reader.pend i = data ∧ s.reader.ahead (s.objs i).id = [] := by
        rw [h]
        exact ⟨if_pos rfl, rfl⟩
      have hrec : t.received i = s.received i ++ s.reader.pend i := by
        unfold Session.received
        rw [hh, hself, StreamState.content_pushBytes, hpend.1, List.append_assoc]
      have hinc : t.incoming i = s.incoming i := by
        unfold Session.incoming
        rw [hid, hheard]
      have hquiet : t.reader.pend i = [] ∧ t.reader.ahead (t.objs i).id = [] := by
        rw [hreader]
        exact ⟨rfl, rfl⟩
      refine ⟨?_, fun hregi => ?_, fun hf => ?_, fun he => ?_⟩
      · rw [hrec, hquiet.1, List.append_nil, hinc]
        exact hat.sound
      · have hex := hat.exact (hreg i hregi)
        rw [hpend.2, List.append_nil] at hex
        rw [hrec, hquiet.1, hquiet.2, List.append_nil, List.append_nil, hinc]
        exact hex
      · have hf' : (s.objs i).fin = true ∨ s.reader = .finSet i := by
          rw [hself, hreader] at hf
          exact .inl (hf.resolve_right nofun)
        rw [hid, hheard, hrec, hat.pend_eq_nil hf', List.append_nil, hinc]
        exact hat.fin hf'
      · rw [hh] at he
        obtain ⟨hf, hc⟩ := hat.eof he
        have hnil := hat.pend_eq_nil (.inl hf)
        rw [hpend.1] at hnil
        rw [hself, StreamState.content_pushBytes, hc, hnil]
        exact ⟨hf, rfl⟩
    · refine hat.congr (hid i) hheard ?_ ?_ (fun hregi => ⟨hreg i hregi, ?_⟩) (fun hf => ?_)
        (fun he => ⟨hh ▸ he, by rw [hother i hi], by rw [hother i hi]⟩)
      · unfold Session.received
        rw [hh, hother i hi]
      · rw [hreader, h]
        exact (if_neg (Ne.symm hi)).symm
      · rw [hreader, h]
        rfl
      · rw [hother i hi, hreader] at hf
        exact .inl (hf.resolve_right nofun)
  · rw [hreader] at hp
    cases hp
  · rw [hreader] at hp
    cases hp

/-- A lookup: the payload or the flag in hand goes to the stream the table lists
under its id, if any, and to no other. -/
theorem lookup (hr : Routed s) (hobjs : t.objs = s.objs) (hh : t.handles = s.handles)
    (hs : t.streams = s.streams) (hparsed : t.parsed = s.parsed) (hn : t.nextRef = s.nextRef)
    (hpend : ∀ i, s.reader.pend i = [])
    (hreg : ∀ i, s.Registered i →
      t.reader.pend i ++ t.reader.ahead (s.objs i).id = s.reader.ahead (s.objs i).id)
    (hunreg : ∀ i, t.reader.pend i ≠ [] ∨ t.reader = .finSet i → s.Registered i)
    (hfin : ∀ i, t.reader = .finSet i →
      Msg.fin (s.objs i).id ∈ s.heard ∧ s.reader.ahead (s.objs i).id = [])
    (hlook : ∀ sid data, t.reader ≠ .pshLookup sid data)
    (hclose : ∀ sid, t.reader ≠ .finLookup sid) : Routed t := by
  have hheard : t.heard = s.heard := by
    unfold Session.heard
    rw [hparsed]
  refine ⟨fun i hlt hd => ?_, fun sid d hp => absurd hp (hlook sid d),
    fun sid hp => absurd hp (hclose sid)⟩
  rw [hn] at hlt
  rw [hh] at hd
  have hat := hr.streams i hlt hd
  have hrec : t.received i = s.received i := by
    unfold Session.received
    rw [hh, hobjs]
  have hinc : t.incoming i = s.incoming i := by
    unfold Session.incoming
    rw [hobjs, hheard]
  have hexact : s.Registered i →
      s.received i ++ (t.reader.pend i ++ t.reader.ahead (s.objs i).id) = s.incoming i := by
    intro hi
    have hex := hat.exact hi
    rw [hpend, List.append_nil] at hex
    rw [hreg i hi, hex]
  refine ⟨?_, fun hi => ?_, fun hf => ?_, fun he => ?_⟩
  · rw [hrec, hinc]
    by_cases hnil : t.reader.pend i = []
    · have hsound := hat.sound
      rw [hpend, List.append_nil] at hsound
      rw [hnil, List.append_nil]
      exact hsound
    · rw [← hexact (hunreg i (.inl hnil)), ← List.append_assoc]
      exact List.prefix_append _ _
  · unfold Session.Registered at hi
    rw [hs, hobjs] at hi
    rw [hrec, hinc, hobjs, List.append_assoc]
    exact hexact hi
  · rw [hobjs, hheard, hrec, hinc]
    rw [hobjs] at hf
    rcases hf with hf | hf
    · exact hat.fin (.inl hf)
    · obtain ⟨hmem, hahead⟩ := hfin i hf
      have hex := hat.exact (hunreg i (.inr hf))
      rw [hpend, hahead, List.append_nil, List.append_nil] at hex
      exact ⟨hmem, hex⟩
  · rw [hobjs]
    rw [hh] at he
    exact hat.eof he

/-- The reader sets the flag it looked a stream up for. -/
theorem setFin (hr : Routed s) (h : s.reader = .finSet r)
    (hobjs : t.objs = Function.update s.objs r (s.objs r).setFin)
    (hh : t.handles = s.handles) (hs : t.streams = s.streams) (hparsed : t.parsed = s.parsed)
    (hn : t.nextRef = s.nextRef) (hreader : t.reader = .top) : Routed t := by
  have hheard : t.heard = s.heard := by
    unfold Session.heard
    rw [hparsed]
  have hobj : ∀ i, (t.objs i).id = (s.objs i).id ∧ (t.objs i).content = (s.objs i).content
      ∧ ((t.objs i).fin = true → (s.objs i).fin = true ∨ i = r)
      ∧ ((s.objs i).fin = true → (t.objs i).fin = true) := by
    intro i
    by_cases hi : i = r
    · subst hi
      rw [hobjs, Function.update_self]
      exact ⟨rfl, rfl, fun _ => .inr rfl, fun _ => rfl⟩
    · rw [hobjs, Function.update_of_ne hi]
      exact ⟨rfl, rfl, .inl, id⟩
  refine ⟨fun i hlt hd => ?_, fun sid d hp => ?_, fun sid hp => ?_⟩
  · obtain ⟨hid, hcontent, hfin, hfin'⟩ := hobj i
    rw [hn] at hlt
    rw [hh] at hd
    have hat := hr.streams i hlt hd
    have hrec : t.received i = s.received i := by
      unfold Session.received
      rw [hh, hcontent]
    have hinc : t.incoming i = s.incoming i := by
      unfold Session.incoming
      rw [hid, hheard]
    have hpend : t.reader.pend i = s.reader.pend i
        ∧ t.reader.ahead (s.objs i).id = s.reader.ahead (s.objs i).id := by
      rw [hreader, h]
      exact ⟨rfl, rfl⟩
    refine ⟨?_, fun hi => ?_, fun hf => ?_, fun he => ?_⟩
    · rw [hrec, hinc, hpend.1]
      exact hat.sound
    · unfold Session.Registered at hi
      rw [hid, hs] at hi
      rw [hrec, hinc, hpend.1, hid, hpend.2]
      exact hat.exact hi
    · rw [hid, hheard, hrec, hinc]
      rw [hreader] at hf
      rcases hfin (hf.resolve_right nofun) with hold | rfl
      · exact hat.fin (.inl hold)
      · exact hat.fin (.inr h)
    · rw [hh] at he
      obtain ⟨hf, hc⟩ := hat.eof he
      rw [hcontent]
      exact ⟨hfin' hf, hc⟩
  · rw [hreader] at hp
    cases hp
  · rw [hreader] at hp
    cases hp

/-- A new stream starts empty, and so does the payload consumed for its id. -/
theorem insert (hr : Routed s) {sid : UInt32} {h : Handle} (hgot : h.got = [])
    (heof : h.eof = false) (hnew : Msg.payload sid s.heard = [])
    (hobjs : t.objs = Function.update s.objs s.nextRef (StreamState.new sid))
    (hh : t.handles = Function.update s.handles s.nextRef h)
    (hs : t.streams = Function.update s.streams sid (some s.nextRef))
    (hparsed : t.parsed = s.parsed) (hn : t.nextRef = s.nextRef + 1)
    (htarget : ∀ r, s.reader.target = some r → r < s.nextRef)
    (hreader : t.reader = s.reader ∨ s.reader.Idle ∧ t.reader.Idle) : Routed t := by
  have hheard : t.heard = s.heard := by
    unfold Session.heard
    rw [hparsed]
  have hpend : ∀ i j, t.reader.pend i = s.reader.pend i ∧ t.reader.ahead j = s.reader.ahead j := by
    intro i j
    rcases hreader with hsame | ⟨hold, hidle⟩
    · rw [hsame]
      exact ⟨rfl, rfl⟩
    · rw [(hold.1 i j).1, (hold.1 i j).2, (hidle.1 i j).1, (hidle.1 i j).2]
      exact ⟨rfl, rfl⟩
  have hfinSet : ∀ i, t.reader = .finSet i → s.reader = .finSet i := by
    intro i hi
    rcases hreader with hsame | ⟨-, hidle⟩
    · rw [← hsame, hi]
    · exact absurd hi (hidle.2.1 i)
  refine ⟨fun i hlt hd => ?_, fun i d hp => ?_, fun i hp => ?_⟩
  · by_cases hi : i = s.nextRef
    · subst hi
      have hobj : t.objs s.nextRef = StreamState.new sid := by rw [hobjs, Function.update_self]
      have hhandle : t.handles s.nextRef = h := by rw [hh, Function.update_self]
      have hinc : t.incoming s.nextRef = [] := by
        unfold Session.incoming
        rw [hobj, hheard]
        exact hnew
      have hrec : t.received s.nextRef = [] := by
        unfold Session.received
        rw [hhandle, hobj, hgot]
        rfl
      have hnone : t.reader.pend s.nextRef = [] := by
        rw [(hpend s.nextRef 0).1]
        cases hpc : s.reader with
        | pshSpend r' data | pshPush r' data =>
          have hlt' := htarget r' (by rw [hpc]; rfl)
          exact if_neg (Nat.ne_of_lt hlt')
        | _ => rfl
      have hahead : t.reader.ahead sid = [] := by
        rw [(hpend 0 sid).2]
        cases hpc : s.reader with
        | pshLookup sid' data =>
          -- a payload in hand for `sid` would have been consumed
          show (if sid' = sid then data else []) = []
          split_ifs with hsid
          · subst hsid
            have hmem := Msg.mem_onId.mpr ⟨hr.looking sid' data hpc, rfl⟩
            exact List.flatMap_eq_nil_iff.mp hnew _ hmem
          · rfl
        | _ => rfl
      refine ⟨?_, fun _ => ?_, fun hf => ?_, fun he => ?_⟩
      · rw [hrec, hnone]
        exact List.nil_prefix
      · rw [hrec, hnone, hobj, hinc]
        exact hahead
      · rw [hobj] at hf
        have hset := hfinSet _ (hf.resolve_left nofun)
        have hlt' := htarget s.nextRef (by rw [hset]; rfl)
        exact absurd hlt' (Nat.lt_irrefl _)
      · rw [hhandle, heof] at he
        cases he
    · have hobj : t.objs i = s.objs i := by rw [hobjs, Function.update_of_ne hi]
      have hhandle : t.handles i = s.handles i := by rw [hh, Function.update_of_ne hi]
      have hat := hr.streams i (by omega) (by rw [← hhandle]; exact hd)
      refine hat.congr (by rw [hobj]) hheard ?_ (hpend i 0).1 (fun hreg => ⟨?_, (hpend i _).2⟩)
        (fun hf => ?_) (fun he => ⟨hhandle ▸ he, by rw [hobj], by rw [hobj]⟩)
      · unfold Session.received
        rw [hhandle, hobj]
      · unfold Session.Registered at hreg ⊢
        rw [hobj, hs] at hreg
        by_cases hsid : (s.objs i).id = sid
        · rw [hsid, Function.update_self] at hreg
          exact absurd (Option.some.inj hreg).symm hi
        · rwa [Function.update_of_ne hsid] at hreg
      · rw [hobj] at hf
        exact hf.imp id (hfinSet i)
  · rcases hreader with hsame | ⟨-, hidle⟩
    · rw [hheard]
      exact hr.looking i d (hsame ▸ hp)
    · exact absurd hp (hidle.2.2.1 i d)
  · rcases hreader with hsame | ⟨-, hidle⟩
    · rw [hheard]
      exact hr.closing i (hsame ▸ hp)
    · exact absurd hp (hidle.2.2.2 i)

end Routed

/-- What is in hand after a frame has been consumed is the payload it added. -/
theorem ReaderPc.ahead_handleFrame (hdr : MuxHeader) (data : Bytes) (i : UInt32) :
    (Session.handleFrame hdr data).ahead i = Msg.payload i (msgOf hdr data).toList := by
  unfold Session.handleFrame msgOf
  split_ifs with hsyn hfin hpsh hcmd hcmd
  · by_cases hi : hdr.sid = i <;> simp [ahead, Msg.payload, Msg.onId, Msg.data, Msg.sid, hi]
  · by_cases hi : hdr.sid = i <;> simp [ahead, Msg.payload, Msg.onId, Msg.data, Msg.sid, hi]
  · by_cases hi : hdr.sid = i <;> simp [ahead, Msg.payload, Msg.onId, Msg.data, Msg.sid, hi]
  · exact absurd hpsh.1 hcmd
  · have hnil : data = [] := by
      rw [← List.length_eq_zero_iff]
      by_contra hne
      exact hpsh ⟨hcmd, Nat.pos_of_ne_zero hne⟩
    by_cases hi : hdr.sid = i <;> simp [ahead, Msg.payload, Msg.onId, Msg.data, Msg.sid, hi, hnil]
  · rfl

theorem ReaderPc.handleFrame_cases (hdr : MuxHeader) (data : Bytes) :
    (∀ r, (Session.handleFrame hdr data).pend r = [])
      ∧ (∀ r, Session.handleFrame hdr data ≠ .finSet r)
      ∧ (∀ sid d, Session.handleFrame hdr data = .pshLookup sid d →
        msgOf hdr data = some (.psh sid d))
      ∧ ∀ sid, Session.handleFrame hdr data = .finLookup sid →
        msgOf hdr data = some (.fin sid) := by
  unfold Session.handleFrame msgOf
  split_ifs with hsyn hfin hpsh hcmd hcmd
  · exact ⟨fun _ => rfl, nofun, nofun, nofun⟩
  · exact ⟨fun _ => rfl, nofun, nofun, fun sid h => by cases h; rfl⟩
  · exact ⟨fun _ => rfl, nofun, fun sid d h => by cases h; rfl, nofun⟩
  · exact absurd hpsh.1 hcmd
  · exact ⟨fun _ => rfl, nofun, nofun, nofun⟩
  · exact ⟨fun _ => rfl, nofun, nofun, nofun⟩

/-- Consuming a frame.  `hdone` is what the peer promises: it sends nothing on a
stream after its FIN. -/
theorem Routed.consume {s t : Session} {hdr : MuxHeader} {data : Bytes} (hr : Routed s)
    (hold : s.reader.Idle) (hobjs : t.objs = s.objs) (hh : t.handles = s.handles)
    (hs : t.streams = s.streams) (hn : t.nextRef = s.nextRef)
    (hparsed : t.parsed = s.parsed ++ [(hdr, data)])
    (hreader : t.reader = Session.handleFrame hdr data)
    (hdone : ∀ i, Msg.fin i ∈ s.heard → Msg.payload i t.heard = Msg.payload i s.heard) :
    Routed t := by
  have hheard : t.heard = s.heard ++ (msgOf hdr data).toList := by
    unfold Session.heard
    rw [hparsed, List.filterMap_append]
    congr 1
  obtain ⟨hpend, hfinSet, hlook, hclose⟩ := ReaderPc.handleFrame_cases hdr data
  refine ⟨fun i hlt hd => ?_, fun sid d hp => ?_, fun sid hp => ?_⟩
  · rw [hn] at hlt
    rw [hh] at hd
    have hat := hr.streams i hlt hd
    have hrec : t.received i = s.received i := by
      unfold Session.received
      rw [hh, hobjs]
    have hinc : t.incoming i = s.incoming i ++ t.reader.ahead (s.objs i).id := by
      unfold Session.incoming
      rw [hobjs, hheard, Msg.payload_append, hreader, ReaderPc.ahead_handleFrame]
    have hnone : t.reader.pend i = [] := by
      rw [hreader]
      exact hpend i
    refine ⟨?_, fun hi => ?_, fun hf => ?_, fun he => ?_⟩
    · have hsound := hat.sound
      rw [(hold.1 i 0).1, List.append_nil] at hsound
      rw [hrec, hnone, List.append_nil, hinc]
      exact hsound.trans (List.prefix_append _ _)
    · unfold Session.Registered at hi
      rw [hobjs, hs] at hi
      have hex := hat.exact hi
      rw [(hold.1 i 0).1, (hold.1 0 _).2, List.append_nil, List.append_nil] at hex
      rw [hrec, hnone, List.append_nil, hobjs, hinc, hex]
    · rw [hobjs, hreader] at hf
      obtain ⟨hmem, heq⟩ := hat.fin (.inl (hf.resolve_right (hfinSet i)))
      have hsame : t.incoming i = s.incoming i := by
        unfold Session.incoming
        rw [hobjs]
        exact hdone _ hmem
      rw [hobjs, hrec, hsame, hheard]
      exact ⟨List.mem_append_left _ hmem, heq⟩
    · rw [hobjs]
      rw [hh] at he
      exact hat.eof he
  · rw [hreader] at hp
    rw [hheard, hlook sid d hp]
    exact List.mem_append_right _ (List.mem_singleton_self _)
  · rw [hreader] at hp
    rw [hheard, hclose sid hp]
    exact List.mem_append_right _ (List.mem_singleton_self _)

theorem FailStep.routed {s t : Session} {pc : FailPc} {next : Option FailPc}
    (h : FailStep s pc t next) :
    (∀ r, SameBuffer (t.objs r) (s.objs r)) ∧ t.parsed = s.parsed := by
  cases h
  case setDead refs r hr =>
    refine ⟨fun i => ?_, rfl⟩
    show SameBuffer (Function.update s.objs r (s.objs r).setDead i) (s.objs i)
    by_cases hi : i = r
    · subst hi
      rw [Function.update_self]
      exact ⟨rfl, rfl, rfl⟩
    · rw [Function.update_of_ne hi]
      exact .rfl
  all_goals exact ⟨fun _ => .rfl, rfl⟩

/-- The table lists stream `r` under `sid` exactly if `r` is registered and has
that id. -/
theorem Tabled.lookup_iff {s : Session} (ht : Tabled s) {sid : UInt32} {r : Nat}
    (hs : s.streams sid = some r) (i : Nat) (hi : s.Registered i) : r = i ↔ sid = (s.objs i).id := by
  unfold Session.Registered at hi
  constructor
  · rintro rfl
    exact (ht.table sid r hs).1.symm
  · rintro rfl
    rw [hi] at hs
    exact (Option.some.inj hs).symm

theorem Tabled.registered_of_lookup {s : Session} (ht : Tabled s) {sid : UInt32} {r : Nat}
    (hs : s.streams sid = some r) : s.Registered r := by
  unfold Session.Registered
  rw [(ht.table sid r hs).1]
  exact hs

/-- The step inserts a stream under `sid`. -/
def Inserts (s : Session) (l : Label) (sid : UInt32) : Prop :=
  l = .reader ∧ s.reader = .synInsert sid ∨ ∃ k, l = .openStream k ∧ s.opens k = .insert sid

/-- A step of a stream that neither reads nor brings a dropped handle back. -/
theorem Routed.stream {s t : Session} {r : Nat} {h : Handle} (hr : Routed s)
    (hh : t.handles = Function.update s.handles r h)
    (hd : h.op.dropping = false → (s.handles r).op.dropping = false)
    (hgot : h.got = (s.handles r).got) (heof : h.eof = (s.handles r).eof) (hobjs : t.objs = s.objs)
    (hparsed : t.parsed = s.parsed) (hreader : t.reader = s.reader) (hn : t.nextRef = s.nextRef)
    (hreg : ∀ sid r, t.streams sid = some r → s.streams sid = some r) : Routed t := by
  refine hr.congr (fun i => by rw [hobjs]; exact .rfl) hparsed hreader hn hreg fun i hi => ?_
  rw [hh] at hi ⊢
  by_cases hir : i = r
  · subst hir
    rw [Function.update_self] at hi ⊢
    exact ⟨hd hi, hgot, heof⟩
  · rw [Function.update_of_ne hir] at hi ⊢
    exact ⟨hi, rfl, rfl⟩

theorem ReaderPc.idle_ofFail (next : Option FailPc) : (ofFail next).Idle := by
  cases next <;> exact ⟨fun _ _ => ⟨rfl, rfl⟩, nofun, nofun, nofun⟩

/-- `hins` and `hdone` are what the protocol promises: no payload has come for an
id when a stream is inserted under it, and none follows a FIN. -/
theorem Step.routed {s t : Session} {l : Label} (h : Step s l t) (hw : Wf s) (hr : Routed s)
    (hins : ∀ sid, Inserts s l sid → Msg.payload sid s.heard = [])
    (hdone : ∀ i, Msg.fin i ∈ s.heard → Msg.payload i t.heard = Msg.payload i s.heard) :
    Routed t := by
  have hsame : ∀ r, SameBuffer (s.objs r) (s.objs r) := fun _ => .rfl
  have hkeep : ∀ r, (s.handles r).op.dropping = false → (s.handles r).op.dropping = false
      ∧ (s.handles r).got = (s.handles r).got ∧ (s.handles r).eof = (s.handles r).eof :=
    fun _ hd => ⟨hd, rfl, rfl⟩
  cases h
  all_goals try exact hr.congr hsame rfl rfl rfl (fun _ _ => id) hkeep
  -- moves of the reader with nothing in hand
  case readerTop h | readerCheckClosed h | readerPark h | readerRecheck h | readerSynCheck h =>
    refine hr.move hsame hkeep (fun _ _ => id) rfl rfl
      (by rw [h]; exact fun _ _ => ⟨rfl, rfl⟩) ?_
    dsimp only
    split_ifs <;> exact ⟨fun _ _ => ⟨rfl, rfl⟩, nofun, nofun, nofun⟩
  case readerHeader h _ _ _ =>
    refine hr.move hsame hkeep (fun _ _ => id) rfl rfl
      (by rw [h]; exact fun _ _ => ⟨rfl, rfl⟩) ?_
    dsimp only
    split_ifs <;> exact ⟨fun _ _ => ⟨rfl, rfl⟩, nofun, nofun, nofun⟩
  case readerWake h _ | readerDecodeErr h _ | readerDecodeBody h _ _ | readerBody h _ _ _
      | readerHeaderEof h _ _ | readerBodyEof h _ _ | readerHeaderError h
      | readerBodyError h | readerFinMiss h _ | readerAcceptFull h _ _ | readerAcceptWait h _
      | readerAcceptRetry h | readerAcceptSend h _ _ =>
    exact hr.move hsame hkeep (fun _ _ => id) rfl rfl (by rw [h]; exact fun _ _ => ⟨rfl, rfl⟩)
      ⟨fun _ _ => ⟨rfl, rfl⟩, nofun, nofun, nofun⟩
  case readerAbort _ h =>
    refine hr.move hsame hkeep (fun _ _ => id) rfl rfl ?_
      ⟨fun _ _ => ⟨rfl, rfl⟩, nofun, nofun, nofun⟩
    rcases h with (h | ⟨buf, h⟩) | ⟨hdr, buf, h⟩ <;> rw [h] <;> exact fun _ _ => ⟨rfl, rfl⟩
  case readerFail h hf =>
    obtain ⟨hh, hn, -, -, -⟩ := hf.frame
    exact hr.move hf.routed.1 (by rw [hh]; exact hkeep) hf.table.1 hf.routed.2 hn
      (by rw [h]; exact fun _ _ => ⟨rfl, rfl⟩) (ReaderPc.idle_ofFail _)
  case writerFail h hf | keepFail h hf | closeFail h hf =>
    obtain ⟨hh, hn, -, hreader, -⟩ := hf.frame
    refine hr.congr hf.routed.1 hf.routed.2 hreader hn hf.table.1 fun r hd => ?_
    have hhandle := congrFun hh r
    exact ⟨by rw [← hhandle]; exact hd, congrArg _ hhandle, congrArg _ hhandle⟩
  -- a frame is consumed, looked up and delivered
  case readerDecodeEmpty h _ _ | readerBodyDone h _ _ _ =>
    exact hr.consume (by rw [h]; exact ⟨fun _ _ => ⟨rfl, rfl⟩, nofun, nofun, nofun⟩) rfl rfl rfl rfl
      rfl rfl hdone
  case readerPshMiss sid data h hs =>
    refine hr.lookup rfl rfl rfl rfl rfl (by rw [h]; exact fun _ => rfl) (fun i hi => ?_)
      (fun i hp => hp.elim (fun hp => absurd rfl hp) nofun) nofun nofun nofun
    rw [h]
    refine (if_neg ?_).symm
    rintro rfl
    rw [Session.Registered, hs] at hi
    cases hi
  case readerPshHit sid data r h hs =>
    refine hr.lookup rfl rfl rfl rfl rfl (by rw [h]; exact fun _ => rfl) (fun i hi => ?_)
      (fun i hp => ?_) nofun nofun nofun
    · rw [h]
      show (if r = i then data else []) ++ [] = if sid = (s.objs i).id then data else []
      rw [List.append_nil]
      exact if_congr (hw.tabled.lookup_iff hs i hi) rfl rfl
    · have hri : r = i := by
        by_contra hne
        exact hp.elim (fun hp => hp (if_neg hne)) nofun
      exact hri ▸ hw.tabled.registered_of_lookup hs
  case readerPshSpend r data h =>
    refine ⟨fun i hlt hd => ?_, nofun, nofun⟩
    exact (hr.streams i hlt hd).congr rfl rfl rfl (by rw [h]; rfl) (fun hi => ⟨hi, by rw [h]; rfl⟩)
      (fun hf => hf.imp id nofun) (fun he => ⟨he, rfl, rfl⟩)
  case readerPshPush r data h => exact hr.pushBytes h rfl rfl rfl rfl rfl rfl
  case readerFinHit sid r h hs =>
    have hid := (hw.tabled.table sid r hs).1
    refine hr.lookup rfl rfl rfl rfl rfl (by rw [h]; exact fun _ => rfl)
      (fun i _ => by rw [h]; rfl) (fun i hp => ?_) (fun i hp => ?_) nofun nofun
    · cases hp.resolve_left (fun hp => hp rfl)
      exact hw.tabled.registered_of_lookup hs
    · cases hp
      rw [hid, h]
      exact ⟨hr.closing sid h, rfl⟩
  case readerFinSet r h => exact hr.setFin h rfl rfl rfl rfl rfl rfl
  -- insertions
  case readerSynInsert sid h =>
    exact hr.insert rfl rfl (hins sid (.inl ⟨rfl, h⟩)) rfl rfl rfl rfl rfl hw.tabled.target
      (.inr ⟨by rw [h]; exact ⟨fun _ _ => ⟨rfl, rfl⟩, nofun, nofun, nofun⟩,
        ⟨fun _ _ => ⟨rfl, rfl⟩, nofun, nofun, nofun⟩⟩)
  case openInsert k sid h =>
    exact hr.insert rfl rfl (hins sid (.inr ⟨k, rfl, h⟩)) rfl rfl rfl rfl rfl hw.tabled.target
      (.inl rfl)
  case openAlloc ha =>
    obtain ⟨-, -, rfl⟩ := Session.allocId_eq_some ha
    exact hr.congr hsame rfl rfl rfl (fun _ _ => id) hkeep
  case openAllocErr ha =>
    obtain rfl := Session.allocId_eq_none ha
    exact hr.congr hsame rfl rfl rfl (fun _ _ => id) hkeep
  case openPush k r seq q h hq =>
    have hv := (hw.owned.opening k r (by rw [h]; rfl)).2
    exact hr.stream rfl (fun _ => by rw [hv]; rfl) (by rw [hv]) (by rw [hv]) rfl rfl rfl rfl
      (fun _ _ => id)
  case openUnwind k r h => exact hr.congr hsame rfl rfl rfl (fun _ _ => Tabled.removeStream) hkeep
  -- handles change hands
  case readerAcceptClosed r h _ | readerAcceptGiveUp r h _ | readerAbortAccept r _ h =>
    have hmid := hr.move (t := s.setReader .ended) hsame hkeep (fun _ _ => id) rfl rfl
      (by rw [h]; exact fun _ _ => ⟨rfl, rfl⟩) ⟨fun _ _ => ⟨rfl, rfl⟩, nofun, nofun, nofun⟩
    exact hmid.stream (r := r) rfl nofun rfl rfl rfl rfl rfl rfl (fun _ _ => id)
  case acceptStream r rest h =>
    have hq := hw.owned.queued r (by rw [h]; exact List.mem_append_left _ List.mem_cons_self)
    exact hr.stream rfl (fun _ => by rw [hq]; rfl) rfl rfl rfl rfl rfl rfl (fun _ _ => id)
  case dropReceiver k h =>
    refine hr.congr hsame rfl rfl rfl (fun _ _ => id) fun i hi => ?_
    dsimp only at hi ⊢
    by_cases hmem : i ∈ s.acceptQueue
    · rw [if_pos hmem] at hi
      cases hi
    · rw [if_neg hmem] at hi ⊢
      exact ⟨hi, rfl, rfl⟩
  -- the streams
  case streamRead r cap cx h =>
    exact hr.read (hw.owned.lt_nextRef (by rw [h]; exact ⟨nofun, nofun⟩)) h
  case callRead h | callFlush h | callShutdown h | callDrop h | callWrite h _ _ | writeClosed h
      | writeDead h | writeReserve h | writePush h _ | writePushErr h _ | shutClosed h _
      | shutOpen h _ =>
    exact hr.stream rfl (fun _ => by rw [h]; rfl) rfl rfl rfl rfl rfl rfl (fun _ _ => id)
  case streamFlush h =>
    rcases h with h | h <;>
      exact hr.stream rfl (fun _ => by rw [h]; rfl) rfl rfl rfl rfl rfl rfl (fun _ _ => id)
  case refundNone r d h | refundNotify r d h =>
    refine hr.stream rfl (fun hd => ?_) rfl rfl rfl rfl rfl rfl (fun _ _ => id)
    rw [h]
    cases d
    · rfl
    · cases hd
  case refundAdd r n d h _ =>
    refine hr.stream rfl (fun hd => ?_) rfl rfl rfl rfl rfl rfl (fun _ _ => id)
    rw [h]
    dsimp only at hd
    cases d
    · rfl
    · split_ifs at hd <;> cases hd
  case sendFin h _ | sendFinErr h _ =>
    rcases h with ⟨cx, h, rfl⟩ | ⟨h, rfl⟩
    · exact hr.stream rfl (fun _ => by rw [h]; rfl) rfl rfl rfl rfl rfl rfl (fun _ _ => id)
    · exact hr.stream rfl nofun rfl rfl rfl rfl rfl rfl (fun _ _ => id)
  case dropRemove h _ =>
    exact hr.stream rfl nofun rfl rfl rfl rfl rfl rfl (fun _ _ => Tabled.removeStream)
  case dropMissing h _ => exact hr.stream rfl nofun rfl rfl rfl rfl rfl rfl (fun _ _ => id)
  case dropRecycle r h =>
    refine ⟨fun i hlt hd => ?_, hr.looking, hr.closing⟩
    by_cases hi : i = r
    · rw [hi, Session.setOp, Session.handles_setHandle_self] at hd
      cases hd
    · have hhandle : ((s.setObj r (s.objs r).recycle.1).setOp r
          (.refund (s.objs r).recycle.2 true)).handles i = s.handles i :=
        Function.update_of_ne hi _ _
      have hobj := Session.objs_setObj_of_ne s r hi (s.objs r).recycle.1
      rw [hhandle] at hd
      refine (hr.streams i hlt hd).congr (congrArg _ hobj) rfl ?_ rfl (fun hreg => ⟨?_, rfl⟩)
        (fun hf => ?_) (fun he => ⟨hhandle ▸ he, congrArg _ hobj, congrArg _ hobj⟩)
      · unfold Session.received
        rw [hhandle]
        exact congrArg _ (congrArg _ hobj)
      · unfold Session.Registered at hreg ⊢
        rw [← congrArg StreamState.id hobj]
        exact hreg
      · rw [← congrArg StreamState.fin hobj]
        exact hf

end Mux
end RtProxy
