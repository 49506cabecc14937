import RtProxy.Resolver.Settings

/-!
Options over the values of a file (`resolver.rs`).

What is wanted of the settings is a function of the last file and of the options as they
are, without history.  A call keeps to it unless it takes back an option whose value is not
that of the file, or sets a TTL after caching was disabled.
-/

namespace RtProxy.Resolver

/-! ## What is wanted -/

/-- The option that limits how long an answer is kept. -/
inductive TtlOption
  | unset
  | limit (ttl : Nat)
  | disabled
deriving Repr, DecidableEq

/-- The last file that was loaded, and the options. -/
structure Wanted where
  file : FileConfig
  stopped : Bool
  timeout : Nat
  ttl : TtlOption
  prefer : String
  srcIp : Option Net.IpAddr
deriving Repr, DecidableEq

/-- The option if it is set, or the value of the file. -/
def pick {α : Type} (isSet : α → Prop) [DecidablePred isSet] (option file : α) : α :=
  if isSet option then option else file

namespace Wanted

def start (c : FileConfig) : Wanted :=
  { file := c, stopped := false, timeout := 0, ttl := .unset, prefer := "", srcIp := none }

variable (F : Type) [Float64 F]

def call (w : Wanted) : Call → Wanted
  | .reload none => w
  | .reload (some lines) => if w.stopped then w else { w with file := FileConfig.read F lines }
  | .init timeout ttl prefer srcIp =>
    { w with
      timeout := if timeout ≠ 0 then timeout else w.timeout
      ttl := if ttl ≠ 0 then .limit ttl else w.ttl
      prefer := if prefer ≠ "" then Text.toAsciiLowercase prefer else w.prefer
      srcIp := if srcIp.isSome then srcIp else w.srcIp }
  | .setTtlDisabled => { w with ttl := .disabled }
  | .setPrefer prefer => { w with prefer := Text.toAsciiLowercase prefer }
  | .setSrcIp ip => { w with srcIp := ip }
  | .setTimeout timeout => { w with timeout := timeout }
  | .stop => { w with stopped := true }

def run (w : Wanted) (calls : List Call) : Wanted := calls.foldl (call F) w

/-- The TTL, and whether caching is disabled. -/
def ttlInForce (w : Wanted) : Nat × Bool :=
  match w.ttl with
  | .unset => (w.file.ttl, w.file.ttlNegative)
  | .limit ttl => (ttl, false)
  | .disabled => (0, true)

end Wanted

/-- The settings in force are those that are wanted. -/
structure Agrees (r : Inner) (w : Wanted) : Prop where
  timeout : r.state.timeout = pick (· ≠ 0) w.timeout w.file.timeout
  prefer : r.state.prefer = pick (· ≠ "") w.prefer w.file.prefer
  srcIp : r.state.srcIp = pick (·.isSome) w.srcIp w.file.srcIp
  ttl : (r.state.ttl, r.state.ttlNegative) = w.ttlInForce

/-- An option may be set, and taken back if that changes nothing. -/
def Changes {α : Type} (isSet : α → Prop) (option file option' : α) : Prop :=
  isSet option' ∨ ¬ isSet option ∨ option = file

/-- What may be called. -/
def Wanted.Allows (w : Wanted) : Call → Prop
  | .init _ ttl _ _ => ttl = 0 ∨ w.ttl ≠ .disabled
  | .setPrefer prefer => Changes (· ≠ "") w.prefer w.file.prefer (Text.toAsciiLowercase prefer)
  | .setSrcIp ip => Changes (fun ip => ip.isSome = true) w.srcIp w.file.srcIp ip
  | .setTimeout timeout => Changes (· ≠ 0) w.timeout w.file.timeout timeout
  | .reload _ | .setTtlDisabled | .stop => True

/-! ## One call -/

/-- What the options are written as. -/
structure Linked (r : Inner) (w : Wanted) : Prop where
  stopped : r.stopped = w.stopped
  timeout : r.state.optTimeout = w.timeout
  prefer : r.state.optPrefer = w.prefer
  srcIp : r.state.optSrcIp = w.srcIp
  ttl : match w.ttl with
    | .unset => r.state.optTtl = 0 ∧ r.state.optTtlNegative = false
    | .limit ttl => ttl ≠ 0 ∧ r.state.optTtl = ttl ∧ r.state.optTtlNegative = false
    | .disabled => r.state.optTtl = 0 ∧ r.state.optTtlNegative = true

section

variable {α : Type} {isSet : α → Prop} [DecidablePred isSet] {option file option' : α}

/-- An option that is written over the value in force, and not over that of the file. -/
theorem pick_pick_iff : pick isSet option' (pick isSet option file) = pick isSet option' file ↔
    Changes isSet option file option' := by
  unfold pick Changes
  by_cases hnew : isSet option'
  · simp [hnew]
  · by_cases hold : isSet option <;> simp [hnew, hold]

/-- An option that is left alone or set. -/
theorem changes_of_set (h : isSet option' ∨ option' = option) :
    Changes isSet option file option' := by
  rcases h with h | rfl
  · exact .inl h
  · by_cases hset : isSet option'
    · exact .inl hset
    · exact .inr (.inl hset)

end

variable {r : Inner} {st : Settings} {w w' : Wanted}

/-- The TTL after the options are applied. -/
theorem ttl_applyOptions {stopped : Bool} (hlink : Linked ⟨st, stopped⟩ w)
    (h : w.ttl = .unset → (st.ttl, st.ttlNegative) = (w.file.ttl, w.file.ttlNegative)) :
    (st.applyOptions.ttl, st.applyOptions.ttlNegative) = w.ttlInForce := by
  have happly : (st.applyOptions.ttl, st.applyOptions.ttlNegative) =
      if st.optTtl ≠ 0 ∨ st.optTtlNegative = true then (st.optTtl, st.optTtlNegative)
      else (st.ttl, st.ttlNegative) := by
    show (if _ then _ else _, if _ then _ else _) = _
    split_ifs <;> rfl
  have hopt := hlink.ttl
  rw [happly]
  unfold Wanted.ttlInForce
  cases httl : w.ttl with
  | unset =>
    rw [httl] at hopt
    obtain ⟨hzero, hneg⟩ := hopt
    simp only at hzero hneg
    rw [hzero, hneg, if_neg (by decide), h httl]
  | limit ttl =>
    rw [httl] at hopt
    obtain ⟨hne, heq, hneg⟩ := hopt
    simp only at heq hneg
    rw [heq, hneg, if_pos (.inl hne)]
  | disabled =>
    rw [httl] at hopt
    obtain ⟨hzero, hneg⟩ := hopt
    simp only at hzero hneg
    rw [hzero, hneg, if_pos (.inr rfl)]

/-- The options are written over the values in force, which are those of the file where no
option was set. -/
theorem agrees_applyOptions (h : Agrees r w) (hlink : Linked { r with state := st } w')
    (hfile : w'.file = w.file) (htimeout : st.timeout = r.state.timeout)
    (hprefer : st.prefer = r.state.prefer) (hsrc : st.srcIp = r.state.srcIp)
    (httl : (st.ttl, st.ttlNegative) = (r.state.ttl, r.state.ttlNegative))
    (hunset : w'.ttl = .unset → w.ttl = .unset) :
    Agrees { r with state := st.applyOptions } w' ↔
      Changes (· ≠ 0) w.timeout w.file.timeout w'.timeout ∧
        Changes (· ≠ "") w.prefer w.file.prefer w'.prefer ∧
        Changes (fun ip => ip.isSome = true) w.srcIp w.file.srcIp w'.srcIp := by
  have hvalues : (st.applyOptions.ttl, st.applyOptions.ttlNegative) = w'.ttlInForce := by
    refine ttl_applyOptions hlink fun hnone => ?_
    rw [httl, h.ttl, Wanted.ttlInForce, hunset hnone, hfile]
  have hagrees : Agrees { r with state := st.applyOptions } w' ↔
      pick (· ≠ 0) st.optTimeout st.timeout = pick (· ≠ 0) w'.timeout w'.file.timeout ∧
        pick (· ≠ "") st.optPrefer st.prefer = pick (· ≠ "") w'.prefer w'.file.prefer ∧
        pick (fun ip => ip.isSome = true) st.optSrcIp st.srcIp =
          pick (fun ip => ip.isSome = true) w'.srcIp w'.file.srcIp := by
    constructor
    · exact fun h => ⟨h.timeout, h.prefer, h.srcIp⟩
    · exact fun ⟨h1, h2, h3⟩ => ⟨h1, h2, h3, hvalues⟩
  rw [hagrees, hlink.timeout, hlink.prefer, hlink.srcIp, hfile, htimeout, hprefer, hsrc,
    h.timeout, h.prefer, h.srcIp, pick_pick_iff, pick_pick_iff, pick_pick_iff]

/-- Applying the options leaves them as they are. -/
theorem Linked.apply (h : Linked { r with state := st } w) :
    Linked { r with state := st.applyOptions } w :=
  ⟨h.stopped, h.timeout, h.prefer, h.srcIp, h.ttl⟩

theorem toAsciiLowercase_eq_empty {s : String} : Text.toAsciiLowercase s = "" ↔ s = "" := by
  unfold Text.toAsciiLowercase
  constructor
  · intro h
    have hchars := congrArg String.toList h
    rw [String.toList_ofList] at hchars
    exact String.toList_eq_nil_iff.mp (List.map_eq_nil_iff.mp hchars)
  · rintro rfl
    rfl

/-- A file is loaded, and the options are written over its values. -/
theorem agrees_load (hlink : Linked r w) (file : FileConfig) :
    Agrees { r with state := r.state.load file } { w with file := file } := by
  have hload : Linked { r with state := { r.state with
      ttl := file.ttl, ttlNegative := file.ttlNegative, timeout := file.timeout
      domain := file.domain, period := file.period, prefer := file.prefer, srcIp := file.srcIp
      servers := file.servers } } { w with file := file } :=
    ⟨hlink.stopped, hlink.timeout, hlink.prefer, hlink.srcIp, hlink.ttl⟩
  refine ⟨?_, ?_, ?_, ttl_applyOptions hload fun _ => rfl⟩
  · show pick (· ≠ 0) r.state.optTimeout file.timeout = _
    rw [hlink.timeout]
  · show pick (· ≠ "") r.state.optPrefer file.prefer = _
    rw [hlink.prefer]
  · show pick (fun ip => ip.isSome = true) r.state.optSrcIp file.srcIp = _
    rw [hlink.srcIp]

section

variable (F : Type) [Float64 F]

/-- What `init` writes to the options, before they are applied. -/
theorem linked_init (hlink : Linked r w) {timeout ttl : Nat} {prefer : String}
    {srcIp : Option Net.IpAddr} (hallow : ttl = 0 ∨ w.ttl ≠ .disabled) :
    Linked { r with
      state := { r.state with
        optTimeout := if timeout ≠ 0 then timeout else r.state.optTimeout
        optTtl := if ttl ≠ 0 then ttl else r.state.optTtl
        optPrefer := if prefer ≠ "" then Text.toAsciiLowercase prefer else r.state.optPrefer
        optSrcIp := if srcIp.isSome then srcIp else r.state.optSrcIp } }
      (w.call F (.init timeout ttl prefer srcIp)) := by
  refine ⟨hlink.stopped, ?_, ?_, ?_, ?_⟩
  · simp only [hlink.timeout, Wanted.call]
  · simp only [hlink.prefer, Wanted.call]
  · simp only [hlink.srcIp, Wanted.call]
  · by_cases hzero : ttl = 0
    · simp only [Wanted.call, hzero, ne_eq, not_true_eq_false, if_false]
      exact hlink.ttl
    · have hopt := hlink.ttl
      simp only [Wanted.call, ne_eq, hzero, not_false_eq_true, true_and, if_true]
      cases httl : w.ttl with
      | unset =>
        rw [httl] at hopt
        exact hopt.2
      | limit d =>
        rw [httl] at hopt
        exact hopt.2.2
      | disabled => exact absurd httl (hallow.resolve_left hzero)

/-- An allowed call keeps the options as they are written. -/
theorem Linked.call (hlink : Linked r w) {c : Call} (hallow : w.Allows c) :
    Linked (r.call F c) (w.call F c) := by
  cases c with
  | reload lines =>
    show Linked (r.reload F lines) _
    unfold Inner.reload
    cases lines with
    | none =>
      rw [ite_self]
      exact hlink
    | some lines =>
      show Linked (if r.stopped then r else _) (if w.stopped then w else _)
      rw [← hlink.stopped]
      split_ifs
      · exact hlink
      · exact ⟨rfl, hlink.timeout, hlink.prefer, hlink.srcIp, hlink.ttl⟩
  | init timeout ttl prefer srcIp => exact (linked_init F hlink hallow).apply
  | setTtlDisabled =>
    exact Linked.apply ⟨hlink.stopped, hlink.timeout, hlink.prefer, hlink.srcIp, rfl, rfl⟩
  | setPrefer prefer =>
    exact Linked.apply ⟨hlink.stopped, hlink.timeout, rfl, hlink.srcIp, hlink.ttl⟩
  | setSrcIp ip =>
    exact Linked.apply ⟨hlink.stopped, hlink.timeout, hlink.prefer, rfl, hlink.ttl⟩
  | setTimeout timeout =>
    exact Linked.apply ⟨hlink.stopped, rfl, hlink.prefer, hlink.srcIp, hlink.ttl⟩
  | stop => exact ⟨rfl, hlink.timeout, hlink.prefer, hlink.srcIp, hlink.ttl⟩

/-- A call keeps to what is wanted exactly if it is allowed. -/
theorem agrees_call_iff (hlink : Linked r w) (h : Agrees r w) (c : Call) :
    Agrees (r.call F c) (w.call F c) ↔ w.Allows c := by
  have hsame {α : Type} {isSet : α → Prop} (option file : α) : Changes isSet option file option := by
    by_cases hset : isSet option
    · exact .inl hset
    · exact .inr (.inl hset)
  cases c with
  | reload lines =>
    refine iff_of_true ?_ trivial
    show Agrees (r.reload F lines) _
    unfold Inner.reload
    cases lines with
    | none =>
      rw [ite_self]
      exact h
    | some lines =>
      show Agrees (if r.stopped then r else _) (if w.stopped then w else _)
      rw [← hlink.stopped]
      split_ifs
      · exact h
      · have hload := agrees_load hlink (FileConfig.read F lines)
        exact ⟨hload.timeout, hload.prefer, hload.srcIp, hload.ttl⟩
  | init timeout ttl prefer srcIp =>
    by_cases hallow : ttl = 0 ∨ w.ttl ≠ .disabled
    · refine iff_of_true ((agrees_applyOptions h (linked_init F hlink hallow) rfl rfl rfl rfl rfl
        fun hunset => ?_).mpr ⟨changes_of_set ?_, changes_of_set ?_, changes_of_set ?_⟩) hallow
      · simp only [Wanted.call] at hunset
        split_ifs at hunset
        exact hunset
      · simp only [Wanted.call]
        split_ifs with hset
        · exact .inl hset
        · exact .inr rfl
      · simp only [Wanted.call]
        split_ifs with hset
        · exact .inl fun hempty => hset (toAsciiLowercase_eq_empty.mp hempty)
        · exact .inr rfl
      · simp only [Wanted.call]
        split_ifs with hset
        · exact .inl hset
        · exact .inr rfl
    · refine iff_of_false (fun hagrees => ?_) hallow
      obtain ⟨hne, hdisabled⟩ := not_or.mp hallow
      have hopt := hlink.ttl
      rw [not_not.mp hdisabled] at hopt
      obtain ⟨-, hneg⟩ := hopt
      have hflag := congrArg Prod.snd hagrees.ttl
      have hwanted : ((w.call F (.init timeout ttl prefer srcIp)).ttlInForce).2 = false := by
        simp only [Wanted.call, Wanted.ttlInForce, ne_eq, hne, not_false_eq_true, if_true]
      rw [hwanted] at hflag
      change (if _ then r.state.optTtlNegative else r.state.ttlNegative) = false at hflag
      rw [hneg, if_pos (.inr rfl)] at hflag
      cases hflag
  | setTtlDisabled =>
    have hoptions : Linked
        { r with state := { r.state with optTtlNegative := true, optTtl := 0 } }
        (w.call F .setTtlDisabled) :=
      ⟨hlink.stopped, hlink.timeout, hlink.prefer, hlink.srcIp, rfl, rfl⟩
    exact iff_of_true ((agrees_applyOptions h hoptions rfl rfl rfl rfl rfl
      fun hunset => nomatch hunset).mpr ⟨hsame _ _, hsame _ _, hsame _ _⟩) trivial
  | setPrefer prefer =>
    have hoptions : Linked
        { r with state := { r.state with optPrefer := Text.toAsciiLowercase prefer } }
        (w.call F (.setPrefer prefer)) :=
      ⟨hlink.stopped, hlink.timeout, rfl, hlink.srcIp, hlink.ttl⟩
    exact (agrees_applyOptions h hoptions rfl rfl rfl rfl rfl id).trans
      ⟨fun h => h.2.1, fun h => ⟨hsame _ _, h, hsame _ _⟩⟩
  | setSrcIp ip =>
    have hoptions : Linked { r with state := { r.state with optSrcIp := ip } }
        (w.call F (.setSrcIp ip)) :=
      ⟨hlink.stopped, hlink.timeout, hlink.prefer, rfl, hlink.ttl⟩
    exact (agrees_applyOptions h hoptions rfl rfl rfl rfl rfl id).trans
      ⟨fun h => h.2.2, fun h => ⟨hsame _ _, hsame _ _, h⟩⟩
  | setTimeout timeout =>
    have hoptions : Linked { r with state := { r.state with optTimeout := timeout } }
        (w.call F (.setTimeout timeout)) :=
      ⟨hlink.stopped, rfl, hlink.prefer, hlink.srcIp, hlink.ttl⟩
    exact (agrees_applyOptions h hoptions rfl rfl rfl rfl rfl id).trans
      ⟨fun h => h.1, fun h => ⟨h, hsame _ _, hsame _ _⟩⟩
  | stop => exact iff_of_true ⟨h.timeout, h.prefer, h.srcIp, h.ttl⟩ trivial

/-! ## Runs -/

/-- The settings are those that are wanted after each of the calls, exactly if each of them
is allowed where it is made. -/
theorem agrees_run_iff (hlink : Linked r w) (h : Agrees r w) (calls : List Call) :
    (∀ done, done <+: calls → Agrees (r.run F done) (w.run F done)) ↔
      ∀ done c, done ++ [c] <+: calls → (w.run F done).Allows c := by
  induction calls generalizing r w with
  | nil =>
    refine iff_of_true (fun done hdone => ?_) fun done c hdone => ?_
    · rw [List.prefix_nil.mp hdone]
      exact h
    · exact absurd (List.prefix_nil.mp hdone) (List.append_ne_nil_of_right_ne_nil _ (by simp))
  | cons c calls ih =>
    constructor
    · intro hagrees done c' hdone
      have hallow : w.Allows c := (agrees_call_iff F hlink h c).mp (hagrees [c] ⟨calls, rfl⟩)
      cases done with
      | nil =>
        obtain ⟨rest, hrest⟩ := hdone
        rw [← (List.cons.inj hrest).1] at hallow
        exact hallow
      | cons c₀ done =>
        obtain ⟨rfl, hmore⟩ := List.cons_prefix_cons.mp hdone
        refine (ih (hlink.call F hallow) ((agrees_call_iff F hlink h c₀).mpr hallow)).mp
          (fun done hdone => ?_) done c' hmore
        exact hagrees (c₀ :: done) (List.cons_prefix_cons.mpr ⟨rfl, hdone⟩)
    · intro hallows done hdone
      have hallow : w.Allows c := hallows [] c ⟨calls, rfl⟩
      cases done with
      | nil => exact h
      | cons c₀ done =>
        obtain ⟨rfl, hmore⟩ := List.cons_prefix_cons.mp hdone
        exact (ih (hlink.call F hallow) ((agrees_call_iff F hlink h c₀).mpr hallow)).mpr
          (fun done c' hdone => hallows (c₀ :: done) c' (List.cons_prefix_cons.mpr ⟨rfl, hdone⟩))
          done hmore

theorem linked_start (c : FileConfig) : Linked (Inner.start c) (Wanted.start c) :=
  ⟨rfl, rfl, rfl, rfl, rfl, rfl⟩

/-- From the start on the settings are those of the last file and the current options,
exactly as long as no option is taken back whose value differs from that of the file, and
no TTL is set after caching was disabled. -/
theorem settings_follow_options_iff (c : FileConfig) (calls : List Call) :
    (∀ done, done <+: calls →
        Agrees ((Inner.start c).run F done) ((Wanted.start c).run F done)) ↔
      ∀ done c', done ++ [c'] <+: calls → ((Wanted.start c).run F done).Allows c' :=
  agrees_run_iff F (linked_start c) ⟨rfl, rfl, rfl, rfl⟩ calls

end

/-- A timeout that is taken back stays, and caching that was disabled stays so. -/
theorem settings_keep_history :
    ((Inner.start FileConfig.empty).run Decimal
        [.setTimeout 3, .setTimeout 0]).state.timeout = 3 ∧
      ¬ Agrees ((Inner.start FileConfig.empty).run Decimal [.setTimeout 3, .setTimeout 0])
        ((Wanted.start FileConfig.empty).run Decimal [.setTimeout 3, .setTimeout 0]) ∧
      ((Inner.start FileConfig.empty).run Decimal
        [.setTtlDisabled, .init 0 60 "" none]).state.ttlNegative = true ∧
      ¬ Agrees ((Inner.start FileConfig.empty).run Decimal [.setTtlDisabled, .init 0 60 "" none])
        ((Wanted.start FileConfig.empty).run Decimal [.setTtlDisabled, .init 0 60 "" none]) := by
  refine ⟨rfl, fun h => ?_, rfl, fun h => ?_⟩
  · exact absurd h.timeout (by decide)
  · exact absurd h.ttl (by decide)

end RtProxy.Resolver
