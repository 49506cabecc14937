import Mathlib.Logic.Function.Basic
import RtProxy.Bypass
import RtProxy.Lib.Transition

/-!
A bypass that is read while it is reloaded (`bypass.rs`).

The matchers, the flag that reverses them and the reload period stand under three locks,
and a reload takes one after the other.  `contains` keeps the first of them while it
takes the second.  Floating point makes durations a parameter.
-/

namespace RtProxy
namespace BypassReload

open Transition

/-! ## Configuration files -/

/-- The words of a line, without what follows a `#`. -/
def splitLineRef (line : String) : List String :=
  let front := match Text.cutFirst '#' line.toList with
    | some (front, _) => front
    | none => line.toList
  let spaced := front.map fun c => if c = '\t' then ' ' else c
  ((Text.split (String.ofList spaced) ' ').map Text.trim).filter (· ≠ "")

def parseBool (s : String) : Option Bool :=
  if s ∈ ["1", "t", "T", "TRUE", "true", "True"] then some true
  else if s ∈ ["0", "f", "F", "FALSE", "false", "False"] then some false
  else none

/-- What a file says. -/
structure Config where
  bypass : Bypass
  period : Nat

/-- The crates, and `parse_go_duration`. -/
structure Env where
  patterns : Patterns
  parseGoDuration : String → Option Nat

def Config.line (env : Env) (c : Config) (line : String) : Config :=
  match splitLineRef line with
  | [] => c
  | "reload" :: rest =>
    match rest with
    | [] => c
    | value :: _ => { c with period := (env.parseGoDuration value).getD 0 }
  | "reverse" :: rest =>
    match rest with
    | [] => c
    | value :: _ =>
      { c with bypass := { c.bypass with reversed := (parseBool value).getD false } }
  | pattern :: _ =>
    match newMatcher env.patterns pattern with
    | some m => { c with bypass := { c.bypass with matchers := c.bypass.matchers ++ [m] } }
    | none => c

/-- The configuration in a file; `none` for one that is no text. -/
def Config.read (env : Env) (file : Bytes) : Option Config :=
  (Text.lines? [] file).map fun lines =>
    lines.foldl (Config.line env) { bypass := { matchers := [], reversed := false }, period := 0 }

/-! ## State -/

/-- One call of `contains`.  `since` is the configuration that was in force when it began,
`list` the one whose matchers it has read, `flag` the one whose flag it has read. -/
inductive Call
  | idle
  | entered (addr : String) (since : Nat)
  | holding (addr : String) (since list : Nat)
  | returned (addr : String) (since list : Nat) (flag : Option Nat) (verdict : Bool)
deriving Repr, DecidableEq

/-- One reload, between its locks; `n` is the number of its configuration. -/
inductive Reload
  | idle
  | parsed (config : Config)
  | listed (config : Config) (n : Nat)
  | flagged (config : Config)

/-- `log` is history, the configurations in the order in which their matchers were
written; a configuration is in force from then on until the next.  `flagOf` is the one
whose flag was written last. -/
structure Sys where
  matchers : List Matcher
  reversed : Bool
  period : Nat
  stopped : Bool
  calls : Nat → Call
  reloads : Nat → Reload
  log : List Bypass
  flagOf : Nat

namespace Sys

def init (b : Bypass) : Sys :=
  { matchers := b.matchers, reversed := b.reversed, period := 0, stopped := false
    calls := fun _ => .idle, reloads := fun _ => .idle, log := [b], flagOf := 0 }

/-- The configuration in force. -/
def current (s : Sys) : Nat := s.log.length - 1

def setCall (s : Sys) (d : Nat) (call : Call) : Sys :=
  { s with calls := Function.update s.calls d call }

def setReload (s : Sys) (i : Nat) (reload : Reload) : Sys :=
  { s with reloads := Function.update s.reloads i reload }

/-- `contains` up to its first lock. -/
def enter (s : Sys) (addr : String) : Call :=
  if addr = "" then .returned addr s.current s.current none false else .entered addr s.current

/-- With the matchers at hand; the lock is kept unless there are none. -/
def afterList (s : Sys) (addr : String) (since : Nat) : Call :=
  if s.matchers.isEmpty then .returned addr since s.current none false
  else .holding addr since s.current

def afterFlag (s : Sys) (addr : String) (since list : Nat) : Call :=
  .returned addr since list (some s.flagOf)
    (s.matchers.any (· (stripPort addr)) != s.reversed)

end Sys

inductive Action
  | call (d : Nat) (addr : String)
  | list (d : Nat)
  | flag (d : Nat)
  | reload (i : Nat) (file : Bytes)
  | writeList (i : Nat)
  | writeFlag (i : Nat)
  | writePeriod (i : Nat)
  | stop
deriving Repr, DecidableEq

/-- Steps; the matchers are written only when no call keeps their lock. -/
inductive Step (env : Env) (s : Sys) : Action → Sys → Prop
  | call {d : Nat} (addr : String) (hidle : s.calls d = .idle) :
      Step env s (.call d addr) (s.setCall d (s.enter addr))
  | list {d since : Nat} {addr : String} (hpc : s.calls d = .entered addr since) :
      Step env s (.list d) (s.setCall d (s.afterList addr since))
  | flag {d since list : Nat} {addr : String} (hpc : s.calls d = .holding addr since list) :
      Step env s (.flag d) (s.setCall d (s.afterFlag addr since list))
  | reload {i : Nat} {file : Bytes} {config : Config} (hrun : s.stopped = false)
      (hidle : s.reloads i = .idle) (hread : Config.read env file = some config) :
      Step env s (.reload i file) (s.setReload i (.parsed config))
  | writeList {i : Nat} {config : Config} (hpc : s.reloads i = .parsed config)
      (hfree : ∀ d addr since list, s.calls d ≠ .holding addr since list) :
      Step env s (.writeList i) { s.setReload i (.listed config s.log.length) with
        matchers := config.bypass.matchers, log := s.log ++ [config.bypass] }
  | writeFlag {i n : Nat} {config : Config} (hpc : s.reloads i = .listed config n) :
      Step env s (.writeFlag i) { s.setReload i (.flagged config) with
        reversed := config.bypass.reversed, flagOf := n }
  | writePeriod {i : Nat} {config : Config} (hpc : s.reloads i = .flagged config) :
      Step env s (.writePeriod i) { s.setReload i .idle with period := config.period }
  | stop : Step env s .stop { s with stopped := true }

/-! ## The invariant -/

/-- Reload `i` has written its matchers and has yet to write its flag. -/
def Between (s : Sys) (i : Nat) : Prop := ∃ config n, s.reloads i = .listed config n

/-- No call reads the flag, and no reload writes its matchers, while a reload stands
between the two. -/
def Apart (s : Sys) (a : Action) : Prop :=
  (∃ d, a = .flag d) ∨ (∃ i, a = .writeList i) → ∀ i, ¬ Between s i

/-- A call has used one configuration that was in force while it ran: the matchers and
the flag are those of that configuration, and so is the verdict. -/
def Atomic (s : Sys) (addr : String) (since list : Nat) (flag : Option Nat) (verdict : Bool) :
    Prop :=
  since ≤ list ∧ (flag = none ∨ flag = some list)
    ∧ ∃ b, s.log[list]? = some b ∧ verdict = b.contains addr

def CallOk (s : Sys) : Call → Prop
  | .idle => True
  | .entered addr since => addr ≠ "" ∧ since ≤ s.current
  | .holding addr since list =>
    addr ≠ "" ∧ since ≤ list ∧ list = s.current ∧ s.matchers.isEmpty = false
  | .returned addr since list flag verdict => Atomic s addr since list flag verdict

structure Inv (s : Sys) : Prop where
  pos : 0 < s.log.length
  matchers : ∃ b, s.log[s.current]? = some b ∧ s.matchers = b.matchers
  reversed : ∃ b, s.log[s.flagOf]? = some b ∧ s.reversed = b.reversed
  calls : ∀ d, CallOk s (s.calls d)
  listed : ∀ i config n, s.reloads i = .listed config n →
    n = s.current ∧ s.log[n]? = some config.bypass
  flag : s.flagOf = s.current ∨ ∃ i, Between s i

namespace Inv

variable {env : Env} {s t : Sys}

theorem setCall (h : Inv s) {d : Nat} {call : Call} (hcall : CallOk s call) :
    Inv (s.setCall d call) where
  pos := h.pos
  matchers := h.matchers
  reversed := h.reversed
  calls e := by
    show CallOk s (Function.update s.calls d call e)
    by_cases he : e = d
    · rw [he, Function.update_self]
      exact hcall
    · rw [Function.update_of_ne he]
      exact h.calls e
  listed := h.listed
  flag := h.flag

theorem enter (h : Inv s) (addr : String) : CallOk s (s.enter addr) := by
  unfold Sys.enter
  by_cases haddr : addr = ""
  · rw [if_pos haddr]
    obtain ⟨b, hb, -⟩ := h.matchers
    exact ⟨Nat.le_refl _, .inl rfl, b, hb, by rw [Bypass.contains, if_pos (.inl haddr)]⟩
  · rw [if_neg haddr]
    exact ⟨haddr, Nat.le_refl _⟩

theorem afterList (h : Inv s) {addr : String} {since : Nat}
    (hcall : CallOk s (.entered addr since)) : CallOk s (s.afterList addr since) := by
  unfold Sys.afterList
  by_cases hempty : s.matchers.isEmpty = true
  · rw [if_pos hempty]
    obtain ⟨b, hb, hm⟩ := h.matchers
    rw [hm] at hempty
    exact ⟨hcall.2, .inl rfl, b, hb, by rw [Bypass.contains, if_pos (.inr hempty)]⟩
  · rw [if_neg hempty]
    exact ⟨hcall.1, hcall.2, rfl, eq_false_of_ne_true hempty⟩

/-- The flag is that of the matchers, if no reload stands between the two. -/
theorem afterFlag (h : Inv s) (hapart : ∀ i, ¬ Between s i) {addr : String} {since list : Nat}
    (hcall : CallOk s (.holding addr since list)) : CallOk s (s.afterFlag addr since list) := by
  obtain ⟨haddr, hsince, rfl, hne⟩ := hcall
  have hflag : s.flagOf = s.current := by
    rcases h.flag with hflag | ⟨i, hi⟩
    · exact hflag
    · exact absurd hi (hapart i)
  obtain ⟨b, hb, hm⟩ := h.matchers
  obtain ⟨b', hb', hr⟩ := h.reversed
  rw [hflag, hb] at hb'
  cases hb'
  refine ⟨hsince, .inr (by rw [hflag]), b, hb, ?_⟩
  rw [Bypass.contains, if_neg, hm, hr]
  rintro (hnil | hnil)
  · exact haddr hnil
  · rw [← hm, hne] at hnil
    cases hnil

theorem setReload (h : Inv s) {i : Nat} {reload : Reload} (hi : ¬ Between s i)
    (hreload : ∀ config n, reload ≠ .listed config n) : Inv (s.setReload i reload) where
  pos := h.pos
  matchers := h.matchers
  reversed := h.reversed
  calls := h.calls
  listed j config n hj := by
    have hupdate : Function.update s.reloads i reload j = .listed config n := hj
    by_cases hji : j = i
    · rw [hji, Function.update_self] at hupdate
      exact absurd hupdate (hreload config n)
    · rw [Function.update_of_ne hji] at hupdate
      exact h.listed j config n hupdate
  flag := by
    refine h.flag.imp_right ?_
    rintro ⟨j, config, n, hj⟩
    have hji : j ≠ i := by
      rintro rfl
      exact hi ⟨config, n, hj⟩
    refine ⟨j, config, n, ?_⟩
    show Function.update s.reloads i reload j = _
    rw [Function.update_of_ne hji, hj]

/-- New matchers come into force; no call keeps the old ones, and no other reload has
still to write the flag of older ones. -/
theorem writeList (h : Inv s) {i : Nat} {config : Config}
    (hfree : ∀ d addr since list, s.calls d ≠ .holding addr since list)
    (hapart : ∀ j, ¬ Between s j) :
    Inv { s.setReload i (.listed config s.log.length) with
      matchers := config.bypass.matchers, log := s.log ++ [config.bypass] } := by
  have hcurrent : (s.log ++ [config.bypass]).length - 1 = s.log.length := by
    rw [List.length_append, List.length_singleton, Nat.add_sub_cancel]
  have hlast : (s.log ++ [config.bypass])[s.log.length]? = some config.bypass :=
    List.getElem?_concat_length
  have hold {k : Nat} {b : Bypass} (hk : s.log[k]? = some b) :
      (s.log ++ [config.bypass])[k]? = some b := by
    rw [List.getElem?_append_left (List.getElem?_eq_some_iff.mp hk).1]
    exact hk
  constructor
  · show 0 < (s.log ++ [config.bypass]).length
    rw [List.length_append]
    exact Nat.lt_of_lt_of_le h.pos (Nat.le_add_right _ _)
  · refine ⟨config.bypass, ?_, rfl⟩
    show (s.log ++ [config.bypass])[(s.log ++ [config.bypass]).length - 1]? = _
    rw [hcurrent, hlast]
  · obtain ⟨b, hb, hr⟩ := h.reversed
    exact ⟨b, hold hb, hr⟩
  · intro d
    have hcall := h.calls d
    have hnot := hfree d
    show CallOk _ (s.calls d)
    cases hd : s.calls d with
    | idle => exact trivial
    | entered addr since =>
      rw [hd] at hcall
      refine ⟨hcall.1, Nat.le_trans hcall.2 ?_⟩
      show s.log.length - 1 ≤ (s.log ++ [config.bypass]).length - 1
      omega
    | holding addr since list => exact absurd hd (hnot addr since list)
    | returned addr since list flag verdict =>
      rw [hd] at hcall
      obtain ⟨hsince, hflag, b, hb, hverdict⟩ := hcall
      exact ⟨hsince, hflag, b, hold hb, hverdict⟩
  · intro j c n hj
    have hupdate : Function.update s.reloads i (.listed config s.log.length) j = .listed c n := hj
    by_cases hji : j = i
    · rw [hji, Function.update_self] at hupdate
      cases hupdate
      exact ⟨hcurrent.symm, hlast⟩
    · rw [Function.update_of_ne hji] at hupdate
      exact absurd ⟨c, n, hupdate⟩ (hapart j)
  · exact .inr ⟨i, config, s.log.length, Function.update_self _ _ _⟩

theorem writeFlag (h : Inv s) {i n : Nat} {config : Config}
    (hpc : s.reloads i = .listed config n) :
    Inv { s.setReload i (.flagged config) with
      reversed := config.bypass.reversed, flagOf := n } := by
  obtain ⟨hn, hlog⟩ := h.listed i config n hpc
  refine ⟨h.pos, h.matchers, ⟨config.bypass, hlog, rfl⟩, h.calls, ?_, .inl hn⟩
  intro j c m hj
  have hupdate : Function.update s.reloads i (.flagged config) j = .listed c m := hj
  by_cases hji : j = i
  · rw [hji, Function.update_self] at hupdate
    cases hupdate
  · rw [Function.update_of_ne hji] at hupdate
    exact h.listed j c m hupdate

theorem step {a : Action} (h : Inv s) (hok : Apart s a) (hstep : Step env s a t) : Inv t := by
  cases hstep with
  | call addr hidle => exact h.setCall (h.enter addr)
  | @list d since addr hpc =>
    have hcall := h.calls d
    rw [hpc] at hcall
    exact h.setCall (h.afterList hcall)
  | @flag d since list addr hpc =>
    have hcall := h.calls d
    rw [hpc] at hcall
    exact h.setCall (h.afterFlag (hok (.inl ⟨d, rfl⟩)) hcall)
  | @reload i file config hrun hidle hread =>
    refine h.setReload ?_ fun _ _ => Reload.noConfusion
    rintro ⟨c, n, hi⟩
    rw [hidle] at hi
    cases hi
  | @writeList i config hpc hfree => exact h.writeList hfree (hok (.inr ⟨i, rfl⟩))
  | writeFlag hpc => exact h.writeFlag hpc
  | @writePeriod i config hpc =>
    have hnot : ¬ Between s i := by
      rintro ⟨c, n, hi⟩
      rw [hpc] at hi
      cases hi
    have hset : Inv (s.setReload i .idle) := h.setReload hnot fun _ _ => Reload.noConfusion
    exact ⟨hset.pos, hset.matchers, hset.reversed, hset.calls, hset.listed, hset.flag⟩
  | stop => exact ⟨h.pos, h.matchers, h.reversed, h.calls, h.listed, h.flag⟩

theorem init (b : Bypass) : Inv (Sys.init b) where
  pos := Nat.succ_pos 0
  matchers := ⟨b, rfl, rfl⟩
  reversed := ⟨b, rfl, rfl⟩
  calls _ := trivial
  listed _ _ _ hi := nomatch hi
  flag := .inl rfl

end Inv

/-- As long as no call reads the flag, and no other reload writes its matchers, while a
reload stands between its two locks, every call uses one configuration that was in force
while it ran. -/
theorem contains_atomic (env : Env) {b : Bypass} {s : Sys}
    (h : Reaches (Step env) Apart (Sys.init b) s) {d since list : Nat} {addr : String}
    {flag : Option Nat} {verdict : Bool}
    (hd : s.calls d = .returned addr since list flag verdict) :
    Atomic s addr since list flag verdict := by
  have hs := h.invariant (Inv.init b) fun t a u ht hok hstep => ht.step hok hstep
  have hcall := hs.calls d
  rw [hd] at hcall
  exact hcall

/-! ### Two runs -/

/-- Patterns without wildcards and networks, and no durations. -/
def sampleEnv : Env where
  patterns := { globMatch := fun pattern domain => pattern = domain, ipNet := fun _ => none }
  parseGoDuration := fun _ => none

/-- Everything but `b.com` is proxied. -/
def sampleBypass : Bypass := Bypass.fromPatterns sampleEnv.patterns false ["b.com"]

/-- Only `a.com` is proxied. -/
def sampleFile : Bytes := Text.utf8 "reverse true\na.com\n"

def sampleConfig : Config :=
  (Config.read sampleEnv sampleFile).getD { bypass := sampleBypass, period := 0 }

theorem read_sampleFile : Config.read sampleEnv sampleFile = some sampleConfig := by
  have hsome : (Config.read sampleEnv sampleFile).isSome := by decide
  obtain ⟨config, hconfig⟩ := Option.isSome_iff_exists.mp hsome
  rw [sampleConfig, hconfig, Option.getD_some]

/-- Both configurations say that `a.com` is proxied. -/
theorem sample_verdicts : sampleBypass.contains "a.com" = false
    ∧ sampleConfig.bypass.contains "a.com" = false := by
  decide

/-- A call and a reload, one after the other. -/
theorem contains_atomic_sample : ∃ s, Reaches (Step sampleEnv) Apart (Sys.init sampleBypass) s
    ∧ Atomic s "a.com" 0 0 (some 0) false := by
  have hapart {s : Sys} (hidle : ∀ i, s.reloads i = .idle) (a : Action) : Apart s a := by
    rintro - i ⟨c, n, hi⟩
    rw [hidle i] at hi
    cases hi
  have h0 : Reaches (Step sampleEnv) Apart (Sys.init sampleBypass) (Sys.init sampleBypass) := .refl
  have h1 := h0.tail (hapart (fun _ => rfl) _) (Step.call (d := 0) "a.com" rfl)
  have h2 := h1.tail (hapart (fun _ => rfl) _) (Step.list (d := 0) rfl)
  have h3 := h2.tail (hapart (fun _ => rfl) _) (Step.flag (d := 0) rfl)
  exact ⟨_, h3, contains_atomic sampleEnv h3 (d := 0) (by decide)⟩

/-- A call between the two locks of a reload combines the new matchers with the old flag:
`a.com` is not proxied, which neither configuration says. -/
theorem contains_mixes : ∃ s, Reaches (Step sampleEnv) anyStep (Sys.init sampleBypass) s
    ∧ s.calls 0 = .returned "a.com" 1 1 (some 0) true
    ∧ ∀ b ∈ s.log, b.contains "a.com" = false := by
  have h0 : Reaches (Step sampleEnv) anyStep (Sys.init sampleBypass) (Sys.init sampleBypass) := .refl
  have h1 := h0.tail trivial (Step.reload (i := 0) rfl rfl read_sampleFile)
  have h2 := h1.tail trivial (Step.writeList (i := 0) rfl fun _ _ _ _ => Call.noConfusion)
  have h3 := h2.tail trivial (Step.call (d := 0) "a.com" rfl)
  have h4 := h3.tail trivial (Step.list (d := 0) rfl)
  have h5 := h4.tail trivial (Step.flag (d := 0) rfl)
  refine ⟨_, h5, ?_, ?_⟩
  · decide
  · show ∀ b ∈ [sampleBypass, sampleConfig.bypass], b.contains "a.com" = false
    rw [List.forall_mem_cons, List.forall_mem_singleton]
    exact sample_verdicts

end BypassReload
end RtProxy
