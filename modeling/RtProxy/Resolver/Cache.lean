import Mathlib.Logic.Function.Basic
import RtProxy.Resolver.Names

/-!
The cache of the resolver (`resolver.rs`).

Times are nanoseconds on a clock that does not go back.  An entry may have two limits,
the configured TTL and the smallest TTL of its answers, and either may be missing.
-/

namespace RtProxy.Resolver

/-! ## Keys -/

/-- A number by its name, or by a word and its digits. -/
def numberName (names : List (UInt16 × String)) (word : String) (x : UInt16) : String :=
  match names.lookup x with
  | some name => name
  | none => word ++ String.ofList (Nat.toDigits 10 x.toNat)

def className : UInt16 → String :=
  numberName [(CLASS_IN, "IN"), (CLASS_CH, "CH"), (CLASS_HS, "HS"), (CLASS_ANY, "ANY")] "CLASS"

def typeName : UInt16 → String :=
  numberName [(TYPE_A, "A"), (TYPE_NS, "NS"), (TYPE_CNAME, "CNAME"), (TYPE_SOA, "SOA"),
    (TYPE_PTR, "PTR"), (TYPE_MX, "MX"), (TYPE_TXT, "TXT"), (TYPE_AAAA, "AAAA"),
    (TYPE_SRV, "SRV"), (TYPE_OPT, "OPT"), (TYPE_ANY, "ANY")] "TYPE"

def cacheKey (name : String) (qclass qtype : UInt16) : String :=
  name ++ className qclass ++ "." ++ typeName qtype

/-! ## Entries -/

structure CacheItem where
  bytes : Bytes
  ts : Nat
  /-- the configured TTL; zero stands for no limit -/
  ttl : Nat
  /-- the smallest TTL of the answers, in seconds -/
  minRrTtl : Option UInt32
deriving Repr, DecidableEq

abbrev ResolverCache := String → Option CacheItem

namespace ResolverCache

def empty : ResolverCache := fun _ => none

/-- `Duration::from_secs`. -/
def seconds (n : UInt32) : Nat := n.toNat * 10 ^ 9

/-- An entry past one of its limits. -/
def expired (item : CacheItem) (now : Nat) : Bool :=
  let elapsed := now - item.ts
  (0 < item.ttl && item.ttl < elapsed) || item.minRrTtl.any fun ttl => seconds ttl < elapsed

/-- An entry past a limit is removed. -/
def load (c : ResolverCache) (key : String) (now : Nat) : Option Bytes × ResolverCache :=
  match c key with
  | none => (none, c)
  | some item =>
    if expired item now then (none, Function.update c key none) else (some item.bytes, c)

def store (c : ResolverCache) (key : String) (bytes : Bytes) (msg : Message) (ttl : Nat)
    (ttlNegative : Bool) (now : Nat) : ResolverCache :=
  if key = "" ∨ ttlNegative then c
  else Function.update c key (some ⟨bytes, now, ttl, msg.minAnswerTtl⟩)

def clear (_ : ResolverCache) : ResolverCache := empty

end ResolverCache

/-! ## Keys tell questions apart -/

theorem dot_notMem_toDigits (n : Nat) : '.' ∉ Nat.toDigits 10 n := fun h =>
  absurd (Text.isSome_digit?_of_decimal? (Text.decimal?_toDigits n) '.' h) (by decide)

theorem toDigits_inj {n m : Nat} (h : Nat.toDigits 10 n = Nat.toDigits 10 m) : n = m := by
  have hn := Text.decimal?_toDigits n
  rw [h, Text.decimal?_toDigits] at hn
  exact (Option.some_inj.mp hn).symm

/-- The names of a table are all different and none of them starts with the word. -/
structure NamesApart (names : List (UInt16 × String)) (word : String) : Prop where
  distinct : ∀ e ∈ names, ∀ e' ∈ names, e.2 = e'.2 → e.1 = e'.1
  apart : ∀ e ∈ names, ¬ word.toList <+: e.2.toList

theorem numberName_inj {names : List (UInt16 × String)} {word : String}
    (h : NamesApart names word) {x y : UInt16}
    (heq : numberName names word x = numberName names word y) : x = y := by
  have named {x : UInt16} {name : String} (hx : names.lookup x = some name) :
      (x, name) ∈ names := by
    obtain ⟨l₁, l₂, hl, -⟩ := List.lookup_eq_some_iff.mp hx
    rw [hl]
    exact List.mem_append_right _ List.mem_cons_self
  unfold numberName at heq
  cases hx : names.lookup x with
  | some name =>
    cases hy : names.lookup y with
    | some name' =>
      rw [hx, hy] at heq
      exact h.distinct _ (named hx) _ (named hy) heq
    | none =>
      rw [hx, hy] at heq
      refine absurd ?_ (h.apart _ (named hx))
      rw [show name = word ++ _ from heq, String.toList_append]
      exact List.prefix_append _ _
  | none =>
    cases hy : names.lookup y with
    | some name' =>
      rw [hx, hy] at heq
      refine absurd ?_ (h.apart _ (named hy))
      rw [show name' = word ++ _ from heq.symm, String.toList_append]
      exact List.prefix_append _ _
    | none =>
      rw [hx, hy] at heq
      have hlist := congrArg String.toList heq
      rw [String.toList_append, String.toList_append, String.toList_ofList,
        String.toList_ofList] at hlist
      exact UInt16.toNat_inj.mp (toDigits_inj (List.append_cancel_left hlist))

theorem className_inj {x y : UInt16} (h : className x = className y) : x = y :=
  numberName_inj ⟨by decide, by decide⟩ h

theorem typeName_inj {x y : UInt16} (h : typeName x = typeName y) : x = y :=
  numberName_inj ⟨by decide, by decide⟩ h

theorem dot_notMem_numberName {names : List (UInt16 × String)} {word : String}
    (hnames : ∀ e ∈ names, '.' ∉ e.2.toList) (hword : '.' ∉ word.toList) (x : UInt16) :
    '.' ∉ (numberName names word x).toList := by
  unfold numberName
  cases hx : names.lookup x with
  | some name =>
    obtain ⟨l₁, l₂, hl, -⟩ := List.lookup_eq_some_iff.mp hx
    refine hnames (x, name) ?_
    rw [hl]
    exact List.mem_append_right _ List.mem_cons_self
  | none =>
    rw [String.toList_append, String.toList_ofList, List.mem_append, not_or]
    exact ⟨hword, dot_notMem_toDigits _⟩

theorem dot_notMem_className (x : UInt16) : '.' ∉ (className x).toList :=
  dot_notMem_numberName (by decide) (by decide) x

theorem dot_notMem_typeName (x : UInt16) : '.' ∉ (typeName x).toList :=
  dot_notMem_numberName (by decide) (by decide) x

theorem toList_cacheKey (name : String) (c t : UInt16) : (cacheKey name c t).toList
    = (name.toList ++ (className c).toList) ++ '.' :: (typeName t).toList := by
  unfold cacheKey
  simp only [String.toList_append]
  rw [List.append_assoc]
  rfl

theorem cacheKey_ne_empty (name : String) (c t : UInt16) : cacheKey name c t ≠ "" := by
  intro h
  have hlist := congrArg String.toList h
  rw [toList_cacheKey] at hlist
  exact List.cons_ne_nil _ _ (List.append_eq_nil_iff.mp hlist).2

/-- Names that end in a dot, their classes and their types can be told from their
keys. -/
theorem cacheKey_inj {a b : String} {ca cb ta tb : UInt16} (ha : a.toList.getLast? = some '.')
    (hb : b.toList.getLast? = some '.') (h : cacheKey a ca ta = cacheKey b cb tb) :
    a = b ∧ ca = cb ∧ ta = tb := by
  have hlist := congrArg String.toList h
  have hcut := congrArg (Text.cutLast '.') hlist
  rw [toList_cacheKey, toList_cacheKey, Text.cutLast_append _ (dot_notMem_typeName ta),
    Text.cutLast_append _ (dot_notMem_typeName tb), Option.some_inj, Prod.mk.injEq] at hcut
  obtain ⟨hfront, htype⟩ := hcut
  obtain ⟨na, hna⟩ := List.getLast?_eq_some_iff.mp ha
  obtain ⟨nb, hnb⟩ := List.getLast?_eq_some_iff.mp hb
  rw [hna, hnb, List.append_assoc, List.append_assoc, List.singleton_append,
    List.singleton_append] at hfront
  have hname := congrArg (Text.cutLast '.') hfront
  rw [Text.cutLast_append _ (dot_notMem_className ca),
    Text.cutLast_append _ (dot_notMem_className cb), Option.some_inj, Prod.mk.injEq] at hname
  obtain ⟨hn, hclass⟩ := hname
  refine ⟨String.toList_inj.mp ?_, className_inj (String.toList_inj.mp hclass),
    typeName_inj (String.toList_inj.mp htype)⟩
  rw [hna, hnb, hn]

/-! ## How old an answer may be -/

/-- What a call of `store` is given. -/
structure StoreCall where
  key : String
  bytes : Bytes
  msg : Message
  ttl : Nat
  ttlNegative : Bool
deriving Repr, DecidableEq

inductive CacheOp
  | load (key : String)
  | store (e : StoreCall)
  | clear
deriving Repr, DecidableEq

namespace StoreCall

/-- Nothing is stored without a key or under a negative TTL. -/
def Accepted (e : StoreCall) : Prop := e.key ≠ "" ∧ e.ttlNegative = false

def item (e : StoreCall) (now : Nat) : CacheItem := ⟨e.bytes, now, e.ttl, e.msg.minAnswerTtl⟩

/-- The limits an entry gets when it is stored. -/
def limits (e : StoreCall) : List Nat :=
  (if 0 < e.ttl then [e.ttl] else []) ++ (e.msg.minAnswerTtl.map ResolverCache.seconds).toList

end StoreCall

namespace ResolverCache

/-- The cache after an operation. -/
def apply (c : ResolverCache) (now : Nat) : CacheOp → ResolverCache
  | .load key => (c.load key now).2
  | .store e => c.store e.key e.bytes e.msg e.ttl e.ttlNegative now
  | .clear => c.clear

/-- The cache after some operations, each at its time. -/
def run (c : ResolverCache) (ops : List (Nat × CacheOp)) : ResolverCache :=
  ops.foldl (fun c op => c.apply op.1 op.2) c

theorem store_accepted (c : ResolverCache) {e : StoreCall} (h : e.Accepted) (now : Nat) :
    c.apply now (.store e) = Function.update c e.key (some (e.item now)) := by
  show c.store e.key e.bytes e.msg e.ttl e.ttlNegative now = _
  unfold store
  rw [if_neg (by rw [h.2]; simp [h.1])]
  rfl

theorem store_refused (c : ResolverCache) {e : StoreCall} (h : ¬ e.Accepted) (now : Nat) :
    c.apply now (.store e) = c := by
  show c.store e.key e.bytes e.msg e.ttl e.ttlNegative now = _
  unfold store
  rw [if_pos]
  by_contra hnot
  obtain ⟨hkey, hneg⟩ := not_or.mp hnot
  exact h ⟨hkey, eq_false_of_ne_true hneg⟩

/-- Stores under the key replace what is there; no other operation changes it to
anything but nothing. -/
theorem apply_cases (c : ResolverCache) (now : Nat) (op : CacheOp) (key : String) :
    c.apply now op key = c key ∨ c.apply now op key = none
      ∨ ∃ e, op = .store e ∧ e.Accepted ∧ e.key = key := by
  cases op with
  | load k =>
    show (c.load k now).2 key = _ ∨ (c.load k now).2 key = _ ∨ _
    unfold load
    cases hk : c k with
    | none => exact .inl rfl
    | some item =>
      dsimp only
      split_ifs
      · by_cases hkey : key = k
        · subst hkey
          exact .inr (.inl (Function.update_self _ _ _))
        · exact .inl (Function.update_of_ne hkey _ _)
      · exact .inl rfl
  | clear => exact .inr (.inl rfl)
  | store e =>
    by_cases he : e.Accepted
    · by_cases hkey : e.key = key
      · exact .inr (.inr ⟨e, rfl, he, hkey⟩)
      · rw [store_accepted c he]
        exact .inl (Function.update_of_ne (Ne.symm hkey) _ _)
    · rw [store_refused c he]
      exact .inl rfl

/-- Nothing is stored under the key. -/
def Untouched (key : String) (ops : List (Nat × CacheOp)) : Prop :=
  ∀ op ∈ ops, ∀ e, op.2 = .store e → e.Accepted → e.key ≠ key

theorem run_untouched {key : String} {ops : List (Nat × CacheOp)} (h : Untouched key ops)
    (c : ResolverCache) : c.run ops key = c key ∨ c.run ops key = none := by
  induction ops generalizing c with
  | nil => exact .inl rfl
  | cons op ops ih =>
    obtain ⟨hop, hops⟩ := List.forall_mem_cons.mp h
    have hstep := c.apply_cases op.1 op.2 key
    show (c.apply op.1 op.2).run ops key = _ ∨ (c.apply op.1 op.2).run ops key = _
    rcases ih hops (c.apply op.1 op.2) with hrun | hrun
    · rw [hrun]
      rcases hstep with hstep | hstep | ⟨e, he, hacc, hkey⟩
      · exact .inl hstep
      · exact .inr hstep
      · exact absurd hkey (hop e he hacc)
    · exact .inr hrun

/-- A reply is served if there is an entry that is past no limit. -/
theorem load_isSome {c : ResolverCache} {key : String} {now : Nat} :
    (c.load key now).1.isSome ↔ ∃ item, c key = some item ∧ expired item now = false := by
  unfold load
  cases hkey : c key with
  | none => exact iff_of_false (fun h => nomatch h) fun ⟨_, h, _⟩ => nomatch h
  | some item =>
    dsimp only
    constructor
    · intro h
      split_ifs at h with hexp
      · cases h
      · exact ⟨item, rfl, eq_false_of_ne_true hexp⟩
    · rintro ⟨item', hitem, hexp⟩
      cases hitem
      rw [hexp]
      rfl

/-- An entry is past no limit if and only if it is as old as they allow. -/
theorem expired_item {e : StoreCall} {t now : Nat} :
    expired (e.item t) now = false ↔ ∀ limit ∈ e.limits, now - t ≤ limit := by
  unfold expired StoreCall.limits
  rw [List.forall_mem_append, Bool.or_eq_false_iff]
  refine and_congr ?_ ?_
  · show ((decide (0 < e.ttl) && decide (e.ttl < now - t)) = false) ↔ _
    rw [← Bool.decide_and, decide_eq_false_iff_not]
    split_ifs with hpos
    · rw [List.forall_mem_singleton]
      omega
    · exact iff_of_true (fun h => hpos h.1) fun limit h => absurd h List.not_mem_nil
  · show (e.msg.minAnswerTtl.any fun ttl => decide (seconds ttl < now - t)) = false ↔ _
    cases e.msg.minAnswerTtl with
    | none => exact iff_of_true rfl fun limit h => absurd h List.not_mem_nil
    | some ttl =>
      rw [Option.any_some, Option.map_some, Option.toList_some, List.forall_mem_singleton,
        decide_eq_false_iff_not, Nat.not_lt]

/-- What has just been stored is served. -/
theorem load_store (c : ResolverCache) {e : StoreCall} (h : e.Accepted) (now : Nat) :
    ((c.apply now (.store e)).load e.key now).1 = some e.bytes := by
  have hexp : expired (e.item now) now = false := by
    rw [expired_item, Nat.sub_self]
    exact fun limit _ => Nat.zero_le limit
  unfold load
  rw [store_accepted c h, Function.update_self]
  dsimp only
  rw [hexp]
  rfl

end ResolverCache

namespace StoreCall

open ResolverCache

/-- Whenever a load is served by the entry of this call, the entry is at most that
old. -/
def ServedWithin (e : StoreCall) (bound : Nat) : Prop :=
  e.Accepted → ∀ (c : ResolverCache) (t : Nat) (ops : List (Nat × CacheOp)) (now : Nat),
    Untouched e.key ops → (((c.apply t (.store e)).run ops).load e.key now).1.isSome →
      now - t ≤ bound

/-- The entry of this call is served for a limited time: no longer than the configured
TTL and than the TTL of any answer, and in any case not for ever. -/
structure Bounded (e : StoreCall) : Prop where
  within : ∀ limit ∈ e.limits, e.ServedWithin limit
  finite : ∃ bound, e.ServedWithin bound

theorem servedWithin_limit {e : StoreCall} {limit : Nat} (hlimit : limit ∈ e.limits) :
    e.ServedWithin limit := by
  intro hacc c t ops now huntouched hserved
  obtain ⟨item, hitem, hexp⟩ := load_isSome.mp hserved
  have hrun := run_untouched huntouched (c.apply t (.store e))
  rw [hitem, store_accepted c hacc, Function.update_self] at hrun
  rcases hrun with hrun | hrun
  · obtain rfl := Option.some_inj.mp hrun
    exact expired_item.mp hexp limit hlimit
  · cases hrun

/-- Without a limit the entry is served at any time. -/
theorem served_of_no_limit {e : StoreCall} (hacc : e.Accepted) (h : e.limits = []) (t now : Nat) :
    (((empty.apply t (.store e)).run []).load e.key now).1.isSome := by
  refine load_isSome.mpr ⟨e.item t, ?_, expired_item.mpr ?_⟩
  · show (empty.apply t (.store e)) e.key = _
    rw [store_accepted _ hacc, Function.update_self]
  · rw [h]
    exact fun limit h => absurd h List.not_mem_nil

theorem limits_eq_nil {e : StoreCall} : e.limits = [] ↔ e.ttl = 0 ∧ e.msg.answers = [] := by
  unfold limits Message.minAnswerTtl
  rw [List.append_eq_nil_iff]
  refine and_congr ?_ ?_
  · by_cases hpos : 0 < e.ttl
    · rw [if_pos hpos]
      exact iff_of_false (List.cons_ne_nil _ _) (by omega)
    · rw [if_neg hpos]
      exact iff_of_true rfl (by omega)
  · rw [Option.toList_eq_nil_iff, Option.map_eq_none_iff, List.min?_eq_none_iff,
      List.map_eq_nil_iff]

theorem not_servedWithin {e : StoreCall} (hacc : e.Accepted) (h : e.limits = []) (bound : Nat) :
    ¬ e.ServedWithin bound := by
  intro hwithin
  have hle := hwithin hacc empty 0 [] (bound + 1) (fun op hop => absurd hop List.not_mem_nil)
    (served_of_no_limit hacc h 0 (bound + 1))
  omega

/-- The age of what is served is bounded, unless the TTL is zero and the reply has no
answers. -/
theorem cache_staleness (e : StoreCall) :
    e.Bounded ↔ (e.Accepted → 0 < e.ttl ∨ e.msg.answers ≠ []) := by
  constructor
  · rintro ⟨-, bound, hwithin⟩ hacc
    by_contra hnot
    obtain ⟨httl, hanswers⟩ := not_or.mp hnot
    exact not_servedWithin hacc
      (limits_eq_nil.mpr ⟨by omega, not_ne_iff.mp hanswers⟩) bound hwithin
  · intro h
    refine ⟨fun limit hlimit => servedWithin_limit hlimit, ?_⟩
    by_cases hacc : e.Accepted
    · cases hlimits : e.limits with
      | nil =>
        obtain ⟨httl, hanswers⟩ := limits_eq_nil.mp hlimits
        rcases h hacc with hpos | hne
        · omega
        · exact absurd hanswers hne
      | cons limit more =>
        exact ⟨limit, servedWithin_limit (by rw [hlimits]; exact List.mem_cons_self)⟩
    · exact ⟨0, fun h => absurd h hacc⟩

/-- The reply of a server that refused to answer, stored without a configured TTL, is
served for ever. -/
theorem refusal_served_forever : ¬ Bounded
    { key := "a.IN.A", bytes := [0, 7, 0x81, 0x85, 0, 0, 0, 0, 0, 0, 0, 0]
      msg := ⟨7, 0x8185, [], [], [], []⟩, ttl := 0, ttlNegative := false } := by
  rintro ⟨-, bound, hwithin⟩
  exact not_servedWithin ⟨by decide, rfl⟩ (limits_eq_nil.mpr ⟨rfl, rfl⟩) bound hwithin

end StoreCall

end RtProxy.Resolver
