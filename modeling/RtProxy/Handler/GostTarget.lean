import RtProxy.Handler.Pipelined
import RtProxy.Lib.HeadText
import RtProxy.Sni.RoundTrip
import RtProxy.Targets

/-!
What the HTTP handler makes of a `Gost-Target`.

The lines of a request are read one after the other, so the last `Host` and the last
`Gost-Target` count.  A target that decodes stands in for the first `Host` line.
-/

namespace RtProxy

open Act

/-! ## Requests as they are read -/

/-- The values of a header, in the order of the lines. -/
def valuesOf (name : String) (lines : List String) : List String :=
  lines.filterMap (HttpHandler.named · name)

/-- The values of a header of a request. -/
def fieldTexts (name : String) (bs : Bytes) : List String :=
  valuesOf name (((Text.readHead bs).map Prod.snd).getD [])

/-- There is a value, and it is the same wherever it is given. -/
def Names {α : Type} (values : List α) (v : α) : Prop := values ≠ [] ∧ ∀ x ∈ values, x = v

/-- A text that can be a host. -/
def IsHost (host : String) : Prop := host ≠ "" ∧ ∀ c ∈ host.toList, Text.isWhite c = false

/-- The host itself, or the host with a port. -/
def Addresses (addr host : String) : Prop :=
  addr = host ∨ ∃ port : UInt16, addr = s!"{host}:{portText port}" ∨
    addr = s!"[{host}]:{portText port}"

/-- The host that a request shows: what is dialled for it, and its `Host`. -/
structure Decoy where
  host : String
  header : String

/-- The address and the request are those of the real host. -/
structure Redirected (real addr : String) (bs : Bytes) : Prop where
  dialled : Addresses addr real
  host : Names (fieldTexts "host:" bs) real
  hidden : fieldTexts "gost-target:" bs = []

/-- The address and the request are those of the decoy. -/
structure Undisturbed (decoy : Decoy) (addr : String) (bs : Bytes) : Prop where
  dialled : Addresses addr decoy.host
  host : Names (fieldTexts "host:" bs) decoy.header

/-- What is to become of a request: a target that decodes to a host stands in for the decoy,
and any other changes nothing. -/
def Routed (decoded : Option String) (shows : Decoy → Prop) (addr : String) (bs : Bytes) : Prop :=
  (∀ real, decoded = some real → IsHost real → Redirected real addr bs) ∧
    (decoded = none → ∀ decoy, shows decoy → Undisturbed decoy addr bs)

section

variable {α : Type} {values : List α} {v : α}

theorem Names.getLast? (h : Names values v) : values.getLast? = some v := by
  rw [List.getLast?_eq_some_getLast h.1, h.2 _ (List.getLast_mem h.1)]

theorem Names.head? (h : Names values v) : values.head? = some v := by
  obtain ⟨x, xs, hx⟩ := List.exists_cons_of_ne_nil h.1
  rw [hx, List.head?_cons, h.2 x (by rw [hx]; exact List.mem_cons_self)]

theorem names_cons_iff {xs : List α} : Names (v :: xs) v ↔ ∀ x ∈ xs, x = v := by
  simp [Names]

/-- An address is its host with a port, if it has no colon. -/
theorem addresses_withPort (host : String) (port : UInt16) :
    Addresses (if Text.contains host ':' then host else s!"{host}:{portText port}") host := by
  split_ifs
  · exact .inl rfl
  · exact .inr ⟨port, .inl rfl⟩

theorem decodeServerName_empty {engine : Sni.Engine} (h : engine.Lawful) :
    Sni.decodeServerName engine "" = none := by
  have hlen := h.length_encode []
  have hnil : Text.utf8 (engine.encode []) = [] := List.eq_nil_of_length_eq_zero (by simpa using hlen)
  have hdecode := h.decode_encode []
  rw [hnil] at hdecode
  have hempty : Text.utf8 "" = [] := rfl
  simp [Sni.decodeServerName, hempty, hdecode]

end

namespace HttpHandler

/-! ## Named lines -/

section

variable {line a b : String}

theorem named_isSome (line name : String) :
    (named line name).isSome = Text.startsWith (Text.toLowercase line) name := by
  unfold named
  cases Text.startsWith (Text.toLowercase line) name <;> rfl

theorem startsWith_iff {s p : String} : Text.startsWith s p = true ↔ p.toList <+: s.toList :=
  List.isPrefixOf_iff_prefix

/-- A line has one name only. -/
theorem named_eq_none (h : (named line a).isSome = true) (hab : ¬ a.toList <+: b.toList)
    (hba : ¬ b.toList <+: a.toList) : named line b = none := by
  rw [named_isSome, startsWith_iff] at h
  rw [← Option.not_isSome_iff_eq_none, named_isSome, startsWith_iff]
  exact fun hb => (List.prefix_or_prefix_of_prefix h hb).elim hab hba

theorem named_of_startsWith (h : Text.startsWith (Text.toLowercase line) a = true) :
    named line a = some (Text.trim (String.ofList (line.toList.drop a.length))) := if_pos h

end

/-! ## Reading the fields -/

section

variable {f : Fields} {line : String} {lines : List String}

theorem headers_add (f : Fields) (line : String) :
    (f.add line).headers =
      f.headers ++ if (named line "gost-target:").isSome then [] else [line] := by
  unfold Fields.add
  cases hauth : named line "proxy-authorization:" with
  | some auth =>
    have hnone := named_eq_none (b := "gost-target:") (Option.isSome_of_eq_some hauth) (by decide)
      (by decide)
    simp [hnone]
  | none =>
    cases hhost : named line "host:" with
    | some host =>
      have hnone := named_eq_none (b := "gost-target:") (Option.isSome_of_eq_some hhost) (by decide)
        (by decide)
      simp [hnone]
    | none =>
      cases named line "gost-target:" <;> simp

theorem hostHeader_add (f : Fields) (line : String) :
    (f.add line).hostHeader = (named line "host:").getD f.hostHeader := by
  unfold Fields.add
  cases hauth : named line "proxy-authorization:" with
  | some auth =>
    have hnone := named_eq_none (b := "host:") (Option.isSome_of_eq_some hauth) (by decide)
      (by decide)
    simp [hnone]
  | none =>
    cases named line "host:" with
    | some host => simp
    | none => cases named line "gost-target:" <;> simp

theorem gostTarget_add (f : Fields) (line : String) :
    (f.add line).gostTarget = (named line "gost-target:").getD f.gostTarget := by
  unfold Fields.add
  cases hauth : named line "proxy-authorization:" with
  | some auth =>
    have hnone := named_eq_none (b := "gost-target:") (Option.isSome_of_eq_some hauth) (by decide)
      (by decide)
    simp [hnone]
  | none =>
    cases hhost : named line "host:" with
    | some host =>
      have hnone := named_eq_none (b := "gost-target:") (Option.isSome_of_eq_some hhost) (by decide)
        (by decide)
      simp [hnone]
    | none => cases named line "gost-target:" <;> simp

/-- The lines that are kept. -/
def kept (lines : List String) : List String :=
  lines.filter fun line => !(named line "gost-target:").isSome

theorem headers_foldl (lines : List String) (f : Fields) :
    (lines.foldl Fields.add f).headers = f.headers ++ kept lines := by
  induction lines generalizing f with
  | nil => simp [kept]
  | cons line lines ih =>
    rw [List.foldl_cons, ih, headers_add, kept, kept, List.filter_cons]
    cases named line "gost-target:" <;> simp

/-- The last value of a header stands. -/
theorem getLast?_valuesOf_cons (name line : String) (lines : List String) (old : String) :
    (valuesOf name (line :: lines)).getLast?.getD old =
      (valuesOf name lines).getLast?.getD ((named line name).getD old) := by
  unfold valuesOf
  rw [List.filterMap_cons]
  cases named line name with
  | none => rfl
  | some v => simp [List.getLast?_cons]

theorem hostHeader_foldl (lines : List String) (f : Fields) :
    (lines.foldl Fields.add f).hostHeader =
      (valuesOf "host:" lines).getLast?.getD f.hostHeader := by
  induction lines generalizing f with
  | nil => rfl
  | cons line lines ih =>
    rw [List.foldl_cons, ih, hostHeader_add, getLast?_valuesOf_cons]

theorem gostTarget_foldl (lines : List String) (f : Fields) :
    (lines.foldl Fields.add f).gostTarget =
      (valuesOf "gost-target:" lines).getLast?.getD f.gostTarget := by
  induction lines generalizing f with
  | nil => rfl
  | cons line lines ih =>
    rw [List.foldl_cons, ih, gostTarget_add, getLast?_valuesOf_cons]

theorem readFields_eq_ok {fuel : Nat} {f f' : Fields} {s s' : Bytes}
    (h : readFields fuel f s = .ok (f', s')) :
    ∃ lines, Text.trimmedLines fuel s = some lines ∧ f' = lines.foldl Fields.add f := by
  induction fuel generalizing f s with
  | zero =>
    cases h
    exact ⟨[], rfl, rfl⟩
  | succ fuel ih =>
    obtain ⟨line, mid, hline, h⟩ := take_bind_eq_ok h
    unfold readLine at hline
    split at hline
    · rename_i text htext
      cases hline
      rw [Text.trimmedLines, htext]
      simp only [Option.bind_eq_bind, Option.bind_some]
      by_cases hblank : Text.trim line = ""
      · rw [if_pos hblank] at h ⊢
        cases h
        exact ⟨[], rfl, rfl⟩
      · rw [if_neg hblank] at h ⊢
        obtain ⟨lines, hlines, rfl⟩ := ih h
        refine ⟨Text.trim line :: lines, ?_, (List.foldl_cons ..).symm⟩
        rw [hlines, Option.map_some]
    · cases hline

end

/-- A request is what its head says. -/
theorem readRequest_eq_ok {engine : Sni.Engine} {r : Request} {s s' : Bytes}
    (h : readRequest engine s = .ok (some r, s')) :
    ∃ first lines version more, Text.readHead s = some (first, lines) ∧
      Text.splitWhitespace first = r.method :: r.target :: version :: more ∧
      r.toFields = (lines.foldl Fields.add .empty).redirect engine := by
  obtain ⟨first, mid, hfirst, h⟩ := take_bind_eq_ok h
  unfold readLine at hfirst
  split at hfirst
  · rename_i text htext
    cases hfirst
    split_ifs at h with hempty
    · cases h
    rcases hwords : Text.splitWhitespace first with _ | ⟨method, _ | ⟨target, _ | ⟨version, more⟩⟩⟩ <;>
      rw [hwords] at h
    · cases h
    · cases h
    · cases h
    · obtain ⟨f, mid', hfields, h⟩ := take_bind_eq_ok h
      cases h
      obtain ⟨lines, hlines, rfl⟩ := readFields_eq_ok hfields
      refine ⟨first, lines, version, more, ?_, hwords, rfl⟩
      unfold Text.readHead
      rw [htext]
      simp only [Option.bind_eq_bind, Option.bind_some, hlines]
  · cases hfirst

/-! ## What is forwarded -/

section

variable {name real : String} {lines : List String}

/-- Dropping lines with other names. -/
theorem valuesOf_filter {p : String → Bool}
    (h : ∀ line, (named line name).isSome = true → p line = true) (lines : List String) :
    valuesOf name (lines.filter p) = valuesOf name lines := by
  unfold valuesOf
  induction lines with
  | nil => rfl
  | cons line lines ih =>
    rw [List.filter_cons, List.filterMap_cons]
    cases hname : named line name with
    | none => split_ifs <;> simp [hname, ih]
    | some v => simp [h line (Option.isSome_of_eq_some hname), hname, ih]

theorem valuesOf_kept_host (lines : List String) :
    valuesOf "host:" (kept lines) = valuesOf "host:" lines := by
  refine valuesOf_filter (fun line hline => ?_) lines
  rw [named_eq_none hline (by decide) (by decide)]
  rfl

theorem valuesOf_kept_target (lines : List String) : valuesOf "gost-target:" (kept lines) = [] := by
  unfold valuesOf kept
  rw [List.filterMap_eq_nil_iff]
  intro line hline
  simpa using (List.mem_filter.mp hline).2

theorem toList_host (real : String) : (s!"Host: {real}").toList = "Host: ".toList ++ real.toList := by
  show ("Host: " ++ real).toList = _
  exact String.toList_append

theorem named_host (hreal : IsHost real) : named s!"Host: {real}" "host:" = some real := by
  have hname : "host:".toList <+: "Host: ".toList.flatMap Text.lowerChar := by decide
  have hlower : Text.startsWith (Text.toLowercase s!"Host: {real}") "host:" = true := by
    have hchars : (Text.toLowercase s!"Host: {real}").toList =
        "Host: ".toList.flatMap Text.lowerChar ++ real.toList.flatMap Text.lowerChar := by
      rw [Text.toLowercase, String.toList_ofList, toList_host, List.flatMap_append]
    rw [startsWith_iff, hchars]
    exact hname.trans (List.prefix_append ..)
  have hdrop : (s!"Host: {real}").toList.drop "host:".length = [' '] ++ real.toList ++ [] := by
    have hlen : "host:".length = 5 := by decide
    have hsplit : "Host: ".toList = ['H', 'o', 's', 't', ':', ' '] := by decide
    rw [toList_host, hlen, hsplit, List.append_nil]
    simp
  rw [named_of_startsWith hlower, Text.trim_eq, String.toList_ofList, hdrop,
    Text.trimWhile_append (by decide) (List.forall_mem_nil _), Text.trimWhile_eq_self hreal.2,
    String.ofList_toList]

theorem valuesOf_setHost (hreal : IsHost real) (lines : List String) :
    valuesOf "host:" (Fields.setHost real lines) =
        (match valuesOf "host:" lines with
          | [] => []
          | _ :: later => real :: later) ∧
      valuesOf "gost-target:" (Fields.setHost real lines) = valuesOf "gost-target:" lines := by
  have hhost := named_host hreal
  have htarget := named_eq_none (b := "gost-target:") (Option.isSome_of_eq_some hhost) (by decide)
    (by decide)
  unfold valuesOf
  induction lines with
  | nil => exact ⟨rfl, rfl⟩
  | cons line lines ih =>
    rw [Fields.setHost]
    by_cases hname : Text.startsWith (Text.toLowercase line) "host:" = true
    · have hline := named_of_startsWith hname
      have hother := named_eq_none (b := "gost-target:") (Option.isSome_of_eq_some hline)
        (by decide) (by decide)
      simp only [if_pos hname, List.filterMap_cons, hhost, htarget, hline, hother, and_self]
    · have hline : named line "host:" = none := if_neg hname
      simp only [if_neg hname, List.filterMap_cons, hline, ih, true_and]

theorem mem_setHost {line : String} (h : line ∈ Fields.setHost real lines) :
    line ∈ lines ∨ line = s!"Host: {real}" := by
  induction lines with
  | nil => cases h
  | cons first lines ih =>
    rw [Fields.setHost] at h
    split_ifs at h
    · rcases List.mem_cons.mp h with rfl | h
      · exact .inr rfl
      · exact .inl (List.mem_cons_of_mem _ h)
    · rcases List.mem_cons.mp h with rfl | h
      · exact .inl List.mem_cons_self
      · exact (ih h).imp_left (List.mem_cons_of_mem _)

end

theorem fieldTexts_headBytes {first : String} {lines : List String} (hfirst : '\n' ∉ first.toList)
    (h : ∀ line ∈ lines, Text.Line line) (name : String) :
    fieldTexts name (Text.headBytes first lines) = valuesOf name (lines.map Text.trim) := by
  rw [fieldTexts, Text.readHead_headBytes hfirst h]
  rfl

/-- A line that stands as it is read. -/
def Settled (line : String) : Prop := Text.Line line ∧ Text.trim line = line

theorem settled_host {real : String} (hreal : IsHost real) : Settled s!"Host: {real}" := by
  obtain ⟨hne, hwhite⟩ := hreal
  have hlist := toList_host real
  have hreal' : real.toList ≠ [] := by
    rw [Ne, ← String.toList_eq_nil_iff] at hne
    exact hne
  have htrim : Text.trim s!"Host: {real}" = s!"Host: {real}" := by
    apply Text.trim_eq_self
    · rw [hlist]
      intro c hc
      have hc' : c = 'H' := by simpa using hc.symm
      rw [hc']
      decide
    · rw [hlist, List.getLast?_append_of_ne_nil _ hreal']
      exact fun c hc => hwhite c (List.mem_of_getLast? hc)
  refine ⟨⟨?_, ?_⟩, htrim⟩
  · rw [hlist, List.mem_append, not_or]
    refine ⟨by decide, fun hmem => ?_⟩
    exact absurd (hwhite _ hmem) (by decide)
  · rw [htrim]
    intro hempty
    rw [hempty] at hlist
    exact absurd hlist (by simp)

section

variable {libs : Libs} {r : Request}

theorem forwarded_eq (libs : Libs) (r : Request) :
    r.forwarded libs = Text.headBytes s!"{r.method} {r.originForm libs} HTTP/1.1"
      (r.headers.filter fun header =>
        !Text.startsWith (Text.toLowercase header) "proxy-authorization" &&
          !Text.startsWith (Text.toLowercase header) "proxy-connection") := by
  have hfirst : s!"{r.method} {r.originForm libs} HTTP/1.1\r\n" =
      s!"{r.method} {r.originForm libs} HTTP/1.1" ++ "\r\n" := by
    have htext (s : String) : toString s = s := rfl
    rw [← String.toList_inj]
    simp [htext]
  unfold Request.forwarded Request.rebuilt Text.headBytes
  rw [hfirst]
  rfl

/-- A line of another kind is forwarded. -/
theorem fieldTexts_forwarded (hmethod : ∀ c ∈ r.method.toList, Text.isWhite c = false)
    (htarget : ∀ c ∈ (r.originForm libs).toList, Text.isWhite c = false)
    (hheaders : ∀ line ∈ r.headers, Settled line) {name : String}
    (hname : ∀ b ∈ ["proxy-authorization", "proxy-connection"],
      ¬ name.toList <+: b.toList ∧ ¬ b.toList <+: name.toList) :
    fieldTexts name (r.forwarded libs) = valuesOf name r.headers := by
  have hlf {s : String} (h : ∀ c ∈ s.toList, Text.isWhite c = false) : '\n' ∉ s.toList :=
    fun hmem => absurd (h _ hmem) (by decide)
  have hfirst : '\n' ∉ (s!"{r.method} {r.originForm libs} HTTP/1.1").toList := by
    have htext (s : String) : toString s = s := rfl
    simp [htext, hlf hmethod, hlf htarget]
  have hother {line : String} (hline : (named line name).isSome = true) {b : String}
      (hb : b ∈ ["proxy-authorization", "proxy-connection"]) :
      Text.startsWith (Text.toLowercase line) b = false := by
    have hnone := named_eq_none hline (hname b hb).1 (hname b hb).2
    rw [← named_isSome, hnone]
    rfl
  rw [forwarded_eq, fieldTexts_headBytes hfirst fun line hline =>
    (hheaders line (List.mem_filter.mp hline).1).1]
  rw [List.map_congr_left fun line hline => (hheaders line (List.mem_filter.mp hline).1).2,
    List.map_id']
  refine valuesOf_filter (fun line hline => ?_) r.headers
  rw [hother hline (by simp), hother hline (by simp)]
  rfl

/-- A request in origin form goes to the host of its `Host`. -/
theorem addresses_host (hmethod : r.method ≠ "CONNECT") {e : String}
    (hparse : libs.urlParse r.target = .error e) (hhost : r.hostHeader ≠ "") :
    Addresses (r.host libs) r.hostHeader := by
  have h := addresses_withPort r.hostHeader 80
  unfold Request.host
  rw [if_neg hmethod, hparse]
  simp only [if_neg hhost]
  have hport : portText 80 = "80" := by decide
  rwa [plain_http r.hostHeader hport]

end

/-! ## A target that stands in -/

section

variable {engine : Sni.Engine} {f : Fields} {real : String}

theorem redirect_decoded (hengine : engine.Lawful)
    (h : Sni.decodeServerName engine f.gostTarget = some real) :
    f.redirect engine =
      { f with headers := Fields.setHost real f.headers, hostHeader := real } := by
  have hne : f.gostTarget ≠ "" := by
    intro hempty
    rw [hempty, decodeServerName_empty hengine] at h
    cases h
  rw [Fields.redirect, if_neg hne, h]

theorem redirect_undecoded (h : Sni.decodeServerName engine f.gostTarget = none) :
    f.redirect engine = f := by
  rw [Fields.redirect, h]
  split_ifs <;> rfl

end

/-- The `Host` that a request shows. -/
def Shows (stream : Bytes) (decoy : Decoy) : Prop :=
  decoy.host ≠ "" ∧ decoy.header = decoy.host ∧ Names (fieldTexts "host:" stream) decoy.host

/-- There is a `Host`, and what follows it names this one. -/
def LedByHost (real : String) (hosts : List String) : Prop :=
  ∃ first later, hosts = first :: later ∧ ∀ x ∈ later, x = real

/-- What the `url` crate does with a target that is no URL. -/
def RefusesRelative (urlParse : UrlParser) : Prop :=
  ∀ target, Text.startsWith target "/" = true → ∃ e, urlParse target = .error e

/-- What is known of a request that was read. -/
structure Read (engine : Sni.Engine) (stream : Bytes) (r : Request) (lines : List String) :
    Prop where
  texts : ∀ name, fieldTexts name stream = valuesOf name lines
  settled : ∀ line ∈ lines, Settled line
  method : ∀ c ∈ r.method.toList, Text.isWhite c = false
  target : ∀ c ∈ r.target.toList, Text.isWhite c = false
  fields : r.toFields = (lines.foldl Fields.add .empty).redirect engine

theorem exists_read {engine : Sni.Engine} {stream rest : Bytes} {r : Request}
    (h : readRequest engine stream = .ok (some r, rest)) : ∃ lines, Read engine stream r lines := by
  obtain ⟨first, lines, version, more, hhead, hwords, hfields⟩ := readRequest_eq_ok h
  have hword {w : String} (hw : w ∈ r.method :: r.target :: version :: more) :=
    Text.not_white_of_word (hwords ▸ hw)
  refine ⟨lines, fun name => ?_, Text.line_of_readHead hhead, hword (by simp), hword (by simp),
    hfields⟩
  rw [fieldTexts, hhead]
  rfl

section

variable {engine : Sni.Engine} {libs : Libs} {stream : Bytes} {r : Request} {lines : List String}
  {v real : String}

theorem Read.gostTarget (h : Read engine stream r lines)
    (hv : Names (fieldTexts "gost-target:" stream) v) :
    (lines.foldl Fields.add .empty).gostTarget = v := by
  rw [gostTarget_foldl, ← h.texts, hv.getLast?]
  rfl

/-- A request whose headers are as they are read is forwarded with them. -/
theorem Read.forwarded (h : Read engine stream r lines) {e : String}
    (hparse : libs.urlParse r.target = .error e) (hheaders : ∀ line ∈ r.headers, Settled line) :
    fieldTexts "host:" (r.forwarded libs) = valuesOf "host:" r.headers ∧
      fieldTexts "gost-target:" (r.forwarded libs) = valuesOf "gost-target:" r.headers := by
  have horigin : r.originForm libs = r.target := by rw [Request.originForm, hparse]
  have htarget := h.target
  rw [← horigin] at htarget
  exact ⟨fieldTexts_forwarded h.method htarget hheaders (by decide),
    fieldTexts_forwarded h.method htarget hheaders (by decide)⟩

theorem settled_kept (h : ∀ line ∈ lines, Settled line) : ∀ line ∈ kept lines, Settled line :=
  fun line hline => h line (List.mem_filter.mp hline).1

/-- A target that does not decode changes nothing. -/
theorem undisturbed_of_undecoded (h : Read engine stream r lines) (hmethod : r.method ≠ "CONNECT")
    {e : String} (hparse : libs.urlParse r.target = .error e)
    (hv : Names (fieldTexts "gost-target:" stream) v)
    (hdecode : Sni.decodeServerName engine v = none) {decoy : Decoy} (hshows : Shows stream decoy) :
    Undisturbed decoy (r.host libs) (r.forwarded libs) := by
  obtain ⟨hne, hheader, hnames⟩ := hshows
  have hfields := h.fields
  rw [redirect_undecoded (by rw [h.gostTarget hv, hdecode])] at hfields
  have hheaders : r.headers = kept lines := by
    rw [hfields, headers_foldl]
    rfl
  have hhost : r.hostHeader = decoy.host := by
    rw [hfields, hostHeader_foldl, ← h.texts, hnames.getLast?]
    rfl
  have hkept := settled_kept h.settled
  rw [← hheaders] at hkept
  constructor
  · rw [← hhost]
    exact addresses_host hmethod hparse (by rw [hhost]; exact hne)
  · rw [(h.forwarded hparse hkept).1, hheaders, valuesOf_kept_host, ← h.texts, hheader]
    exact hnames

/-- One that does stands in for the first `Host`. -/
theorem redirected_iff (h : Read engine stream r lines) (hengine : engine.Lawful)
    (hmethod : r.method ≠ "CONNECT") {e : String} (hparse : libs.urlParse r.target = .error e)
    (hv : Names (fieldTexts "gost-target:" stream) v)
    (hdecode : Sni.decodeServerName engine v = some real) (hreal : IsHost real) :
    Redirected real (r.host libs) (r.forwarded libs) ↔
      LedByHost real (fieldTexts "host:" stream) := by
  have hfields := h.fields
  rw [redirect_decoded hengine (by rw [h.gostTarget hv, hdecode])] at hfields
  have hheaders : r.headers = Fields.setHost real (kept lines) := by
    rw [hfields, headers_foldl]
    rfl
  have hhost : r.hostHeader = real := by rw [hfields]
  have hsettled : ∀ line ∈ r.headers, Settled line := by
    rw [hheaders]
    intro line hline
    rcases mem_setHost hline with hline | rfl
    · exact settled_kept h.settled line hline
    · exact settled_host hreal
  obtain ⟨hhosts, htargets⟩ := h.forwarded hparse hsettled
  rw [hheaders, (valuesOf_setHost hreal _).1, valuesOf_kept_host, ← h.texts] at hhosts
  rw [hheaders, (valuesOf_setHost hreal _).2, valuesOf_kept_target] at htargets
  have hdialled : Addresses (r.host libs) real := by
    have haddr := addresses_host hmethod hparse (by rw [hhost]; exact hreal.1)
    rwa [hhost] at haddr
  constructor
  · intro hred
    have hnames := hred.host
    rw [hhosts] at hnames
    cases hlines : fieldTexts "host:" stream with
    | nil =>
      rw [hlines] at hnames
      exact absurd rfl hnames.1
    | cons first later =>
      rw [hlines] at hnames
      exact ⟨first, later, rfl, names_cons_iff.mp hnames⟩
  · intro ⟨first, later, hlines, hlater⟩
    refine ⟨hdialled, ?_, htargets⟩
    rw [hhosts, hlines]
    exact names_cons_iff.mpr hlater

theorem routed_iff {rest : Bytes} (hengine : engine.Lawful)
    (hrelative : RefusesRelative libs.urlParse)
    (hread : readRequest engine stream = .ok (some r, rest)) (hmethod : r.method ≠ "CONNECT")
    (horigin : Text.startsWith r.target "/" = true)
    (hv : Names (fieldTexts "gost-target:" stream) v) :
    Routed (Sni.decodeServerName engine v) (Shows stream) (r.host libs) (r.forwarded libs) ↔
      ∀ real, Sni.decodeServerName engine v = some real → IsHost real →
        LedByHost real (fieldTexts "host:" stream) := by
  obtain ⟨lines, h⟩ := exists_read hread
  obtain ⟨e, hparse⟩ := hrelative r.target horigin
  constructor
  · intro hrouted real hdecode hreal
    exact (redirected_iff h hengine hmethod hparse hv hdecode hreal).mp
      (hrouted.1 real hdecode hreal)
  · intro hled
    refine ⟨fun real hdecode hreal => ?_, fun hdecode decoy hshows => ?_⟩
    · exact (redirected_iff h hengine hmethod hparse hv hdecode hreal).mpr (hled real hdecode hreal)
    · exact undisturbed_of_undecoded h hmethod hparse hv hdecode hshows

end

/-! ## What a run dials and forwards -/

section

variable (env : Env) (o : HandlerOptions) (r : Request)

/-- A dial goes to the address, and what is sent to anybody but a decoy is the head. -/
def Serves (addr : String) (head : Bytes) : Event → Prop
  | .dial a => a = addr
  | .send (.decoy _) _ => True
  | .send _ bs => bs = head
  | _ => True

theorem serves_wire {addr : String} {head : Bytes} {e : Event} (h : e.wire = true) :
    Serves addr head e := by
  cases e <;> trivial

theorem serves_send {addr : String} {head bs : Bytes} {conn : Conn}
    (h : Serves addr head (.send conn bs)) (hconn : ∀ d, conn ≠ .decoy d) : bs = head := by
  cases conn with
  | decoy d => exact absurd rfl (hconn d)
  | _ => exact h

/-- Attempts to dial an address. -/
theorem dial_serves (chain : Chain) (host : String) (head : Bytes) (n : Nat) :
    (tries (chain.dial env host) n .emptyChain).Emits (Serves host head) := by
  have hdial : Serves host head (.dial host) := rfl
  refine tries_emits (dialWithOptions_emits (D := fun _ => True) hdial trivial ?_ ?_ ?_) _ _
  · exact fun e he => serves_wire he.1
  · exact fun _ _ _ => trivial
  · exact lookupWithin_any _ _

section

variable {addr : String} {head : Bytes}

theorem reply_serves (bs : Bytes) : (reply env bs).Emits (Serves addr head) :=
  emits_mapErr _ (emits_perform trivial)

theorem splice_serves (conn : Conn) :
    (splice conn : Action HandlerError Unit).Emits (Serves addr head) :=
  emits_bind emits_get fun _ => emits_bind (emits_set _) fun _ => emits_emit trivial

theorem replay_serves (pipelined : Bytes) (conn : Conn) :
    (replay env pipelined conn).Emits (Serves addr head) :=
  emits_bind (emits_when fun _ => emits_mapErr _ (emits_perform trivial)) fun _ =>
    splice_serves conn

theorem relay_serves (pipelined : Bytes) (cc : Conn) :
    (relay env o r pipelined cc).Emits (Serves addr (r.forwarded env.toLibs)) := by
  unfold relay
  split_ifs
  · exact emits_bind (reply_serves env _) fun _ => replay_serves env pipelined cc
  · refine emits_bind (emits_mapErr _ (emits_perform ?_)) fun _ => replay_serves env pipelined cc
    cases cc <;> first | rfl | trivial

theorem camouflage_serves (code : UInt16) (bodyLen : Nat) (contentType : Option String) :
    (camouflage env code bodyLen contentType).Emits (Serves addr head) :=
  emits_bind (emits_ask _) fun _ => reply_serves env _

theorem fetchDecoy_serves (url : String) : (fetchDecoy env url).Emits (Serves addr head) := by
  refine emits_bind (emits_ofExcept _) fun page => ?_
  refine emits_bind (emits_mapErr _ (emits_perform trivial)) fun _ => ?_
  exact emits_bind (emits_mapErr _ (emits_perform trivial)) fun _ => emits_ask _

theorem deny_serves (host : String) (keepAlive : Bool) (requestHead : Bytes) :
    (deny env o host keepAlive requestHead).Emits (Serves addr head) := by
  unfold deny
  cases resist o host with
  | none => exact reply_serves env _
  | some how =>
    cases how with
    | code code => exact camouflage_serves env _ _ _
    | file path =>
      dsimp only
      cases env.file path with
      | some body => exact emits_bind (camouflage_serves env _ _ _) fun _ => reply_serves env _
      | none => exact camouflage_serves env _ _ _
    | web url =>
      refine emits_bind (emits_attempt (fetchDecoy_serves env url)) fun answer => ?_
      cases answer with
      | ok response => exact reply_serves env _
      | error e => exact camouflage_serves env _ _ _
    | host addr =>
      refine emits_bind (emits_attempt (emits_perform trivial)) fun answer => ?_
      cases answer with
      | ok _ =>
        exact emits_bind (emits_mapErr _ (emits_perform trivial)) fun _ => splice_serves _
      | error e => exact camouflage_serves env _ _ _

end

theorem serve_serves (pipelined : Bytes) : (serve env o r pipelined).Emits
    (Serves (r.host env.toLibs) (r.forwarded env.toLibs)) := by
  refine checked_emits o (fun _ => trivial) (fun _ => trivial) (reply_serves env _)
    (reply_serves env _) fun _ _ => ?_
  refine emits_bind (emits_bind (emits_when fun _ => emits_emit trivial) fun _ => emits_pure _)
    fun accepted => ?_
  cases accepted with
  | false => exact deny_serves env o _ _ _
  | true =>
    refine emits_bind (emits_attempt (dial_serves env _ _ _ _)) fun answer => ?_
    cases answer with
    | ok cc => exact relay_serves env o r pipelined cc
    | error e => exact emits_bind (reply_serves env _) fun _ => emits_fail _

/-- All that is dialled and forwarded is that of the request that was read. -/
theorem handle_serves (engine : Sni.Engine) {stream : Bytes} {log : List Event} {e : Event}
    (he : e ∈ (handle env o engine stream log).events) :
    ∃ r rest, readRequest engine stream = .ok (some r, rest) ∧
      Serves (r.host env.toLibs) (r.forwarded env.toLibs) e := by
  unfold handle at he
  cases hread : readRequest engine stream with
  | error err =>
    rw [bind_error (take_error hread)] at he
    cases he
  | ok out =>
    obtain ⟨request, rest⟩ := out
    rw [bind_silent (take_ok hread)] at he
    cases request with
    | none => cases he
    | some r =>
      have hserves : ((takeBuffer env) >>= fun pipelined => serve env o r pipelined).Emits
          (Serves (r.host env.toLibs) (r.forwarded env.toLibs)) := by
        refine emits_bind ?_ fun pipelined => serve_serves env o r pipelined
        exact emits_bind (emits_ask _) fun _ => emits_bind emits_get fun _ =>
          emits_bind (emits_set _) fun _ => emits_pure _
      exact ⟨r, rest, rfl, hserves rest log e he⟩

end

end HttpHandler
end RtProxy
