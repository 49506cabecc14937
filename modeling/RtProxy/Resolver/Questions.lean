import RtProxy.Resolver.Exchange

/-!
Which question a cached reply answers.

The key of an entry is the spelling of a name with its class and type.  As long as the
names of the queries are spelled by their labels, equal keys mean equal questions on the
wire; the names of lookups are texts from the start.
-/

namespace RtProxy.Resolver

open Transition

/-! ## Keys and questions -/

/-- A reply to the packet may stand under the key. -/
def KeyFor (key : String) (asked : Bytes) : Prop :=
  ∃ (name : String) (c t : UInt16), key = cacheKey name c t ∧ name.toList.getLast? = some '.'
    ∧ ∃ w, Dns.ReadsMessage asked w ∧ w.questions = [⟨labelsOf name, t, c⟩]

/-- The packet has one question, and the other one has the same on the wire. -/
def SameQuestion (packet asked : Bytes) : Prop :=
  ∃ w w', Dns.ReadsMessage packet w ∧ Dns.ReadsMessage asked w' ∧ w.questions.length = 1
    ∧ w'.questions = w.questions

/-- If the packet has one question only, the labels of its name are texts without a
dot. -/
def CleanQuestion (packet : Bytes) : Prop :=
  ∀ w, Dns.ReadsMessage packet w → w.questions.length = 1 →
    ∀ q ∈ w.questions, ∀ l ∈ q.name, Clean l

theorem getLast?_concat_dot (s : String) : (s ++ ".").toList.getLast? = some '.' := by
  rw [String.toList_append]
  exact List.getLast?_concat

theorem getLast?_printName (ls : List Dns.Label) : (printName ls).toList.getLast? = some '.' := by
  unfold printName
  split_ifs with hempty
  · rfl
  · induction ls with
    | nil => exact absurd rfl hempty
    | cons l ls ih =>
      rw [labelText]
      by_cases hnil : ls = []
      · rw [hnil, labelText, String.append_empty]
        exact getLast?_concat_dot _
      · rw [String.toList_append, List.getLast?_append, ih (mt labelText_eq_empty.mp hnil)]
        rfl

theorem getLast?_fqdn (host : String) : (fqdn host).toList.getLast? = some '.' := by
  unfold fqdn
  split_ifs with hdot
  · obtain ⟨front, hfront⟩ := List.isSuffixOf_iff_suffix.mp hdot
    rw [← hfront]
    exact List.getLast?_concat
  · exact getLast?_concat_dot host

theorem fqdn_fqdn (host : String) : fqdn (fqdn host) = fqdn host := by
  have hends : Text.endsWith (fqdn host) "." = true := by
    obtain ⟨front, hfront⟩ := List.getLast?_eq_some_iff.mp (getLast?_fqdn host)
    exact List.isSuffixOf_iff_suffix.mpr ⟨front, hfront.symm⟩
  exact if_pos hends

theorem key_single {mq : Message} {q : Question} (h : mq.questions = [q]) :
    mq.key = cacheKey q.name q.qclass q.qtype := by
  unfold Message.key
  rw [h]

/-- What a single question with a clean name is stored under. -/
theorem keyFor_outbound {packet asked : Bytes} {mq : Message} {srcIp : Option Net.IpAddr}
    (hdecode : Message.decode packet = .ok mq) (hclean : CleanQuestion packet)
    (hone : mq.questions.length = 1) (h : outbound srcIp packet mq = .ok asked) :
    KeyFor mq.key asked := by
  obtain ⟨w, hw, rfl⟩ := Message.decode_eq_ok.mp hdecode
  have hlen : w.questions.length = 1 := by
    rw [← hone]
    exact (List.length_map _).symm
  obtain ⟨q, hq⟩ := List.length_eq_one_iff.mp hlen
  have hname : labelsOf (printName q.name) = q.name := by
    have hmem : q ∈ w.questions := by rw [hq]; exact List.mem_cons_self
    exact (labelsOf_printName_iff (question_labels hw q hmem)).mpr (hclean w hw hlen q hmem)
  have hquestions : (Message.ofWire w).questions = [Question.ofWire q] := by
    show w.questions.map Question.ofWire = _
    rw [hq]
    rfl
  refine ⟨_, _, _, key_single hquestions, getLast?_printName _, ?_⟩
  show ∃ w', Dns.ReadsMessage asked w' ∧ w'.questions = [⟨labelsOf (printName q.name), _, _⟩]
  cases srcIp with
  | none =>
    cases h
    exact ⟨w, hw, by rw [hq, hname]; rfl⟩
  | some ip =>
    obtain ⟨as, ns, xs, opt, -, -, -, -, hreads⟩ := reads_rewrite hw h
    exact ⟨_, hreads, by rw [hq]; rfl⟩

/-- What a query of a lookup is stored under. -/
theorem keyFor_hostQuery {id : UInt16} {host : String} {qtype : UInt16}
    {srcIp : Option Net.IpAddr} {asked : Bytes}
    (h : (hostQuery id host qtype srcIp).encode = .ok asked) :
    KeyFor (hostKey host qtype) asked := by
  have hquestions : (hostQuery id host qtype srcIp).questions
      = [⟨fqdn (fqdn host), qtype, CLASS_IN⟩] := by
    unfold hostQuery
    cases srcIp <;> rfl
  have hzero : (hostQuery id host qtype srcIp).answers.length = 0
      ∧ (hostQuery id host qtype srcIp).authorities.length = 0 := by
    unfold hostQuery
    cases srcIp <;> exact ⟨rfl, rfl⟩
  obtain ⟨as, ns, xs, -, -, -, hreads⟩ := Message.reads_encode h
    (by rw [hquestions]; exact (by decide : 1 < 65536)) (by rw [hzero.1]; decide)
    (by rw [hzero.2]; decide)
  refine ⟨fqdn host, CLASS_IN, qtype, rfl, getLast?_fqdn host, _, hreads, ?_⟩
  rw [hquestions, fqdn_fqdn]
  rfl

/-- Packets whose replies may stand under one key have the same question. -/
theorem KeyFor.questions {key : String} {a b : Bytes} {w : Dns.Message} (ha : KeyFor key a)
    (hb : KeyFor key b) (hw : Dns.ReadsMessage a w) (hlen : w.questions.length = 1) :
    SameQuestion a b := by
  obtain ⟨na, ca, ta, rfl, hna, wa, hwa, hqa⟩ := ha
  obtain ⟨nb, cb, tb, hkey, hnb, wb, hwb, hqb⟩ := hb
  obtain ⟨rfl, rfl, rfl⟩ := cacheKey_inj hna hnb hkey
  obtain rfl := hwa.unique hw
  exact ⟨_, wb, hw, hwb, hlen, by rw [hqa, hqb]⟩

/-! ## The invariant -/

/-- What a returned reply has to be: one that was received in answer to the same
question. -/
def Answered (received : List Reception) (packet bytes : Bytes) : Prop :=
  ∃ mq, Message.decode packet = .ok mq ∧ ∃ r ∈ received, bytes = setMsgId r.reply mq.id
    ∧ SameQuestion packet r.asked

/-- An answer that was received and may stand under its key. -/
def Answer.Sound (received : List Reception) (a : Answer) : Prop :=
  ⟨a.server, a.asked, a.reply⟩ ∈ received ∧ (a.key ≠ "" → KeyFor a.key a.asked)

def TaskSound (received : List Reception) : Task → Prop
  | .exLook _ packet mq => Message.decode packet = .ok mq ∧ CleanQuestion packet
  | .exAsk _ _ mq asked _ _ => mq.key ≠ "" → KeyFor mq.key asked
  | .exStore _ _ a => a.Sound received
  | .exchanged packet cached result => cached = true → ∀ bytes, result = .ok bytes →
    Answered received packet bytes
  | .reAsk _ host _ qtype _ asked => KeyFor (hostKey host qtype) asked
  | .reStore _ _ a => a.Sound received
  | _ => True

structure Sound (s : Sys) : Prop where
  tasks : ∀ d, TaskSound s.received (s.tasks d)
  entries : ∀ key item, s.cache key = some item →
    ∃ a : Answer, a.Sound s.received ∧ a.key = key ∧ key ≠ "" ∧ item.bytes = a.reply

theorem Answered.mono {received : List Reception} {packet bytes : Bytes} (r : Reception)
    (h : Answered received packet bytes) : Answered (received ++ [r]) packet bytes := by
  obtain ⟨mq, hmq, x, hx, hbytes, hsame⟩ := h
  exact ⟨mq, hmq, x, List.mem_append_left _ hx, hbytes, hsame⟩

theorem Answer.Sound.mono {received : List Reception} {a : Answer} (r : Reception)
    (h : a.Sound received) : a.Sound (received ++ [r]) :=
  ⟨List.mem_append_left _ h.1, h.2⟩

theorem TaskSound.mono {received : List Reception} {task : Task} (r : Reception)
    (h : TaskSound received task) : TaskSound (received ++ [r]) task := by
  cases task with
  | exStore packet mq a => exact Answer.Sound.mono r h
  | reStore host rest a => exact Answer.Sound.mono r h
  | exchanged packet cached result => exact fun hc bytes hb => (h hc bytes hb).mono r
  | _ => exact h

namespace Sound

variable {s : Sys}

theorem setTask (h : Sound s) {d : Nat} {task : Task} (htask : TaskSound s.received task) :
    Sound (s.setTask d task) where
  tasks e := by
    show TaskSound s.received (Function.update s.tasks d task e)
    by_cases he : e = d
    · rw [he, Function.update_self]
      exact htask
    · rw [Function.update_of_ne he]
      exact h.tasks e
  entries := h.entries

theorem look (h : Sound s) (key : String) (now : Nat) : Sound (s.look key now) where
  tasks := h.tasks
  entries k item hitem := by
    rcases s.cache.apply_cases now (.load key) k with hsame | hnone | ⟨e, he, -⟩
    · exact h.entries k item (hsame.symm.trans hitem)
    · cases hnone.symm.trans hitem
    · cases he

theorem receive (h : Sound s) (r : Reception) : Sound (s.receive r) where
  tasks d := (h.tasks d).mono r
  entries k item hitem := by
    obtain ⟨a, ha, hrest⟩ := h.entries k item hitem
    exact ⟨a, ha.mono r, hrest⟩

theorem store (h : Sound s) {a : Answer} (ha : a.Sound s.received) (now : Nat) :
    Sound (s.store a now) where
  tasks := h.tasks
  entries k item hitem := by
    have hcache : s.cache.apply now (.store a.call) k = some item := hitem
    by_cases hacc : a.call.Accepted
    · rw [ResolverCache.store_accepted _ hacc] at hcache
      by_cases hk : k = a.key
      · have hupdate : Function.update s.cache a.key (some (a.call.item now)) k = some item := hcache
        rw [hk, Function.update_self] at hupdate
        cases hupdate
        exact ⟨a, ha, hk.symm, hk ▸ hacc.1, rfl⟩
      · have hupdate : Function.update s.cache a.key (some (a.call.item now)) k = some item := hcache
        rw [Function.update_of_ne hk] at hupdate
        exact h.entries k item hupdate
    · rw [ResolverCache.store_refused _ hacc] at hcache
      exact h.entries k item hcache

/-- What is loaded came in answer to a packet that may stand under the key. -/
theorem load (h : Sound s) {key : String} {now : Nat} {bytes : Bytes}
    (hload : (s.cache.load key now).1 = some bytes) :
    ∃ a : Answer, a.Sound s.received ∧ a.key = key ∧ key ≠ "" ∧ bytes = a.reply := by
  unfold ResolverCache.load at hload
  cases hkey : s.cache key with
  | none => rw [hkey] at hload; cases hload
  | some item =>
    rw [hkey] at hload
    dsimp only at hload
    split_ifs at hload
    cases hload
    exact h.entries key item hkey

end Sound

/-! ### What the calls go on to -/

variable {received : List Reception}

theorem sound_exchange (snap : Snapshot) {packet : Bytes} (h : CleanQuestion packet) :
    TaskSound received (.exchange snap packet) := by
  unfold Task.exchange
  cases hdecode : Message.decode packet with
  | error e => exact fun hc => nomatch hc
  | ok mq =>
    dsimp only
    split_ifs
    · exact fun hc => nomatch hc
    · exact ⟨hdecode, h⟩

theorem sound_exMiss {snap : Snapshot} {packet : Bytes} {mq : Message}
    (hdecode : Message.decode packet = .ok mq) (hclean : CleanQuestion packet) :
    TaskSound received (.exMiss snap packet mq) := by
  unfold Task.exMiss
  cases hout : outbound snap.st.srcIp packet mq with
  | error e => exact fun hc => nomatch hc
  | ok asked =>
    dsimp only
    cases snap.st.servers with
    | nil => exact fun hc => nomatch hc
    | cons ns rest =>
      intro hkey
      refine keyFor_outbound hdecode hclean ?_ hout
      by_contra hone
      refine hkey ?_
      unfold Message.key
      split
      · rename_i q hq
        rw [hq] at hone
        exact absurd rfl hone
      · rfl

theorem sound_reNext (snap : Snapshot) (host : String)
    (outcome : Except String (List Net.IpAddr)) (rest : List (NameServer × UInt16)) :
    TaskSound received (.reNext snap host outcome rest) := by
  cases rest <;> exact trivial

theorem sound_reDone (snap : Snapshot) (host : String) (rest : List (NameServer × UInt16))
    (outcome : Except String (List Net.IpAddr)) :
    TaskSound received (.reDone snap host rest outcome) := by
  unfold Task.reDone
  split
  · exact trivial
  · exact sound_reNext _ _ _ _
  · exact sound_reNext _ _ _ _

theorem sound_resolve (snap : Snapshot) (host : String) :
    TaskSound received (.resolve snap host) := by
  unfold Task.resolve
  by_cases hempty : host = ""
  · rw [if_pos hempty]
    exact trivial
  · rw [if_neg hempty]
    cases Net.IpAddr.parse host with
    | some ip => exact trivial
    | none =>
      dsimp only
      split
      · exact trivial
      · exact sound_reNext _ _ _ _

/-- Every step keeps the invariant, if the packets that are exchanged have clean
names. -/
theorem Sound.step {s t : Sys} {a : Action} (h : Sound s)
    (hok : ∀ d packet, a = .exchange d packet → CleanQuestion packet) (hstep : Step s a t) :
    Sound t := by
  cases hstep with
  | @exchange d packet hidle => exact h.setTask (sound_exchange _ (hok d packet rfl))
  | @exHit d now snap packet mq bytes hpc hone hhit =>
    have htask := h.tasks d
    rw [hpc] at htask
    obtain ⟨hdecode, hclean⟩ := htask
    refine (h.look _ _).setTask fun _ bytes' hbytes => ?_
    cases hbytes
    obtain ⟨a, ⟨hmem, hkey⟩, hk, hne, rfl⟩ := h.load hhit
    obtain ⟨w, hw, rfl⟩ := Message.decode_eq_ok.mp hdecode
    have hlen : w.questions.length = 1 := by
      rw [← hone]
      exact (List.length_map _).symm
    have hpacket := @keyFor_outbound packet _ _ none hdecode hclean hone rfl
    rw [hk] at hkey
    exact ⟨_, hdecode, _, hmem, rfl, hpacket.questions (hkey hne) hw hlen⟩
  | @exMiss d now snap packet mq hpc hone hmiss =>
    have htask := h.tasks d
    rw [hpc] at htask
    exact (h.look _ _).setTask (sound_exMiss htask.1 htask.2)
  | @exMany d snap packet mq hpc hmany =>
    have htask := h.tasks d
    rw [hpc] at htask
    exact h.setTask (sound_exMiss htask.1 htask.2)
  | @exReply d snap packet mq asked ns rest reply hpc =>
    have htask := h.tasks d
    rw [hpc] at htask
    refine (h.receive _).setTask ?_
    unfold Task.exReply
    cases Message.decode reply with
    | error e => exact fun hc => nomatch hc
    | ok mr => exact ⟨List.mem_append_right _ List.mem_cons_self, htask⟩
  | @exError d snap packet mq asked ns rest e hpc =>
    have htask := h.tasks d
    rw [hpc] at htask
    refine h.setTask ?_
    cases rest with
    | nil => exact fun hc => nomatch hc
    | cons ns rest => exact htask
  | resolve host hidle => exact h.setTask (sound_resolve _ host)
  | system result hpc => exact h.setTask trivial
  | reHit now hpc hhit =>
    refine (h.look _ _).setTask ?_
    unfold Task.reHit
    split <;> exact sound_reDone _ _ _ _
  | @reMiss d now snap host ns qtype rest id hpc hmiss =>
    refine (h.look _ _).setTask ?_
    unfold Task.reMiss
    cases hout : (hostQuery id host qtype snap.st.srcIp).encode with
    | error e => exact sound_reDone _ _ _ _
    | ok asked => exact keyFor_hostQuery hout
  | @reReply d snap host ns qtype rest asked reply hpc =>
    have htask := h.tasks d
    rw [hpc] at htask
    refine (h.receive _).setTask ?_
    unfold Task.reReply
    cases Message.decode reply with
    | error e => exact sound_reDone _ _ _ _
    | ok mr => exact ⟨List.mem_append_right _ List.mem_cons_self, fun _ => htask⟩
  | reError e hpc => exact h.setTask (sound_reDone _ _ _ _)
  | @store d answer now hpc =>
    have htask := h.tasks d
    cases htasks : s.tasks d with
    | exStore packet mq a =>
      rw [htasks] at hpc htask
      cases hpc
      exact (h.store htask now).setTask fun hc => nomatch hc
    | reStore host rest a =>
      rw [htasks] at hpc htask
      cases hpc
      exact (h.store htask now).setTask (sound_reDone _ _ _ _)
    | _ => rw [htasks] at hpc; cases hpc
  | reload file hrun hidle => exact ⟨h.tasks, h.entries⟩
  | write hpc => exact ⟨h.tasks, h.entries⟩
  | clear hpc => exact ⟨h.tasks, fun key item hitem => nomatch hitem⟩
  | stop => exact ⟨h.tasks, h.entries⟩

/-! ## Cached replies -/

/-- Packets with one question are exchanged only if its name is clean. -/
def CleanExchange (_ : Sys) (a : Action) : Prop :=
  ∀ d packet, a = .exchange d packet → CleanQuestion packet

/-- While all single questions have clean names, a reply from the cache was received in
answer to the question it is returned for. -/
theorem cache_answers_question {st : State} {s : Sys}
    (h : Reaches Step CleanExchange (Sys.init st) s) {d : Nat} {packet bytes : Bytes}
    (hd : s.tasks d = .exchanged packet true (.ok bytes)) : Answered s.received packet bytes := by
  have hinit : Sound (Sys.init st) := ⟨fun _ => trivial, fun key item hitem => nomatch hitem⟩
  have hs := h.invariant hinit fun t a u ht hok hstep => ht.step hok hstep
  have htask := hs.tasks d
  rw [hd] at htask
  exact htask rfl bytes rfl

/-! ### Two runs -/

def sampleServer : NameServer := ⟨"192.0.2.1", "udp", ""⟩

def sampleState : State :=
  { servers := [sampleServer], domain := "", ttl := 60 * 10 ^ 9, ttlNegative := false
    prefer := "", srcIp := none, optTtl := 0, optTtlNegative := false, optPrefer := ""
    optSrcIp := none }

/-- A response without records. -/
def sampleReply : Bytes := [0, 7, 0x81, 0x80, 0, 0, 0, 0, 0, 0, 0, 0]

def sampleMessage : Message :=
  { id := 7, flags := 0x8180, questions := [], answers := [], authorities := []
    additionals := [] }

theorem key_addressQuery (name : List Dns.Label) :
    (Message.ofWire (addressQuery name)).key = cacheKey (printName name) CLASS_IN TYPE_A := rfl

/-- A query is answered by the server and the reply stored; then a query with the same
key is answered by the cache. -/
theorem cached_run {ok : Sys → Action → Prop} {a b : List Dns.Label}
    (ha : ∀ l ∈ a, 0 < l.length ∧ l.length < 64) (hb : ∀ l ∈ b, 0 < l.length ∧ l.length < 64)
    (hname : printName b = printName a) (hoka : ∀ s, ok s (.exchange 0 (addressPacket a)))
    (hokb : ∀ s, ok s (.exchange 1 (addressPacket b)))
    (hok : ∀ s act, (∀ d packet, act ≠ .exchange d packet) → ok s act) :
    ∃ s, Reaches Step ok (Sys.init sampleState) s
      ∧ s.tasks 1 = .exchanged (addressPacket b) true (.ok (setMsgId sampleReply 7))
      ∧ s.received = [⟨sampleServer, addressPacket a, sampleReply⟩] := by
  have free {act : Action} (h : ∀ d packet, act ≠ .exchange d packet) (s : Sys) : ok s act :=
    hok s act h
  have h0 : Reaches Step ok (Sys.init sampleState) (Sys.init sampleState) := .refl
  have h1 := h0.tail (hoka _) (Step.exchange (d := 0) (addressPacket a) rfl)
  rw [exchange_addressPacket ha] at h1
  have h2 := h1.tail (free (fun _ _ => Action.noConfusion) _)
    (Step.exMiss (d := 0) 0 (Sys.setTask_self _ _ _) rfl rfl)
  have h3 := h2.tail (free (fun _ _ => Action.noConfusion) _)
    (Step.exReply (d := 0) sampleReply (Sys.setTask_self _ _ _))
  have h4 := h3.tail (free (fun _ _ => Action.noConfusion) _)
    (Step.store (d := 0) 0 (congrArg Task.storing (Sys.setTask_self _ _ _)))
  have h5 := h4.tail (hokb _) (Step.exchange (d := 1) (addressPacket b) rfl)
  rw [exchange_addressPacket hb] at h5
  have hkey : (Message.ofWire (addressQuery b)).key = (Message.ofWire (addressQuery a)).key := by
    rw [key_addressQuery, key_addressQuery, hname]
  have hhit := ResolverCache.load_store
    (ResolverCache.empty.load (Message.ofWire (addressQuery a)).key 0).2
    (e := ⟨(Message.ofWire (addressQuery a)).key, sampleReply, sampleMessage, 60 * 10 ^ 9, false⟩)
    ⟨cacheKey_ne_empty _ _ _, rfl⟩ 0
  have h6 := h5.tail (free (fun _ _ => Action.noConfusion) _)
    (Step.exHit (d := 1) 0 (Sys.setTask_self _ _ _) rfl (by rw [hkey]; exact hhit))
  exact ⟨_, h6, Sys.setTask_self _ _ _, rfl⟩

/-- A query for `a.b` and then one more, with its reply from the cache. -/
theorem cache_answers_question_again : ∃ s, Reaches Step CleanExchange (Sys.init sampleState) s
    ∧ Answered s.received (addressPacket [[97], [98]]) (setMsgId sampleReply 7) := by
  have hclean : CleanQuestion (addressPacket [[97], [98]]) := by
    intro w hw _ q hq l hl
    obtain rfl := hw.unique (reads_addressPacket (by decide))
    obtain rfl := List.mem_singleton.mp hq
    rcases List.mem_cons.mp hl with rfl | hl
    · exact ⟨"a", by decide, by decide⟩
    · obtain rfl := List.mem_singleton.mp hl
      exact ⟨"b", by decide, by decide⟩
  have hexchange (s : Sys) (d : Nat) :
      CleanExchange s (.exchange d (addressPacket [[97], [98]])) := by
    intro d' packet hact
    cases hact
    exact hclean
  obtain ⟨s, hs, htask, -⟩ := @cached_run CleanExchange [[97], [98]] [[97], [98]] (by decide) (by decide) rfl (fun s => hexchange s 0)
    (fun s => hexchange s 1) fun s act hact d packet h => absurd h (hact d packet)
  exact ⟨s, hs, cache_answers_question hs htask⟩

/-- A query for the single label `a.b`, and then one for the two labels `a` and `b`: the
second is answered with the reply to the first. -/
theorem cache_answers_other_question : ∃ s, Reaches Step anyStep (Sys.init sampleState) s
    ∧ s.tasks 1 = .exchanged (addressPacket [[97], [98]]) true (.ok (setMsgId sampleReply 7))
    ∧ ¬ Answered s.received (addressPacket [[97], [98]]) (setMsgId sampleReply 7) := by
  obtain ⟨s, hs, htask, hreceived⟩ := @cached_run anyStep [[97, 46, 98]] [[97], [98]] (by decide) (by decide) (by decide) (fun _ => trivial)
    (fun _ => trivial) fun _ _ _ => trivial
  refine ⟨s, hs, htask, ?_⟩
  rintro ⟨mq, -, r, hr, -, w, w', hw, hw', -, hquestions⟩
  rw [hreceived] at hr
  obtain rfl := List.mem_singleton.mp hr
  obtain rfl := hw.unique (reads_addressPacket (by decide))
  obtain rfl := hw'.unique (reads_addressPacket (by decide))
  exact absurd hquestions (by decide)

end RtProxy.Resolver
