import RtProxy.Auth
import RtProxy.Bypass
import RtProxy.Chain.Dial

/-!
What the handlers share (`handler.rs`).
-/

namespace RtProxy

open Act

structure HandlerOptions where
  chain : Option Chain
  users : List (String × Option String)
  authenticator : Option Authenticator
  whitelist : Option Permissions
  blacklist : Option Permissions
  bypass : Option Bypass
  retries : Nat
  host : String
  proxyAgent : String
  probeResist : String
  knockingHost : String

namespace HandlerOptions

def requiresAuth (o : HandlerOptions) : Bool := !o.users.isEmpty || o.authenticator.isSome

/-- `unwrap_or_default` of the chain. -/
def chainOrEmpty (o : HandlerOptions) : Chain := o.chain.getD .empty

/-- `HandlerOptions::default`. -/
def empty : HandlerOptions where
  chain := none
  users := []
  authenticator := none
  whitelist := none
  blacklist := none
  bypass := none
  retries := 0
  host := ""
  proxyAgent := ""
  probeResist := ""
  knockingHost := ""

end HandlerOptions

def DEFAULT_PROXY_AGENT : String := "rt/2.1.0"

/-! ## Reading -/

/-- A function that reads the client's bytes. -/
abbrev Take (α : Type) := StateT Bytes (Except HandlerError) α

/-- `read_exact`. -/
def takeExact (n : Nat) : Take Bytes := fun s =>
  if s.length < n then .error (.io ⟨.unexpectedEof, "early eof"⟩)
  else .ok (s.take n, s.drop n)

/-- `read_exact` of a single byte. -/
def takeByte : Take UInt8 := fun s =>
  match s with
  | [] => .error (.io ⟨.unexpectedEof, "early eof"⟩)
  | b :: bs => .ok (b, bs)

/-- Reads up to a zero byte, which is dropped. -/
def takeCString : Take Bytes := fun s =>
  let rec go (acc : Bytes) : Bytes → Except HandlerError (Bytes × Bytes)
    | [] => .error (.io ⟨.unexpectedEof, "early eof"⟩)
    | b :: bs => if b = 0 then .ok (acc, bs) else go (acc ++ [b]) bs
  go [] s

def takeU16 : Take UInt16 := do return UInt16.ofNat (Bytes.beNat (← takeExact 2))

/-! ## Checks -/

section

variable (o : HandlerOptions)

def HandlerOptions.allows (action addr : String) : Bool := Can action addr o.whitelist o.blacklist

def HandlerOptions.bypasses (addr : String) : Bool :=
  match o.bypass with
  | some bypass => bypass.contains addr
  | none => false

def HandlerOptions.accepts (user password : String) : Bool :=
  match o.authenticator with
  | some auth => auth.authenticate user password
  | none => true

/-- Asks `Can`. -/
def can {ε : Type} (action addr : String) : Action ε Bool := do
  emit (.can action addr (o.allows action addr))
  pure (o.allows action addr)

/-- Asks the bypass, if there is one. -/
def bypassed {ε : Type} (addr : String) : Action ε Bool := do
  when (o.bypass.isSome = true) (emit (.bypass addr (o.bypasses addr)))
  pure (o.bypasses addr)

/-- Asks the authenticator; if there is none, everybody is accepted. -/
def authenticate {ε : Type} (presented : Bool) (user password : String) : Action ε Bool := do
  when (o.authenticator.isSome = true)
    (emit (.auth presented user password (o.accepts user password)))
  pure (o.accepts user password)

theorem can_run {ε : Type} (action addr : String) (s : Bytes) (log : List Event) :
    (can o action addr : Action ε Bool) s log
      = ⟨.ok (o.allows action addr), s, [.can action addr (o.allows action addr)]⟩ := rfl

theorem bypassed_run {ε : Type} (addr : String) (s : Bytes) (log : List Event) :
    (bypassed o addr : Action ε Bool) s log
      = ⟨.ok (o.bypasses addr), s,
          if o.bypass.isSome then [.bypass addr (o.bypasses addr)] else []⟩ := by
  unfold bypassed when
  split_ifs <;> rfl

theorem authenticate_run {ε : Type} (presented : Bool) (user password : String) (s : Bytes)
    (log : List Event) :
    (authenticate o presented user password : Action ε Bool) s log
      = ⟨.ok (o.accepts user password), s, if o.authenticator.isSome then
          [.auth presented user password (o.accepts user password)] else []⟩ := by
  unfold authenticate when
  split_ifs <;> rfl

/-- The two checks that stand before a dial. -/
def checked {ε α : Type} (target : String) (forbidden bypass k : Action ε α) : Action ε α := do
  if ← can o "tcp" target then
    if ← bypassed o target then bypass else k
  else forbidden

/-- What the checks themselves add. -/
def checkEvents (target : String) : List Event :=
  .can "tcp" target (o.allows "tcp" target) ::
    if o.allows "tcp" target = true ∧ o.bypass.isSome = true then
      [.bypass target (o.bypasses target)]
    else []

/-- Which way leads out of the checks. -/
theorem checked_run {ε α : Type} (target : String) (forbidden bypass k : Action ε α) (s : Bytes)
    (log : List Event) :
    checked o target forbidden bypass k s log =
      let out := if o.allows "tcp" target then if o.bypasses target then bypass else k else forbidden
      ⟨(out s (log ++ checkEvents o target)).result, (out s (log ++ checkEvents o target)).state,
        checkEvents o target ++ (out s (log ++ checkEvents o target)).events⟩ := by
  unfold checked checkEvents
  rw [bind_ok (can_run o "tcp" target s log)]
  by_cases hall : o.allows "tcp" target = true
  · have hbypassed := bypassed_run (ε := ε) o target s
      (log ++ [.can "tcp" target (o.allows "tcp" target)])
    by_cases hsome : o.bypass.isSome = true
    · rw [if_pos hsome] at hbypassed
      simp only [if_pos hall, if_pos (And.intro hall hsome)]
      rw [bind_ok hbypassed, List.append_assoc]
      rfl
    · rw [if_neg hsome] at hbypassed
      have hnone : ¬ (o.allows "tcp" target = true ∧ o.bypass.isSome = true) := fun h => hsome h.2
      simp only [if_pos hall, if_neg hnone]
      rw [bind_silent hbypassed]
  · have hnone : ¬ (o.allows "tcp" target = true ∧ o.bypass.isSome = true) := fun h => hall h.1
    simp only [if_neg hall, if_neg hnone]

/-- What the checks themselves and each way out of them add. -/
theorem checked_emits {ε α : Type} {p : Event → Prop} {target : String}
    {forbidden bypass k : Action ε α} (hcan : ∀ b, p (.can "tcp" target b))
    (hbypass : ∀ b, p (.bypass target b)) (hforb : forbidden.Emits p) (hbyp : bypass.Emits p)
    (hk : o.allows "tcp" target = true → o.bypasses target = false → k.Emits p) :
    (checked o target forbidden bypass k).Emits p := by
  refine emits_bind_of_ok (emits_bind (emits_emit (hcan _)) fun _ => emits_pure _)
    (fun s log => ⟨_, _, can_run o "tcp" target s log⟩) ?_
  split_ifs with hall
  · refine emits_bind_of_ok (emits_bind (emits_when fun _ => emits_emit (hbypass _)) fun _ =>
      emits_pure _) (fun s log => ⟨_, _, bypassed_run o target s log⟩) ?_
    split_ifs with hb
    · exact hbyp
    · exact hk hall (Bool.eq_false_iff.mpr hb)
  · exact hforb

end

/-! ## The client and the connection -/

section

variable (env : Env)

def reply (bs : Bytes) : Action HandlerError Unit := mapErr .ofFailure (env.write (.reply bs))

theorem reply_eq_ok {env : Env} {bs : Bytes} {u : Unit} {s s' : Bytes} {log new : List Event}
    (h : reply env bs s log = ⟨.ok u, s', new⟩) : s' = s ∧ new = [.reply bs] :=
  perform_eq_ok (mapErr_eq_ok h)

theorem reply_unfailing {env : Env} (h : env.Unfailing) (bs s : Bytes) (log : List Event) :
    reply env bs s log = ⟨.ok (), s, [.reply bs]⟩ := by
  unfold reply mapErr
  rw [h.write]
  rfl

/-- A write succeeds or fails. -/
theorem reply_cases (env : Env) (bs s : Bytes) (log : List Event) :
    reply env bs s log = ⟨.ok (), s, [.reply bs]⟩ ∨
      ∃ e, reply env bs s log = ⟨.error e, s, [.reply bs]⟩ := by
  unfold reply mapErr Env.write perform
  cases env.breaks log (.reply bs) with
  | none => exact .inl rfl
  | some f => exact .inr ⟨_, rfl⟩

theorem reply_events (env : Env) (bs s : Bytes) (log : List Event) :
    (reply env bs s log).events = [.reply bs] := by
  rcases reply_cases env bs s log with h | ⟨e, h⟩ <;> rw [h]

theorem reply_fail_events (env : Env) (bs s : Bytes) (log : List Event) (e : HandlerError) :
    ((reply env bs >>= fun _ => (fail e : Action HandlerError Unit)) s log).events =
      [.reply bs] := by
  rcases reply_cases env bs s log with h | ⟨_, h⟩
  · rw [bind_ok h]
    rfl
  · rw [bind_error h]

def replyText (s : String) : Action HandlerError Unit := reply env (Text.utf8 s)

/-- `write_all` on a connection that the handler made. -/
def send (conn : Conn) (bs : Bytes) : Action HandlerError Unit :=
  mapErr .ofFailure (env.write (.send conn bs))

/-- `write_all` of bytes that the client sent. -/
def copy (conn : Conn) (bs : Bytes) : Action HandlerError Unit :=
  mapErr .ofFailure (env.write (.copy conn bs))

/-- `transport`: joins the client and the connection. -/
def splice {ε : Type} (conn : Conn) : Action ε Unit := do
  let rest ← get
  set []
  emit (.splice conn rest)

end

/-- The user and the password of a header, and whether it holds them. -/
def basicProxyAuth (libs : Libs) (header : String) : String × String × Bool :=
  match Text.dropStart header "Basic " with
  | none => ("", "", false)
  | some encoded =>
    match libs.base64 encoded with
    | none => ("", "", false)
    | some decoded =>
      match Text.splitOnce (Text.fromUtf8Lossy decoded) ':' with
      | some (user, password) => (user, password, true)
      | none => ("", "", false)

end RtProxy
