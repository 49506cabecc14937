import RtProxy.Handler.Socks5

/-!
Who gets past the negotiation of a SOCKS5 server that wants credentials.

A negotiation either ends the session or leaves the rest of the client's stream, from
which a request is read.  It leaves it only to a client whose credentials are accepted.
-/

namespace RtProxy
namespace Socks5

open Act

/-- A method with which credentials are wanted. -/
def Credentialed (method : UInt8) : Prop := method = METHOD_USER_PASS ∨ method = METHOD_TLS_AUTH

/-- The stream that the credentials are read from. -/
def inside (libs : Libs) (method : UInt8) (s : Bytes) : Bytes :=
  if method = METHOD_TLS_AUTH then libs.decrypt s else s

/-- The method is answered, and TLS accepted. -/
def opening (method : UInt8) : List Event :=
  .reply [VERSION, method] :: if method = METHOD_TLS_AUTH then [.acceptTls] else []

/-- The credentials are judged and the client is told. -/
def judged (user password : String) (accepted : Bool) : List Event :=
  [.auth true user password accepted, .reply [0x01, if accepted then 0x00 else 0x01]]

/-- What a negotiation with a client's stream adds, and the rest of the stream if a
request is read from it. -/
inductive Negotiated (libs : Libs) (auth : Authenticator) (s : Bytes) :
    List Event → Option Bytes → Prop
  /-- the greeting is cut short or of another version -/
  | ungreeted {e : HandlerError} (greeting : readGreeting s = .error e) :
      Negotiated libs auth s [] none
  /-- no method will do -/
  | unacceptable {methods rest : Bytes} (greeting : readGreeting s = .ok (methods, rest))
      (user_pass : METHOD_USER_PASS ∉ methods) (tls : METHOD_TLS ∉ methods) :
      Negotiated libs auth s [.reply [VERSION, METHOD_NO_ACCEPTABLE]] none
  /-- the answer or the TLS handshake fails -/
  | unopened {method : UInt8} {new : List Event} (credentialed : Credentialed method)
      (answered : new ≠ []) (front : new <+: opening method) : Negotiated libs auth s new none
  /-- the credentials are cut short -/
  | unread {methods rest : Bytes} {method : UInt8} {e : HandlerError}
      (greeting : readGreeting s = .ok (methods, rest)) (credentialed : Credentialed method)
      (credentials : readCredentials (inside libs method rest) = .error e) :
      Negotiated libs auth s (opening method) none
  /-- the credentials are rejected -/
  | rejected {methods rest rest' : Bytes} {method : UInt8} {user password : String}
      (greeting : readGreeting s = .ok (methods, rest)) (credentialed : Credentialed method)
      (credentials : readCredentials (inside libs method rest) = .ok ((user, password), rest'))
      (judgement : auth.authenticate user password = false) :
      Negotiated libs auth s (opening method ++ judged user password false) none
  /-- the credentials are accepted, but telling it fails -/
  | untold {methods rest rest' : Bytes} {method : UInt8} {user password : String}
      (greeting : readGreeting s = .ok (methods, rest)) (credentialed : Credentialed method)
      (credentials : readCredentials (inside libs method rest) = .ok ((user, password), rest'))
      (judgement : auth.authenticate user password = true) :
      Negotiated libs auth s (opening method ++ judged user password true) none
  | accepted {methods rest rest' : Bytes} {method : UInt8} {user password : String}
      (greeting : readGreeting s = .ok (methods, rest)) (credentialed : Credentialed method)
      (credentials : readCredentials (inside libs method rest) = .ok ((user, password), rest'))
      (judgement : auth.authenticate user password = true) :
      Negotiated libs auth s (opening method ++ judged user password true) (some rest')

/-- What a run adds and, if it succeeds, the state it leaves. -/
def Ends (P : List Event → Option Bytes → Prop) (out : Outcome HandlerError Bytes Event Unit) :
    Prop :=
  P out.events (match out.result with
    | .ok _ => some out.state
    | .error _ => none)

section

variable {env : Env} {o : HandlerOptions} {auth : Authenticator} {P : List Event → Option Bytes → Prop}
  {α : Type} {x : Action HandlerError α} {f : α → Action HandlerError Unit} {a : α}
  {s s' : Bytes} {log new : List Event}

theorem ends_bind (hx : x s log = ⟨.ok a, s', new⟩)
    (hf : Ends (fun new' rest => P (new ++ new') rest) (f a s' (log ++ new))) :
    Ends P ((x >>= f) s log) := by
  rw [bind_ok hx]
  exact hf

theorem ends_silent (hx : x s log = ⟨.ok a, s', []⟩) (hf : Ends P (f a s' log)) :
    Ends P ((x >>= f) s log) := by
  rw [bind_silent hx]
  exact hf

theorem ends_error {e : HandlerError} (hx : x s log = ⟨.error e, s', new⟩) (h : P new none) :
    Ends P ((x >>= f) s log) := by
  rw [bind_error hx]
  exact h

theorem acceptTls_cases (env : Env) (s : Bytes) (log : List Event) :
    acceptTls env s log = ⟨.ok (), env.decrypt s, [.acceptTls]⟩ ∨
      ∃ e, acceptTls env s log = ⟨.error e, s, [.acceptTls]⟩ := by
  cases h : env.fails log .acceptTls with
  | none =>
    have hrun : mapErr (fun f => HandlerError.proxy s!"socks5 tls handshake: {f.text}")
        (env.perform .acceptTls) s log = ⟨.ok (), s, [.acceptTls]⟩ := by
      unfold mapErr Env.perform perform
      rw [h]
      rfl
    exact .inl (bind_ok hrun)
  | some f =>
    have hrun : mapErr (fun f => HandlerError.proxy s!"socks5 tls handshake: {f.text}")
        (env.perform .acceptTls) s log =
          ⟨.error (.proxy s!"socks5 tls handshake: {f.text}"), s, [.acceptTls]⟩ := by
      unfold mapErr Env.perform perform
      rw [h]
      rfl
    exact .inr ⟨_, bind_error hrun⟩

end

/-! ## The negotiation -/

section

variable {env : Env} {o : HandlerOptions} {auth : Authenticator} {s : Bytes}

theorem checkCredentials_ends (hauth : o.authenticator = some auth) {methods rest : Bytes}
    {method : UInt8} (hgreeting : readGreeting s = .ok (methods, rest))
    (hmethod : Credentialed method) (log : List Event) :
    Ends (fun new rest' => Negotiated env.toLibs auth s (opening method ++ new) rest')
      (checkCredentials env o (inside env.toLibs method rest) log) := by
  cases hread : readCredentials (inside env.toLibs method rest) with
  | error e =>
    refine ends_error (take_error hread) ?_
    rw [List.append_nil]
    exact .unread hgreeting hmethod hread
  | ok x =>
    obtain ⟨⟨user, password⟩, rest'⟩ := x
    have haccepts : o.accepts user password = auth.authenticate user password := by
      unfold HandlerOptions.accepts
      rw [hauth]
    have hasked : (authenticate o true user password : Action HandlerError Bool) rest' log =
        ⟨.ok (auth.authenticate user password), rest',
          [.auth true user password (auth.authenticate user password)]⟩ := by
      rw [authenticate_run, haccepts, hauth]
      rfl
    refine ends_silent (take_ok hread) (ends_bind hasked ?_)
    cases hjudged : auth.authenticate user password with
    | true =>
      rw [if_pos rfl]
      rcases reply_cases env [0x01, 0x00] rest' (log ++ [.auth true user password true]) with
        hreply | ⟨e, hreply⟩ <;> rw [hreply]
      · exact .accepted hgreeting hmethod hread hjudged
      · exact .untold hgreeting hmethod hread hjudged
    | false =>
      rw [if_neg Bool.false_ne_true]
      rcases reply_cases env [0x01, 0x01] rest' (log ++ [.auth true user password false]) with
        hreply | ⟨e, hreply⟩
      · exact ends_bind hreply (.rejected hgreeting hmethod hread hjudged)
      · exact ends_error hreply (.rejected hgreeting hmethod hread hjudged)

theorem runMethod_ends (hauth : o.authenticator = some auth) {methods rest : Bytes} {method : UInt8}
    (hgreeting : readGreeting s = .ok (methods, rest)) (hmethod : Credentialed method)
    (log : List Event) : Ends (Negotiated env.toLibs auth s) (runMethod env o method rest log) := by
  have hchecks (log : List Event) : Ends
      (fun new rest' => Negotiated env.toLibs auth s (opening method ++ new) rest')
      (checkCredentials env o (inside env.toLibs method rest) log) :=
    checkCredentials_ends hauth hgreeting hmethod log
  unfold runMethod
  rcases reply_cases env [VERSION, method] rest log with hreply | ⟨e, hreply⟩
  · refine ends_bind hreply ?_
    rcases hmethod with rfl | rfl
    · exact ends_silent (pure_run ()) (hchecks _)
    · rcases acceptTls_cases env rest (log ++ [.reply [VERSION, METHOD_TLS_AUTH]]) with
        htls | ⟨e, htls⟩
      · exact ends_bind htls (hchecks _)
      · exact ends_error htls (.unopened (.inr rfl) (List.cons_ne_nil _ _) (List.prefix_refl _))
  · exact ends_error hreply (.unopened hmethod (List.cons_ne_nil _ _) ⟨_, rfl⟩)

theorem negotiate_ends (hauth : o.authenticator = some auth) (log : List Event) :
    Ends (Negotiated env.toLibs auth s) (negotiate env o s log) := by
  unfold negotiate
  cases hgreeting : readGreeting s with
  | error e => exact ends_error (take_error hgreeting) (.ungreeted hgreeting)
  | ok x =>
    obtain ⟨methods, rest⟩ := x
    refine ends_silent (take_ok hgreeting) ?_
    by_cases hun : unacceptable o methods
    · rw [if_pos hun]
      have hend : Negotiated env.toLibs auth s [.reply [VERSION, METHOD_NO_ACCEPTABLE]] none :=
        .unacceptable hgreeting hun.2.1 hun.2.2
      rcases reply_cases env [VERSION, METHOD_NO_ACCEPTABLE] rest log with hreply | ⟨e, hreply⟩
      · exact ends_bind hreply hend
      · exact ends_error hreply hend
    · rw [if_neg hun]
      have hsome : o.authenticator.isSome = true := by rw [hauth, Option.isSome_some]
      exact runMethod_ends hauth hgreeting ((chooseMethod_auth _ _).mpr hsome) log

end

/-! ## The session -/

/-- A session with a server that wants credentials either ends with the negotiation, or a
client whose credentials are accepted has its request read and served. -/
theorem handle_authenticated (env : Env) (o : HandlerOptions) {auth : Authenticator}
    (hauth : o.authenticator = some auth) (s : Bytes) (log : List Event) :
    (∃ new e s', Negotiated env.toLibs auth s new none ∧
        handle env o s log = ⟨.error e, s', new⟩) ∨
      ∃ new rest, Negotiated env.toLibs auth s new (some rest) ∧
        handle env o s log =
          let out := (do serve env o (← take readRequest)) rest (log ++ new)
          ⟨out.result, out.state, new ++ out.events⟩ := by
  have hends : Ends (Negotiated env.toLibs auth s) (negotiate env o s log) :=
    negotiate_ends hauth log
  rcases hrun : negotiate env o s log with ⟨_ | u, s', new⟩ <;> rw [hrun] at hends
  · exact .inl ⟨new, _, s', hends, bind_error hrun⟩
  · exact .inr ⟨new, s', hends, bind_ok hrun⟩

/-- A server that accepts nobody. -/
def closed : HandlerOptions :=
  { HandlerOptions.empty with authenticator := some ⟨fun _ _ => false⟩ }

/-- The user `a` without a password asks it for a connection. -/
def knocking : Bytes := [0x05, 0x01, 0x02, 0x01, 0x01, 0x61, 0x00, 0x05, 0x01, 0x00, 0x01, 10, 0, 0, 1, 0, 80]

theorem handle_authenticated_knocking :
    (handle (Env.calm Libs.blank) closed knocking []).events =
        opening METHOD_USER_PASS ++ judged "a" "" false ∧
      ((∃ new e s', Negotiated Libs.blank ⟨fun _ _ => false⟩ knocking new none ∧
          handle (Env.calm Libs.blank) closed knocking [] = ⟨.error e, s', new⟩) ∨
        ∃ new rest, Negotiated Libs.blank ⟨fun _ _ => false⟩ knocking new (some rest) ∧
          handle (Env.calm Libs.blank) closed knocking [] =
            let out := (do serve (Env.calm Libs.blank) closed (← take readRequest)) rest ([] ++ new)
            ⟨out.result, out.state, new ++ out.events⟩) :=
  ⟨by decide, handle_authenticated (Env.calm Libs.blank) closed rfl knocking []⟩

end Socks5
end RtProxy
