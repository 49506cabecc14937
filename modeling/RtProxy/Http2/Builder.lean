import RtProxy.Http2.Response

/-!
Building the response of `forward_request` (`http2_transport.rs`).

What the origin sends is trimmed and put into lower case before the builder is given it.
Nothing else is checked, and the error of the builder is unwrapped.
-/

namespace RtProxy
namespace Http2

open Http1

/-- The headers of `send_status`, as far as it is called with 502. -/
def agentHeaders (agent : Bytes) : List (Bytes × Bytes) := [(Text.utf8 "Proxy-Agent", agent)]

/-- The response side of `forward_request` with `send_status`, whose builder is unwrapped too. -/
def answerClient (crates : Crates) (agent : Bytes) (origin : BufReader) : Translated :=
  match forwardResponse crates origin with
  | .answered status =>
    if crates.builds status (agentHeaders agent) then .answered status else .panicked
  | out => out

/-- The longest name that the builder takes. -/
def MAX_HEADER_NAME_LEN : Nat := 2 ^ 16 - 1

/-- What a header may be. -/
def Legal (field : Bytes × Bytes) : Prop :=
  (Token field.1 ∧ field.1.length ≤ MAX_HEADER_NAME_LEN) ∧ Value field.2

instance (field : Bytes × Bytes) : Decidable (Legal field) := inferInstanceAs (Decidable (_ ∧ _))

/-- The header lines up to a blank one or the end, if all of them are texts; there are at most
`fuel` lines. -/
def headerLines : Nat → Bytes → Option (List String)
  | 0, _ => some []
  | fuel + 1, bs => do
    let line ← Text.fromUtf8 (Text.cutLine bs).1
    if Text.trimEnd line = "" then some []
    else (headerLines fuel (Text.cutLine bs).2).map (Text.trimEnd line :: ·)

/-- The status and the headers that the builder is given, if what is read is text. -/
def built (agent bs : Bytes) : Option (Nat × List (Bytes × Bytes)) := do
  let line ← Text.fromUtf8 (Text.cutLine bs).1
  if line = "" then some (BAD_GATEWAY, agentHeaders agent)
  else
    let lines ← headerLines ((Text.cutLine bs).2.length + 1) (Text.cutLine bs).2
    some (statusOf line, lines.flatMap headerOf)

/-- Every header that the builder is given is legal. -/
def AllLegal (agent bs : Bytes) : Prop :=
  ∀ built' ∈ built agent bs, ∀ field ∈ built'.2, Legal field

/-- And a header map has room for their names, of which it holds so many at most. -/
def Clean (room : List Bytes → Bool) (agent bs : Bytes) : Prop :=
  AllLegal agent bs ∧ ∀ built' ∈ built agent bs, room (built'.2.map Prod.fst) = true

/-- What is assumed of the builder. -/
def Crates.RefusesIllegal (crates : Crates) : Prop :=
  ∀ status headers, (∃ field ∈ headers, ¬ Legal field) → crates.builds status headers = false

/-- Legal headers are taken as long as the map has room for them. -/
def Crates.TakesLegal (crates : Crates) (room : List Bytes → Bool) : Prop :=
  ∀ status headers, (∀ field ∈ headers, Legal field) →
    crates.builds status headers = room (headers.map Prod.fst)

/-! ## What is read -/

theorem readText_eq (r : BufReader) :
    readText r = match Text.fromUtf8 (Text.cutLine r.content).1 with
      | some line => .ok (line, r.readLine.2)
      | none => .error (.io ⟨.invalidData, "stream did not contain valid UTF-8"⟩) := by
  have hline := r.readLine_spec.1
  cases h : Text.fromUtf8 (Text.cutLine r.content).1 <;> simp [readText, hline, h]

theorem readHeaders_eq (fuel : Nat) (r : BufReader) :
    match headerLines fuel r.content with
    | some lines => ∃ r', readHeaders fuel r = .ok (lines.flatMap headerOf, r')
    | none => ∃ e, readHeaders fuel r = .error e := by
  induction fuel generalizing r with
  | zero => exact ⟨r, rfl⟩
  | succ fuel ih =>
    have hread := readText_eq r
    have hmore := ih r.readLine.2
    rw [r.readLine_spec.2] at hmore
    rw [headerLines]
    cases htext : Text.fromUtf8 (Text.cutLine r.content).1 with
    | none =>
      rw [htext] at hread
      exact ⟨_, readHeaders_error hread⟩
    | some line =>
      rw [htext] at hread
      simp only [Option.bind_eq_bind, Option.bind_some]
      by_cases hempty : Text.trimEnd line = ""
      · rw [if_pos hempty]
        exact ⟨_, readHeaders_empty hread hempty⟩
      · rw [if_neg hempty, readHeaders_line hread hempty]
        revert hmore
        cases headerLines fuel (Text.cutLine r.content).2 with
        | none =>
          intro ⟨e, he⟩
          exact ⟨e, by rw [he]; rfl⟩
        | some lines =>
          intro ⟨r', hr'⟩
          exact ⟨r', by rw [hr']; rfl⟩

theorem respond_eq_panicked {crates : Crates} {status : Nat} {headers : List (Bytes × Bytes)}
    {data : List Bytes} :
    respond crates status headers data = .panicked ↔ crates.builds status headers = false := by
  unfold respond
  by_cases hb : crates.builds status headers = true
  · rw [if_pos hb]
    cases crates.refuses status headers <;> simp [hb]
  · rw [if_neg hb]
    simp [hb]

/-- Only a response that has not been sent is answered with a status. -/
theorem answerClient_respond {crates : Crates} {agent : Bytes} {origin : BufReader} {status : Nat}
    {headers : List (Bytes × Bytes)} {data : List Bytes}
    (h : forwardResponse crates origin = respond crates status headers data) :
    answerClient crates agent origin = respond crates status headers data := by
  rw [answerClient, h]
  unfold respond
  split_ifs
  · cases crates.refuses status headers <;> rfl
  · rfl

/-- The panic is that of the builder. -/
theorem answerClient_eq_panicked (crates : Crates) (agent : Bytes) (origin : BufReader) :
    answerClient crates agent origin = .panicked ↔
      ∃ status headers, built agent origin.content = some (status, headers) ∧
        crates.builds status headers = false := by
  have hread := readText_eq origin
  unfold built
  cases htext : Text.fromUtf8 (Text.cutLine origin.content).1 with
  | none =>
    rw [htext] at hread
    simp [answerClient, forwardResponse, hread]
  | some line =>
    rw [htext] at hread
    simp only [Option.bind_eq_bind, Option.bind_some]
    by_cases hempty : line = ""
    · by_cases hb : crates.builds BAD_GATEWAY (agentHeaders agent) = true
      · simp [answerClient, forwardResponse, hread, hempty, hb]
      · simp [answerClient, forwardResponse, hread, hempty, hb]
    · rw [if_neg hempty]
      have hheaders := readHeaders_eq (origin.readLine.2.content.length + 1) origin.readLine.2
      have hrest := origin.readLine_spec.2
      rw [← hrest]
      revert hheaders
      cases headerLines (origin.readLine.2.content.length + 1) origin.readLine.2.content with
      | none =>
        intro ⟨e, he⟩
        simp [answerClient, forwardResponse, hread, hempty, he]
      | some lines =>
        intro ⟨r', hr'⟩
        have hsent : forwardResponse crates origin =
            respond crates (statusOf line) (lines.flatMap headerOf) r'.rest := by
          simp [forwardResponse, hread, hempty, hr']
        rw [answerClient_respond hsent, respond_eq_panicked]
        simp

/-! ## What the builder takes -/

theorem allLegal_of_survives {crates : Crates} (hillegal : crates.RefusesIllegal) {agent : Bytes}
    {origin : BufReader} (h : answerClient crates agent origin ≠ .panicked) :
    AllLegal agent origin.content := by
  intro built' hbuilt field hfield
  by_contra hbad
  exact h ((answerClient_eq_panicked crates agent origin).mpr
    ⟨built'.1, built'.2, hbuilt, hillegal _ _ ⟨field, hfield, hbad⟩⟩)

/-- If the client is answered or an error returned, no header of the head is illegal; and with
a builder that takes what is legal and has room, this together with the room is enough. -/
theorem forward_request_survives_iff {crates : Crates} (hillegal : crates.RefusesIllegal)
    (agent : Bytes) (origin : BufReader) :
    (answerClient crates agent origin ≠ .panicked → AllLegal agent origin.content) ∧
      ∀ room, crates.TakesLegal room →
        (answerClient crates agent origin ≠ .panicked ↔ Clean room agent origin.content) := by
  refine ⟨allLegal_of_survives hillegal, fun room hlegal => ⟨fun h => ?_, fun h hpanicked => ?_⟩⟩
  · have hall := allLegal_of_survives hillegal h
    refine ⟨hall, fun built' hbuilt => ?_⟩
    by_contra hroom
    rw [Bool.not_eq_true, ← hlegal built'.1 _ (hall built' hbuilt)] at hroom
    exact h ((answerClient_eq_panicked crates agent origin).mpr ⟨built'.1, built'.2, hbuilt, hroom⟩)
  · obtain ⟨status, headers, hbuilt, hrefused⟩ :=
      (answerClient_eq_panicked crates agent origin).mp hpanicked
    rw [hlegal status headers (h.1 _ hbuilt), h.2 _ hbuilt] at hrefused
    cases hrefused

/-- The names that a map of 2¹⁵ places holds before it would have to grow. -/
def spacious (names : List Bytes) : Bool := names.length ≤ 24576

/-- A builder that takes exactly what is legal, as long as there is room. -/
def strict : Crates :=
  { builds := fun _ headers =>
      (headers.all fun field => decide (Legal field)) && spacious (headers.map Prod.fst)
    refuses := fun _ _ => none }

theorem strict_refusesIllegal : strict.RefusesIllegal := by
  intro status headers ⟨field, hfield, hbad⟩
  refine Bool.and_eq_false_imp.mpr fun hall => ?_
  exact absurd (of_decide_eq_true (List.all_eq_true.mp hall field hfield)) hbad

theorem strict_takesLegal : strict.TakesLegal spacious := by
  intro status headers h
  have hall : (headers.all fun field => decide (Legal field)) = true :=
    List.all_eq_true.mpr fun field hfield => decide_eq_true (h field hfield)
  show (_ && _) = _
  rw [hall, Bool.true_and]

theorem forward_request_survives_plain :
    answerClient strict (Text.utf8 "gost/3.0") (.new (onePiece plainReply)) ≠ .panicked := by
  refine ((forward_request_survives_iff strict_refusesIllegal _ _).2 spacious
    strict_takesLegal).mpr ?_
  have hbuilt : built (Text.utf8 "gost/3.0") (BufReader.new (onePiece plainReply)).content =
      some (200, [(Text.utf8 "content-length", Text.utf8 "2")]) := by decide
  constructor <;> intro built' hmem <;> rw [hbuilt] at hmem <;> cases hmem <;> decide

/-- A response with a space in the name of a header. -/
def spacedReply : Bytes := Text.utf8 "HTTP/1.1 200 OK\r\nBad Name: x\r\n\r\n"

/-- The name is refused, and the task panics. -/
theorem forward_request_panics :
    strict.RefusesIllegal ∧
      answerClient strict (Text.utf8 "gost/3.0") (.new [⟨spacedReply, by decide⟩]) = .panicked := by
  refine ⟨strict_refusesIllegal, (answerClient_eq_panicked _ _ _).mpr
    ⟨200, [(Text.utf8 "bad name", Text.utf8 "x")], ?_, ?_⟩⟩
  · decide
  · decide

end Http2
end RtProxy
