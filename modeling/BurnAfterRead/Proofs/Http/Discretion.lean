import BurnAfterRead.Proofs.Http.ErrorReport
import BurnAfterRead.Proofs.Json.Records
import BurnAfterRead.Proofs.Text.Digits

/-!
# What a failure does not tell

A failure may carry a text of its own: what the storage engine said, which setting is at fault. Only where
the request itself was at fault is that text for the client. Of any other failure the client learns the
status, and what follows from the status alone, so that failures with one status look the same. Only one
who is turned away by the limiter is told one thing more: how long to wait.
-/

namespace BurnAfterRead

namespace Json

theorem textBody_escaped (cs : List Char) : TextBody (escaped cs) cs := by
  obtain ⟨raw, body, hraw⟩ := readText_eq_ok_iff.1 (readText_escaped cs [])
  rw [List.append_cancel_right hraw]
  exact body

theorem whole_decimal (n : Nat) : Whole (Text.decimal n) := by
  refine ⟨⟨Text.decimal_ne_nil n, fun c => Text.isDigit_of_mem_decimal⟩, ?_⟩
  rintro ⟨hlength, hzero⟩
  rcases Nat.eq_zero_or_pos n with rfl | hpos
  · exact absurd hlength (by decide)
  · exact Text.head?_decimal_ne_zero hpos hzero

/-- A reader who asks for the message finds it behind the status. -/
theorem readRecord_report (status : Nat) (message : String) :
    readRecord ["message"] false
        (writeObject [("statusCode", .number status), ("message", .text message)]) =
      .ok ([("message", some message)], []) := by
  have hblank : Blank [] := List.forall_mem_nil _
  have hstatus : MemberText ["message"] false _ [] :=
    .unknown (textBody_escaped "statusCode".toList) (by decide +kernel) hblank
      (.number (.whole (whole_decimal status) .absent))
  have hmessage : MemberText ["message"] false _
      [(String.ofList "message".toList, some (String.ofList message.toList))] :=
    .known (textBody_escaped "message".toList) (by decide +kernel) hblank
      (.text hblank (textBody_escaped message.toList))
  rw [String.ofList_toList, String.ofList_toList] at hmessage
  refine readRecord_eq_ok_iff.2 ⟨_, .object hblank hblank (.more hstatus hblank hblank
    (.last hmessage hblank)) (List.nodup_singleton _), ?_⟩
  simp [writeObject, writeMembers, Scalar.write, quote]

end Json

namespace Failure

/-- The request was at fault. -/
def IsOfRequest (f : Failure) : Prop := ∃ reason, f = invalidRequest reason

/-- What a client is told of a failure with this status that was not the request's. -/
def standing (status : Nat) : String :=
  if status = 404 then "secret not found"
  else if status = 401 then "invalid passphrase"
  else if status = 429 then "too many requests"
  else "internal server error"

theorem clientMessage_of_not_isOfRequest {f : Failure} (h : ¬f.IsOfRequest) :
    f.clientMessage = standing f.status := by
  cases f with
  | invalidRequest reason => exact absurd ⟨reason, rfl⟩ h
  | _ => rfl

theorem retryAfter?_eq_some_iff {f : Failure} {seconds : Nat} :
    f.retryAfter? = some seconds ↔ f = tooManyRequests seconds := by
  cases f <;> simp [retryAfter?]

end Failure

namespace Http.Response

/-- The response without one of its headers, whatever the case of the name. -/
def withoutHeader (response : Response) (name : String) : Response :=
  { response with headers := response.headers.filter fun h => h.1.toLower != name }

/-- The message that a reader finds in the JSON object of a response. -/
def message? (response : Response) : Option String :=
  match Json.readRecord ["message"] false response.body.toList with
  | .ok (fields, _) => fields.get "message"
  | .error _ => none

/-- The header that tells how long to wait. -/
def waitHeader (f : Failure) : Headers :=
  (f.retryAfter?.map fun seconds => ("retry-after", Crypto.utf8 (toString seconds))).toList

/-- What a failure is answered with, apart from how long to wait, depends on two things only. -/
theorem ofFailure_eq (f : Failure) : ofFailure f =
    { error f.status f.clientMessage with
      headers := (error f.status f.clientMessage).headers ++ waitHeader f } := by
  unfold ofFailure waitHeader
  cases f.retryAfter? with
  | none => rfl
  | some seconds => rfl

theorem message?_error (status : Nat) (message : String) :
    (error status message).message? = some message := by
  have hread := Json.readRecord_report status message
  unfold message? error json
  rw [String.toList_ofList, hread]
  rfl

theorem body_ofFailure (f : Failure) : (ofFailure f).body = (error f.status f.clientMessage).body := by
  rw [ofFailure_eq]

theorem message?_ofFailure (f : Failure) : (ofFailure f).message? = some f.clientMessage := by
  have hmessage := message?_error f.status f.clientMessage
  unfold message? at hmessage ⊢
  rw [body_ofFailure]
  exact hmessage

theorem filter_waitHeader (f : Failure) :
    (waitHeader f).filter (fun h => h.1.toLower != "retry-after") = [] := by
  have hname : ¬("retry-after".toLower != "retry-after") = true := by decide +kernel
  rw [List.filter_eq_nil_iff]
  intro header hmem
  obtain ⟨seconds, -, rfl⟩ := Option.map_eq_some_iff.1 (Option.mem_toList.1 hmem)
  exact hname

theorem filter_headers_error (status : Nat) (message : String) :
    (error status message).headers.filter (fun h => h.1.toLower != "retry-after") =
      (error status message).headers := by
  have hname : ("content-type".toLower != "retry-after") = true := by decide +kernel
  rw [List.filter_eq_self]
  intro header hmem
  rw [List.mem_singleton.1 hmem]
  exact hname

theorem withoutHeader_ofFailure (f : Failure) :
    (ofFailure f).withoutHeader "retry-after" = error f.status f.clientMessage := by
  unfold withoutHeader
  rw [ofFailure_eq]
  dsimp only
  rw [List.filter_append, filter_waitHeader, List.append_nil, filter_headers_error]

theorem get?_ofFailure (f : Failure) :
    (ofFailure f).headers.get? "retry-after" =
      f.retryAfter?.map fun seconds => Crypto.utf8 (toString seconds) := by
  have hother : (error f.status f.clientMessage).headers.get? "retry-after" = none :=
    Headers.get?_singleton_of_ne (by decide +kernel) _
  rw [ofFailure_eq, Headers.get?_append, hother, Option.none_or]
  unfold waitHeader
  cases f.retryAfter? with
  | none => rfl
  | some seconds => exact Headers.get?_singleton (by decide +kernel) _

/-- How long to wait is told to whom the limiter turns away, and to no one else. -/
theorem get?_ofFailure_eq_some_iff (f : Failure) (value : HeaderValue) :
    (ofFailure f).headers.get? "retry-after" = some value ↔
      ∃ seconds, f = .tooManyRequests seconds ∧ value = Crypto.utf8 (toString seconds) := by
  rw [get?_ofFailure, Option.map_eq_some_iff]
  constructor
  · rintro ⟨seconds, hwait, rfl⟩
    exact ⟨seconds, Failure.retryAfter?_eq_some_iff.1 hwait, rfl⟩
  · rintro ⟨seconds, hwait, rfl⟩
    exact ⟨seconds, Failure.retryAfter?_eq_some_iff.2 hwait, rfl⟩

/-- Two failures that were not the request's look the same if they have the same status. -/
theorem error_eq_of_status_eq {f g : Failure} (hf : ¬f.IsOfRequest) (hg : ¬g.IsOfRequest)
    (hstatus : f.status = g.status) : error f.status f.clientMessage = error g.status g.clientMessage := by
  rw [Failure.clientMessage_of_not_isOfRequest hf, Failure.clientMessage_of_not_isOfRequest hg, hstatus]

/-- Of two failures that were not the request's, a client who gets the same status gets the same response,
whatever they carry; only the time to wait may differ, and only the limiter's refusal has one. Every failure
is answered with its status, in the body too, and with a message. Only a failure of the request has a message
with its own text; any other's follows from the status. -/
theorem internals_unseen :
    (∀ f g : Failure, ¬f.IsOfRequest → ¬g.IsOfRequest → f.status = g.status →
      (ofFailure f).withoutHeader "retry-after" = (ofFailure g).withoutHeader "retry-after" ∧
        (f.retryAfter? = g.retryAfter? → ofFailure f = ofFailure g)) ∧
    ∀ f : Failure,
      (∀ value, (ofFailure f).headers.get? "retry-after" = some value ↔
        ∃ seconds, f = .tooManyRequests seconds ∧ value = Crypto.utf8 (toString seconds)) ∧
      (ofFailure f).status = f.status ∧
      (∃ message, (ofFailure f).message? = some message ∧
        (ofFailure f).body = String.ofList (Json.writeObject
          [("statusCode", .number (ofFailure f).status), ("message", .text message)])) ∧
      (∀ reason, f = .invalidRequest reason →
        (ofFailure f).message? = some ("invalid request: " ++ reason)) ∧
      (¬f.IsOfRequest → (ofFailure f).message? = some (Failure.standing f.status)) := by
  constructor
  · intro f g hf hg hstatus
    have hsame := error_eq_of_status_eq hf hg hstatus
    refine ⟨by rw [withoutHeader_ofFailure, withoutHeader_ofFailure, hsame], ?_⟩
    intro hwait
    rw [ofFailure_eq, ofFailure_eq, hsame, waitHeader, waitHeader, hwait]
  · intro f
    have hmessage := message?_ofFailure f
    refine ⟨get?_ofFailure_eq_some_iff f, status_ofFailure f, ⟨f.clientMessage, hmessage, ?_⟩, ?_, ?_⟩
    · rw [body_ofFailure, status_ofFailure]
      rfl
    · rintro reason rfl
      exact hmessage
    · intro hf
      rw [hmessage, Failure.clientMessage_of_not_isOfRequest hf]

/-- What the storage engine said of itself is not seen: the response is that of a call that took too long. -/
theorem internals_unseen_of_storage :
    let refused : Failure := .storageUnavailable "connection refused at 10.0.0.3"
    ofFailure refused = ofFailure .timeout ∧ (ofFailure refused).message? = some "internal server error" := by
  intro refused
  have hrefused : ¬refused.IsOfRequest := fun ⟨_, h⟩ => Failure.noConfusion h
  have htimeout : ¬Failure.timeout.IsOfRequest := fun ⟨_, h⟩ => Failure.noConfusion h
  obtain ⟨-, -, -, -, hmessage⟩ := internals_unseen.2 refused
  exact ⟨(internals_unseen.1 refused .timeout hrefused htimeout rfl).2 rfl, hmessage hrefused⟩

end Http.Response

end BurnAfterRead
