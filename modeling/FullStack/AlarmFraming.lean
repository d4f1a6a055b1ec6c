import FullStack.AlarmResponse
import FullStack.Lib.JsonLength

/-!
# The framing of the answer to CloudFormation

`sendResponse` declares the length of its body in UTF-16 code units, and the body is written as UTF-8. The
length is never too large, so a body that is not framed is cut (`contentLength_le`). It is right exactly when
what the body quotes is ASCII: the identifiers of the event, the name of the log stream and the text of the
error (`framed_iff`).
-/

namespace FullStack

namespace ModifyAlarm

open Json

/-- What the receiver reads is the body. -/
structure HttpsRequest.Framed (r : HttpsRequest) : Prop where
  contentLength : r.contentLength = r.body.utf8ByteSize
  received : r.body.toUTF8.extract 0 r.contentLength = r.body.toUTF8

theorem framed_responsePut (event : Event) (body : String) :
    (responsePut event body).Framed ↔ jsLength body = body.utf8ByteSize := by
  constructor
  · exact fun h => h.contentLength
  · intro h
    refine ⟨h, ?_⟩
    have hextract : body.toUTF8.extract 0 body.utf8ByteSize = body.toUTF8 := ByteArray.extract_zero_size
    rw [← h] at hextract
    exact hextract

theorem contentLength_le (event : Event) (body : String) :
    (responsePut event body).contentLength ≤ (responsePut event body).body.utf8ByteSize := by
  have hle := unitLength_le body.toList
  rwa [String.ofList_toList] at hle

/-- The strings that the answer quotes are ASCII. -/
structure AsciiAnswer (event : Event) (logStreamName : String) (error : Option String) : Prop where
  stackId : Ascii event.stackId.toList
  requestId : Ascii event.requestId.toList
  logicalResourceId : Ascii event.logicalResourceId.toList
  logStreamName : Ascii logStreamName.toList
  error : ∀ text ∈ error, Ascii text.toList

section
variable (event : Event) (logStreamName : String) (status : ResponseStatus) (error : Option String)

theorem responseBody_length_iff :
    jsLength (responseBody event logStreamName status (error.bind errorData)) =
        (responseBody event logStreamName status (error.bind errorData)).utf8ByteSize ↔
      AsciiAnswer event logStreamName error := by
  -- the words that the body has of its own
  have hown : ∀ word ∈ ["Status", status.text, "Reason", "See the details in CloudWatch Log Stream: ",
      "PhysicalResourceId", "StackId", "RequestId", "LogicalResourceId", "Data", "Error"], Ascii word.toList := by
    cases status <;> decide
  have hquoted : jsLength (responseBody event logStreamName status (error.bind errorData)) =
        (responseBody event logStreamName status (error.bind errorData)).utf8ByteSize ↔
      Ascii logStreamName.toList ∧ Ascii event.stackId.toList ∧ Ascii event.requestId.toList ∧
        Ascii event.logicalResourceId.toList ∧ ∀ text ∈ error, Ascii text.toList := by
    simp only [List.forall_mem_cons] at hown
    refine (stringify_length_iff _).trans ?_
    cases error <;> simp [definedMembers, strings, memberStrings, errorData, hown, String.toList_append]
  rw [hquoted]
  constructor
  · rintro ⟨hlog, hstack, hrequest, hresource, herror⟩
    exact ⟨hstack, hrequest, hresource, hlog, herror⟩
  · intro h
    exact ⟨h.logStreamName, h.stackId, h.requestId, h.logicalResourceId, h.error⟩

theorem responsePut_framed_iff :
    (responsePut event (responseBody event logStreamName status (error.bind errorData))).Framed ↔
      AsciiAnswer event logStreamName error := by
  rw [framed_responsePut, responseBody_length_iff]

/-- The answer is framed exactly when all that it quotes is ASCII. -/
theorem framed_iff (answers : (c : Call) → c.Answer) :
    (∀ r ∈ requests answers (sendResponse event logStreamName status (error.bind errorData)), r.Framed) ↔
      AsciiAnswer event logStreamName error := by
  rw [sendResponse_requests, List.forall_mem_singleton, responsePut_framed_iff]

end

/-- The read of the alarm is refused, in words that quote its name. -/
def refusedRead : (c : Call) → c.Answer
  | .describeAlarms _ => .error ⟨"AccessDenied", "no access to café"⟩
  | .putMetricAlarm _ => .ok ()
  | .publish _ => .ok ()
  | .https _ => .ok 200
  | .callback _ => ()

/-- The error text has one character of two bytes, and the answer to the failed Create lacks its last byte. -/
theorem refusedRead_not_framed :
    let event : Event := ⟨.create, ⟨"cloudformation", "/response"⟩, "stack", "request", "resource"⟩
    ¬ ∀ r ∈ requests refusedRead (handler ⟨"café", "topic", "us-east-1"⟩ event ⟨"log", "now"⟩), r.Framed := by
  intro event h
  rw [handler_eq, requests_call] at h
  have hframed := (responsePut_framed_iff event "log" .failed (some _)).1 (h _ (List.mem_singleton_self _))
  have hascii := hframed.error _ rfl
  revert hascii
  decide

end ModifyAlarm

end FullStack
