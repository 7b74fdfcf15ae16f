/-
The HTTP client and the HTTP server together.  A request that the client can
write out is put to the handlers of the server as it was meant, however it
arrives, and what the client makes of the answer is what the handlers made.
-/
import BohunoPyzord.HttpAnswers
import BohunoPyzord.HttpRequests
import BohunoPyzord.PlainReplies

namespace BohunoPyzord

open LineStream

namespace HttpServer

variable {A : Type} {h : RequestHandlers A} {memory : Uninitialized}
  {phase : Phase} {c : Connection}

/-- The request is put to the handlers as it was written out.  If there is no
answer, they have thrown. -/
theorem Served.of_text (hserved : Served h memory phase c)
    (request : PlainRequest) (hreceived : c.received = request.text) :
    ∃ application application' answer,
      h.answer application request.request (Connection.new memory).reply_ =
        (application', c.reply_, answer) ∧ c.answers = answer.toList ∧
        (answer = none → phase = .thrown) := by
  have hrun := RequestParser.run_text memory.http_version_major
    memory.http_version_minor request
  rw [← hreceived] at hrun
  cases hserved with
  | undecided reads _ _ =>
      have hsame := reads.symm.trans hrun
      cases hsame
  | rejected rest run _ _ =>
      have hsame := run.symm.trans hrun
      cases hsame
  | accepted rest application application' answer run handled answered =>
      have hsame := run.symm.trans hrun
      rw [Prod.mk.injEq, Prod.mk.injEq] at hsame
      rw [hsame.2.1] at handled
      exact ⟨application, application', some answer, handled, answered,
        fun hnone => by cases hnone⟩
  | threw rest application application' ended run handled silent =>
      have hsame := run.symm.trans hrun
      rw [Prod.mk.injEq, Prod.mk.injEq] at hsame
      rw [hsame.2.1] at handled
      exact ⟨application, application', none, handled, silent, fun _ => ended⟩

/-- Nothing is answered before the request is whole. -/
theorem Served.silent_before (hserved : Served h memory phase c)
    (request : PlainRequest) (hreceived : c.received <+: request.text)
    (hne : c.received ≠ request.text) : c.answers = [] := by
  have hnone := (RequestParser.run_before memory.http_version_major
    memory.http_version_minor request hreceived hne).1
  cases hserved with
  | undecided _ _ silent => exact silent
  | rejected rest run _ _ =>
      have hsome := congrArg Prod.fst run
      cases hsome.symm.trans hnone
  | accepted rest application application' answer run handled answered =>
      have hsome := congrArg Prod.fst run
      cases hsome.symm.trans hnone
  | threw _ _ _ _ _ _ silent => exact silent

/-- An answer that the client can read. -/
def Answer.Plain : Answer → Prop
  | .reply rep => rep.Plain
  | .response r => r.Plain

def Answer.content : Answer → Text
  | .reply rep => rep.content
  | .response r => r.content_

/-- What the client is told of an answer of which some content has come. -/
def Answer.outcome (content : Text) : Answer → HttpOutcome
  | .reply rep => .success rep.status.code rep.entries content
  | .response r => .success r.status_.code r.entries content

/-- Such an answer is a message that is read as it is. -/
theorem Answer.Plain.exists_message {answer : Answer} (h : answer.Plain) :
    ∃ message : PlainMessage, message.text = answer.buffers.flatten ∧
      message.content = answer.content ∧
      ∀ content, message.outcome content = answer.outcome content := by
  cases answer with
  | reply rep =>
      have hrep : rep.Plain := h
      exact ⟨hrep.message, hrep.message_text, rfl, hrep.message_outcome⟩
  | response r =>
      have hr : r.Plain := h
      exact ⟨hr.message, hr.message_text, rfl, hr.message_outcome⟩

/-- What the client is told when some of the answer has come. -/
theorem Answer.Plain.httpGet_prefix {answer : Answer} (h : answer.Plain)
    (scheme : Text) {chunks : List (Chunk Char)}
    (hbegin : joined chunks <+: answer.buffers.flatten) :
    (∃ content, content <+: answer.content ∧
      httpGet scheme chunks = answer.outcome content) ∨
    httpGet scheme chunks = .failure := by
  obtain ⟨message, htext, hcontent, houtcome⟩ := h.exists_message
  rw [← htext] at hbegin
  rw [httpGet_eq_readResponse]
  rcases message.readResponse_prefix hbegin with
    ⟨-, hfailure⟩ | ⟨content, hbegins, -, hsuccess⟩
  · exact Or.inr hfailure
  · rw [hcontent] at hbegins
    exact Or.inl ⟨content, hbegins, hsuccess.trans (houtcome content)⟩

/-- And when all of it has. -/
theorem Answer.Plain.httpGet_eq {answer : Answer} (h : answer.Plain)
    (scheme : Text) {chunks : List (Chunk Char)}
    (hjoined : joined chunks = answer.buffers.flatten) :
    httpGet scheme chunks = answer.outcome answer.content := by
  obtain ⟨message, htext, hcontent, houtcome⟩ := h.exists_message
  rw [← htext, PlainMessage.text] at hjoined
  rw [httpGet_eq_readResponse, message.readResponse_head hjoined, houtcome,
    hcontent]

/-- The client is told the status and the headers of an answer and as much of
the content as has come, or that it failed; it does not fail if all has. -/
def ReadsAnswer (answer : Answer) : Prop :=
  ∀ (scheme : Text) (chunks : List (Chunk Char)),
    (joined chunks <+: answer.buffers.flatten →
      (∃ content, content <+: answer.content ∧
        httpGet scheme chunks = answer.outcome content) ∨
      httpGet scheme chunks = .failure) ∧
    (joined chunks = answer.buffers.flatten →
      httpGet scheme chunks = answer.outcome answer.content)

/-- A client whose request has come to a connection is answered once it has
come whole: with what the handlers make of the request, unless these throw,
which ends the server.  If the answer can be read, the client is told what of
it has come. -/
def Exchanges (h : RequestHandlers A) (s : HttpServer A) : Prop :=
  ∀ (c : Nat) (r : ClientRequest) (hr : r.Plain),
    (s.connection c).received <+: r.text.map byte →
    ((s.connection c).received ≠ r.text.map byte →
      (s.connection c).answers = []) ∧
    ((s.connection c).received = r.text.map byte →
      ∃ status application application' result,
        h.answer application hr.request.request ⟨status, [], []⟩ =
          (application', (s.connection c).reply_, result) ∧
        (s.connection c).answers = result.toList ∧
        (result = none → s.phase = .thrown) ∧
        ∀ answer ∈ result, answer.Plain → ReadsAnswer answer)

theorem Answers.exchanges {s : HttpServer A} (ha : s.Answers h) :
    s.Exchanges h := by
  intro c r hr hbegin
  obtain ⟨memory, hserved⟩ := ha.served c
  have htext := hr.request_text
  constructor
  · intro hne
    rw [← htext] at hbegin hne
    exact hserved.silent_before hr.request hbegin hne
  · intro hwhole
    obtain ⟨application, application', result, hresult, hanswers, hthrown⟩ :=
      hserved.of_text hr.request (hwhole.trans htext.symm)
    exact ⟨memory.status, application, application', result, hresult, hanswers,
      hthrown, fun answer _ hplain scheme chunks =>
        ⟨hplain.httpGet_prefix scheme, hplain.httpGet_eq scheme⟩⟩

/-- In every run the server exchanges requests for answers with its clients. -/
theorem always_exchanges (h : RequestHandlers A) (application : A)
    (memory : Uninitialized) (events : List (HttpEvent A)) :
    (httpServerSystem h application memory).Always (Exchanges h) events := by
  apply StepSystem.always_of_invariant _
    (I := fun s => s.Orderly ∧ s.Answers h)
  · exact ⟨orderly_init h application memory,
      answers_init h application memory⟩
  · exact answers_preserved h application memory
  · exact fun s hs => hs.2.exchanges

end HttpServer

end BohunoPyzord
