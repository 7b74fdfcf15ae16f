/-
An HTTP client and the HTTP server with a connection between them, on which
each side reads what the other has written.  Whatever the server is doing for
its other connections, what the client is told of is the answer that the
handlers made to its own request.
-/
import BohunoPyzord.HttpExchange
import BohunoPyzord.WgetRuns

universe u

namespace BohunoPyzord

open LineStream HttpServer

structure Download (E : Type u) (A : Type) where
  client : WgetClient E
  server : HttpServer A

inductive DownloadEvent (E : Type u) (A : Type) where
  | client (event : WgetEvent E)
  | server (event : HttpEvent A)

namespace Download

variable {E : Type u} {A : Type}

/-- A text can have arrived of these answers.  A response that a function has
filled in is gone when its buffers are written, so anything can. -/
def Carries : List Answer → Text → Prop
  | [], text => text = []
  | .reply rep :: _, text => text <+: rep.toBuffers.flatten
  | .response _ :: _, _ => True

instance : (answers : List Answer) → (text : Text) →
    Decidable (Carries answers text)
  | [], _ => inferInstanceAs (Decidable (_ = _))
  | .reply _ :: _, _ => inferInstanceAs (Decidable (_ <+: _))
  | .response _ :: _, _ => inferInstanceAs (Decidable True)

/-- On the `c`-th connection of the server each side has read the beginning of
what the other has written. -/
def Connected (c : Nat) (s : Download E A) : Prop :=
  (s.server.connection c).received <+: s.client.written.map byte ∧
    Carries (s.server.connection c).answers (joined s.client.arrived)

instance (c : Nat) (s : Download E A) : Decidable (s.Connected c) :=
  inferInstanceAs (Decidable (_ ∧ _))

/-- A step of either side. -/
def advance (h : RequestHandlers A) (s : Download E A) :
    DownloadEvent E A → Option (Download E A)
  | .client event => (s.client.step event).map fun client => { s with client }
  | .server event =>
      (s.server.step h event).map fun server => { s with server }

/-- A step that the connection allows. -/
def step (h : RequestHandlers A) (c : Nat) (s : Download E A)
    (event : DownloadEvent E A) : Option (Download E A) :=
  (s.advance h event).filter fun s => s.Connected c

end Download

/-- The runs of a client that sends the request to the server, where its
connection is the `c`-th. -/
def downloadSystem {E : Type u} {A : Type} (h : RequestHandlers A)
    (application : A) (memory : Uninitialized) (progress_callback_ : Bool)
    (r : ClientRequest) (c : Nat) :
    StepSystem (Download E A) (DownloadEvent E A) where
  init := {
    client := .start false progress_callback_ r.text
    server := (httpServerSystem h application memory).init }
  step := Download.step h c

namespace Download

variable {E : Type u} {A : Type} {h : RequestHandlers A} {application : A}
  {memory : Uninitialized} {progress_callback_ : Bool} {r : ClientRequest}
  {c : Nat} {s s' : Download E A}

theorem step_cases {event : DownloadEvent E A}
    (hstep : s.step h c event = some s') : s'.Connected c ∧
      ((∃ e, s.client.step e = some s'.client ∧ s'.server = s.server) ∨
        ∃ e, s.server.step h e = some s'.server ∧ s'.client = s.client) := by
  obtain ⟨hnext, hguard⟩ := Option.filter_eq_some_iff.mp hstep
  refine ⟨of_decide_eq_true hguard, ?_⟩
  cases event with
  | client e =>
      obtain ⟨client, hclient, rfl⟩ := Option.map_eq_some_iff.mp hnext
      exact Or.inl ⟨e, hclient, rfl⟩
  | server e =>
      obtain ⟨server, hserver, rfl⟩ := Option.map_eq_some_iff.mp hnext
      exact Or.inr ⟨e, hserver, rfl⟩

/-- Both sides are in order, and the connection is. -/
structure Inv (h : RequestHandlers A) (request : Text) (c : Nat)
    (s : Download E A) : Prop where
  client : s.client.Orderly request
  server : s.server.Orderly
  answers : s.server.Answers h
  connected : s.Connected c

theorem inv_init :
    (downloadSystem (E := E) h application memory progress_callback_ r
      c).init.Inv h r.text c where
  client := WgetClient.orderly_start false progress_callback_ r.text
  server := orderly_init h application memory
  answers := answers_init h application memory
  connected := ⟨List.nil_prefix, rfl⟩

theorem inv_step {request : Text} {event : DownloadEvent E A}
    (hs : s.Inv h request c) (hstep : s.step h c event = some s') :
    s'.Inv h request c := by
  obtain ⟨hconnected, ⟨e, hclient, hsame⟩ | ⟨e, hserver, hsame⟩⟩ :=
    step_cases hstep
  · refine ⟨WgetClient.orderly_step hs.client hclient, ?_, ?_, hconnected⟩
    · exact hsame ▸ hs.server
    · exact hsame ▸ hs.answers
  · refine ⟨?_, (orderly_step hserver hs.server).1,
      answers_step hserver hs.server hs.answers, hconnected⟩
    exact hsame ▸ hs.client

/-- If the client succeeds, the server has read its request whole and has put
it to the handlers, once; if these gave a reply that can be read, the client
has the status and the headers of it and the beginning of its content. -/
def Faithful (h : RequestHandlers A) (r : ClientRequest) (c : Nat)
    (s : Download E A) : Prop :=
  ∀ (hr : r.Plain) (status : Nat) (headers : List (Text × Text)) (data : Text),
    .success status headers data ∈ s.client.callbacks →
    (s.server.connection c).received = r.text.map byte ∧
    ∃ stale application application' answer,
      h.answer application hr.request.request ⟨stale, [], []⟩ =
        (application', (s.server.connection c).reply_, some answer) ∧
      (s.server.connection c).answers = [answer] ∧
      ∀ rep, answer = .reply rep → rep.Plain →
        status = rep.status.code ∧ headers = rep.entries ∧
          data <+: rep.content

theorem Inv.faithful (hs : s.Inv h r.text c) : s.Faithful h r c := by
  intro hr status headers data hmem
  have hresponse := (hs.client.told _ hmem).1
  have hsome : joined s.client.arrived ≠ [] := by
    intro hnone
    have hfailure : HttpClient.readResponse s.client.arrived = .failure := by
      cases harrived : s.client.arrived with
      | nil => rfl
      | cons chunk chunks =>
          rw [harrived, joined_cons] at hnone
          exact absurd (List.append_eq_nil_iff.mp hnone).1 chunk.nonempty
    rw [hfailure] at hresponse
    cases hresponse
  obtain ⟨hread, hcarries⟩ := hs.connected
  have hwritten : s.client.written <+: r.text :=
    ⟨s.client.request_, hs.client.written⟩
  obtain ⟨hsilent, hanswered⟩ := hs.answers.exchanges c r hr
    (hread.trans (hwritten.map byte))
  have hwhole : (s.server.connection c).received = r.text.map byte := by
    by_contra hne
    rw [hsilent hne] at hcarries
    exact hsome hcarries
  obtain ⟨stale, application, application', result, hanswer, hanswers, -,
    hreads⟩ := hanswered hwhole
  rw [hanswers] at hcarries
  rcases result with _ | answer
  · exact absurd hcarries hsome
  refine ⟨hwhole, stale, application, application', answer, hanswer, hanswers,
    ?_⟩
  rintro rep rfl hplain
  obtain ⟨hbegins, -⟩ := hreads _ rfl hplain [] s.client.arrived
  rw [httpGet_eq_readResponse, hresponse] at hbegins
  rcases hbegins hcarries with ⟨content, hcontent, hsuccess⟩ | hfailure
  · injection hsuccess with hstatus hheaders hdata
    exact ⟨hstatus, hheaders, hdata ▸ hcontent⟩
  · cases hfailure

/-- In every run a client that succeeds has an answer to its own request. -/
theorem always_faithful (h : RequestHandlers A) (application : A)
    (memory : Uninitialized) (progress_callback_ : Bool) (r : ClientRequest)
    (c : Nat) (events : List (DownloadEvent E A)) :
    (downloadSystem h application memory progress_callback_ r c).Always
      (Faithful h r c) events := by
  apply StepSystem.always_of_invariant _ (I := Inv h r.text c)
  · exact inv_init
  · exact fun hs _ hstep => inv_step hs hstep
  · exact fun s hs => hs.faithful

end Download

end BohunoPyzord
