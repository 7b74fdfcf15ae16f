/-
The HTTP interface as it is served.  The server puts each request to it once,
so that what is posted to the master is what the connections have asked for,
one after another, each of them once.
-/
import BohunoPyzord.HttpAnswers
import BohunoPyzord.HttpApi

namespace BohunoPyzord

namespace HttpServer

variable {A : Type}

/-- What the parser makes of all that a connection has read. -/
def Connection.Decided (connection : Connection) (memory : Uninitialized)
    (accepts : Bool) : Prop :=
  ∃ rest, requestParser.run (Connection.new memory).request_parser_
    connection.received = (some accepts, connection.request_parser_, rest)

/-- A step that answers nothing: what has answered stays as it is, nothing
else has, and the application stays too, unless the handlers have thrown. -/
structure AnswersNone (h : RequestHandlers A) (s s' : HttpServer A) : Prop where
  answered : ∀ c, (s.connection c).answers ≠ [] →
    s'.connection c = s.connection c
  silent : ∀ c, (s.connection c).answers = [] → (s'.connection c).answers = []
  application : s'.application = s.application ∨
    ∃ (memory : Uninitialized) (req : HttpRequest) (reply_ : Reply),
      h.answer s.application req (Connection.new memory).reply_ =
        (s'.application, reply_, none)

/-- A step in which connection `c` answers: the request was rejected, or it
was put to the handlers. -/
structure AnswersAt (h : RequestHandlers A) (s s' : HttpServer A) (c : Nat) :
    Prop where
  accepted : c < s'.new_connection_
  silent : (s.connection c).answers = []
  others : ∀ other, other ≠ c → s'.connection other = s.connection other
  handled : ∃ memory,
    ((s'.connection c).Decided memory false ∧
      (s'.connection c).answers = [.reply (Reply.stockReply .badRequest)] ∧
      s'.application = s.application) ∨
    ((s'.connection c).Decided memory true ∧ ∃ reply_ answer,
      (s'.connection c).answers = [answer] ∧
      h.answer s.application (s'.connection c).request_parser_.req
        (Connection.new memory).reply_ =
          (s'.application, reply_, some answer))

/-- The connections that a step answers. -/
def answeredIn (s s' : HttpServer A) : List Nat :=
  (List.range s'.new_connection_).filter fun c =>
    (s.connection c).answers.isEmpty && !(s'.connection c).answers.isEmpty

variable {h : RequestHandlers A} {s s' : HttpServer A} {c : Nat}

theorem answeredIn_eq_nil
    (hsilent : ∀ c, (s.connection c).answers = [] →
      (s'.connection c).answers = []) : answeredIn s s' = [] := by
  apply List.filter_eq_nil_iff.mpr
  intro c _ hc
  rw [Bool.and_eq_true, List.isEmpty_iff, Bool.not_eq_true',
    List.isEmpty_eq_false_iff] at hc
  exact hc.2 (hsilent c hc.1)

theorem AnswersAt.answers_ne_nil (hat : AnswersAt h s s' c) :
    (s'.connection c).answers ≠ [] := by
  obtain ⟨memory, ⟨-, hanswers, -⟩ | ⟨-, reply_, answer, hanswers, -⟩⟩ :=
    hat.handled
  · rw [hanswers]
    exact List.cons_ne_nil _ _
  · rw [hanswers]
    exact List.cons_ne_nil _ _

theorem AnswersAt.answeredIn_eq (hat : AnswersAt h s s' c) :
    answeredIn s s' = [c] := by
  have honly : ∀ other ∈ List.range s'.new_connection_,
      ((s.connection other).answers.isEmpty &&
        !(s'.connection other).answers.isEmpty) = decide (other = c) := by
    intro other _
    by_cases hother : other = c
    · subst hother
      simp [hat.silent, hat.answers_ne_nil]
    · rw [hat.others other hother, Bool.and_not_self]
      exact (decide_eq_false hother).symm
  rw [answeredIn, List.filter_congr honly, List.filter_eq,
    List.count_eq_one_of_mem List.nodup_range (List.mem_range.mpr hat.accepted)]
  rfl

theorem AnswersNone.of_connection (hconnection : s'.connection = s.connection)
    (happlication : s'.application = s.application) : AnswersNone h s s' where
  answered c _ := by rw [hconnection]
  silent c hc := by rw [hconnection, hc]
  application := Or.inl happlication

/-- One connection without an answer becomes another one. -/
theorem AnswersNone.setConnection (connection : Connection)
    (hsilent : (s.connection c).answers = []) (hstill : connection.answers = [])
    (hconnection : s'.connection =
      Function.update s.connection c connection)
    (happlication : s'.application = s.application ∨
      ∃ (memory : Uninitialized) (req : HttpRequest) (reply_ : Reply),
        h.answer s.application req (Connection.new memory).reply_ =
          (s'.application, reply_, none)) : AnswersNone h s s' where
  answered other hother := by
    rw [hconnection, Function.update_of_ne]
    rintro rfl
    exact hother hsilent
  silent other hother := by
    rw [hconnection, Function.update_apply]
    split_ifs
    · exact hstill
    · exact hother
  application := happlication

theorem handleRead_cases {result : ReadResult} (ha : s.Answers h)
    (hrunning : s.phase = .running) (haccepted : c < s.new_connection_)
    (hsilent : (s.connection c).answers = []) :
    AnswersNone h s (s.handleRead h c result) ∨
      AnswersAt h s (s.handleRead h c result) c := by
  obtain ⟨memory, hserved⟩ := ha.served c
  rw [hrunning] at hserved
  obtain ⟨hreads, hreply⟩ := hserved.reads hsilent
  cases result with
  | aborted => exact Or.inl (.of_connection rfl rfl)
  | error => exact Or.inl (.of_connection rfl rfl)
  | bytes bytes =>
      have hrun := hreads.run_append bytes
      rcases hresult : requestParser.run (s.connection c).request_parser_ bytes
        with ⟨decision, parser, rest⟩
      rw [hresult] at hrun
      simp only [handleRead, hresult]
      have hself : ∀ connection : Connection,
          Function.update s.connection c connection c = connection :=
        fun connection => Function.update_self c connection s.connection
      have hothers : ∀ (connection : Connection) other, other ≠ c →
          Function.update s.connection c connection other =
            s.connection other := fun connection other hother =>
        Function.update_of_ne hother connection s.connection
      cases decision with
      | none =>
          exact Or.inl (.setConnection
            { s.connection c with
              request_parser_ := parser
              received := (s.connection c).received ++ bytes }
            hsilent hsilent rfl (Or.inl rfl))
      | some accepts =>
          cases accepts with
          | false =>
              right
              refine ⟨haccepted, hsilent, hothers _, memory,
                Or.inl ⟨⟨rest, ?_⟩, ?_, rfl⟩⟩
              · change requestParser.run _
                  (Function.update s.connection c _ c).received = (_,
                    (Function.update s.connection c _ c).request_parser_, _)
                rw [hself]
                exact hrun
              · change (Function.update s.connection c _ c).answers = _
                rw [hself, hsilent]
                rfl
          | true =>
              simp only [hreply]
              split
              · rename_i application reply_ answer hanswer
                right
                refine ⟨haccepted, hsilent, hothers _, memory, Or.inr
                  ⟨⟨rest, ?_⟩, reply_, answer, ?_, ?_⟩⟩
                · change requestParser.run _
                    (Function.update s.connection c _ c).received = (_,
                      (Function.update s.connection c _ c).request_parser_, _)
                  rw [hself]
                  exact hrun
                · change (Function.update s.connection c _ c).answers = _
                  rw [hself, hsilent]
                  rfl
                · change h.answer s.application
                    (Function.update s.connection c _ c).request_parser_.req
                      _ = _
                  rw [hself]
                  exact hanswer
              · rename_i application reply_ hanswer
                exact Or.inl (.setConnection
                  { s.connection c with
                    request_parser_ := parser, reply_
                    received := (s.connection c).received ++ bytes }
                  hsilent hsilent rfl (Or.inr ⟨memory, _, reply_, hanswer⟩))

/-- What a step of the server answers. -/
theorem step_answersAt {event : HttpEvent A}
    (hstep : s.step h event = some s') (ho : s.Orderly) (ha : s.Answers h) :
    AnswersNone h s s' ∨ (∃ c, AnswersAt h s s' c) ∨
      ∃ a, event = .application a ∧ s' = { s with application := a } := by
  unfold step at hstep
  split_ifs at hstep with hrunning
  have hmanaged := ho.1 hrunning
  rcases perform_cases hstep with ⟨i, io, rfl, hio, rfl⟩ | ⟨rfl, rfl⟩ |
    ⟨a, rfl, rfl⟩ | ⟨i, op, io, hplace, htake, hhandle⟩
  · exact Or.inl (.of_connection rfl rfl)
  · exact Or.inl (.of_connection rfl rfl)
  · exact Or.inr (Or.inr ⟨a, rfl, rfl⟩)
  · have htaken : { s with io }.Answers h :=
      ha.mono hrunning rfl rfl fun kind hwaits => hwaits.of_take htake
    have hprogress := (hmanaged.alive.take htake).1
    cases event with
    | handleAccept j error memory =>
        simp only [handle] at hhandle
        cases hkind : op.kind with
        | accept c =>
            simp only [hkind, Option.some.injEq] at hhandle
            subst hhandle
            left
            unfold handleAccept
            split_ifs
            · exact .setConnection (.new memory)
                (ha.silent (s.new_connection_ + 1) (Or.inr (by omega)))
                rfl rfl (Or.inl rfl)
            · exact .of_connection rfl rfl
        | read c => simp [hkind] at hhandle
        | write c => simp [hkind] at hhandle
    | handleRead j read =>
        simp only [handle] at hhandle
        cases hkind : op.kind with
        | read c =>
            obtain ⟨hlacks, -⟩ := hmanaged.lacks htake
              (show op.kind.serves = some c by rw [hkind]; rfl)
            have haccepted : c < s.new_connection_ :=
              (hmanaged.accepted c).mpr (Or.inl hlacks.mem)
            have hwaits := hkind ▸ IoService.Waits.taken htake
            simp only [hkind, if_neg hprogress] at hhandle
            split_ifs at hhandle
            obtain rfl := Option.some.inj hhandle
            rcases handleRead_cases htaken hrunning haccepted
                (ha.silent c (Or.inl hwaits)) with hnone | hat
            · exact Or.inl ⟨hnone.answered, hnone.silent, hnone.application⟩
            · exact Or.inr (Or.inl ⟨c, hat.accepted, hat.silent, hat.others,
                hat.handled⟩)
        | accept c => simp [hkind] at hhandle
        | write c => simp [hkind] at hhandle
    | handleWrite j =>
        simp only [handle] at hhandle
        cases hkind : op.kind with
        | write c =>
            simp only [hkind, Option.some.injEq] at hhandle
            subst hhandle
            left
            unfold handleWrite
            split_ifs
            · exact .of_connection rfl rfl
            · exact .of_connection rfl rfl
        | accept c => simp [hkind] at hhandle
        | read c => simp [hkind] at hhandle
    | complete j => cases hhandle
    | handleStop => cases hhandle
    | application a => cases hhandle

end HttpServer

namespace HttpApi

/-- The parameters that a request is dispatched with. -/
def dispatched (uri : Text) : Option Parameters :=
  if "/api?".toList.isPrefixOf uri then
    (parseQuery (uri.drop 5)).filter fun parameters =>
      parameterErrors parameters = []
  else none

/-- The hash that a request gets the record of. -/
def gets (uri : Text) : Option Text :=
  (dispatched uri).bind fun parameters =>
    if parameters.get "Action".toList = "Get".toList then
      some (parameters.get "Hash".toList)
    else none

/-- The update that an action is for. -/
def actionType (action : Text) : Option UpdateType :=
  if action = "Report".toList then some .report
  else if action = "Whitelist".toList then some .whitelist
  else if action = "Delete".toList then some .erase
  else none

/-- The update that a request asks for, and the hash as it is written. -/
def requested (uri : Text) : Option (UpdateType × Text) :=
  (dispatched uri).bind fun parameters =>
    (actionType (parameters.get "Action".toList)).map fun type =>
      (type, parameters.get "Hash".toList)

/-- The updates that a request posts. -/
def updatesFor (junk : Hash) (now : Nat) (uri : Text) : List Update :=
  ((requested uri).map fun asked =>
    Update.make (Hash.construct junk asked.2) asked.1
      (BitVec.ofNat 32 now)).toList

/-- A content that starts in another way is not that of the nil reply. -/
theorem content_ne_nilReply (start rest : Text)
    (hstart : start ≠ nilReply.content.take start.length) :
    start ++ rest ≠ nilReply.content := by
  intro hsame
  apply hstart
  rw [← hsame, List.take_left]

theorem stockReply_content_ne :
    HttpReply.stockReply.content ≠ nilReply.content :=
  content_ne_nilReply ['<'] _ (by decide)

theorem errorReply_content_ne (errors : List ApiError) :
    (errorReply errors).content ≠ nilReply.content := by
  change "\x7b \n  \"Errors\": [\n".toList ++ jsonElements errors ++
    "\n  ]\n\x7d\n".toList ≠ nilReply.content
  rw [List.append_assoc]
  exact content_ne_nilReply _ _ (by decide)

theorem handleGet_content_ne (stored : Database) {rep : HttpReply}
    (hempty : rep.content = []) (parameters : Parameters) :
    (handleGet stored rep parameters).content ≠ nilReply.content := by
  simp only [handleGet, HttpReply.setHeaders, hempty, List.nil_append,
    List.append_assoc]
  exact content_ne_nilReply _ _ (by decide)

/-- A request that is not dispatched posts nothing. -/
theorem handleRequest_of_none (stored : Database) (junk : Hash) (now : Nat)
    {uri : Text} {rep : HttpReply} (hempty : rep.content = [])
    (hnone : dispatched uri = none) :
    let r := handleRequest stored junk now uri rep
    r.2.2 = [] ∧ r.2.1.content ≠ nilReply.content := by
  rw [dispatched] at hnone
  split_ifs at hnone with hours
  · cases hquery : parseQuery (uri.drop 5) with
    | none =>
        simp only [handleRequest, hours, hquery]
        exact ⟨rfl, stockReply_content_ne⟩
    | some parameters =>
        have herrors : parameterErrors parameters ≠ [] := by
          simpa [hquery, Option.filter] using hnone
        simp only [handleRequest, hours, hquery, if_pos herrors]
        exact ⟨rfl, errorReply_content_ne _⟩
  · simp only [handleRequest, hours]
    refine ⟨rfl, ?_⟩
    change rep.content ≠ nilReply.content
    rw [hempty]
    decide

theorem handleRequest_of_some (stored : Database) (junk : Hash) (now : Nat)
    {uri : Text} (rep : HttpReply) {parameters : Parameters}
    (hsome : dispatched uri = some parameters) :
    handleRequest stored junk now uri rep =
      let action := parameters.get "Action".toList
      if action = "Get".toList then (true, handleGet stored rep parameters, [])
      else
        match actionType action with
        | some type => (true, handleUpdate type junk now parameters)
        | none => (true, errorReply [⟨"InvalidAction".toList,
            "The action specified is invalid.".toList⟩], []) := by
  rw [dispatched] at hsome
  split_ifs at hsome with hours
  obtain ⟨hquery, herrors⟩ := Option.filter_eq_some_iff.mp hsome
  have herrors := of_decide_eq_true herrors
  simp only [handleRequest, hours, hquery, herrors, actionType, Bool.not_true,
    Bool.false_eq_true, if_false, ne_eq, not_true_eq_false]
  split_ifs <;> rfl

/-- What `handle_request` does, by what the request asks for. -/
theorem handleRequest_cases (stored : Database) (junk : Hash) (now : Nat)
    (uri : Text) (rep : HttpReply) (hempty : rep.content = []) :
    let r := handleRequest stored junk now uri rep
    r.2.2 = updatesFor junk now uri ∧
      ((requested uri).isSome = true → gets uri = none ∧ r.1 = true ∧
        r.2.1 = nilReply) ∧
      (requested uri = none → r.2.1.content ≠ nilReply.content) := by
  cases hdispatched : dispatched uri with
  | none =>
      obtain ⟨hnone, hother⟩ :=
        handleRequest_of_none stored junk now hempty hdispatched
      have hrequested : requested uri = none := by
        rw [requested, hdispatched]
        rfl
      refine ⟨?_, fun h => ?_, fun _ => hother⟩
      · rw [hnone, updatesFor, hrequested]
        rfl
      · rw [hrequested] at h
        cases h
  | some parameters =>
      rw [handleRequest_of_some stored junk now rep hdispatched]
      simp only [updatesFor, requested, gets, hdispatched, Option.bind_some]
      split_ifs with hget
      · have hno : actionType (parameters.get "Action".toList) = none := by
          rw [hget]
          decide
        rw [hno]
        refine ⟨rfl, fun h => ?_, fun _ => ?_⟩
        · exact absurd h Bool.false_ne_true
        · exact handleGet_content_ne stored hempty parameters
      · cases actionType (parameters.get "Action".toList) with
        | none =>
            refine ⟨rfl, fun h => ?_, fun _ => ?_⟩
            · exact absurd h Bool.false_ne_true
            · exact errorReply_content_ne _
        | some type =>
            refine ⟨rfl, fun _ => ⟨rfl, rfl, rfl⟩, fun h => ?_⟩
            exact absurd h (Option.some_ne_none _)

end HttpApi

/-- What the handler of the interface works on: the database and whether it
can be read, what the memory of a hash holds, the clock, and the updates that
were posted. -/
structure ApiState where
  stored : Database
  readable : Bool
  junk : Hash
  now : Nat
  posted : List Update

namespace HttpServer

open HttpApi

def uriText (req : HttpRequest) : Text :=
  req.uri.map fun b => Char.ofNat b.toNat

/-- `api_request_handler::handle_request`.  A record is appended to the reply
as it is, under whatever status that has; the database is read before. -/
def apiHandler (a : ApiState) (req : HttpRequest) (rep : Reply) :
    ApiState × Reply × Option Bool :=
  let (handled, res, updates) := handleRequest a.stored a.junk a.now
    (uriText req) ⟨.ok, rep.headers, rep.content⟩
  let a := { a with posted := a.posted ++ updates }
  match gets (uriText req) with
  | some hash =>
      if !a.readable ∧ (decodeSignature hash).isSome then (a, rep, none)
      else (a, { res.toReply with status := rep.status }, some true)
  | none => (a, if handled then res.toReply else rep, some handled)

/-- What `pyzord_api_main` adds to the server. -/
def apiHandlers : RequestHandlers ApiState where
  functions _ := none
  handlers := [apiHandler]

theorem toReply_ne_nilReply {rep : HttpReply}
    (hcontent : rep.content ≠ nilReply.content) (status : StatusCode) :
    { rep.toReply with status } ≠ nilReply.toReply :=
  fun hsame => hcontent (congrArg Reply.content hsame)

/-- What the handler makes of a request. -/
theorem apiHandler_cases (a : ApiState) (req : HttpRequest) {rep : Reply}
    (hempty : rep.content = []) :
    (apiHandler a req rep).1.posted =
        a.posted ++ updatesFor a.junk a.now (uriText req) ∧
      ((requested (uriText req)).isSome = true →
        (apiHandler a req rep).2 = (nilReply.toReply, some true)) ∧
      (requested (uriText req) = none → ∀ rep',
        (apiHandler a req rep).2 = (rep', some true) →
          rep' ≠ nilReply.toReply) := by
  have hcases := handleRequest_cases a.stored a.junk a.now (uriText req)
    ⟨.ok, rep.headers, rep.content⟩ hempty
  rcases hr : handleRequest a.stored a.junk a.now (uriText req)
    ⟨.ok, rep.headers, rep.content⟩ with ⟨handled, res, updates⟩
  simp only [hr] at hcases
  obtain ⟨rfl, hasked, hother⟩ := hcases
  simp only [apiHandler, hr]
  split
  · rename_i hash hgets
    have hnone : requested (uriText req) = none := by
      rw [← Option.not_isSome_iff_eq_none]
      intro hsome
      rw [(hasked hsome).1] at hgets
      cases hgets
    split_ifs
    · refine ⟨rfl, fun h => ?_, fun _ rep' h => ?_⟩
      · rw [hnone] at h
        cases h
      · cases (Prod.mk.inj h).2
    · refine ⟨rfl, fun h => ?_, fun _ rep' h => ?_⟩
      · rw [hnone] at h
        cases h
      · obtain ⟨rfl, -⟩ := Prod.mk.inj h
        exact toReply_ne_nilReply (hother hnone) _
  · refine ⟨rfl, fun h => ?_, fun hnone rep' h => ?_⟩
    · obtain ⟨-, rfl, rfl⟩ := hasked h
      rfl
    · obtain ⟨rfl, hhandled⟩ := Prod.mk.inj h
      rw [if_pos (Option.some.inj hhandled)]
      exact toReply_ne_nilReply (hother hnone) _

/-- What a request that was put to the interface has posted.  If its handler
throws it has asked for nothing, and otherwise the answer says whether it has
asked for an update. -/
theorem apiHandlers_answer {a a' : ApiState} {req : HttpRequest}
    {reply_ reply_' : Reply} {result : Option Answer}
    (hempty : reply_.content = [])
    (hanswer : apiHandlers.answer a req reply_ = (a', reply_', result)) :
    a'.posted = a.posted ++ updatesFor a.junk a.now (uriText req) ∧
      ((requested (uriText req)).isSome = true ↔
        result = some (.reply nilReply.toReply)) := by
  obtain ⟨hposted, hasked, hother⟩ := apiHandler_cases a req hempty
  rcases hhandler : apiHandler a req reply_ with ⟨a₁, rep, handled⟩
  rw [hhandler] at hposted hasked hother
  simp only [RequestHandlers.answer, apiHandlers,
    RequestHandlers.handleRequest, hhandler] at hanswer
  rcases handled with _ | _ | _
  · simp only [Prod.mk.injEq] at hanswer
    obtain ⟨rfl, -, rfl⟩ := hanswer
    refine ⟨hposted, iff_of_false (fun h => ?_) fun h => by cases h⟩
    cases (Prod.mk.inj (hasked h)).2
  · simp only [Bool.false_eq_true, if_false, Prod.mk.injEq] at hanswer
    obtain ⟨rfl, -, rfl⟩ := hanswer
    refine ⟨hposted, iff_of_false (fun h => ?_) fun h => ?_⟩
    · cases (Prod.mk.inj (hasked h)).2
    · exact absurd (Answer.reply.inj (Option.some.inj h)) (by decide)
  · simp only [if_true, Prod.mk.injEq] at hanswer
    obtain ⟨rfl, -, rfl⟩ := hanswer
    refine ⟨hposted, fun h => ?_, fun h => ?_⟩
    · rw [(Prod.mk.inj (hasked h)).1]
    · by_contra hnone
      rw [Option.not_isSome_iff_eq_none] at hnone
      exact hother hnone rep rfl (Answer.reply.inj (Option.some.inj h))

/-- What an event is for the interface: nothing but its handler posts. -/
def withPosted (posted : List Update) :
    HttpEvent ApiState → HttpEvent ApiState
  | .application a => .application { a with posted }
  | event => event

/-- The server, and the connections that it has answered, in the order in
which it has. -/
structure ApiRun where
  server : HttpServer ApiState
  answered : List Nat

/-- `pyzord_api_main`. -/
def apiServer (application : ApiState) (memory : Uninitialized) :
    StepSystem ApiRun (HttpEvent ApiState) where
  init :=
    { server := (httpServerSystem apiHandlers application memory).init
      answered := [] }
  step s event :=
    (s.server.step apiHandlers
      (withPosted s.server.application.posted event)).map fun server =>
        { server, answered := s.answered ++ answeredIn s.server server }

/-- What a connection has asked for by all that it has sent. -/
inductive Asked (connection : Connection) : List Update → Prop where
  | rejected (memory : Uninitialized)
      (decided : connection.Decided memory false) : Asked connection []
  | accepted (memory : Uninitialized) (junk : Hash) (now : Nat)
      (decided : connection.Decided memory true) :
      Asked connection
        (updatesFor junk now (uriText connection.request_parser_.req))

/-- The updates that were posted are those of the connections that were
answered, one connection after the other, each of them once; `updates` says
which are whose, and the answer of a connection says whether it has any. -/
structure PostsOnce (posted : List Update) (updates : Nat → List Update)
    (s : ApiRun) : Prop where
  once : s.answered.Nodup
  answered : ∀ c, c ∈ s.answered ↔ (s.server.connection c).answers ≠ []
  posted : s.server.application.posted =
    posted ++ s.answered.flatMap updates
  asked : ∀ c ∈ s.answered, Asked (s.server.connection c) (updates c)
  told : ∀ c ∈ s.answered, updates c ≠ [] ↔
    (s.server.connection c).answers = [.reply nilReply.toReply]

variable {posted : List Update} {updates : Nat → List Update} {s : ApiRun}
  {server : HttpServer ApiState} {c : Nat}

/-- Nothing is answered and nothing is posted. -/
theorem PostsOnce.of_none (h : PostsOnce posted updates s)
    (hanswered : ∀ c, (s.server.connection c).answers ≠ [] →
      server.connection c = s.server.connection c)
    (hsilent : ∀ c, (s.server.connection c).answers = [] →
      (server.connection c).answers = [])
    (hposted : server.application.posted = s.server.application.posted) :
    PostsOnce posted updates
      { server, answered := s.answered ++ answeredIn s.server server } := by
  have hsame : ∀ c ∈ s.answered, server.connection c = s.server.connection c :=
    fun c hc => hanswered c ((h.answered c).mp hc)
  rw [answeredIn_eq_nil hsilent, List.append_nil]
  refine ⟨h.once, fun c => ?_, hposted.trans h.posted, fun c hc => ?_,
    fun c hc => ?_⟩
  · change c ∈ s.answered ↔ (server.connection c).answers ≠ []
    rw [h.answered c]
    by_cases hc : (s.server.connection c).answers = []
    · rw [hc, hsilent c hc]
    · rw [hanswered c hc]
  · change Asked (server.connection c) _
    rw [hsame c hc]
    exact h.asked c hc
  · change _ ↔ (server.connection c).answers = _
    rw [hsame c hc]
    exact h.told c hc

theorem updatesFor_ne_nil {junk : Hash} {now : Nat} {uri : Text} :
    updatesFor junk now uri ≠ [] ↔ (requested uri).isSome = true := by
  rw [updatesFor]
  cases requested uri <;> simp

/-- What a connection has asked for is posted as it is answered. -/
theorem AnswersAt.posts {s : HttpServer ApiState}
    (hat : AnswersAt apiHandlers s server c) :
    ∃ asked, server.application.posted = s.application.posted ++ asked ∧
      Asked (server.connection c) asked ∧
      (asked ≠ [] ↔
        (server.connection c).answers = [.reply nilReply.toReply]) := by
  obtain ⟨memory, ⟨hdecided, hanswers, happlication⟩ |
    ⟨hdecided, reply_, answer, hanswers, hanswer⟩⟩ := hat.handled
  · refine ⟨[], ?_, .rejected memory hdecided, ?_⟩
    · rw [happlication, List.append_nil]
    · rw [hanswers]
      decide
  · obtain ⟨hposted, htold⟩ := apiHandlers_answer rfl hanswer
    refine ⟨_, hposted, .accepted memory _ _ hdecided, ?_⟩
    rw [updatesFor_ne_nil, htold, hanswers, List.cons.injEq,
      Option.some.injEq]
    exact (and_iff_left rfl).symm

/-- A connection is answered and what it has asked for is posted. -/
theorem PostsOnce.of_answersAt (h : PostsOnce posted updates s)
    (hat : AnswersAt apiHandlers s.server server c) :
    ∃ updates', PostsOnce posted updates'
      { server, answered := s.answered ++ answeredIn s.server server } := by
  have hnew : c ∉ s.answered := fun hmem => (h.answered c).mp hmem hat.silent
  have hne : ∀ other ∈ s.answered, other ≠ c := fun other hother hc =>
    hnew (hc ▸ hother)
  obtain ⟨asked, hposted, hasked, htold⟩ := hat.posts
  have hself : Function.update updates c asked c = asked :=
    Function.update_self c asked updates
  have hothers : ∀ other ∈ s.answered,
      Function.update updates c asked other = updates other ∧
        server.connection other = s.server.connection other :=
    fun other hother => ⟨Function.update_of_ne (hne other hother) _ _,
      hat.others other (hne other hother)⟩
  rw [hat.answeredIn_eq]
  refine ⟨Function.update updates c asked, ?_, fun other => ?_, ?_,
    fun other hother => ?_, fun other hother => ?_⟩
  · exact h.once.append (List.nodup_singleton _)
      (List.disjoint_singleton.mpr hnew)
  · change other ∈ s.answered ++ [c] ↔ (server.connection other).answers ≠ []
    rw [List.mem_append, List.mem_singleton]
    by_cases hc : other = c
    · subst hc
      exact iff_of_true (Or.inr rfl) hat.answers_ne_nil
    · rw [hat.others other hc, or_iff_left hc]
      exact h.answered other
  · change server.application.posted = posted ++ (s.answered ++ [c]).flatMap _
    have hold : s.answered.flatMap (Function.update updates c asked) =
        s.answered.flatMap updates :=
      List.flatMap_congr fun other hother => (hothers other hother).1
    rw [hposted, h.posted, List.flatMap_append, hold, List.flatMap_singleton,
      hself, List.append_assoc]
  · rcases List.mem_append.mp hother with hold | hlast
    · change Asked (server.connection other) _
      rw [(hothers other hold).1, (hothers other hold).2]
      exact h.asked other hold
    · obtain rfl := List.mem_singleton.mp hlast
      rw [hself]
      exact hasked
  · rcases List.mem_append.mp hother with hold | hlast
    · change _ ↔ (server.connection other).answers = _
      rw [(hothers other hold).1, (hothers other hold).2]
      exact h.told other hold
    · obtain rfl := List.mem_singleton.mp hlast
      rw [hself]
      exact htold

/-- Where nothing is answered, nothing is posted either: a handler that throws
has not. -/
theorem AnswersNone.posted_eq {s : HttpServer ApiState}
    (hnone : AnswersNone apiHandlers s server) :
    server.application.posted = s.application.posted := by
  rcases hnone.application with hsame | ⟨memory, req, reply_, hthrows⟩
  · rw [hsame]
  · obtain ⟨hposted, hasked⟩ := apiHandlers_answer rfl hthrows
    have hnothing : updatesFor s.application.junk s.application.now
        (uriText req) = [] := by
      by_contra hne
      cases hasked.mp (updatesFor_ne_nil.mp hne)
    rw [hposted, hnothing, List.append_nil]

/-- In every run, whatever comes in over the connections and whatever else
happens to the database, the updates that were posted are those that the
answered connections have asked for, each of them once, in the order in which
they were answered; a connection that has asked for one is answered so, and no
other connection is. -/
theorem always_postsOnce (application : ApiState) (memory : Uninitialized)
    (events : List (HttpEvent ApiState)) :
    (apiServer application memory).Always
      (fun s => ∃ updates, PostsOnce application.posted updates s)
      events := by
  apply StepSystem.always_of_invariant _
    (I := fun s => (s.server.Orderly ∧ s.server.Answers apiHandlers) ∧
      ∃ updates, PostsOnce application.posted updates s)
  · refine ⟨⟨orderly_init apiHandlers application memory,
      answers_init apiHandlers application memory⟩, fun _ => [],
      List.nodup_nil, fun c => ?_, (List.append_nil _).symm, fun c hc => ?_,
      fun c hc => ?_⟩
    · exact iff_of_false List.not_mem_nil fun h => h rfl
    · exact absurd hc List.not_mem_nil
    · exact absurd hc List.not_mem_nil
  · rintro s s' event ⟨⟨ho, ha⟩, updates, hposts⟩ - hstep
    obtain ⟨server, hserver, rfl⟩ := Option.map_eq_some_iff.mp hstep
    refine ⟨⟨(orderly_step hserver ho).1, answers_step hserver ho ha⟩, ?_⟩
    rcases step_answersAt hserver ho ha with hnone | ⟨c, hat⟩ | ⟨a, heq, rfl⟩
    · exact ⟨updates,
        hposts.of_none hnone.answered hnone.silent hnone.posted_eq⟩
    · exact hposts.of_answersAt hat
    · refine ⟨updates, hposts.of_none (fun c _ => rfl) (fun c hc => hc) ?_⟩
      cases event with
      | application a' =>
          obtain rfl := HttpEvent.application.inj heq
          rfl
      | _ => cases heq
  · exact fun s hs => hs.2

end HttpServer

end BohunoPyzord
