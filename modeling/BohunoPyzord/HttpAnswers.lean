/-
What the HTTP server answers.  A connection answers once at most, as soon as
the parser has decided on all the bytes that it has read, in whatever parts
they came: a request that was accepted is put to the handlers as it was
parsed, and one that was rejected gets the stock reply.
-/
import BohunoPyzord.HttpConnections
import BohunoPyzord.RequestText

namespace BohunoPyzord

namespace HttpServer

variable {A : Type}

/-- What a connection has made of what it has read, and what is left of its
`reply_` while that is written.  Only in a server that has ended so can a
handler have thrown. -/
inductive Served (h : RequestHandlers A) (memory : Uninitialized)
    (phase : Phase) (c : Connection) : Prop where
  | undecided
      (reads : requestParser.Reads (Connection.new memory).request_parser_
        c.received c.request_parser_)
      (unset : c.reply_ = (Connection.new memory).reply_)
      (silent : c.answers = [])
  | rejected (rest : List Byte)
      (run : requestParser.run (Connection.new memory).request_parser_
        c.received = (some false, c.request_parser_, rest))
      (set : c.reply_ = Reply.stockReply .badRequest)
      (answered : c.answers = [.reply c.reply_])
  | accepted (rest : List Byte) (application application' : A)
      (answer : Answer)
      (run : requestParser.run (Connection.new memory).request_parser_
        c.received = (some true, c.request_parser_, rest))
      (handled : h.answer application c.request_parser_.req
        (Connection.new memory).reply_ =
          (application', c.reply_, some answer))
      (answered : c.answers = [answer])
  | threw (rest : List Byte) (application application' : A)
      (ended : phase = .thrown)
      (run : requestParser.run (Connection.new memory).request_parser_
        c.received = (some true, c.request_parser_, rest))
      (handled : h.answer application c.request_parser_.req
        (Connection.new memory).reply_ = (application', c.reply_, none))
      (silent : c.answers = [])

/-- Every connection is served; one that waits for more, or has not been
accepted, has not answered, and one that writes has. -/
structure Answers (h : RequestHandlers A) (s : HttpServer A) : Prop where
  served : ∀ c, ∃ memory, Served h memory s.phase (s.connection c)
  silent : ∀ c, s.io.Waits (.read c) ∨ s.new_connection_ ≤ c →
    (s.connection c).answers = []
  written : ∀ c, s.io.Waits (.write c) → (s.connection c).answers ≠ []

variable {h : RequestHandlers A} {s s' : HttpServer A} {c : Nat}

theorem served_new (memory : Uninitialized) (phase : Phase) :
    Served h memory phase (.new memory) :=
  .undecided (Recognizer.reads_nil _) rfl rfl

/-- What was made while the server ran stays so. -/
theorem Served.of_running {memory : Uninitialized} {connection : Connection}
    (hserved : Served h memory .running connection) (phase : Phase) :
    Served h memory phase connection := by
  cases hserved with
  | undecided reads unset silent => exact .undecided reads unset silent
  | rejected rest run set answered => exact .rejected rest run set answered
  | accepted rest application application' answer run handled answered =>
      exact .accepted rest application application' answer run handled answered
  | threw _ _ _ ended => cases ended

/-- The state of the application and the operations that are taken off or
cancelled do not matter, nor does it that the server is stopped. -/
theorem Answers.mono (ha : s.Answers h) (hrunning : s.phase = .running)
    (hconnection : s'.connection = s.connection)
    (hnew : s'.new_connection_ = s.new_connection_)
    (hwaits : ∀ kind, s'.io.Waits kind → s.io.Waits kind) :
    s'.Answers h where
  served := fun c => by
    obtain ⟨memory, hserved⟩ := ha.served c
    rw [hrunning] at hserved
    exact ⟨memory, hconnection ▸ hserved.of_running s'.phase⟩
  silent := fun c hc => by
    rw [hnew] at hc
    exact hconnection ▸ ha.silent c (hc.imp_left (hwaits _))
  written := fun c hc => hconnection ▸ ha.written c (hwaits _ hc)

/-- One connection is changed. -/
theorem Answers.setConnection (ha : s.Answers h) (hrunning : s.phase = .running)
    {connection : Connection} (application : A) (phase : Phase)
    (hserved : ∃ memory, Served h memory phase connection)
    (hsilent : s.io.Waits (.read c) ∨ s.new_connection_ ≤ c →
      connection.answers = [])
    (hwritten : s.io.Waits (.write c) → connection.answers ≠ []) :
    Answers h { s.setConnection c connection with application, phase } := by
  have hself : ∀ other, Function.update s.connection c connection other =
      if other = c then connection else s.connection other := fun other =>
    Function.update_apply s.connection c connection other
  constructor
  · intro other
    change ∃ memory, Served h memory phase (Function.update s.connection c
      connection other)
    rw [hself]
    split_ifs with hc
    · exact hserved
    · obtain ⟨memory, hother⟩ := ha.served other
      rw [hrunning] at hother
      exact ⟨memory, hother.of_running phase⟩
  · intro other hwaits
    change (Function.update s.connection c connection other).answers = []
    rw [hself]
    split_ifs with hc
    · exact hsilent (hc ▸ hwaits)
    · exact ha.silent other hwaits
  · intro other hwaits
    change (Function.update s.connection c connection other).answers ≠ []
    rw [hself]
    split_ifs with hc
    · exact hwritten (hc ▸ hwaits)
    · exact ha.written other hwaits

/-- An operation is started: a read where nothing was answered, or a write
where something was. -/
theorem Answers.start (ha : s.Answers h) {operation : HttpOperation}
    (hsilent : ∀ c, operation = .read c → (s.connection c).answers = [])
    (hwritten : ∀ c, operation = .write c → (s.connection c).answers ≠ []) :
    (s.start operation).Answers h where
  served := ha.served
  silent := fun c hc => by
    rcases hc with hread | hnew
    · rcases IoService.Waits.of_start hread with hwaited | hsame
      · exact ha.silent c (Or.inl hwaited)
      · exact hsilent c hsame
    · exact ha.silent c (Or.inr hnew)
  written := fun c hwrite => by
    rcases IoService.Waits.of_start hwrite with hwaited | hsame
    · exact ha.written c hwaited
    · exact hwritten c hsame

/-- Where nothing of a connection is pending, none of it is waited for. -/
theorem Kept.not_waits (hkept : s.Kept) {operation : HttpOperation}
    (hserves : operation.serves = some c) (hpending : s.pendingOf c = 0) :
    ¬ s.io.Waits operation := by
  intro hwaits
  have hpos := hkept.alive.standing_pos hwaits (p := isOf c)
    (decide_eq_true hserves)
  exact hpos.ne' hpending

/-- While the server runs, a connection that has not answered has not
decided. -/
theorem Served.reads {memory : Uninitialized} {connection : Connection}
    (hserved : Served h memory .running connection)
    (hsilent : connection.answers = []) :
    requestParser.Reads (Connection.new memory).request_parser_
        connection.received connection.request_parser_ ∧
      connection.reply_ = (Connection.new memory).reply_ := by
  cases hserved with
  | undecided reads unset _ => exact ⟨reads, unset⟩
  | rejected _ _ _ answered => simp [answered] at hsilent
  | accepted _ _ _ _ _ _ answered => simp [answered] at hsilent
  | threw _ _ _ ended => cases ended

/-- A connection that answers has nothing else to do than to write. -/
theorem Answers.asyncWrite (ha : s.Answers h) (hrunning : s.phase = .running)
    (hlacks : s.Lacks c) {connection : Connection} {application : A}
    {reply_ : Reply} {answer : Answer} {memory : Uninitialized}
    (hserved : Served h memory .running { connection with
      reply_, answers := connection.answers ++ [answer] }) :
    Answers h ({ s with application }.asyncWrite c connection reply_
      answer) := by
  have hold : ¬ s.new_connection_ ≤ c :=
    Nat.not_le.mpr ((hlacks.accepted c).mpr (Or.inl hlacks.mem))
  have hset : Answers h { s.setConnection c { connection with
      reply_, answers := connection.answers ++ [answer] } with
        application, phase := .running } := by
    refine ha.setConnection hrunning application .running ⟨memory, hserved⟩ ?_
      fun _ => by simp
    rintro (hwaits | hnew)
    · exact absurd hwaits (hlacks.toKept.not_waits rfl hlacks.none)
    · exact absurd hnew hold
  rw [← hrunning] at hset
  refine hset.start (fun other hother => by cases hother) ?_
  rintro other ⟨⟩
  change (Function.update s.connection c _ c).answers ≠ []
  rw [Function.update_self]
  simp

/-- What was read is decided together with what was read before. -/
theorem answers_handleRead {result : ReadResult} (ha : s.Answers h)
    (hrunning : s.phase = .running) (hlacks : s.Lacks c)
    (hsilent : (s.connection c).answers = []) :
    (s.handleRead h c result).Answers h := by
  obtain ⟨memory, hserved⟩ := ha.served c
  rw [hrunning] at hserved
  obtain ⟨hreads, hreply⟩ := hserved.reads hsilent
  have hunwritten : ¬ s.io.Waits (.write c) :=
    hlacks.toKept.not_waits rfl hlacks.none
  cases result with
  | aborted => exact ha
  | error => exact ha.mono hrunning rfl rfl fun kind hwaits => hwaits.of_cancel
  | bytes bytes =>
      have hrun := hreads.run_append bytes
      rcases hresult : requestParser.run (s.connection c).request_parser_ bytes
        with ⟨decision, parser, rest⟩
      rw [hresult] at hrun
      simp only [handleRead, hresult]
      cases decision with
      | none =>
          have hmore : Served h memory s.phase { s.connection c with
              request_parser_ := parser
              received := (s.connection c).received ++ bytes } :=
            .undecided (Recognizer.reads_of_run hrun) hreply hsilent
          have hset := ha.setConnection hrunning s.application s.phase
            ⟨memory, hmore⟩ (fun _ => hsilent)
            fun hwaits => absurd hwaits hunwritten
          refine Answers.start hset ?_ fun other hother => by cases hother
          rintro other ⟨⟩
          change (Function.update s.connection c _ c).answers = []
          rw [Function.update_self]
          exact hsilent
      | some accepts =>
          cases accepts with
          | false =>
              refine ha.asyncWrite hrunning hlacks (.rejected rest hrun rfl ?_)
              rw [hsilent]
              rfl
          | true =>
              simp only [hreply]
              split
              · rename_i application reply_ answer hanswer
                refine ha.asyncWrite hrunning hlacks (.accepted rest
                  s.application application answer hrun hanswer ?_)
                rw [hsilent]
                rfl
              · rename_i application reply_ hanswer
                exact ha.setConnection hrunning application .thrown ⟨memory,
                  .threw rest s.application application rfl hrun hanswer
                    hsilent⟩
                  (fun _ => hsilent) fun hwaits => absurd hwaits hunwritten

/-- A connection that has not been accepted starts to read. -/
theorem Answers.managerStart (ha : s.Answers h) :
    (s.managerStart s.new_connection_).Answers h := by
  refine Answers.start (s := { s with
    connections_ := insert s.new_connection_ s.connections_ })
    ⟨ha.served, ha.silent, ha.written⟩ ?_ fun other hother => by cases hother
  rintro other ⟨⟩
  exact ha.silent _ (Or.inr le_rfl)

/-- The next connection is constructed. -/
theorem Answers.asyncAccept (ha : s.Answers h) (hrunning : s.phase = .running)
    (memory : Uninitialized)
    (hnone : ¬ s.io.Waits (.write (s.new_connection_ + 1))) :
    (s.asyncAccept memory).Answers h := by
  have hset : Answers h { s.setConnection (s.new_connection_ + 1)
      (.new memory) with application := s.application, phase := s.phase } :=
    ha.setConnection hrunning s.application s.phase
      ⟨memory, served_new memory s.phase⟩ (fun _ => rfl)
      fun hwaits => absurd hwaits hnone
  have hnext : Answers h { s.setConnection (s.new_connection_ + 1)
      (.new memory) with new_connection_ := s.new_connection_ + 1 } := by
    refine ⟨hset.served, fun c hc => hset.silent c (hc.imp_right ?_),
      hset.written⟩
    exact (Nat.le_succ s.new_connection_).trans
  exact hnext.start (fun other hother => by cases hother)
    fun other hother => by cases hother

theorem answers_handle {event : HttpEvent A} {i : Nat}
    {op : Operation HttpOperation} {io : IoService HttpOperation}
    (hrunning : s.phase = .running) (hmanaged : s.Managed) (ha : s.Answers h)
    (htake : s.io.take i = some (op, io))
    (hhandle : { s with io }.handle h op event = some s') :
    s'.Answers h := by
  have htaken : { s with io }.Answers h :=
    ha.mono hrunning rfl rfl fun kind hwaits => hwaits.of_take htake
  have hprogress := (hmanaged.alive.take htake).1
  have hnext : ¬ s.io.Waits (.write (s.new_connection_ + 1)) := by
    refine hmanaged.toKept.not_waits rfl ?_
    rw [hmanaged.pending, if_neg]
    intro hmem
    have hlt := (hmanaged.accepted _).mpr (Or.inl hmem)
    omega
  cases event with
  | handleAccept j error memory =>
      simp only [handle] at hhandle
      cases hkind : op.kind with
      | accept c =>
          simp only [hkind, Option.some.injEq] at hhandle
          subst hhandle
          unfold handleAccept
          split_ifs
          · refine htaken.managerStart.asyncAccept hrunning memory
              fun hwaits => ?_
            rcases IoService.Waits.of_start hwaits with hwaited | hsame
            · exact hnext (hwaited.of_take htake)
            · cases hsame
          · exact htaken
      | read c => simp [hkind] at hhandle
      | write c => simp [hkind] at hhandle
  | handleRead j read =>
      simp only [handle] at hhandle
      cases hkind : op.kind with
      | read c =>
          obtain ⟨hlacks, -⟩ := hmanaged.lacks htake
            (show op.kind.serves = some c by rw [hkind]; rfl)
          have hwaits := hkind ▸ IoService.Waits.taken htake
          simp only [hkind, if_neg hprogress] at hhandle
          split_ifs at hhandle
          exact Option.some.inj hhandle ▸ answers_handleRead htaken hrunning
            hlacks (ha.silent c (Or.inl hwaits))
      | accept c => simp [hkind] at hhandle
      | write c => simp [hkind] at hhandle
  | handleWrite j =>
      simp only [handle] at hhandle
      cases hkind : op.kind with
      | write c =>
          simp only [hkind, Option.some.injEq] at hhandle
          subst hhandle
          unfold handleWrite
          split_ifs
          · exact htaken.mono hrunning rfl rfl fun kind hwaits =>
              hwaits.of_cancel
          · exact htaken
      | accept c => simp [hkind] at hhandle
      | read c => simp [hkind] at hhandle
  | complete j => cases hhandle
  | handleStop => cases hhandle
  | application a => cases hhandle

theorem answers_step {event : HttpEvent A} (hstep : s.step h event = some s')
    (ho : s.Orderly) (ha : s.Answers h) : s'.Answers h := by
  unfold step at hstep
  split_ifs at hstep with hrunning
  rcases perform_cases hstep with ⟨i, io, rfl, hio, rfl⟩ | ⟨rfl, rfl⟩ |
    ⟨a, rfl, rfl⟩ | ⟨i, op, io, hplace, htake, hhandle⟩
  · exact ha.mono hrunning rfl rfl fun kind hwaits => hwaits.of_complete hio
  · exact ha.mono hrunning rfl rfl fun kind hwaits =>
      hwaits.of_cancel.of_cancel
  · exact ha.mono hrunning rfl rfl fun kind hwaits => hwaits
  · exact answers_handle hrunning (ho.1 hrunning) ha htake hhandle

theorem answers_init (h : RequestHandlers A) (application : A)
    (memory : Uninitialized) :
    (httpServerSystem h application memory).init.Answers h where
  served := fun _ => ⟨memory, served_new memory .running⟩
  silent := fun _ _ => rfl
  written := by
    rintro c ⟨op, hop, hkind⟩
    rw [List.mem_singleton.mp hop] at hkind
    cases hkind

theorem answers_preserved (h : RequestHandlers A) (application : A)
    (memory : Uninitialized) :
    (httpServerSystem h application memory).Preserves
      (fun s => s.Orderly ∧ s.Answers h) fun _ _ => True := by
  rintro s s' event ⟨ho, ha⟩ - hstep
  exact ⟨(orderly_step hstep ho).1, answers_step hstep ho ha⟩

/-- A managed connection waits for something. -/
theorem Managed.waits (hmanaged : s.Managed) (hc : c ∈ s.connections_) :
    s.io.Waits (.read c) ∨ s.io.Waits (.write c) := by
  have hone := hmanaged.pending c
  rw [if_pos hc] at hone
  have hpos : 0 < s.io.standing (isOf c) := by
    rw [← pendingOf, hone]
    exact Nat.one_pos
  obtain ⟨op, hop, hkind, -⟩ := IoService.exists_of_standing_pos _ hpos
  have hserves : op.kind.serves = some c := of_decide_eq_true hkind
  cases hoperation : op.kind with
  | accept other => rw [hoperation] at hserves; cases hserves
  | read other =>
      rw [hoperation] at hserves
      cases hserves
      exact Or.inl ⟨op, hop, hoperation⟩
  | write other =>
      rw [hoperation] at hserves
      cases hserves
      exact Or.inr ⟨op, hop, hoperation⟩

/-- Each connection has made of what it has read what the parser and the
handlers make of it, and none of them has thrown as long as the server has not
ended with an exception.  As long as the server runs, a managed one reads on
while nothing is decided, and writes its answer from then on. -/
def AnswersOnce (h : RequestHandlers A) (s : HttpServer A) : Prop :=
  ∀ c, (∃ memory, Served h memory s.phase (s.connection c)) ∧
    (s.phase = .running → c ∈ s.connections_ →
      (s.io.Waits (.read c) ↔ (s.connection c).answers = []) ∧
        (s.io.Waits (.write c) ↔ (s.connection c).answers ≠ []))

theorem answersOnce_of_answers (ho : s.Orderly) (ha : s.Answers h) :
    s.AnswersOnce h := by
  intro c
  refine ⟨ha.served c, fun hrunning hc => ?_⟩
  have hwaits := (ho.1 hrunning).waits hc
  constructor
  · refine ⟨fun hread => ha.silent c (Or.inl hread), fun hsilent => ?_⟩
    exact hwaits.resolve_right fun hwrite => ha.written c hwrite hsilent
  · refine ⟨ha.written c, fun hanswered => ?_⟩
    exact hwaits.resolve_left fun hread =>
      hanswered (ha.silent c (Or.inl hread))

/-- In every run each connection answers once at most, and as it is to. -/
theorem always_answersOnce (h : RequestHandlers A) (application : A)
    (memory : Uninitialized) (events : List (HttpEvent A)) :
    (httpServerSystem h application memory).Always (AnswersOnce h)
      events := by
  apply StepSystem.always_of_invariant _
    (I := fun s => s.Orderly ∧ s.Answers h)
  · exact ⟨orderly_init h application memory,
      answers_init h application memory⟩
  · exact answers_preserved h application memory
  · exact fun s hs => answersOnce_of_answers hs.1 hs.2

end HttpServer

end BohunoPyzord
