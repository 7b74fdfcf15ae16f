/-
`http::server::response`.  A handler fills it in and commits it, or has it
committed by `error` or `redirect`, and `to_buffers` makes of it what is sent.
-/
import BohunoPyzord.PacketDecoders

namespace BohunoPyzord

/-- `response::status_code`. -/
inductive StatusCode where
  | ok
  | created
  | accepted
  | noContent
  | multipleChoices
  | movedPermanently
  | movedTemporarily
  | notModified
  | badRequest
  | unauthorized
  | forbidden
  | notFound
  | internalServerError
  | notImplemented
  | badGateway
  | serviceUnavailable
deriving DecidableEq, Repr

def StatusCode.code : StatusCode → Nat
  | .ok => 200
  | .created => 201
  | .accepted => 202
  | .noContent => 204
  | .multipleChoices => 300
  | .movedPermanently => 301
  | .movedTemporarily => 302
  | .notModified => 304
  | .badRequest => 400
  | .unauthorized => 401
  | .forbidden => 403
  | .notFound => 404
  | .internalServerError => 500
  | .notImplemented => 501
  | .badGateway => 502
  | .serviceUnavailable => 503

theorem StatusCode.code_injective : Function.Injective StatusCode.code := by
  intro sc sc' h
  cases sc <;> cases sc' <;> first | rfl | exact absurd h (by decide)

/-- The headers are a map like the attributes of a packet. -/
structure Response where
  headers_ : Packet
  content_ : Text
  committed_ : Bool
  status_ : StatusCode
deriving DecidableEq

/-- What the functions of a response throw. -/
inductive ResponseError where
  | alreadyCommitted
  | badLexicalCast
deriving DecidableEq, Repr

/-- The text of a `runtime_error`. -/
def ResponseError.what : ResponseError → String
  | .alreadyCommitted => "Response is already committed"
  | .badLexicalCast =>
      "bad lexical cast: source type value could not be interpreted as target"

namespace Response

/-- `response::response`. -/
def new : Response :=
  { headers_ := (Packet.empty.set "Content-Type".toList
      "text/html".toList).set "Server".toList
        "Asio 0.3.9 / Embedded HTTP Server 0.0.1".toList
    content_ := []
    committed_ := false
    status_ := .ok }

def header (s : Response) (name value : Text) : Response :=
  { s with headers_ := s.headers_.set name value }

def status (s : Response) (sc : StatusCode) : Response :=
  { s with status_ := sc }

def contentType (s : Response) (type : Text) : Response :=
  { s with headers_ := s.headers_.set "Content-Type".toList type }

def commit (s : Response) : Except ResponseError Response :=
  if s.committed_ then .error .alreadyCommitted
  else .ok { s with committed_ := true }

/-- Both overloads; a message is not used. -/
def error (s : Response) (sc : StatusCode) : Except ResponseError Response :=
  if s.committed_ then .error .alreadyCommitted
  else (s.status sc).commit

def redirect (s : Response) (location : Text) :
    Except ResponseError Response :=
  if s.committed_ then .error .alreadyCommitted
  else ((s.status .movedPermanently).header "Location".toList location).commit

def write (s : Response) (data : Text) : Except ResponseError Response :=
  if s.committed_ then .error .alreadyCommitted
  else .ok { s with content_ := s.content_ ++ data }

/-- `operator<<` of a value; `text` is what `lexical_cast` makes of it, if it
does not throw. -/
def insert (s : Response) (text : Option Text) :
    Except ResponseError Response :=
  match text with
  | some text => .ok { s with content_ := s.content_ ++ text }
  | none => .error .badLexicalCast

/-- `name_value_separator`. -/
def nameValueSeparator : Text := ": ".toList

def crlf : Text := "\r\n".toList

/-- `to_buffers`: it enters the length of the content. -/
def toBuffers (s : Response) : Response × List Text :=
  let s := s.header "Content-Length".toList (decimal s.content_.length)
  let statusLine := "HTTP/1.0 ".toList ++ decimal s.status_.code ++
    " Some Reason\r\n".toList
  (s, [statusLine] ++ s.headers_.attributes_.flatMap (fun entry =>
    [entry.1, nameValueSeparator, entry.2, crlf]) ++ [crlf] ++ [s.content_])

/-- What would be sent now. -/
def sent (s : Response) : List Text := s.toBuffers.2

end Response

/-- The functions that may be called on a response. -/
inductive ResponseCall where
  | header (name value : Text)
  | status (sc : StatusCode)
  | contentType (type : Text)
  | error (sc : StatusCode)
  | errorMessage (sc : StatusCode) (message : Text)
  | redirect (location : Text)
  | write (data : Text)
  | insert (text : Option Text)
  | commit
  | toBuffers
deriving DecidableEq, Repr

namespace Response

def call (s : Response) : ResponseCall → Except ResponseError Response
  | .header name value => .ok (s.header name value)
  | .status sc => .ok (s.status sc)
  | .contentType type => .ok (s.contentType type)
  | .error sc => s.error sc
  | .errorMessage sc _ => s.error sc
  | .redirect location => s.redirect location
  | .write data => s.write data
  | .insert text => s.insert text
  | .commit => s.commit
  | .toBuffers => .ok s.toBuffers.1

/-- The response after a call.  A call that throws has not changed it. -/
def after (s : Response) (call : ResponseCall) : Response :=
  match s.call call with
  | .ok s => s
  | .error _ => s

end Response

/-- A response, and what would have been sent when it was committed. -/
structure ResponseRun where
  response : Response
  atCommit : Option (List Text)

namespace ResponseRun

def step (s : ResponseRun) (call : ResponseCall) : Option ResponseRun :=
  let response := s.response.after call
  some { response
         atCommit :=
           if response.committed_ && !s.response.committed_ then
             some response.sent
           else s.atCommit }

/-- What is sent is what was committed. -/
def SentAsCommitted (s : ResponseRun) : Prop :=
  ∀ sent ∈ s.atCommit, s.response.sent = sent

end ResponseRun

def responseSystem : StepSystem ResponseRun ResponseCall where
  init := { response := .new, atCommit := none }
  step := ResponseRun.step

namespace Response

/-- A call that leaves what is sent as it is, or throws, if the response is
committed. -/
def Harmless (s : Response) : ResponseCall → Prop
  | .header name value =>
      name = "Content-Length".toList ∨ (name, value) ∈ s.headers_.attributes_
  | .status sc => sc = s.status_
  | .contentType type =>
      ("Content-Type".toList, type) ∈ s.headers_.attributes_
  | .insert (some text) => text = []
  | _ => True

theorem eq_of_fst_eq {p : Packet} {entry entry' : Text × Text}
    (h : entry ∈ p.attributes_) (h' : entry' ∈ p.attributes_)
    (hname : entry.1 = entry'.1) : entry = entry' := by
  have hnodup : (p.attributes_.map Prod.fst).Nodup :=
    List.pairwise_map.mpr (p.sorted.imp ne_of_lt)
  exact List.inj_on_of_nodup_map hnodup h h' hname

/-- A value that a map has already. -/
theorem set_of_mem {p : Packet} {name value : Text}
    (h : (name, value) ∈ p.attributes_) : p.set name value = p := by
  apply Packet.eq_of_mem_iff
  intro entry
  rw [Packet.mem_set]
  constructor
  · rintro (rfl | ⟨hold, -⟩)
    · exact h
    · exact hold
  · intro hentry
    by_cases hname : entry.1 = name
    · exact Or.inl (eq_of_fst_eq hentry h hname)
    · exact Or.inr ⟨hentry, hname⟩

/-- Setting a name shows behind the setting of another, unless the map has that
value. -/
theorem set_set_eq_iff (p : Packet) (name value other length : Text) :
    (p.set name value).set other length = p.set other length ↔
      name = other ∨ (name, value) ∈ p.attributes_ := by
  constructor
  · intro h
    by_cases hname : name = other
    · exact Or.inl hname
    · have hmem : (name, value) ∈
          ((p.set name value).set other length).attributes_ :=
        Packet.mem_set.mpr (Or.inr ⟨Packet.mem_set.mpr (Or.inl rfl), hname⟩)
      rw [h, Packet.mem_set] at hmem
      rcases hmem with hnew | ⟨hold, -⟩
      · exact absurd (congrArg Prod.fst hnew) hname
      · exact Or.inr hold
  · rintro (rfl | hmem)
    · exact Packet.set_set p name value length
    · rw [set_of_mem hmem]

/-- The buffers tell the headers. -/
theorem flatMap_injective {entries entries' : List (Text × Text)}
    (h : entries.flatMap (fun entry =>
        [entry.1, nameValueSeparator, entry.2, crlf]) =
      entries'.flatMap fun entry =>
        [entry.1, nameValueSeparator, entry.2, crlf]) : entries = entries' := by
  induction entries generalizing entries' with
  | nil =>
      cases entries' with
      | nil => rfl
      | cons entry entries' => cases h
  | cons entry entries ih =>
      cases entries' with
      | nil => cases h
      | cons entry' entries' =>
          simp only [List.flatMap_cons, List.cons_append, List.nil_append,
            List.cons.injEq, true_and] at h
          obtain ⟨hname, hvalue, hrest⟩ := h
          rw [ih hrest, Prod.ext hname hvalue]

/-- What is sent tells the status, the headers but for the length, and the
content. -/
theorem sent_eq_iff (s t : Response) :
    s.sent = t.sent ↔ s.status_ = t.status_ ∧
      s.headers_.set "Content-Length".toList (decimal s.content_.length) =
        t.headers_.set "Content-Length".toList (decimal t.content_.length) ∧
      s.content_ = t.content_ := by
  constructor
  · intro h
    rw [sent, sent, toBuffers, toBuffers] at h
    simp only [header] at h
    obtain ⟨hfront, hcontent⟩ := List.append_inj' h rfl
    obtain ⟨hfront, -⟩ := List.append_inj' hfront rfl
    obtain ⟨hline, hheaders⟩ := List.append_inj hfront rfl
    refine ⟨?_, ?_, List.singleton_injective hcontent⟩
    · have hcode := List.append_inj' (List.singleton_injective hline) rfl
      exact StatusCode.code_injective
        (decimal_injective (List.append_cancel_left hcode.1))
    · have hlist := flatMap_injective hheaders
      rw [← Packet.mk.injEq] at hlist
      exact hlist
  · rintro ⟨hstatus, hheaders, hcontent⟩
    rw [sent, sent, toBuffers, toBuffers]
    simp only [header]
    rw [hstatus, hheaders, hcontent]

theorem sent_header_iff (s : Response) (name value : Text) :
    (s.header name value).sent = s.sent ↔
      name = "Content-Length".toList ∨
        (name, value) ∈ s.headers_.attributes_ := by
  have hmaps := set_set_eq_iff s.headers_ name value "Content-Length".toList
    (decimal s.content_.length)
  rw [sent_eq_iff]
  exact ⟨fun h => hmaps.mp h.2.1, fun h => ⟨rfl, hmaps.mpr h, rfl⟩⟩

theorem after_of_throws {s : Response} {call : ResponseCall}
    {e : ResponseError} (h : s.call call = .error e) : s.after call = s := by
  rw [after, h]

/-- Nothing takes a commit back.  Of the functions that ask whether the response
is committed none changes a committed one; the others change what is sent if
they change anything but the length. -/
theorem after_of_committed {s : Response} (h : s.committed_ = true)
    (call : ResponseCall) :
    (s.after call).committed_ = true ∧
      ((s.after call).sent = s.sent ↔ s.Harmless call) := by
  have hthrows : ∀ {e : ResponseError}, s.call call = .error e →
      (s.after call).committed_ = true ∧
        ((s.after call).sent = s.sent ↔ True) := by
    intro e he
    rw [after_of_throws he]
    exact ⟨h, iff_true_intro rfl⟩
  cases call with
  | header name value => exact ⟨h, sent_header_iff s name value⟩
  | status sc =>
      refine ⟨h, ?_⟩
      rw [sent_eq_iff]
      exact ⟨fun h => h.1, fun h => ⟨h, rfl, rfl⟩⟩
  | contentType type =>
      have hne : "Content-Type".toList ≠ "Content-Length".toList := by decide
      exact ⟨h, (sent_header_iff s _ type).trans (or_iff_right hne)⟩
  | error sc => exact hthrows (if_pos h)
  | errorMessage sc message => exact hthrows (if_pos h)
  | redirect location => exact hthrows (if_pos h)
  | write data => exact hthrows (if_pos h)
  | insert text =>
      cases text with
      | none => exact hthrows rfl
      | some text =>
          have happend : s.content_ ++ text = s.content_ ↔ text = [] :=
            List.append_right_eq_self
          refine ⟨h, ?_⟩
          rw [sent_eq_iff]
          constructor
          · exact fun h => happend.mp h.2.2
          · intro hnil
            have hcontent : (s.after (.insert (some text))).content_ =
                s.content_ := happend.mpr hnil
            rw [hcontent]
            exact ⟨rfl, rfl, rfl⟩
  | commit => exact hthrows (if_pos h)
  | toBuffers =>
      exact ⟨h, iff_true_intro ((sent_header_iff s _ _).mpr (Or.inl rfl))⟩

end Response

namespace ResponseRun

/-- A call that is harmless where the response is committed. -/
def Harmless (s : ResponseRun) (call : ResponseCall) : Prop :=
  s.response.committed_ = true → s.response.Harmless call

/-- What was to be sent is known from the commit on, and is sent. -/
structure Kept (s : ResponseRun) : Prop where
  committed : s.response.committed_ = s.atCommit.isSome
  sent : s.SentAsCommitted

theorem kept_init : Kept responseSystem.init where
  committed := rfl
  sent _ h := by cases h

/-- Out of a committed response. -/
theorem step_of_committed {s s' : ResponseRun} {call : ResponseCall}
    (hstep : responseSystem.step s call = some s')
    (hcommitted : s.response.committed_ = true) :
    s'.response = s.response.after call ∧ s'.atCommit = s.atCommit := by
  obtain rfl := Option.some.inj hstep
  refine ⟨rfl, if_neg ?_⟩
  rw [hcommitted]
  simp

theorem kept_step : responseSystem.Preserves Kept Harmless := by
  intro s s' call hkept hharmless hstep
  cases hcommitted : s.response.committed_ with
  | true =>
      obtain ⟨hresponse, hatCommit⟩ := step_of_committed hstep hcommitted
      obtain ⟨hafter, hsent⟩ := Response.after_of_committed hcommitted call
      have hsame := hsent.mpr (hharmless hcommitted)
      constructor
      · rw [hresponse, hatCommit, hafter, ← hkept.committed, hcommitted]
      · rw [SentAsCommitted, hresponse, hatCommit, hsame]
        exact hkept.sent
  | false =>
      obtain rfl := Option.some.inj hstep
      have hnone : s.atCommit = none := by
        rw [← Option.not_isSome_iff_eq_none, ← hkept.committed, hcommitted]
        exact Bool.false_ne_true
      constructor
      · simp only [hcommitted, hnone]
        cases (s.response.after call).committed_ <;> rfl
      · intro sent hsent
        simp only [hcommitted, hnone] at hsent
        split_ifs at hsent
        · exact Option.some.inj hsent
        · cases hsent

theorem not_sentAsCommitted_of_step {s s' : ResponseRun} {call : ResponseCall}
    (hkept : Kept s) (hstep : responseSystem.step s call = some s')
    (hnot : ¬ Harmless s call) : ¬ s'.SentAsCommitted := by
  obtain ⟨hcommitted, hharm⟩ := Classical.not_imp.mp hnot
  obtain ⟨hresponse, hatCommit⟩ := step_of_committed hstep hcommitted
  obtain ⟨-, hsent⟩ := Response.after_of_committed hcommitted call
  rw [hkept.committed] at hcommitted
  obtain ⟨sent, hsome⟩ := Option.isSome_iff_exists.mp hcommitted
  intro hkept'
  have hsame := hkept' sent (hatCommit.trans hsome)
  rw [hresponse, ← hkept.sent sent hsome] at hsame
  exact hharm (hsent.mp hsame)

end ResponseRun

/-- From the commit on what is sent stays as it was through exactly the runs
in which `header`, `content_type`, `status` and `operator<<` are called on the
committed response with what it has already, or for the length. -/
theorem sentAsCommitted_iff (calls : List ResponseCall) :
    responseSystem.Always ResponseRun.SentAsCommitted calls ↔
      responseSystem.Each ResponseRun.Harmless calls :=
  responseSystem.always_iff_each ResponseRun.kept_init ResponseRun.kept_step
    (fun _ h => h.sent) ResponseRun.not_sentAsCommitted_of_step calls

/-- A status that is set after the commit. -/
theorem not_sentAsCommitted :
    ¬ responseSystem.Always ResponseRun.SentAsCommitted
      [.error .notFound, .status .ok] := by
  intro h
  have hsent := (h.2 _ rfl).2 _ rfl _ rfl
  exact absurd hsent (by decide +kernel)

end BohunoPyzord
