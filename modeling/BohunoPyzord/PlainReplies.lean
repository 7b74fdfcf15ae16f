/-
The replies and responses of the HTTP server that its client reads as they
are.  All stock replies are among them, and so is every reply that has the
length and a plain type of its content for headers.
-/
import BohunoPyzord.HttpReplyText

namespace BohunoPyzord

open LineStream

theorem plainEntry_decimal {name : Text} (hne : name ≠ [])
    (hname : ∀ c ∈ name, isSpace c = false ∧ c ≠ ':') (n : Nat) :
    PlainEntry (name, decimal n) where
  name_ne := hne
  name_plain := hname
  value_ne := decimal_ne_nil n
  value_head := fun c hc => isSpace_eq_false_of_isDigit
    (isDigit_of_mem_decimal (List.mem_of_mem_head? hc))
  value_last := fun c hc => isSpace_eq_false_of_isDigit
    (isDigit_of_mem_decimal (List.mem_of_getLast? hc))
  value_line := fun hmem =>
    absurd (isDigit_of_mem_decimal hmem) (by decide)

theorem plainEntry_length (n : Nat) :
    PlainEntry ("Content-Length".toList, decimal n) :=
  plainEntry_decimal (by decide) (by decide) n

/-- A number below the bound is read back. -/
theorem lexicalCastSize_decimal {n : Nat} (h : n < 2 ^ 64) :
    lexicalCastSize (decimal n) = some n := by
  have hread : extractUnsigned 64 (decimal n ++ []) =
      some (Nat.ofDigitChars 10 (decimal n) 0, []) :=
    extractUnsigned_append (decimal_ne_nil n)
      (fun c hc => isDigit_of_mem_decimal hc)
      (by rwa [ofDigitChars_decimal]) (fun c hc => by cases hc)
  rw [List.append_nil, ofDigitChars_decimal] at hread
  rw [lexicalCastSize, hread]

theorem numbered_decimal (name : Text) {n : Nat} (h : n < 2 ^ 64) :
    Numbered (name, decimal n) := by
  intro _
  rw [lexicalCastSize_decimal h]
  rfl

theorem numbered_of_ne {name : Text} (h : name ≠ "Content-Length".toList)
    (value : Text) : Numbered (name, value) := fun heq => absurd heq h

/-- What the buffers hold together. -/
theorem flatten_buffers (line content : Text)
    (entries : List (Text × Text)) :
    ([line] ++ entries.flatMap (fun entry =>
      [entry.1, Response.nameValueSeparator, entry.2, Response.crlf]) ++
        [Response.crlf] ++ [content]).flatten =
      line ++ headText entries ++ content := by
  have hentries : (entries.flatMap fun entry =>
      [entry.1, Response.nameValueSeparator, entry.2, Response.crlf]).flatten =
        entries.flatMap fun entry => entryLine entry ++ ['\n'] := by
    induction entries with
    | nil => rfl
    | cons entry entries ih =>
        rw [List.flatMap_cons, List.flatten_append, ih, List.flatMap_cons]
        simp [entryLine, Response.nameValueSeparator, Response.crlf]
  simp [hentries, headText]

/-- The status line with a status code. -/
def StatusCode.line (status : StatusCode) (message : Text)
    (hends : ∀ c ∈ message.head?, c.isDigit = false)
    (hline : '\n' ∉ message) : StatusLine where
  version := "1.0".toList
  code := decimal status.code
  message := message
  noSpace := by decide
  code_ne_nil := decimal_ne_nil _
  isDigit := fun c hc => isDigit_of_mem_decimal hc
  code_lt := by
    rw [ofDigitChars_decimal]
    cases status <;> decide
  endsCode := hends
  oneLine := hline

namespace HttpServer.Reply

/-- What a status line says behind the status code. -/
def reason (status : StatusCode) : Text :=
  (status.statusString.toList.drop 12).dropLast.dropLast

/-- The line of `status_strings`. -/
def statusLine (status : StatusCode) : StatusLine :=
  status.line (reason status) (by cases status <;> decide)
    (by cases status <;> decide)

theorem statusLine_text (status : StatusCode) :
    (statusLine status).text = status.statusString.toList := by
  cases status <;> decide

variable (rep : Reply)

def entries : List (Text × Text) :=
  rep.headers.map fun header => (header.name, header.value)

/-- A reply that the client can read: it has headers, of different names, and
they survive the way. -/
structure Plain : Prop where
  headers_ne : rep.headers ≠ []
  plain : ∀ entry ∈ rep.entries, PlainEntry entry
  nodup : (rep.entries.map Prod.fst).Nodup
  numbered : ∀ entry ∈ rep.entries, Numbered entry

variable {rep}

def Plain.message (h : rep.Plain) : PlainMessage where
  line := statusLine rep.status
  entries := rep.entries
  content := rep.content
  entries_ne := by simpa [entries] using h.headers_ne
  plain := h.plain
  nodup := h.nodup
  numbered := h.numbered

theorem Plain.message_text (h : rep.Plain) :
    h.message.text = rep.toBuffers.flatten := by
  have hbuffers := flatten_buffers rep.status.statusString.toList rep.content
    rep.entries
  rw [entries, List.flatMap_map] at hbuffers
  rw [toBuffers, hbuffers, PlainMessage.text, PlainMessage.head, message,
    statusLine_text]
  rfl

/-- The client is told the status of the reply. -/
theorem Plain.message_outcome (h : rep.Plain) (content : Text) :
    h.message.outcome content =
      .success rep.status.code rep.entries content := by
  have hcode : Nat.ofDigitChars 10 (statusLine rep.status).code 0 =
      rep.status.code := ofDigitChars_decimal _
  rw [PlainMessage.outcome, message, hcode]

/-- The two headers of most replies. -/
theorem plain_of_headers {status : StatusCode} {content contentType : Text}
    (hlength : content.length < 2 ^ 64)
    (htype : PlainEntry ("Content-Type".toList, contentType)) :
    Plain ⟨status, [⟨"Content-Length".toList, decimal content.length⟩,
      ⟨"Content-Type".toList, contentType⟩], content⟩ where
  headers_ne := List.cons_ne_nil _ _
  plain := List.forall_mem_cons.mpr ⟨plainEntry_length content.length,
    List.forall_mem_singleton.mpr htype⟩
  nodup := by
    change ["Content-Length".toList, "Content-Type".toList].Nodup
    decide
  numbered := by
    have htypeName : "Content-Type".toList ≠ "Content-Length".toList := by
      decide
    exact List.forall_mem_cons.mpr ⟨numbered_decimal _ hlength,
      List.forall_mem_singleton.mpr (numbered_of_ne htypeName _)⟩

theorem plainEntry_html :
    PlainEntry ("Content-Type".toList, "text/html".toList) := by
  constructor <;> decide

theorem stockContent_length (status : StatusCode) :
    (stockContent status).toList.length < 2 ^ 64 := by
  cases status <;> decide +kernel

/-- The client can read every stock reply. -/
theorem plain_stockReply (status : StatusCode) : (stockReply status).Plain :=
  plain_of_headers (stockContent_length status) plainEntry_html

end HttpServer.Reply

/-- The replies of the interface to the database, too. -/
theorem HttpReply.plain_setHeaders {rep : HttpReply} {contentType : Text}
    (hlength : rep.content.length < 2 ^ 64)
    (htype : PlainEntry ("Content-Type".toList, contentType)) :
    (rep.setHeaders contentType).toReply.Plain :=
  HttpServer.Reply.plain_of_headers hlength htype

namespace Response

/-- The headers that are sent. -/
def entries (r : Response) : List (Text × Text) :=
  (r.headers_.set "Content-Length".toList
    (decimal r.content_.length)).attributes_

/-- A response that the client can read. -/
structure Plain (r : Response) : Prop where
  plain : ∀ entry ∈ r.headers_.attributes_, PlainEntry entry
  length : r.content_.length < 2 ^ 64

/-- The line that a response begins with. -/
def statusLine (status : StatusCode) : StatusLine :=
  status.line " Some Reason".toList (by decide) (by decide)

variable {r : Response}

theorem mem_entries {entry : Text × Text} (h : entry ∈ r.entries) :
    entry = ("Content-Length".toList, decimal r.content_.length) ∨
      entry ∈ r.headers_.attributes_ ∧
        entry.1 ≠ "Content-Length".toList :=
  Packet.mem_set.mp h

def Plain.message (h : r.Plain) : PlainMessage where
  line := statusLine r.status_
  entries := r.entries
  content := r.content_
  entries_ne := List.ne_nil_of_mem (Packet.mem_set.mpr (Or.inl rfl))
  plain := by
    intro entry hentry
    rcases mem_entries hentry with rfl | ⟨hold, -⟩
    · exact plainEntry_length r.content_.length
    · exact h.plain entry hold
  nodup := List.pairwise_map.mpr ((Packet.sorted _).imp ne_of_lt)
  numbered := by
    intro entry hentry
    rcases mem_entries hentry with rfl | ⟨-, hne⟩
    · exact numbered_decimal _ h.length
    · exact numbered_of_ne hne entry.2

theorem Plain.message_text (h : r.Plain) :
    h.message.text = r.sent.flatten := by
  rw [sent, toBuffers, PlainMessage.text, PlainMessage.head, message]
  have hbuffers := flatten_buffers ("HTTP/1.0 ".toList ++
    decimal r.status_.code ++ " Some Reason\r\n".toList) r.content_ r.entries
  have hline : (statusLine r.status_).text = "HTTP/1.0 ".toList ++
      decimal r.status_.code ++ " Some Reason\r\n".toList := by
    cases r.status_ <;> decide
  rw [hline]
  exact hbuffers.symm

theorem Plain.message_outcome (h : r.Plain) (content : Text) :
    h.message.outcome content =
      .success r.status_.code r.entries content := by
  have hcode : Nat.ofDigitChars 10 (statusLine r.status_).code 0 =
      r.status_.code := ofDigitChars_decimal _
  rw [PlainMessage.outcome, message, hcode]

end Response

end BohunoPyzord
