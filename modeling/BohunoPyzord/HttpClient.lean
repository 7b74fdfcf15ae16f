/-
`http::client` and `http::sclient`, from the status line of the response on.
Status line and headers are read through one buffer; the body is what is left
in it and all that still comes until the server closes the connection.
-/
import BohunoPyzord.LineStream
import BohunoPyzord.Packet

namespace BohunoPyzord

open LineStream

/-- A sign in front of a number: whether it is a minus, and what follows. -/
def takeSign : Text → Bool × Text
  | '-' :: s => (true, s)
  | '+' :: s => (false, s)
  | s => (false, s)

/-- `operator>>` for an unsigned number, behind the white space before it, and
what it leaves; `none` sets the fail bit. -/
def extractUnsigned (bits : Nat) (s : Text) : Option (Nat × Text) :=
  let (negative, digits) := takeSign s
  let number := digits.takeWhile Char.isDigit
  let n := Nat.ofDigitChars 10 number 0
  if number = [] ∨ 2 ^ bits ≤ n then none
  else some (if negative then (2 ^ bits - n) % 2 ^ bits else n,
    digits.dropWhile Char.isDigit)

/-- `lexical_cast<size_t>`, or the exception it throws. -/
def lexicalCastSize (s : Text) : Option Nat :=
  match extractUnsigned 64 s with
  | some (n, []) => some n
  | _ => none

/-- `boost::algorithm::trim`. -/
def trim (s : Text) : Text :=
  ((s.dropWhile isSpace).reverse.dropWhile isSpace).reverse

/-- The match of `^(\\S+?):\\s+(.*)$`, with the part of the name that has been
tried. -/
def matchHeader (name : Text) : Text → Option (Text × Text)
  | c :: d :: rest =>
      if isSpace c then none
      else if c = ':' ∧ name ≠ [] ∧ isSpace d = true then
        some (name, rest.dropWhile isSpace)
      else matchHeader (name ++ [c]) (d :: rest)
  | _ => none

/-- The members of `client`, and of `sclient`, that the response is read
into. -/
structure HttpClient where
  response_ : Text
  content_length_ : Nat
  headers_ : List (Text × Text)
  data_ : Text
  status_code_ : Nat
  status_message_ : Text
deriving DecidableEq, Repr

namespace HttpClient

/-- A client whose request is written. -/
def waiting : HttpClient :=
  { response_ := [], content_length_ := 0, headers_ := [], data_ := []
    status_code_ := 0, status_message_ := [] }

/-- `handle_read_status_line`; `none` is the failure callback. -/
def handleReadStatusLine (c : HttpClient) : Option HttpClient := do
  let word := c.response_.dropWhile isSpace
  let http_version := word.takeWhile fun c => !isSpace c
  -- a word at the end of the buffer leaves the stream at its end
  let rest := word.dropWhile fun c => !isSpace c
  let (status_code_, rest) ← extractUnsigned 32 (rest.dropWhile isSpace)
  if rest = [] then none
  else if http_version.take 5 ≠ "HTTP/".toList then none
  else some { c with
    status_code_
    status_message_ := rest.takeWhile (· ≠ '\n')
    response_ := (rest.dropWhile (· ≠ '\n')).drop 1 }

/-- One line of the header loop; `none` is an exception of the cast. -/
def readHeader (c : HttpClient) (header : Text) : Option HttpClient :=
  match matchHeader [] (trim header) with
  | some (name, value) => do
      let c := { c with
        headers_ := c.headers_.filter (·.1 ≠ name) ++ [(name, value)] }
      if name = "Content-Length".toList then
        let content_length_ ← lexicalCastSize value
        pure { c with content_length_ }
      else pure c
  | none => some c

/-- The header loop, in the midst of a line. -/
def readHeaders (c : HttpClient) (line : Text) : Text → Option HttpClient
  | [] =>
      if line = [] ∨ line = ['\r'] then some { c with response_ := [] }
      else (c.readHeader line).map fun c => { c with response_ := [] }
  | ch :: rest =>
      if ch = '\n' then
        if line = ['\r'] then some { c with response_ := rest }
        else (c.readHeader line).bind fun c => readHeaders c [] rest
      else readHeaders c (line ++ [ch]) rest

/-- Everything in the buffer is added to the data. -/
def takeContent (c : HttpClient) : HttpClient :=
  { c with data_ := c.data_ ++ c.response_, response_ := [] }

/-- `handle_read_headers` without an error. -/
def handleReadHeaders (c : HttpClient) : Option HttpClient :=
  (c.readHeaders [] c.response_).map takeContent

/-- `handle_read_content` without an error, for what one read has brought. -/
def handleReadContent (c : HttpClient) (chunk : Chunk Char) : HttpClient :=
  { c with response_ := c.response_ ++ chunk.units }.takeContent

end HttpClient

/-- What becomes of a request that was sent: a callback, or an exception that
leaves the handler. -/
inductive HttpOutcome where
  | success (status : Nat) (headers : List (Text × Text)) (data : Text)
  | failure
  | thrown
deriving DecidableEq, Repr

/-- The response in these reads, and then the end of the stream. -/
def HttpClient.readResponse (chunks : List (Chunk Char)) : HttpOutcome :=
  match readUntil "\r\n".toList [] chunks with
  | none => .failure
  | some (response_, chunks) =>
      match { waiting with response_ }.handleReadStatusLine with
      | none => .failure
      | some c =>
          match readUntil "\r\n\r\n".toList c.response_ chunks with
          | none => .failure
          | some (response_, chunks) =>
              match { c with response_ }.handleReadHeaders with
              | none => .thrown
              | some c =>
                  let c := chunks.foldl HttpClient.handleReadContent c
                  .success c.status_code_ c.headers_ c.data_

/-- `http::client`. -/
def client (chunks : List (Chunk Char)) : HttpOutcome :=
  HttpClient.readResponse chunks

/-- `http::sclient`: the same handlers, over a TLS stream. -/
def sclient (chunks : List (Chunk Char)) : HttpOutcome :=
  HttpClient.readResponse chunks

/-- `http::get`: which of the two reads the response is up to the scheme. -/
def httpGet (scheme : Text) (chunks : List (Chunk Char)) : HttpOutcome :=
  if scheme = "http".toList then client chunks else sclient chunks

/-! What the handlers leave in the buffer. -/

/-- `rest` is what follows the first empty line of a text. -/
def AfterEmptyLine (text rest : Text) : Prop := After '\n' ['\r'] text rest

/-- A header block that has come to its end has an empty line. -/
theorem exists_afterEmptyLine {text : Text}
    (h : "\r\n\r\n".toList <:+: text) : ∃ rest, AfterEmptyLine text rest := by
  obtain ⟨pre, post, rfl⟩ := h
  have hblank : '\n' ∉ ['\r'] := by decide
  obtain ⟨rest, hrest⟩ := exists_after hblank (pre ++ ['\r']) post
  refine ⟨rest, ?_⟩
  have hsplit : pre ++ "\r\n\r\n".toList ++ post =
      (pre ++ ['\r']) ++ '\n' :: (['\r'] ++ '\n' :: post) := by
    simp
  rw [hsplit]
  exact hrest

namespace HttpClient

theorem readHeader_frame {c c' : HttpClient} {header : Text}
    (h : c.readHeader header = some c') :
    c'.data_ = c.data_ ∧ c'.response_ = c.response_ := by
  unfold readHeader at h
  split at h
  · simp only [Option.bind_eq_bind, Option.pure_def] at h
    split_ifs at h
    · obtain ⟨n, -, hc⟩ := Option.bind_eq_some_iff.mp h
      obtain rfl := Option.some.inj hc
      exact ⟨rfl, rfl⟩
    · obtain rfl := Option.some.inj h
      exact ⟨rfl, rfl⟩
  · obtain rfl := Option.some.inj h
    exact ⟨rfl, rfl⟩

/-- The header loop stops behind the first empty line. -/
theorem readHeaders_spec {c c' : HttpClient} {line text rest : Text}
    (hline : '\n' ∉ line) (hafter : AfterEmptyLine (line ++ text) rest)
    (h : c.readHeaders line text = some c') :
    c'.response_ = rest ∧ c'.data_ = c.data_ := by
  induction text generalizing c line with
  | nil =>
      rw [List.append_nil] at hafter
      exact absurd hafter (not_after_of_not_mem hline)
  | cons ch text ih =>
      rw [readHeaders] at h
      by_cases hlf : ch = '\n'
      · subst hlf
        rw [if_pos rfl] at h
        rcases (after_line_iff (by decide) hline).mp hafter with
          ⟨rfl, rfl⟩ | ⟨hne, htail⟩
        · rw [if_pos rfl] at h
          obtain rfl := Option.some.inj h
          exact ⟨rfl, rfl⟩
        · rw [if_neg hne] at h
          obtain ⟨mid, hmid, hrest⟩ := Option.bind_eq_some_iff.mp h
          obtain ⟨hresponse, hdata⟩ := ih List.not_mem_nil htail hrest
          exact ⟨hresponse, hdata.trans (readHeader_frame hmid).1⟩
      · rw [if_neg hlf] at h
        have hmore : '\n' ∉ line ++ [ch] := by
          rw [List.mem_append, List.mem_singleton]
          exact not_or.mpr ⟨hline, Ne.symm hlf⟩
        rw [List.append_cons] at hafter
        exact ih hmore hafter h

theorem takeSign_suffix (s : Text) : (takeSign s).2 <:+ s := by
  unfold takeSign
  split
  · exact List.suffix_cons _ _
  · exact List.suffix_cons _ _
  · exact List.suffix_refl _

theorem extractUnsigned_suffix {bits n : Nat} {s rest : Text}
    (h : extractUnsigned bits s = some (n, rest)) : rest <:+ s := by
  unfold extractUnsigned at h
  dsimp only at h
  split at h
  · cases h
  · obtain ⟨-, rfl⟩ := Prod.mk.inj (Option.some.inj h)
    exact (List.dropWhile_suffix _).trans (takeSign_suffix s)

/-- The status line handler takes what it reads off the front. -/
theorem handleReadStatusLine_suffix {c c' : HttpClient}
    (h : c.handleReadStatusLine = some c') :
    c'.response_ <:+ c.response_ ∧ c'.data_ = c.data_ := by
  unfold handleReadStatusLine at h
  obtain ⟨⟨code, rest⟩, hcode, h⟩ := Option.bind_eq_some_iff.mp h
  dsimp only at h
  split_ifs at h
  obtain rfl := Option.some.inj h
  refine ⟨?_, rfl⟩
  have hrest := extractUnsigned_suffix hcode
  exact ((List.drop_suffix 1 _).trans (List.dropWhile_suffix _)).trans
    (hrest.trans ((List.dropWhile_suffix _).trans
      ((List.dropWhile_suffix _).trans (List.dropWhile_suffix _))))

/-- The header handler gives the data what stands behind the empty line. -/
theorem handleReadHeaders_spec {c c' : HttpClient} {rest : Text}
    (hafter : AfterEmptyLine c.response_ rest)
    (h : c.handleReadHeaders = some c') :
    c'.data_ = c.data_ ++ rest ∧ c'.response_ = [] := by
  obtain ⟨mid, hmid, rfl⟩ := Option.map_eq_some_iff.mp h
  obtain ⟨hresponse, hdata⟩ := readHeaders_spec List.not_mem_nil hafter hmid
  exact ⟨congrArg₂ (· ++ ·) hdata hresponse, rfl⟩

/-- Every read adds what it has brought. -/
theorem foldl_handleReadContent {c : HttpClient} (hempty : c.response_ = [])
    (chunks : List (Chunk Char)) :
    (chunks.foldl handleReadContent c).data_ = c.data_ ++ joined chunks := by
  induction chunks generalizing c with
  | nil => exact (List.append_nil _).symm
  | cons chunk chunks ih =>
      have hstep : (c.handleReadContent chunk).data_ =
          c.data_ ++ chunk.units := by
        simp [handleReadContent, takeContent, hempty]
      rw [List.foldl_cons, ih rfl, hstep, joined_cons, List.append_assoc]

/-- A success has read a status line and a whole header block, and its data is
everything behind the empty line. -/
theorem readResponse_success {chunks : List (Chunk Char)} {status : Nat}
    {headers : List (Text × Text)} {data : Text}
    (h : readResponse chunks = .success status headers data) :
    ∃ buffer reads c,
      readUntil "\r\n".toList [] chunks = some (buffer, reads) ∧
      { waiting with response_ := buffer }.handleReadStatusLine = some c ∧
      "\r\n\r\n".toList <:+: c.response_ ++ joined reads ∧
      AfterEmptyLine (c.response_ ++ joined reads) data := by
  unfold readResponse at h
  split at h
  · cases h
  · rename_i buffer reads hbuffer
    split at h
    · cases h
    · rename_i c hc
      split at h
      · cases h
      · rename_i block content hblock
        split at h
        · cases h
        · rename_i c' hc'
          injection h with hstatus hheaders hdata
          obtain ⟨hjoined, hend⟩ := readUntil_spec hblock
          obtain ⟨rest, hrest⟩ := exists_afterEmptyLine hend
          obtain ⟨htaken, hempty⟩ := handleReadHeaders_spec hrest hc'
          have hnone : c.data_ = [] := (handleReadStatusLine_suffix hc).2
          refine ⟨buffer, reads, c, hbuffer, hc, ?_, ?_⟩
          · rw [← hjoined]
            exact hend.trans (List.prefix_append _ _).isInfix
          · rw [← hdata, foldl_handleReadContent hempty, htaken, ← hjoined]
            simp only [hnone, List.nil_append]
            exact hrest.append _

end HttpClient

/-! A response that begins with a status line. -/

/-- The status line of a response. -/
structure StatusLine where
  version : Text
  code : Text
  message : Text
  noSpace : ∀ c ∈ version, isSpace c = false
  code_ne_nil : code ≠ []
  isDigit : ∀ c ∈ code, c.isDigit
  code_lt : Nat.ofDigitChars 10 code 0 < 2 ^ 32
  endsCode : ∀ c ∈ message.head?, c.isDigit = false
  oneLine : '\n' ∉ message

namespace StatusLine

variable (line : StatusLine)

/-- The line without its line feed. -/
def content : Text :=
  "HTTP/".toList ++ (line.version ++ ' ' :: (line.code ++
    (line.message ++ ['\r'])))

def text : Text := line.content ++ ['\n']

theorem lf_not_mem_content : '\n' ∉ line.content := by
  have hversion : '\n' ∉ line.version := fun hmem =>
    absurd (line.noSpace _ hmem) (by decide)
  have hcode : '\n' ∉ line.code := fun hmem =>
    absurd (line.isDigit _ hmem) (by decide)
  simp [content, hversion, hcode, line.oneLine]

/-- The empty line of such a response comes after its status line. -/
theorem after_text {rest data : Text} (h : AfterEmptyLine rest data) :
    AfterEmptyLine (line.text ++ rest) data := by
  rw [text, List.append_assoc, List.singleton_append]
  refine (after_line_iff (by decide) line.lf_not_mem_content).mpr
    (Or.inr ⟨?_, h⟩)
  intro hempty
  have hhead : line.content.head? = some 'H' := rfl
  rw [hempty] at hhead
  exact absurd hhead (by decide)

end StatusLine

theorem extractUnsigned_append {bits : Nat} {digits rest : Text}
    (hne : digits ≠ []) (hdigits : ∀ c ∈ digits, c.isDigit)
    (hlt : Nat.ofDigitChars 10 digits 0 < 2 ^ bits)
    (hrest : ∀ c ∈ rest.head?, c.isDigit = false) :
    extractUnsigned bits (digits ++ rest) =
      some (Nat.ofDigitChars 10 digits 0, rest) := by
  have hsign : takeSign (digits ++ rest) = (false, digits ++ rest) := by
    obtain ⟨d, digits, rfl⟩ := List.exists_cons_of_ne_nil hne
    have hd := hdigits d List.mem_cons_self
    unfold takeSign
    split
    · rename_i heq
      obtain rfl := (List.cons.inj heq).1
      exact absurd hd (by decide)
    · rename_i heq
      obtain rfl := (List.cons.inj heq).1
      exact absurd hd (by decide)
    · rfl
  have hstop : rest.takeWhile Char.isDigit = [] ∧
      rest.dropWhile Char.isDigit = rest := by
    cases rest with
    | nil => exact ⟨rfl, rfl⟩
    | cons c rest =>
        have hc : ¬ c.isDigit = true := by simp [hrest c rfl]
        exact ⟨List.takeWhile_cons_of_neg hc, List.dropWhile_cons_of_neg hc⟩
  unfold extractUnsigned
  simp only [hsign]
  rw [List.takeWhile_append_of_pos hdigits, List.dropWhile_append_of_pos hdigits,
    hstop.1, hstop.2, List.append_nil,
    if_neg (not_or.mpr ⟨hne, Nat.not_le.mpr hlt⟩)]
  rfl

namespace StatusLine

variable (line : StatusLine)

theorem not_isSpace_word :
    ∀ c ∈ "HTTP/".toList ++ line.version, (!isSpace c) = true := by
  have hname : ∀ c ∈ "HTTP/".toList, (!isSpace c) = true := by decide
  intro c hc
  rcases List.mem_append.mp hc with hc | hc
  · exact hname c hc
  · rw [line.noSpace c hc]
    rfl

theorem dropWhile_isSpace_code (rest : Text) :
    (line.code ++ rest).dropWhile isSpace = line.code ++ rest := by
  obtain ⟨d, code, hcode⟩ := List.exists_cons_of_ne_nil line.code_ne_nil
  have hspace : isSpace d = false :=
    isSpace_eq_false_of_isDigit (line.isDigit d (hcode ▸ List.mem_cons_self))
  rw [hcode, List.cons_append]
  exact List.dropWhile_cons_of_neg (by simp [hspace])

/-- What follows the status code is not taken for a part of it. -/
theorem endsCode_message (rest : Text) :
    ∀ c ∈ ((line.message ++ ['\r']) ++ rest).head?, c.isDigit = false := by
  intro c hc
  cases hmessage : line.message with
  | nil =>
      rw [hmessage] at hc
      obtain rfl := Option.some.inj hc
      decide
  | cons d message =>
      refine line.endsCode c ?_
      rw [hmessage] at hc ⊢
      exact hc

/-- The status line handler reads the line to its end. -/
theorem handleReadStatusLine {c : HttpClient} {more : Text}
    (h : c.response_ = line.text ++ more) :
    c.handleReadStatusLine = some { c with
      status_code_ := Nat.ofDigitChars 10 line.code 0
      status_message_ := line.message ++ ['\r']
      response_ := more } := by
  have hsplit : line.text ++ more = ("HTTP/".toList ++ line.version) ++
      ' ' :: (line.code ++ ((line.message ++ ['\r']) ++ '\n' :: more)) := by
    simp [text, content]
  have hfirst : (line.text ++ more).dropWhile isSpace = line.text ++ more :=
    rfl
  have htake : (line.text ++ more).takeWhile (fun c => !isSpace c) =
      "HTTP/".toList ++ line.version := by
    rw [hsplit, List.takeWhile_append_of_pos line.not_isSpace_word,
      List.takeWhile_cons_of_neg (by decide), List.append_nil]
  have hdrop : ((line.text ++ more).dropWhile fun c => !isSpace c).dropWhile
      isSpace = line.code ++ ((line.message ++ ['\r']) ++ '\n' :: more) := by
    rw [hsplit, List.dropWhile_append_of_pos line.not_isSpace_word,
      List.dropWhile_cons_of_neg (by decide),
      List.dropWhile_cons_of_pos (by decide), line.dropWhile_isSpace_code]
  have hcode := extractUnsigned_append line.code_ne_nil line.isDigit
    line.code_lt (line.endsCode_message ('\n' :: more))
  have hline : ∀ c ∈ line.message ++ ['\r'], decide (c ≠ '\n') = true := by
    intro c hc
    rcases List.mem_append.mp hc with hc | hc
    · exact decide_eq_true fun heq => line.oneLine (heq ▸ hc)
    · obtain rfl := List.mem_singleton.mp hc
      decide
  unfold HttpClient.handleReadStatusLine
  simp only [h, hfirst, htake, hdrop, hcode, Option.bind_eq_bind,
    Option.bind_some]
  rw [if_neg (by simp), if_neg (by simp),
    List.takeWhile_append_of_pos hline, List.takeWhile_cons_of_neg (by decide),
    List.dropWhile_append_of_pos hline, List.dropWhile_cons_of_neg (by decide),
    List.append_nil]
  rfl

/-- A read that has come to the end of the first line has the line whole. -/
theorem exists_more {buffer rest stream : Text}
    (h : buffer ++ stream = line.text ++ rest)
    (hend : "\r\n".toList <:+: buffer) :
    ∃ more, buffer = line.text ++ more ∧ more ++ stream = rest := by
  rcases List.append_eq_append_iff.mp h with
    ⟨part, htext, hstream⟩ | ⟨more, hbuffer, hrest⟩
  · have hlf : '\n' ∈ buffer := hend.subset (by decide)
    cases part using List.reverseRecOn with
    | nil =>
        rw [List.append_nil] at htext
        exact ⟨[], by rw [htext, List.append_nil], hstream⟩
    | append_singleton part c =>
        rw [text, ← List.append_assoc] at htext
        obtain ⟨hcontent, -⟩ := List.append_inj' htext rfl
        refine absurd ?_ line.lf_not_mem_content
        rw [hcontent]
        exact List.mem_append_left _ hlf
  · exact ⟨more, hbuffer, hrest.symm⟩

/-- Behind its status line the response is read as it stands. -/
theorem exists_readUntil {chunks : List (Chunk Char)} {rest : Text}
    (h : joined chunks = line.text ++ rest) :
    ∃ more reads,
      readUntil "\r\n".toList [] chunks = some (line.text ++ more, reads) ∧
      more ++ joined reads = rest := by
  have hend : "\r\n".toList <:+: [] ++ joined chunks := by
    refine ⟨"HTTP/".toList ++ (line.version ++ ' ' ::
      (line.code ++ line.message)), rest, ?_⟩
    simp [h, text, content]
  obtain ⟨buffer, reads, hread⟩ := LineStream.exists_readUntil hend
  obtain ⟨hjoined, hfound⟩ := readUntil_spec hread
  obtain ⟨more, rfl, hmore⟩ := line.exists_more (hjoined.trans h) hfound
  exact ⟨more, reads, hread, hmore⟩

end StatusLine

theorem httpGet_eq_readResponse (scheme : Text) (chunks : List (Chunk Char)) :
    httpGet scheme chunks = HttpClient.readResponse chunks := by
  unfold httpGet client sclient
  exact ite_self _

/-- A response with a status line fails when its header block is cut off, and
only then. -/
theorem httpGet_eq_failure_iff {scheme : Text} {chunks : List (Chunk Char)}
    {line : StatusLine} {rest : Text} (h : joined chunks = line.text ++ rest) :
    httpGet scheme chunks = .failure ↔ ¬ "\r\n\r\n".toList <:+: rest := by
  obtain ⟨more, reads, hread, rfl⟩ := line.exists_readUntil h
  have hc := line.handleReadStatusLine (c := { HttpClient.waiting with
    response_ := line.text ++ more }) rfl
  rw [httpGet_eq_readResponse, HttpClient.readResponse, hread]
  simp only [hc]
  cases hblock : readUntil "\r\n\r\n".toList more reads with
  | none =>
      refine iff_of_true rfl fun hend => ?_
      obtain ⟨block, content, hfound⟩ := exists_readUntil hend
      rw [hfound] at hblock
      cases hblock
  | some found =>
      obtain ⟨hjoined, hend⟩ := readUntil_spec hblock
      refine iff_of_false ?_ (not_not.mpr ?_)
      · intro hfailure
        dsimp only at hfailure
        split at hfailure <;> cases hfailure
      · rw [← hjoined]
        exact hend.trans (List.prefix_append _ _).isInfix

/-- A success is reported only when the header block behind the status line
has come whole.  The data is what follows the first empty line there; in a
response that begins with a status line that is its first empty line. -/
theorem httpGet_success {scheme : Text} {chunks : List (Chunk Char)}
    {status : Nat} {headers : List (Text × Text)} {data : Text}
    (h : httpGet scheme chunks = .success status headers data) :
    (∃ buffer reads c,
      readUntil "\r\n".toList [] chunks = some (buffer, reads) ∧
      { HttpClient.waiting with response_ := buffer }.handleReadStatusLine =
        some c ∧
      "\r\n\r\n".toList <:+: c.response_ ++ joined reads ∧
      AfterEmptyLine (c.response_ ++ joined reads) data) ∧
    ∀ (line : StatusLine) (rest : Text), joined chunks = line.text ++ rest →
      "\r\n\r\n".toList <:+: rest ∧ AfterEmptyLine (joined chunks) data := by
  rw [httpGet_eq_readResponse] at h
  obtain ⟨buffer, reads, c, hread, hc, hend, hafter⟩ :=
    HttpClient.readResponse_success h
  refine ⟨⟨buffer, reads, c, hread, hc, hend, hafter⟩, ?_⟩
  intro line rest hline
  obtain ⟨more, reads', hread', rfl⟩ := line.exists_readUntil hline
  rw [hread'] at hread
  cases hread
  rw [line.handleReadStatusLine rfl] at hc
  cases hc
  rw [hline]
  exact ⟨hend, line.after_text hafter⟩

/-- The end of a header block, split between two reads. -/
def splitResponse : List (Chunk Char) :=
  [⟨"HTTP/1.1 2".toList, by decide⟩,
    ⟨"00 OK\r\nAge: 7\r\n\r".toList, by decide⟩,
    ⟨"\nupdate".toList, by decide⟩]

theorem httpGet_splitResponse :
    httpGet "https".toList splitResponse =
        .success 200 [("Age".toList, ['7'])] "update".toList ∧
      "\r\n\r\n".toList <:+: "Age: 7\r\n\r\nupdate".toList ∧
      AfterEmptyLine (joined splitResponse) "update".toList := by
  have h : httpGet "https".toList splitResponse =
      .success 200 [("Age".toList, ['7'])] "update".toList := by decide
  let line : StatusLine :=
    { version := "1.1".toList, code := "200".toList, message := " OK".toList
      noSpace := by decide, code_ne_nil := by decide, isDigit := by decide
      code_lt := by decide, endsCode := by decide, oneLine := by decide }
  exact ⟨h, (httpGet_success h).2 line "Age: 7\r\n\r\nupdate".toList
    (by decide)⟩

/-- Three of the five bytes, and then the server closes the connection. -/
def truncatedResponse : List (Chunk Char) :=
  [⟨"HTTP/1.1 200 OK\r\nContent-Length: 5\r\n\r\nabc".toList, by decide⟩]

/-- The status code comes after an empty line. -/
def brokenResponse : List (Chunk Char) :=
  [⟨"HTTP/1.1\r\n\r\n200 OK\r\nAge: 7\r\n\r\nupdate".toList, by decide⟩]

/-- The length of the body is not held against `Content-Length`, and the empty
line need not be the first of the response. -/
theorem httpGet_truncatedResponse :
    (httpGet "http".toList truncatedResponse =
        .success 200 [("Content-Length".toList, ['5'])] "abc".toList ∧
      lexicalCastSize ['5'] = some 5 ∧ "abc".toList.length ≠ 5) ∧
    httpGet "http".toList brokenResponse =
        .success 200 [("Age".toList, ['7'])] "update".toList ∧
      ¬ AfterEmptyLine (joined brokenResponse) "update".toList := by
  refine ⟨by decide, by decide, fun hafter => ?_⟩
  have hfirst : AfterEmptyLine (joined brokenResponse)
      "200 OK\r\nAge: 7\r\n\r\nupdate".toList :=
    ⟨["HTTP/1.1\r".toList], by decide, by decide⟩
  have hblank : '\n' ∉ ['\r'] := by decide
  exact absurd (hafter.unique hblank hfirst) (by decide)

end BohunoPyzord
