/-
A request that is written out is read as it is, in whatever parts it arrives.
-/
import BohunoPyzord.RequestParser
import BohunoPyzord.UdpServer

namespace BohunoPyzord

/-- A header that can be written out. -/
structure PlainHeader extends HttpHeader where
  name_ne : name ≠ []
  name_tokens : ∀ c ∈ name, isToken c = true
  value_plain : ∀ c ∈ value, isCtl c = false

/-- A request that can be written out. -/
structure PlainRequest where
  method : List Byte
  uri : List Byte
  major : Nat
  minor : Nat
  headers : List PlainHeader
  method_ne : method ≠ []
  method_tokens : ∀ c ∈ method, isToken c = true
  uri_ne : uri ≠ []
  uri_plain : ∀ c ∈ uri, c ≠ byte ' ' ∧ isCtl c = false
  major_lt : major < 10 ^ 9
  minor_lt : minor < 10 ^ 9

/-- The digits of a version number. -/
def versionText (n : Nat) : List Byte := (decimal n).map byte

def PlainHeader.text (header : PlainHeader) : List Byte :=
  header.name ++ literal ": " ++ header.value ++ literal "\r\n"

namespace PlainRequest

/-- The lines of the request. -/
def lines (request : PlainRequest) : List Byte :=
  request.method ++ literal " " ++ request.uri ++ literal " HTTP/" ++
    versionText request.major ++ literal "." ++ versionText request.minor ++
    literal "\r\n" ++ request.headers.flatMap PlainHeader.text

/-- The request written out: its lines and an empty line. -/
def text (request : PlainRequest) : List Byte :=
  request.lines ++ literal "\r\n"

/-- The request that is written out. -/
def request (request : PlainRequest) : HttpRequest where
  method := request.method
  uri := request.uri
  http_version_major := request.major
  http_version_minor := request.minor
  headers := request.headers.map PlainHeader.toHttpHeader

end PlainRequest

variable {c : Byte}

/-! Version numbers. -/

/-- Digits of a number that no step overflows on the way to. -/
def Digits (digits : List Byte) : Prop :=
  (∀ c ∈ digits, isDigit c = true) ∧ number digits ≤ maxNumber

theorem number_le_append (first second : List Byte) :
    number first ≤ number (first ++ second) := by
  induction second using List.reverseRecOn with
  | nil => rw [List.append_nil]
  | append_singleton second c ih =>
      rw [← List.append_assoc, number_append_singleton]
      omega

theorem Digits.of_append {first second : List Byte}
    (h : Digits (first ++ second)) : Digits first :=
  ⟨(List.forall_mem_append.mp h.1).1, (number_le_append first second).trans h.2⟩

theorem Digits.accumulate {read : List Byte} (h : Digits (read ++ [c])) :
    accumulate (number read) c = (((number (read ++ [c]) : Nat) : Int), false) := by
  have hdigit := h.1 c List.mem_concat_self
  obtain ⟨hfits, hvalue⟩ := accumulate_spec hdigit h.of_append.2
  have hle := h.2
  rw [number_append_singleton] at hle ⊢
  have hfine := hfits.mpr hle
  exact Prod.ext (hvalue hfine) hfine

theorem toNat_byte {c : Char} (h : c.isDigit = true) :
    (byte c).toNat = c.toNat := by
  have hle := (Char.isDigit_iff_toNat.mp h).2
  rw [byte, BitVec.toNat_ofNat]
  exact Nat.mod_eq_of_lt (hle.trans_lt (by decide))

theorem isDigit_byte {c : Char} (h : c.isDigit = true) :
    isDigit (byte c) = true := by
  rw [isDigit_iff, toNat_byte h]
  exact Char.isDigit_iff_toNat.mp h

theorem number_map_byte {digits : List Char}
    (h : ∀ c ∈ digits, c.isDigit = true) :
    number (digits.map byte) = Nat.ofDigitChars 10 digits 0 := by
  induction digits using List.reverseRecOn with
  | nil => rfl
  | append_singleton digits c ih =>
      obtain ⟨hdigits, hc⟩ := List.forall_mem_append.mp h
      have hbyte := toNat_byte (hc c List.mem_cons_self)
      rw [List.map_append, List.map_singleton, number_append_singleton,
        ih hdigits, hbyte, Nat.ofDigitChars_append, Nat.ofDigitChars_cons,
        Nat.ofDigitChars_nil, Nat.mul_comm]
      rfl

theorem number_versionText (n : Nat) : number (versionText n) = n := by
  rw [versionText, number_map_byte fun c => isDigit_of_mem_decimal,
    ofDigitChars_decimal]

theorem digits_versionText {n : Nat} (h : n < 10 ^ 9) :
    Digits (versionText n) := by
  refine ⟨?_, ?_⟩
  · intro c hc
    obtain ⟨digit, hdigit, rfl⟩ := List.mem_map.mp hc
    exact isDigit_byte (isDigit_of_mem_decimal hdigit)
  · rw [number_versionText]
    exact h.le.trans (by decide)

theorem versionText_ne_nil (n : Nat) : versionText n ≠ [] := by
  rw [versionText, Ne, List.map_eq_nil_iff]
  exact decimal_ne_nil n

namespace RequestParser

variable (req : HttpRequest)

/-- The parser in a state before which nothing has overflowed. -/
def within (state_ : ParserState) (req : HttpRequest) : RequestParser :=
  { state_, req, overflowed := false }

/-- Reading from one state to another. -/
abbrev Passes (state_ : ParserState) (req : HttpRequest) (input : List Byte)
    (state_' : ParserState) (req' : HttpRequest) : Prop :=
  requestParser.Reads (within state_ req) input (within state_' req')

section

variable {start next : ParserState} {initial : HttpRequest}
  (state : List Byte → HttpRequest) (good : List Byte → Prop)
  (hgood : ∀ {first second}, good (first ++ second) → good first)
  (hstep : ∀ {read c}, good (read ++ [c]) →
    (within next (state read)).consume c =
      (none, within next (state (read ++ [c]))))

include hgood hstep

/-- What is read in one state. -/
theorem passes_of_step {read input : List Byte} (h : good (read ++ input)) :
    Passes next (state read) input next (state (read ++ input)) :=
  Recognizer.reads_of_step (fun read => within next (state read)) good hgood
    hstep read h

/-- What is read in one state but for a character that leads to it. -/
theorem passes_of_first
    (hfirst : ∀ {c}, good [c] →
      (within start initial).consume c = (none, within next (state [c])))
    {input : List Byte} (hne : input ≠ []) (h : good input) :
    Passes start initial input next (state input) := by
  obtain ⟨c, rest, rfl⟩ := List.exists_cons_of_ne_nil hne
  have hc : good ([c] ++ rest) := h
  exact Recognizer.reads_cons (hfirst (hgood hc))
    (passes_of_step state good hgood hstep hc)

end

theorem passes_method {method : List Byte} (hne : method ≠ [])
    (htokens : ∀ c ∈ method, isToken c = true) :
    Passes .methodStart { req with method := [] } method
      .method { req with method } := by
  refine passes_of_first (fun method => { req with method })
    (fun method => ∀ c ∈ method, isToken c = true)
    (fun h => (List.forall_mem_append.mp h).1) ?_ ?_ hne htokens
  · intro read c hread
    have hc := hread c List.mem_concat_self
    have hspace : c ≠ byte ' ' := ne_of_test hc (by decide)
    simp [consume, within, hspace, not_isToken, hc, pushMethod]
  · intro c hread
    have hc := hread c List.mem_cons_self
    simp [consume, within, not_isToken, hc, pushMethod, goTo]

theorem passes_uri {uri : List Byte}
    (hplain : ∀ c ∈ uri, c ≠ byte ' ' ∧ isCtl c = false) :
    Passes .uri { req with uri := [] } uri .uri { req with uri } := by
  refine passes_of_step (fun uri => { req with uri })
    (fun uri => ∀ c ∈ uri, c ≠ byte ' ' ∧ isCtl c = false)
    (fun h => (List.forall_mem_append.mp h).1) ?_ hplain
  intro read c hread
  obtain ⟨hspace, hc⟩ := hread c List.mem_concat_self
  simp [consume, within, hspace, hc, pushUri]

/-- A version number, of which the request makes `set`. -/
theorem passes_number {start next : ParserState} (set : Int → HttpRequest)
    (hstep : ∀ state_, state_ = start ∨ state_ = next → ∀ v c,
      isDigit c = true → (accumulate v c).2 = false →
      (within state_ (set v)).consume c =
        (none, within next (set (accumulate v c).1)))
    {digits : List Byte} (hne : digits ≠ []) (h : Digits digits) :
    Passes start (set 0) digits next (set (number digits)) := by
  have hdigit : ∀ {state_}, state_ = start ∨ state_ = next → ∀ {read c},
      Digits (read ++ [c]) → (within state_ (set (number read))).consume c =
        (none, within next (set (number (read ++ [c])))) := by
    intro state_ hstate read c hread
    have hvalue := hread.accumulate
    have hconsume := hstep state_ hstate (number read) c
      (hread.1 c List.mem_concat_self) (congrArg Prod.snd hvalue)
    rwa [hvalue] at hconsume
  exact passes_of_first (fun digits => set (number digits)) Digits
    Digits.of_append (hdigit (Or.inr rfl))
    (fun {c} => @hdigit start (Or.inl rfl) [] c) hne h

theorem passes_major {digits : List Byte} (hne : digits ≠ [])
    (h : Digits digits) :
    Passes .httpVersionMajorStart { req with http_version_major := 0 } digits
      .httpVersionMajor { req with http_version_major := number digits } := by
  refine passes_number (fun major => { req with http_version_major := major })
    ?_ hne h
  intro state_ hstate v c hc hfine
  have hdot : c ≠ byte '.' := ne_of_test hc (by decide)
  rcases hstate with rfl | rfl
  · simp [consume, within, hc, accumulateMajor, hfine, goTo]
  · simp [consume, within, hdot, hc, accumulateMajor, hfine]

theorem passes_minor {digits : List Byte} (hne : digits ≠ [])
    (h : Digits digits) :
    Passes .httpVersionMinorStart { req with http_version_minor := 0 } digits
      .httpVersionMinor { req with http_version_minor := number digits } := by
  refine passes_number (fun minor => { req with http_version_minor := minor })
    ?_ hne h
  intro state_ hstate v c hc hfine
  have hreturn : c ≠ byte '\r' := ne_of_test hc (by decide)
  rcases hstate with rfl | rfl
  · simp [consume, within, hc, accumulateMinor, hfine, goTo]
  · simp [consume, within, hreturn, hc, accumulateMinor, hfine]

/-- A name, which is put into a new header. -/
theorem passes_name {name : List Byte} (hne : name ≠ [])
    (htokens : ∀ c ∈ name, isToken c = true) :
    Passes .headerLineStart req name .headerName
      { req with headers := req.headers ++ [{ name, value := [] }] } := by
  refine passes_of_first
    (fun name => { req with headers := req.headers ++ [{ name, value := [] }] })
    (fun name => ∀ c ∈ name, isToken c = true)
    (fun h => (List.forall_mem_append.mp h).1) ?_ ?_ hne htokens
  · intro read c hread
    have hc := hread c List.mem_concat_self
    have hcolon : c ≠ byte ':' := ne_of_test hc (by decide)
    simp [consume, within, hcolon, not_isToken, hc, pushName,
      List.modifyLast_concat]
  · intro c hread
    have hc := hread c List.mem_cons_self
    have hreturn : c ≠ byte '\r' := ne_of_test hc (by decide)
    have hspace : c ≠ byte ' ' := ne_of_test hc (by decide)
    have htab : c ≠ byte '\t' := ne_of_test hc (by decide)
    simp [consume, within, hreturn, hspace, htab, not_isToken, hc, pushHeader,
      goTo]

/-- A value, which is put into the last header. -/
theorem passes_value (headers : List HttpHeader) (name : List Byte)
    {value : List Byte} (hplain : ∀ c ∈ value, isCtl c = false) :
    Passes .headerValue
      { req with headers := headers ++ [{ name, value := [] }] } value
      .headerValue { req with headers := headers ++ [{ name, value }] } := by
  refine passes_of_step
    (fun value => { req with headers := headers ++ [{ name, value }] })
    (fun value => ∀ c ∈ value, isCtl c = false)
    (fun h => (List.forall_mem_append.mp h).1) ?_ hplain
  intro read c hread
  have hc := hread c List.mem_concat_self
  have hreturn : c ≠ byte '\r' := (ne_of_test (by decide) hc).symm
  simp [consume, within, hreturn, hc, pushValue, List.modifyLast_concat]

theorem passes_header (header : PlainHeader) :
    Passes .headerLineStart req header.text .headerLineStart
      { req with headers := req.headers ++ [header.toHttpHeader] } := by
  have hcolon : Passes .headerName
      { req with headers := req.headers ++ [{ name := header.name, value := [] }] }
      (literal ": ") .headerValue
      { req with headers := req.headers ++ [{ name := header.name, value := [] }] } :=
    rfl
  have hnewline : Passes .headerValue
      { req with headers := req.headers ++ [header.toHttpHeader] }
      (literal "\r\n") .headerLineStart
      { req with headers := req.headers ++ [header.toHttpHeader] } := rfl
  exact ((passes_name req header.name_ne header.name_tokens).append hcolon
    |>.append (passes_value req req.headers header.name header.value_plain)
    |>.append hnewline)

theorem passes_headers (headers : List PlainHeader) :
    Passes .headerLineStart req (headers.flatMap PlainHeader.text)
      .headerLineStart { req with
        headers := req.headers ++ headers.map PlainHeader.toHttpHeader } := by
  induction headers generalizing req with
  | nil =>
      rw [List.map_nil, List.append_nil]
      exact Recognizer.reads_nil _
  | cons header headers ih =>
      have hrest := (passes_header req header).append (ih _)
      rwa [List.append_assoc] at hrest

/-- The lines of a request. -/
theorem passes_lines (first second : Int) (request : PlainRequest) :
    requestParser.Reads (new first second) request.lines
      (within .headerLineStart request.request) := by
  let named : HttpRequest :=
    { method := request.method, uri := [], http_version_major := first
      http_version_minor := second, headers := [] }
  let versioned : HttpRequest :=
    { method := request.method, uri := request.uri, http_version_major := 0
      http_version_minor := 0, headers := [] }
  let major : HttpRequest := { versioned with
    http_version_major := number (versionText request.major) }
  let minor : HttpRequest := { major with
    http_version_minor := number (versionText request.minor) }
  have hmethod : Passes .methodStart { named with method := [] } request.method
      .method named := passes_method named request.method_ne
    request.method_tokens
  have hspace : Passes .method named (literal " ") .uri named := rfl
  have huri : Passes .uri named request.uri
      .uri { named with uri := request.uri } :=
    passes_uri named request.uri_plain
  have hhttp : Passes .uri { named with uri := request.uri }
      (literal " HTTP/") .httpVersionMajorStart versioned := rfl
  have hmajor : Passes .httpVersionMajorStart versioned
      (versionText request.major) .httpVersionMajor major :=
    passes_major versioned (versionText_ne_nil _)
      (digits_versionText request.major_lt)
  have hdot : Passes .httpVersionMajor major (literal ".")
      .httpVersionMinorStart major := rfl
  have hminor : Passes .httpVersionMinorStart major
      (versionText request.minor) .httpVersionMinor minor :=
    passes_minor major (versionText_ne_nil _)
      (digits_versionText request.minor_lt)
  have hnewline : Passes .httpVersionMinor minor (literal "\r\n")
      .headerLineStart minor := rfl
  have hheaders := passes_headers minor request.headers
  have hrequest : { minor with
      headers := minor.headers ++ request.headers.map PlainHeader.toHttpHeader } =
        request.request := by
    simp [minor, major, versioned, number_versionText, PlainRequest.request]
  rw [hrequest] at hheaders
  exact (((((((hmethod.append hspace).append huri).append hhttp).append
    hmajor).append hdot).append hminor).append hnewline).append hheaders

/-- A request that is written out ends with a line feed, up to which the
parser is undecided. -/
theorem exists_text (first second : Int) (request : PlainRequest) :
    ∃ before, request.text = before ++ [byte '\n'] ∧
      requestParser.Reads (new first second) before
        (within .expectingNewline3 request.request) := by
  have hreturn : Passes .headerLineStart request.request [byte '\r']
      .expectingNewline3 request.request := rfl
  refine ⟨request.lines ++ [byte '\r'], ?_,
    (passes_lines first second request).append hreturn⟩
  rw [List.append_assoc]
  rfl

/-- A request that is written out is accepted at its end. -/
theorem run_text (first second : Int) (request : PlainRequest) :
    requestParser.run (new first second) request.text =
      (some true, within .expectingNewline3 request.request, []) := by
  obtain ⟨before, htext, hbefore⟩ := exists_text first second request
  rw [htext, hbefore.run_append]
  rfl

/-- And no part of it is before. -/
theorem run_before (first second : Int) (request : PlainRequest)
    {read : List Byte} (hread : read <+: request.text)
    (hne : read ≠ request.text) :
    (requestParser.run (new first second) read).1 = none ∧
      (requestParser.run (new first second) read).2.2 = [] := by
  obtain ⟨before, htext, hbefore⟩ := exists_text first second request
  rw [htext] at hread hne
  exact hbefore.run_of_prefix
    ((List.prefix_concat_iff.mp hread).resolve_left hne)

/-- A request that is written out is accepted at its last byte, not before, and
is read as it is. -/
theorem request_read (first second : Int) (request : PlainRequest)
    (parts : List (List Byte)) (h : parts.flatten <+: request.text) :
    (parts.flatten ≠ request.text →
      (requestParser.runParts (new first second) parts).1 = none ∧
      (requestParser.runParts (new first second) parts).2.2 = []) ∧
    (parts.flatten = request.text → ∃ s,
      requestParser.runParts (new first second) parts = (some true, s, []) ∧
      s.req = request.request ∧ s.overflowed = false) := by
  rw [Recognizer.runParts_eq]
  constructor
  · exact fun hne => run_before first second request h hne
  · intro hall
    refine ⟨within .expectingNewline3 request.request, ?_, rfl, rfl⟩
    rw [hall, run_text]

theorem request_read_get : ∃ request : PlainRequest,
    request.text = literal "GET / HTTP/1.0\r\nHost: a\r\n\r\n" ∧
    ∃ s, requestParser.runParts (new 7 7)
        [literal "GET / HT", [], literal "TP/1.0\r\nHost: a\r\n\r\n"] =
      (some true, s, []) ∧ s.req = request.request ∧ s.overflowed = false := by
  let host : PlainHeader :=
    { name := literal "Host", value := literal "a", name_ne := by decide
      name_tokens := by decide, value_plain := by decide }
  let request : PlainRequest :=
    { method := literal "GET", uri := literal "/", major := 1, minor := 0
      headers := [host], method_ne := by decide, method_tokens := by decide
      uri_ne := by decide, uri_plain := by decide, major_lt := by decide
      minor_lt := by decide }
  have htext : request.text =
      literal "GET / HTTP/1.0\r\nHost: a\r\n\r\n" := by
    decide +kernel
  have hparts : [literal "GET / HT", [],
      literal "TP/1.0\r\nHost: a\r\n\r\n"].flatten = request.text := by
    rw [htext]
    rfl
  exact ⟨request, htext,
    (request_read 7 7 request _ (hparts ▸ List.prefix_rfl)).2 hparts⟩

end RequestParser

end BohunoPyzord
