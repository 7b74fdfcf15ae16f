/-
The requests that `http::client` and `http::sclient` send.  One whose method,
path and headers can be written out is the text of a request that the parser
of the HTTP server reads back, credentials included.
-/
import BohunoPyzord.Base64Codec
import BohunoPyzord.PacketCodec
import BohunoPyzord.PyzordDaemon
import BohunoPyzord.RequestText

namespace BohunoPyzord

/-- What `start` writes the request from. -/
structure ClientRequest where
  method_ : Text
  url_ : HttpUrl
  extra_request_headers_ : Packet

namespace ClientRequest

def addRequestHeader (r : ClientRequest) (name value : Text) : ClientRequest :=
  { r with
    extra_request_headers_ := r.extra_request_headers_.set name value }

/-- `set_basic_auth`; the realm is not used. -/
def setBasicAuth (r : ClientRequest) (username password : Text) :
    Option ClientRequest :=
  (Base64Codec.encode ((username ++ ':' :: password).map byte)).map
    fun encoded => r.addRequestHeader "Authorization".toList
      ("Basic ".toList ++ encoded.map fun c => Char.ofNat c.toNat)

def headerLine (entry : Text × Text) : Text :=
  entry.1 ++ ": ".toList ++ entry.2 ++ "\r\n".toList

/-- What `start` writes into `request_`. -/
def text (r : ClientRequest) : Text :=
  r.method_ ++ " ".toList ++ r.url_.path_ ++ " HTTP/1.0\r\n".toList ++
    r.extra_request_headers_.attributes_.flatMap headerLine ++
    headerLine ("Host".toList, r.url_.host_) ++
    headerLine ("Accept".toList, "*/*".toList) ++
    headerLine ("Connection".toList, "close".toList) ++ "\r\n".toList

def new (method_ : String) (url_ : HttpUrl) : ClientRequest :=
  { method_ := method_.toList, url_, extra_request_headers_ := .empty }

/-- `http::get`, without credentials and with them. -/
def get (url : HttpUrl) : ClientRequest := new "GET" url

def getAs (url : HttpUrl) (username password : Text) : Option ClientRequest :=
  (new "GET" url).setBasicAuth username password

def head (url : HttpUrl) : ClientRequest := new "HEAD" url

/-- `http::post`: its method is not `POST`, and its data is not sent. -/
def post (url : HttpUrl) (_ : Text) : ClientRequest := new "HEAD" url

/-- `http::propget`, without credentials and with them; its data is not sent
either. -/
def propget (url : HttpUrl) : ClientRequest :=
  ((new "PROPFIND" url).addRequestHeader "Depth".toList
    "1".toList).addRequestHeader "Content-Type".toList "application/xml".toList

def propgetAs (url : HttpUrl) (username password : Text) :
    Option ClientRequest :=
  (propget url).setBasicAuth username password

/-- A header that the server can read. -/
structure PlainLine (entry : Text × Text) : Prop where
  name_ne : entry.1 ≠ []
  name_tokens : ∀ c ∈ entry.1, isToken (byte c) = true
  value_plain : ∀ c ∈ entry.2, isCtl (byte c) = false

/-- A request that the server can read. -/
structure Plain (r : ClientRequest) : Prop where
  method_ne : r.method_ ≠ []
  method_tokens : ∀ c ∈ r.method_, isToken (byte c) = true
  path_ne : r.url_.path_ ≠ []
  path_plain : ∀ c ∈ r.url_.path_, byte c ≠ byte ' ' ∧ isCtl (byte c) = false
  extra : ∀ entry ∈ r.extra_request_headers_.attributes_, PlainLine entry
  host_plain : ∀ c ∈ r.url_.host_, isCtl (byte c) = false

def PlainLine.header {entry : Text × Text} (h : PlainLine entry) :
    PlainHeader where
  name := entry.1.map byte
  value := entry.2.map byte
  name_ne := by simpa using h.name_ne
  name_tokens := by simpa using h.name_tokens
  value_plain := by simpa using h.value_plain

theorem PlainLine.header_text {entry : Text × Text} (h : PlainLine entry) :
    h.header.text = (headerLine entry).map byte := by
  simp only [PlainHeader.text, header, headerLine, List.map_append]
  rfl

theorem plainLine {name value : Text} (hne : name ≠ [])
    (htokens : ∀ c ∈ name, isToken (byte c) = true)
    (hvalue : ∀ c ∈ value, isCtl (byte c) = false) : PlainLine (name, value) :=
  ⟨hne, htokens, hvalue⟩

theorem plainLine_host {host : Text} (h : ∀ c ∈ host, isCtl (byte c) = false) :
    PlainLine ("Host".toList, host) := plainLine (by decide) (by decide) h

theorem plainLine_accept : PlainLine ("Accept".toList, "*/*".toList) :=
  plainLine (by decide) (by decide) (by decide)

theorem plainLine_connection : PlainLine ("Connection".toList, "close".toList) :=
  plainLine (by decide) (by decide) (by decide)

variable {r : ClientRequest}

/-- The headers as the server is to read them. -/
def Plain.headers (h : r.Plain) : List PlainHeader :=
  (r.extra_request_headers_.attributes_.attach.map fun entry =>
    (h.extra entry.1 entry.2).header) ++
  [(plainLine_host h.host_plain).header, plainLine_accept.header,
    plainLine_connection.header]

/-- The request as the server is to read it. -/
def Plain.request (h : r.Plain) : PlainRequest where
  method := r.method_.map byte
  uri := r.url_.path_.map byte
  major := 1
  minor := 0
  headers := h.headers
  method_ne := by simpa using h.method_ne
  method_tokens := by simpa using h.method_tokens
  uri_ne := by simpa using h.path_ne
  uri_plain := by simpa using h.path_plain
  major_lt := by decide
  minor_lt := by decide

/-- What the client sends is the text of that request. -/
theorem Plain.request_text (h : r.Plain) :
    h.request.text = r.text.map byte := by
  have hextra : (r.extra_request_headers_.attributes_.attach.map fun entry =>
      (h.extra entry.1 entry.2).header).flatMap PlainHeader.text =
        (r.extra_request_headers_.attributes_.flatMap headerLine).map byte := by
    rw [List.flatMap_map, List.map_flatMap]
    simp only [PlainLine.header_text]
    rw [← List.flatMap_map Subtype.val fun entry => (headerLine entry).map byte,
      List.attach_map_subtype_val]
  have hversion : ∀ rest : List Byte, literal " HTTP/" ++ (versionText 1 ++
      (literal "." ++ (versionText 0 ++ (literal "\r\n" ++ rest)))) =
        " HTTP/1.0\r\n".toList.map byte ++ rest := fun rest => rfl
  rw [PlainRequest.text, PlainRequest.lines]
  simp only [request, headers, List.flatMap_append, hextra, List.flatMap_cons,
    List.flatMap_nil, PlainLine.header_text, text, List.map_append,
    List.append_assoc, List.nil_append, hversion]
  rfl

/-- The headers that were added arrive. -/
theorem Plain.mem_headers (h : r.Plain) {entry : Text × Text}
    (hentry : entry ∈ r.extra_request_headers_.attributes_) :
    (⟨entry.1.map byte, entry.2.map byte⟩ : HttpHeader) ∈
      h.request.request.headers := by
  have hheader : (h.extra entry hentry).header ∈ h.headers :=
    List.mem_append_left _ (List.mem_map.mpr
      ⟨⟨entry, hentry⟩, List.mem_attach _ _, rfl⟩)
  exact List.mem_map_of_mem hheader

theorem Plain.addRequestHeader (h : r.Plain) {name value : Text}
    (hline : PlainLine (name, value)) :
    (r.addRequestHeader name value).Plain where
  method_ne := h.method_ne
  method_tokens := h.method_tokens
  path_ne := h.path_ne
  path_plain := h.path_plain
  extra := by
    intro entry hentry
    rcases Packet.mem_set.mp hentry with rfl | ⟨hold, -⟩
    · exact hline
    · exact h.extra entry hold
  host_plain := h.host_plain

theorem byte_ofNat_toNat : ∀ c : Byte, byte (Char.ofNat c.toNat) = c := by
  decide +kernel

theorem isCtl_of_mem_encode {string : List Byte} {c : Byte}
    (hc : c ∈ Base64.encode string) : isCtl c = false := by
  have hdigits : ∀ c ∈ Base64.padding :: Base64.alphabet, isCtl c = false := by
    decide
  exact hdigits c (Base64.mem_encode hc)

/-- What the parser of a server makes of the text that the client sends. -/
theorem Plain.run_text (h : r.Plain) (first second : Int) :
    ∃ parser, requestParser.run (.new first second) (r.text.map byte) =
        (some true, parser, []) ∧ parser.req = h.request.request := by
  rw [← h.request_text]
  exact ⟨_, RequestParser.run_text first second h.request, rfl⟩

/-- A server reads the request with the credentials: what follows `Basic` in
its header is decoded to them. -/
def SendsCredentials (r r' : ClientRequest) (username password : Text) : Prop :=
  ∃ req : HttpRequest, ∃ encoded,
    (∀ first second : Int, ∃ parser,
      requestParser.run (.new first second) (r'.text.map byte) =
        (some true, parser, []) ∧ parser.req = req) ∧
    req.method = r.method_.map byte ∧ req.uri = r.url_.path_.map byte ∧
    ⟨literal "Authorization", literal "Basic " ++ encoded⟩ ∈ req.headers ∧
    Base64Codec.decode encoded = (username ++ ':' :: password).map byte

/-- The credentials can be added to a request that the server can read, and it
can still read it. -/
theorem exists_setBasicAuth {username password : Text}
    (hlong : username ≠ [] ∨ password ≠ [])
    (hsize : username.length + password.length + 1 < 2 ^ 64) (h : r.Plain) :
    ∃ r', r.setBasicAuth username password = some r' ∧ r'.Plain ∧
      SendsCredentials r r' username password := by
  let string := (username ++ ':' :: password).map byte
  have hlength : string.length = username.length + password.length + 1 := by
    simp only [string, List.length_map, List.length_append, List.length_cons]
    omega
  have hshort : 2 ≤ string.length := by
    have hpos : 0 < username.length + password.length := by
      rcases hlong with hne | hne
      · exact Nat.add_pos_left (List.length_pos_of_ne_nil hne) _
      · exact Nat.add_pos_right _ (List.length_pos_of_ne_nil hne)
    omega
  have hencode := Base64Codec.encode_eq hshort (hlength ▸ hsize)
  let value := "Basic ".toList ++
    (Base64.encode string).map fun c => Char.ofNat c.toNat
  have hvalue : value.map byte = literal "Basic " ++ Base64.encode string := by
    have hsame : (byte ∘ fun c : Byte => Char.ofNat c.toNat) = id :=
      funext byte_ofNat_toNat
    rw [List.map_append, List.map_map, hsame, List.map_id]
    rfl
  have hline : PlainLine ("Authorization".toList, value) := by
    refine plainLine (by decide) (by decide) fun c hc => ?_
    have hmem := List.mem_map_of_mem (f := byte) hc
    rw [hvalue] at hmem
    rcases List.mem_append.mp hmem with hbasic | hcode
    · have hplain : ∀ c ∈ literal "Basic ", isCtl c = false := by decide
      exact hplain _ hbasic
    · exact isCtl_of_mem_encode hcode
  have hadd := h.addRequestHeader hline
  refine ⟨r.addRequestHeader "Authorization".toList value, ?_, hadd,
    hadd.request.request, Base64.encode string, hadd.run_text, rfl, rfl, ?_,
    Base64Codec.decode_encode string⟩
  · rw [setBasicAuth, hencode]
    rfl
  · have hmem := hadd.mem_headers (Packet.mem_set.mpr (Or.inl rfl))
    rw [hvalue] at hmem
    exact hmem

/-- A URL whose path and host can be written out. -/
structure PlainUrl (url : HttpUrl) : Prop where
  path_ne : url.path_ ≠ []
  path_plain : ∀ c ∈ url.path_, byte c ≠ byte ' ' ∧ isCtl (byte c) = false
  host_plain : ∀ c ∈ url.host_, isCtl (byte c) = false

theorem PlainUrl.plain_new {url : HttpUrl} (h : PlainUrl url)
    {method_ : String} (hne : method_.toList ≠ [])
    (htokens : ∀ c ∈ method_.toList, isToken (byte c) = true) :
    (new method_ url).Plain where
  method_ne := hne
  method_tokens := htokens
  path_ne := h.path_ne
  path_plain := h.path_plain
  extra := fun _ hentry => absurd hentry List.not_mem_nil
  host_plain := h.host_plain

theorem PlainUrl.plain_get {url : HttpUrl} (h : PlainUrl url) :
    (get url).Plain := h.plain_new (by decide) (by decide)

theorem PlainUrl.plain_propget {url : HttpUrl} (h : PlainUrl url) :
    (propget url).Plain :=
  ((h.plain_new (by decide) (by decide)).addRequestHeader
    (plainLine (by decide) (by decide) (by decide))).addRequestHeader
      (plainLine (by decide) (by decide) (by decide))

/-- A request for the updates, with credentials. -/
theorem exists_setBasicAuth_updates :
    ∃ r', (get { scheme_ := "http".toList, host_ := "localhost".toList
                 port_ := some 80, path_ := "/pyzor/updates".toList
                 }).setBasicAuth "jane".toList "x".toList = some r' ∧
      r'.Plain ∧ SendsCredentials (get
        { scheme_ := "http".toList, host_ := "localhost".toList
          port_ := some 80, path_ := "/pyzor/updates".toList })
        r' "jane".toList "x".toList :=
  exists_setBasicAuth (Or.inl (by decide)) (by decide)
    (PlainUrl.plain_get ⟨by decide, by decide, by decide⟩)

end ClientRequest

end BohunoPyzord
