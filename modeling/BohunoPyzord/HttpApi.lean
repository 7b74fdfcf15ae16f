/-
The HTTP interface to the database of a server.  A query names an action and a
hash; the hash goes to the database as the client wrote it.
-/
import BohunoPyzord.DigestKeys

namespace BohunoPyzord

/-- `reply::status_type`, as far as the interface sets it. -/
inductive ReplyStatus where
  | ok
  | internalServerError
deriving DecidableEq, Repr

/-- `http::server::header`. -/
structure Header where
  name : Text
  value : Text
deriving DecidableEq, Repr

/-- `http::server::reply`. -/
structure HttpReply where
  status : ReplyStatus
  headers : List Header
  content : Text
deriving DecidableEq, Repr

namespace HttpReply

/-- The two headers that every reply gets. -/
def setHeaders (rep : HttpReply) (contentType : Text) : HttpReply :=
  { rep with headers :=
      [⟨"Content-Length".toList, decimal rep.content.length⟩,
        ⟨"Content-Type".toList, contentType⟩] }

/-- `stock_reply(internal_server_error)`. -/
def stockReply : HttpReply :=
  let content := ("<html><head><title>Internal Server Error</title></head>" ++
    "<body><h1>500 Internal Server Error</h1></body></html>").toList
  setHeaders ⟨.internalServerError, [], content⟩ "text/html".toList

end HttpReply

/-- `hash(std::string const&)` in memory that held `junk`. -/
def Hash.construct (junk : Hash) (hex : Text) : Hash :=
  (Hash.ofHex hex).getD junk

/-- `std::map<std::string,std::string>`, as in a packet. -/
abbrev Parameters := Packet

namespace HttpApi

/-- `api_error`. -/
structure ApiError where
  code_ : Text
  message_ : Text
deriving DecidableEq, Repr

def ApiError.toJson (error : ApiError) : Text :=
  "\x7b \"Code\": \"".toList ++ error.code_ ++ "\", \"Message\": \"".toList ++
    error.message_ ++ "\" \x7d".toList

/-- The elements of a JSON list. -/
def jsonElements (errors : List ApiError) : Text :=
  ((errors.map fun error => "    ".toList ++ error.toJson).intersperse
    ", \n".toList).flatten

def errorReply (errors : List ApiError) : HttpReply :=
  let content := "\x7b \n  \"Errors\": [\n".toList ++ jsonElements errors ++
    "\n  ]\n\x7d\n".toList
  HttpReply.setHeaders ⟨.ok, [], content⟩ "text/plain".toList

def nilReply : HttpReply :=
  HttpReply.setHeaders ⟨.ok, [], "\x7b \n  \"Response\": nil\n\x7d\n".toList⟩
    "text/plain".toList

/-- `[A-Za-z0-9-]`. -/
def isParameterChar (c : Char) : Bool := c.isAlphanum || c = '-'

/-- `^([A-Za-z0-9-]+?)=([A-Za-z0-9-]+)$`. -/
def matchParameter (token : Text) : Option (Text × Text) :=
  match token.dropWhile isParameterChar with
  | '=' :: value =>
      let name := token.takeWhile isParameterChar
      if name ≠ [] ∧ value ≠ [] ∧ value.all isParameterChar then
        some (name, value)
      else none
  | _ => none

/-- `char_separator("&")`. -/
def tokens (query : Text) : List Text :=
  (query.splitOnP (· = '&')).filter (· ≠ [])

/-- `parse_query` into an empty map; `none` where it returns false. -/
def parseQuery (query : Text) : Option Parameters :=
  (tokens query).foldlM
    (fun parameters token => (matchParameter token).map fun matched =>
      parameters.set matched.1 matched.2) Packet.empty

/-- What is wrong with the parameters. -/
def parameterErrors (parameters : Parameters) : List ApiError :=
  let missing (name : String) : List ApiError :=
    if parameters.has name.toList then []
    else [⟨"MissingParameter".toList,
      ("The '" ++ name ++ "' parameter is required.").toList⟩]
  missing "Action" ++ missing "Version" ++ missing "Hash" ++
    if parameters.has "Version".toList ∧
        parameters.get "Version".toList ≠ "2007-11-26".toList then
      [⟨"NoSuchVersion".toList, ("An incorrect version was specified. " ++
        "Current API version is 2007-11-26.").toList⟩]
    else []

/-- `handle_report`, `handle_whitelist` and `handle_delete`: the update that
the database posts, stamped with the time. -/
def handleUpdate (type : UpdateType) (junk : Hash) (now : Nat)
    (parameters : Parameters) : HttpReply × List Update :=
  (nilReply, [Update.make (Hash.construct junk
    (parameters.get "Hash".toList)) type (BitVec.ofNat 32 now)])

def handleReport (junk : Hash) (now : Nat) (parameters : Parameters) :
    HttpReply × List Update :=
  handleUpdate .report junk now parameters

def handleWhitelist (junk : Hash) (now : Nat) (parameters : Parameters) :
    HttpReply × List Update :=
  handleUpdate .whitelist junk now parameters

def handleDelete (junk : Hash) (now : Nat) (parameters : Parameters) :
    HttpReply × List Update :=
  handleUpdate .erase junk now parameters

/-- `handle_get`: the record that the database found, or else the one it left
behind, is appended to the reply. -/
def handleGet (stored : Database) (rep : HttpReply) (parameters : Parameters) :
    HttpReply :=
  let (_, r) := stored.get (parameters.get "Hash".toList)
  let line (name : String) (value : Uint32) : Text :=
    ("    \"" ++ name ++ "\": ").toList ++ decimal value.toNat
  let content := rep.content ++ "\x7b \n  \"Response\": \x7b\n".toList ++
    "    \"Hash\": \"".toList ++ parameters.get "Hash".toList ++
    "\",\n".toList ++
    line "RecordEntered" r.entered ++ ",\n".toList ++
    line "RecordUpdated" r.updated ++ ",\n".toList ++
    line "WhitelistCount" (r.count .whitelist) ++ ",\n".toList ++
    line "WhitelistEntered" (r.tallyEntered .whitelist) ++ ",\n".toList ++
    line "WhitelistUpdated" (r.tallyUpdated .whitelist) ++ ",\n".toList ++
    line "ReportCount" (r.count .report) ++ ",\n".toList ++
    line "ReportEntered" (r.tallyEntered .report) ++ ",\n".toList ++
    line "ReportUpdated" (r.tallyUpdated .report) ++ "\n".toList ++
    "  \x7d\n\x7d\n".toList
  HttpReply.setHeaders { rep with content } "text/plain".toList

/-- `handle_request`: whether the request is for this interface, the reply,
and the updates that are posted. -/
def handleRequest (stored : Database) (junk : Hash) (now : Nat) (uri : Text)
    (rep : HttpReply) : Bool × HttpReply × List Update :=
  if !"/api?".toList.isPrefixOf uri then (false, rep, [])
  else
    match parseQuery (uri.drop 5) with
    | none => (true, HttpReply.stockReply, [])
    | some parameters =>
        let errors := parameterErrors parameters
        if errors ≠ [] then (true, errorReply errors, [])
        else
          let action := parameters.get "Action".toList
          if action = "Get".toList then
            (true, handleGet stored rep parameters, [])
          else if action = "Report".toList then
            (true, handleReport junk now parameters)
          else if action = "Whitelist".toList then
            (true, handleWhitelist junk now parameters)
          else if action = "Delete".toList then
            (true, handleDelete junk now parameters)
          else
            (true, errorReply [⟨"InvalidAction".toList,
              "The action specified is invalid.".toList⟩], [])

/-- A value that `parse_query` accepts. -/
def ParameterValue (value : Text) : Prop :=
  value ≠ [] ∧ ∀ c ∈ value, isParameterChar c = true

instance (value : Text) : Decidable (ParameterValue value) :=
  inferInstanceAs (Decidable (_ ∧ _))

/-- The request is read with this value for `Hash`. -/
def HashParameter (uri value : Text) : Prop :=
  ∃ parameters ∈ parseQuery (uri.drop 5),
    parameters.has "Hash".toList = true ∧
      parameters.get "Hash".toList = value

/-- A request with this value for `Hash` posts the update. -/
def Enqueues (value : Text) (u : Update) : Prop :=
  ∃ stored junk now uri rep, HashParameter uri value ∧
    u ∈ (handleRequest stored junk now uri rep).2.2

/-- A request with this value for `Hash` updates or looks up the record under
the key. -/
def Addresses (value : Text) (key : Hash) : Prop :=
  (∃ u, Enqueues value u ∧ u.ghash = key) ∨ decodeSignature value = some key

/-- The updates posted for a value have the key that is looked up for it, and
none is posted for what is not a digest. -/
def KeyedValue (value : Text) : Prop :=
  (∀ u, Enqueues value u → decodeSignature value = some u.ghash) ∧
    (¬ IsDigest value → ∀ u, ¬ Enqueues value u)

/-- Both values are keyed, and they address records of their own unless they
differ in case only. -/
def KeyedValues (value value' : Text) : Prop :=
  KeyedValue value ∧ KeyedValue value' ∧
    (value.map Char.toLower ≠ value'.map Char.toLower →
      ∀ key, Addresses value key → ¬ Addresses value' key)

/-- What a request posts has the key constructed from its `Hash`. -/
theorem ghash_of_mem_handleRequest {stored : Database} {junk : Hash}
    {now : Nat} {uri value : Text} {rep : HttpReply} {u : Update}
    (hvalue : HashParameter uri value)
    (hu : u ∈ (handleRequest stored junk now uri rep).2.2) :
    u.ghash = Hash.construct junk value := by
  obtain ⟨parameters, hquery, -, rfl⟩ := hvalue
  rw [handleRequest, Option.mem_def.mp hquery] at hu
  split_ifs at hu with hother
  · exact absurd hu List.not_mem_nil
  · simp only at hu
    split_ifs at hu
    all_goals first
      | exact absurd hu List.not_mem_nil
      | exact congrArg Update.ghash (List.mem_singleton.mp hu)

/-- The update has the key that is looked up when the text decodes. -/
theorem Enqueues.ghash {value : Text} {u : Update} (h : Enqueues value u)
    {key : Hash} (hkey : decodeSignature value = some key) : u.ghash = key := by
  obtain ⟨stored, junk, now, uri, rep, hvalue, hu⟩ := h
  rw [ghash_of_mem_handleRequest hvalue hu, Hash.construct,
    ofHex_eq_decodeSignature, hkey]
  rfl

theorem matchParameter_append {name value : Text} (hname : ParameterValue name)
    (hvalue : ParameterValue value) :
    matchParameter (name ++ '=' :: value) = some (name, value) := by
  have hequals : isParameterChar '=' = false := by decide
  have hdrop : (name ++ '=' :: value).dropWhile isParameterChar =
      '=' :: value := by
    rw [List.dropWhile_append_of_pos hname.2,
      List.dropWhile_cons_of_neg (by simp [hequals])]
  have htake : (name ++ '=' :: value).takeWhile isParameterChar = name := by
    rw [List.takeWhile_append_of_pos hname.2,
      List.takeWhile_cons_of_neg (by simp [hequals]), List.append_nil]
  rw [matchParameter, hdrop]
  simp only [htake]
  rw [if_pos ⟨hname.1, hvalue.1, List.all_eq_true.mpr hvalue.2⟩]

/-- The query for a report. -/
def reportQuery (value : Text) : Text :=
  "Action=Report".toList ++ '&' :: ("Version=2007-11-26".toList ++ '&' ::
    ("Hash".toList ++ '=' :: value))

theorem tokens_reportQuery {value : Text} (h : ParameterValue value) :
    tokens (reportQuery value) = ["Action=Report".toList,
      "Version=2007-11-26".toList, "Hash".toList ++ '=' :: value] := by
  have hsolid : ∀ c : Char, isParameterChar c = true →
      decide (c = '&') = false := by
    intro c hc
    apply decide_eq_false
    rintro rfl
    exact absurd hc (by decide)
  have hlast : ∀ c ∈ "Hash".toList ++ '=' :: value,
      decide (c = '&') = false := by
    intro c hc
    have hname : ∀ d ∈ "Hash".toList, decide (d = '&') = false := by decide
    rcases List.mem_append.mp hc with hname' | hrest
    · exact hname c hname'
    · rcases List.mem_cons.mp hrest with rfl | hvalue
      · decide
      · exact hsolid c (h.2 c hvalue)
  have hactionSolid : ∀ c ∈ "Action=Report".toList,
      decide (c = '&') = false := by decide
  have hversionSolid : ∀ c ∈ "Version=2007-11-26".toList,
      decide (c = '&') = false := by decide
  have haction : "Action=Report".toList ≠ [] := by decide
  have hversion : "Version=2007-11-26".toList ≠ [] := by decide
  have hhash : "Hash".toList ++ '=' :: value ≠ [] := by
    rw [Ne, List.append_eq_nil_iff]
    exact fun hnil => List.cons_ne_nil _ _ hnil.2
  have hsplit : (reportQuery value).splitOnP (· = '&') =
      ["Action=Report".toList, "Version=2007-11-26".toList,
        "Hash".toList ++ '=' :: value] := by
    have hfirst := List.splitOnP_append_cons_of_forall_mem hactionSolid '&' rfl
    have hsecond :=
      List.splitOnP_append_cons_of_forall_mem hversionSolid '&' rfl
    exact (hfirst _).trans (congrArg _ ((hsecond _).trans
      (congrArg _ (List.splitOnP_eq_singleton hlast))))
  rw [tokens, hsplit]
  apply List.filter_eq_self.mpr
  intro token htoken
  apply decide_eq_true
  simp only [List.mem_cons, List.not_mem_nil, or_false] at htoken
  rcases htoken with rfl | rfl | rfl
  · exact haction
  · exact hversion
  · exact hhash

theorem parseQuery_reportQuery {value : Text} (h : ParameterValue value) :
    parseQuery (reportQuery value) =
      some (((Packet.empty.set "Action".toList "Report".toList).set
        "Version".toList "2007-11-26".toList).set "Hash".toList value) := by
  have hhash : matchParameter ("Hash".toList ++ '=' :: value) =
      some ("Hash".toList, value) :=
    matchParameter_append (by decide) h
  have haction : matchParameter "Action=Report".toList =
      some ("Action".toList, "Report".toList) := by decide
  have hversion : matchParameter "Version=2007-11-26".toList =
      some ("Version".toList, "2007-11-26".toList) := by decide
  rw [parseQuery, tokens_reportQuery h]
  simp only [List.foldlM_cons, List.foldlM_nil, haction, hversion, hhash,
    Option.map_some, Option.bind_eq_bind, Option.bind_some, Option.pure_def]

/-- Whatever the value is, a report of it is posted. -/
theorem enqueues_report {value : Text} (h : ParameterValue value)
    (junk : Hash) :
    ∃ u, Enqueues value u ∧ u.ghash = Hash.construct junk value := by
  have hquery := parseQuery_reportQuery h
  have hvalue : HashParameter ("/api?".toList ++ reportQuery value) value :=
    ⟨_, hquery, rfl, rfl⟩
  have hposted : (handleRequest ∅ junk 0 ("/api?".toList ++ reportQuery value)
      nilReply).2.2 = [Update.make (Hash.construct junk value) .report 0] := by
    have hours : "/api?".toList.isPrefixOf
        ("/api?".toList ++ reportQuery value) = true := by
      rw [List.isPrefixOf_iff_prefix]
      exact List.prefix_append _ _
    have hdrop : ("/api?".toList ++ reportQuery value).drop 5 =
        reportQuery value := List.drop_left' (by decide)
    have haccepted : parameterErrors (((Packet.empty.set "Action".toList
        "Report".toList).set "Version".toList "2007-11-26".toList).set
          "Hash".toList value) = [] := rfl
    rw [handleRequest, hours, hdrop, hquery]
    simp only [haccepted]
    rfl
  have hmem := hposted ▸ List.mem_singleton_self _
  exact ⟨_, ⟨_, _, _, _, _, hvalue, hmem⟩,
    ghash_of_mem_handleRequest hvalue hmem⟩

theorem keyedValue_iff {value : Text} (h : ParameterValue value) :
    KeyedValue value ↔ IsDigest value := by
  constructor
  · rintro ⟨-, hrejects⟩
    by_contra hdigest
    obtain ⟨u, hu, -⟩ := enqueues_report h ⟨Vector.replicate 20 0⟩
    exact hrejects hdigest u hu
  · intro hdigest
    obtain ⟨key, hkey, -⟩ := hdigest.decode
    constructor
    · intro u hu
      rw [hkey, hu.ghash hkey]
    · exact fun hno => absurd hdigest hno

/-- Two values are keyed exactly when both are 40 hexadecimal digits. -/
theorem keyedValues_iff (value value' : Text) (h : ParameterValue value)
    (h' : ParameterValue value') :
    KeyedValues value value' ↔ IsDigest value ∧ IsDigest value' := by
  constructor
  · rintro ⟨hvalue, hvalue', -⟩
    exact ⟨(keyedValue_iff h).mp hvalue, (keyedValue_iff h').mp hvalue'⟩
  · rintro ⟨hdigest, hdigest'⟩
    refine ⟨(keyedValue_iff h).mpr hdigest, (keyedValue_iff h').mpr hdigest',
      ?_⟩
    intro hne key haddress haddress'
    have hdecode : ∀ {s : Text}, IsDigest s → Addresses s key →
        decodeSignature s = some key := by
      intro s hs haddress
      rcases haddress with ⟨u, hu, rfl⟩ | hget
      · obtain ⟨key, hkey, -⟩ := hs.decode
        rw [hkey, hu.ghash hkey]
      · exact hget
    apply hne
    rw [← hdigest.decode_eq_iff hdigest', hdecode hdigest haddress,
      hdecode hdigest' haddress']

theorem keyedValues_digests :
    KeyedValues "000102030405060708090a0b0c0d0e0f10111213".toList
      "FFFEFDFCFBFAF9F8F7F6F5F4F3F2F1F0EFEEEDEC".toList :=
  (keyedValues_iff _ _ (by decide) (by decide)).mpr
    ⟨by decide, by decide⟩

/-- A short value is accepted, and an update with whatever the hash was made
in is posted. -/
theorem values_not_always_keyed :
    ¬ ∀ value value', ParameterValue value → ParameterValue value' →
      KeyedValues value value' := by
  intro h
  have hvalue : ParameterValue "deadbeef".toList := by decide
  obtain ⟨⟨hsame, -⟩, -, -⟩ := h _ _ hvalue hvalue
  obtain ⟨u, hu, -⟩ := enqueues_report hvalue ⟨Vector.replicate 20 0⟩
  have hnone : decodeSignature "deadbeef".toList = none := if_pos (by decide)
  rw [hsame u hu] at hnone
  exact Option.some_ne_none _ hnone

end HttpApi

end BohunoPyzord
