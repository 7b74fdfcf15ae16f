/-
What the HTTP client makes of what the HTTP server sends.  The text of a reply
is a status line, headers and a content; a client that reads it in any chunks,
or reads a beginning of it and then the end of the stream, is told what came of
the content once the headers have come whole.
-/
import BohunoPyzord.HttpClient
import BohunoPyzord.HttpReplies

namespace BohunoPyzord

open LineStream

/-- A header that survives the way to the client: its name has no white space
and no colon, and its value is one line that has something at either end. -/
structure PlainEntry (entry : Text × Text) : Prop where
  name_ne : entry.1 ≠ []
  name_plain : ∀ c ∈ entry.1, isSpace c = false ∧ c ≠ ':'
  value_ne : entry.2 ≠ []
  value_head : ∀ c ∈ entry.2.head?, isSpace c = false
  value_last : ∀ c ∈ entry.2.getLast?, isSpace c = false
  value_line : '\n' ∉ entry.2

/-- `Content-Length`, if it is there, is a number. -/
def Numbered (entry : Text × Text) : Prop :=
  entry.1 = "Content-Length".toList → (lexicalCastSize entry.2).isSome = true

/-- The bytes of a header, but for the line feed. -/
def entryLine (entry : Text × Text) : Text :=
  entry.1 ++ ": ".toList ++ entry.2 ++ ['\r']

/-- The headers and the empty line. -/
def headText (entries : List (Text × Text)) : Text :=
  entries.flatMap (fun entry => entryLine entry ++ ['\n']) ++ Response.crlf

theorem headText_cons (entry : Text × Text) (entries : List (Text × Text))
    (rest : Text) :
    headText (entry :: entries) ++ rest =
      entryLine entry ++ '\n' :: (headText entries ++ rest) := by
  simp [headText]

/-- Such a header is one line, and not the empty one. -/
theorem PlainEntry.entryLine {entry : Text × Text} (h : PlainEntry entry) :
    '\n' ∉ entryLine entry ∧ entryLine entry ≠ ['\r'] := by
  have hname : '\n' ∉ entry.1 := fun hmem =>
    absurd (h.name_plain _ hmem).1 (by decide)
  constructor
  · simp [BohunoPyzord.entryLine, hname, h.value_line]
  · intro hsame
    have hlength := congrArg List.length hsame
    simp only [BohunoPyzord.entryLine, List.length_append,
      List.length_singleton] at hlength
    have hcolon : ": ".toList.length = 2 := by decide
    omega

theorem dropWhile_isSpace_eq {s : Text}
    (h : ∀ c ∈ s.head?, isSpace c = false) : s.dropWhile isSpace = s := by
  cases s with
  | nil => rfl
  | cons c s =>
      exact List.dropWhile_cons_of_neg (by simp [h c rfl])

/-- White space at the end of a line is trimmed, and no more. -/
theorem trim_append_return {s : Text} (hne : s ≠ [])
    (hhead : ∀ c ∈ s.head?, isSpace c = false)
    (hlast : ∀ c ∈ s.getLast?, isSpace c = false) :
    trim (s ++ ['\r']) = s := by
  have hfront : (s ++ ['\r']).dropWhile isSpace = s ++ ['\r'] := by
    apply dropWhile_isSpace_eq
    rwa [List.head?_append_of_ne_nil _ hne]
  have hback : s.reverse.dropWhile isSpace = s.reverse := by
    apply dropWhile_isSpace_eq
    rwa [List.head?_reverse]
  rw [trim, hfront, List.reverse_append, List.reverse_singleton,
    List.singleton_append, List.dropWhile_cons_of_pos (by decide), hback,
    List.reverse_reverse]

/-- The name is what stands before the first colon. -/
theorem matchHeader_append {read name value : Text} (hne : read ++ name ≠ [])
    (hname : ∀ c ∈ name, isSpace c = false ∧ c ≠ ':')
    (hhead : ∀ c ∈ value.head?, isSpace c = false) :
    matchHeader read (name ++ ": ".toList ++ value) =
      some (read ++ name, value) := by
  induction name generalizing read with
  | nil =>
      rw [List.append_nil] at hne ⊢
      change matchHeader read (':' :: ' ' :: value) = _
      rw [matchHeader, if_neg (by decide), if_pos ⟨rfl, hne, rfl⟩,
        dropWhile_isSpace_eq hhead]
  | cons c name ih =>
      obtain ⟨⟨hspace, hcolon⟩, hothers⟩ := List.forall_mem_cons.mp hname
      have hmore : name ++ ": ".toList ++ value ≠ [] := by simp
      obtain ⟨d, rest, hrest⟩ := List.exists_cons_of_ne_nil hmore
      have hread : (read ++ [c]) ++ name ≠ [] := by simp
      have htail := ih hread hothers
      rw [hrest, List.append_assoc] at htail
      rw [List.cons_append, List.cons_append, hrest, matchHeader,
        if_neg (by simp [hspace]), if_neg (by simp [hcolon])]
      exact htail

namespace HttpClient

/-- The client with the header entered. -/
def enter (c : HttpClient) (entry : Text × Text) : HttpClient :=
  let c := { c with
    headers_ := c.headers_.filter (·.1 ≠ entry.1) ++ [entry] }
  if entry.1 = "Content-Length".toList then
    { c with content_length_ := (lexicalCastSize entry.2).getD 0 }
  else c

theorem readHeader_line (c : HttpClient) {entry : Text × Text}
    (h : PlainEntry entry) (hnumber : Numbered entry) :
    c.readHeader (entryLine entry) = some (c.enter entry) := by
  obtain ⟨name, value⟩ := entry
  have hhead : ∀ c ∈ (name ++ ": ".toList ++ value).head?,
      isSpace c = false := by
    intro c hc
    rw [List.append_assoc, List.head?_append_of_ne_nil _ h.name_ne] at hc
    exact (h.name_plain c (List.mem_of_mem_head? hc)).1
  have hlast : ∀ c ∈ (name ++ ": ".toList ++ value).getLast?,
      isSpace c = false := by
    rw [List.getLast?_append_of_ne_nil _ h.value_ne]
    exact h.value_last
  have htrim := trim_append_return (by simp) hhead hlast
  have hmatch : matchHeader [] (name ++ ": ".toList ++ value) =
      some (name, value) :=
    matchHeader_append h.name_ne h.name_plain h.value_head
  rw [readHeader, entryLine, htrim, hmatch]
  simp only [enter]
  split_ifs with hlength
  · obtain ⟨n, hn⟩ := Option.isSome_iff_exists.mp (hnumber hlength)
    simp [hn]
  · rfl

/-- A line is collected to its end. -/
theorem readHeaders_append (c : HttpClient) (line : Text) {more rest : Text}
    (hmore : '\n' ∉ more) :
    c.readHeaders line (more ++ rest) = c.readHeaders (line ++ more) rest := by
  induction more generalizing line with
  | nil => rw [List.nil_append, List.append_nil]
  | cons ch more ih =>
      rw [List.mem_cons, not_or] at hmore
      rw [List.cons_append, readHeaders, if_neg (Ne.symm hmore.1),
        ih (line ++ [ch]) hmore.2, List.append_assoc, List.singleton_append]

/-- The header loop enters header after header, up to the empty line. -/
theorem readHeaders_headText (c : HttpClient) {entries : List (Text × Text)}
    (hplain : ∀ entry ∈ entries, PlainEntry entry)
    (hnumber : ∀ entry ∈ entries, Numbered entry) (rest : Text) :
    c.readHeaders [] (headText entries ++ rest) =
      some { entries.foldl enter c with response_ := rest } := by
  induction entries generalizing c with
  | nil => rfl
  | cons entry entries ih =>
      obtain ⟨hfirst, hothers⟩ := List.forall_mem_cons.mp hplain
      obtain ⟨hcast, hcasts⟩ := List.forall_mem_cons.mp hnumber
      obtain ⟨hline, hnotEmpty⟩ := hfirst.entryLine
      rw [headText_cons, readHeaders_append c [] hline, List.nil_append, readHeaders,
        if_pos rfl, if_neg hnotEmpty, readHeader_line c hfirst hcast,
        Option.bind_some, ih (c.enter entry) hothers hcasts]
      rfl

/-- Headers of different names are all kept. -/
theorem foldl_enter (c : HttpClient) {entries : List (Text × Text)}
    (hnodup : ((c.headers_ ++ entries).map Prod.fst).Nodup) :
    (entries.foldl enter c).headers_ = c.headers_ ++ entries := by
  induction entries generalizing c with
  | nil => exact (List.append_nil _).symm
  | cons entry entries ih =>
      have hkept : (c.enter entry).headers_ = c.headers_ ++ [entry] := by
        have hother : ∀ p ∈ c.headers_, decide (p.1 ≠ entry.1) = true := by
          intro p hp
          rw [List.map_append, List.nodup_append] at hnodup
          exact decide_eq_true (hnodup.2.2 p.1 (List.mem_map_of_mem hp)
            entry.1 (List.mem_map_of_mem List.mem_cons_self))
        have hfilter := List.filter_eq_self.mpr hother
        unfold enter
        split_ifs <;> rw [hfilter]
      rw [List.foldl_cons, ih (c.enter entry) (by simpa [hkept] using hnodup),
        hkept, List.append_assoc, List.singleton_append]

theorem enter_frame (c : HttpClient) (entry : Text × Text) :
    (c.enter entry).data_ = c.data_ ∧
      (c.enter entry).status_code_ = c.status_code_ := by
  unfold enter
  split_ifs <;> exact ⟨rfl, rfl⟩

theorem foldl_enter_frame (c : HttpClient) (entries : List (Text × Text)) :
    (entries.foldl enter c).data_ = c.data_ ∧
      (entries.foldl enter c).status_code_ = c.status_code_ := by
  induction entries generalizing c with
  | nil => exact ⟨rfl, rfl⟩
  | cons entry entries ih =>
      obtain ⟨hdata, hcode⟩ := c.enter_frame entry
      obtain ⟨hdatas, hcodes⟩ := ih (c.enter entry)
      exact ⟨hdatas.trans hdata, hcodes.trans hcode⟩

theorem foldl_handleReadContent_frame (c : HttpClient)
    (chunks : List (Chunk Char)) :
    (chunks.foldl handleReadContent c).status_code_ = c.status_code_ ∧
      (chunks.foldl handleReadContent c).headers_ = c.headers_ := by
  induction chunks generalizing c with
  | nil => exact ⟨rfl, rfl⟩
  | cons chunk chunks ih => exact ih (c.handleReadContent chunk)

end HttpClient

/-- The head of a text is what ends with its first empty line. -/
theorem afterEmptyLine_headText {entries : List (Text × Text)}
    (hplain : ∀ entry ∈ entries, PlainEntry entry) (content : Text) :
    AfterEmptyLine (headText entries ++ content) content := by
  induction entries with
  | nil => exact ⟨[], rfl, fun line hline => absurd hline List.not_mem_nil⟩
  | cons entry entries ih =>
      obtain ⟨hfirst, hothers⟩ := List.forall_mem_cons.mp hplain
      obtain ⟨hline, hnotEmpty⟩ := hfirst.entryLine
      rw [headText_cons]
      exact (after_line_iff (by decide) hline).mpr
        (Or.inr ⟨hnotEmpty, ih hothers⟩)

/-- A head with a header in it ends with two line breaks. -/
theorem delimiter_suffix_headText {entries : List (Text × Text)}
    (hne : entries ≠ []) : "\r\n\r\n".toList <:+ headText entries := by
  obtain ⟨most, last, rfl⟩ := (List.eq_nil_or_concat entries).resolve_left hne
  refine ⟨most.flatMap (fun entry => entryLine entry ++ ['\n']) ++
    (last.1 ++ ": ".toList ++ last.2), ?_⟩
  simp [headText, entryLine, Response.crlf]

/-- A status line, headers and a content that a client reads as they are. -/
structure PlainMessage where
  line : StatusLine
  entries : List (Text × Text)
  content : Text
  entries_ne : entries ≠ []
  plain : ∀ entry ∈ entries, PlainEntry entry
  nodup : (entries.map Prod.fst).Nodup
  numbered : ∀ entry ∈ entries, Numbered entry

namespace PlainMessage

variable (message : PlainMessage)

/-- The status line and the headers. -/
def head : Text := message.line.text ++ headText message.entries

def text : Text := message.head ++ message.content

/-- What the client is told when it has read the head and some content. -/
def outcome (content : Text) : HttpOutcome :=
  .success (Nat.ofDigitChars 10 message.line.code 0) message.entries content

/-- A read that has come to the end of the headers has them whole. -/
theorem exists_more {buffer stream content : Text}
    (h : buffer ++ stream = headText message.entries ++ content)
    (hend : "\r\n\r\n".toList <:+: buffer) :
    ∃ more, buffer = headText message.entries ++ more ∧
      more ++ stream = content := by
  obtain ⟨more, hmore⟩ := exists_afterEmptyLine hend
  have hwhole : AfterEmptyLine (buffer ++ stream) (more ++ stream) :=
    hmore.append stream
  rw [h] at hwhole
  have hcontent := hwhole.unique (by decide)
    (afterEmptyLine_headText message.plain content)
  refine ⟨more, ?_, hcontent⟩
  rw [← hcontent, ← List.append_assoc] at h
  exact List.append_cancel_right h

/-- Once the head has come, what follows it is the content. -/
theorem readResponse_head {chunks : List (Chunk Char)} {content : Text}
    (h : joined chunks = message.head ++ content) :
    HttpClient.readResponse chunks = message.outcome content := by
  rw [head, List.append_assoc] at h
  obtain ⟨more, reads, hread, hmore⟩ := message.line.exists_readUntil h
  have hline := message.line.handleReadStatusLine (c := {
    HttpClient.waiting with response_ := message.line.text ++ more }) rfl
  have hend : "\r\n\r\n".toList <:+: more ++ joined reads := by
    rw [hmore]
    exact (delimiter_suffix_headText message.entries_ne).isInfix.trans
      (List.prefix_append _ _).isInfix
  obtain ⟨block, rest, hblock⟩ := exists_readUntil hend
  obtain ⟨hjoined, hfound⟩ := readUntil_spec hblock
  obtain ⟨first, rfl, hcontent⟩ := message.exists_more
    (hjoined.trans hmore) hfound
  let c : HttpClient := { HttpClient.waiting with
    status_code_ := Nat.ofDigitChars 10 message.line.code 0
    status_message_ := message.line.message ++ ['\r']
    response_ := headText message.entries ++ first }
  have hheaders : c.handleReadHeaders = some (HttpClient.takeContent
      { message.entries.foldl HttpClient.enter c with response_ := first }) := by
    rw [HttpClient.handleReadHeaders, HttpClient.readHeaders_headText c
      message.plain message.numbered]
    rfl
  obtain ⟨hdata, hcode⟩ := c.foldl_enter_frame message.entries
  have hentries : (message.entries.foldl HttpClient.enter c).headers_ =
      message.entries := c.foldl_enter message.nodup
  obtain ⟨hkeptCode, hkeptEntries⟩ :=
    HttpClient.foldl_handleReadContent_frame (HttpClient.takeContent
      { message.entries.foldl HttpClient.enter c with response_ := first }) rest
  rw [HttpClient.readResponse, hread]
  simp only [hline, hblock]
  rw [hheaders]
  simp only
  rw [hkeptCode, hkeptEntries, HttpClient.foldl_handleReadContent rfl]
  simp only [HttpClient.takeContent, hdata, hcode, hentries, List.append_assoc,
    hcontent]
  rfl

/-- A response that ends within its status line fails. -/
theorem readResponse_line_cut {chunks : List (Chunk Char)}
    (h : joined chunks <+: message.line.text)
    (hne : joined chunks ≠ message.line.text) :
    HttpClient.readResponse chunks = .failure := by
  have hcontent : joined chunks <+: message.line.content :=
    (List.prefix_concat_iff.mp h).resolve_left hne
  have hread : readUntil "\r\n".toList [] chunks = none := by
    rw [Option.eq_none_iff_forall_ne_some]
    rintro ⟨buffer, reads⟩ hsome
    obtain ⟨hjoined, hfound⟩ := readUntil_spec hsome
    have hfeed : '\n' ∈ buffer := hfound.subset (by decide)
    apply message.line.lf_not_mem_content
    apply hcontent.subset
    rw [← List.nil_append (joined chunks), ← hjoined]
    exact List.mem_append_left _ hfeed
  rw [HttpClient.readResponse, hread]

/-- A response that ends before its content fails. -/
theorem readResponse_cut {chunks : List (Chunk Char)}
    (h : joined chunks <+: message.text)
    (hcut : ¬ message.head <+: joined chunks) :
    HttpClient.readResponse chunks = .failure := by
  by_cases hline : message.line.text <+: joined chunks
  · obtain ⟨rest, hrest⟩ := hline
    obtain ⟨stream, hstream⟩ := h
    rw [← httpGet_eq_readResponse [], httpGet_eq_failure_iff hrest.symm]
    intro hend
    rw [← hrest, text, head, List.append_assoc, List.append_assoc] at hstream
    obtain ⟨more, rfl, -⟩ := message.exists_more
      (List.append_cancel_left hstream) hend
    apply hcut
    rw [← hrest, head, ← List.append_assoc]
    exact List.prefix_append _ _
  · have hbefore : message.line.text <+: message.text := by
      rw [text, head, List.append_assoc]
      exact List.prefix_append _ _
    have hwithin := (List.prefix_or_prefix_of_prefix hbefore h).resolve_left
      hline
    exact message.readResponse_line_cut hwithin fun hsame =>
      hline (hsame ▸ List.prefix_rfl)

/-- What a client is told of a beginning of such a message, however that
arrives: a failure before the head is whole, and from there on a success with
what has come of the content. -/
theorem readResponse_prefix {chunks : List (Chunk Char)}
    (h : joined chunks <+: message.text) :
    (¬ message.head <+: joined chunks ∧
      HttpClient.readResponse chunks = .failure) ∨
    ∃ content, content <+: message.content ∧
      joined chunks = message.head ++ content ∧
      HttpClient.readResponse chunks = message.outcome content := by
  by_cases hhead : message.head <+: joined chunks
  · obtain ⟨content, hcontent⟩ := hhead
    refine Or.inr ⟨content, ?_, hcontent.symm,
      message.readResponse_head hcontent.symm⟩
    rw [← hcontent, text] at h
    exact (List.prefix_append_right_inj _).mp h
  · exact Or.inl ⟨hhead, message.readResponse_cut h hhead⟩

end PlainMessage

end BohunoPyzord
