/-
What an accepted request begins with.  The request line can be read off the
bytes in one way; the request agrees with it, except that a URI may be missing
and that great version numbers overflow.
-/
import BohunoPyzord.LineStream
import BohunoPyzord.RequestParser

namespace BohunoPyzord

/-- The bytes begin with a request line, which has these parts. -/
structure RequestLine (bytes method uri major minor : List Byte) : Prop where
  text : ∃ rest, bytes =
    method ++ byte ' ' :: uri ++ literal " HTTP/" ++ major ++ literal "." ++
      minor ++ literal "\r\n" ++ rest
  method_word : byte ' ' ∉ method
  uri_word : byte ' ' ∉ uri
  major_digits : ∀ c ∈ major, isDigit c = true
  minor_digits : ∀ c ∈ minor, isDigit c = true

/-- The request line has all of its parts, and the version numbers are the ones
that it writes. -/
def LineAsRead (bytes : List Byte) (s : RequestParser) : Prop :=
  ∃ method uri major minor, RequestLine bytes method uri major minor ∧
    method ≠ [] ∧ uri ≠ [] ∧ major ≠ [] ∧ minor ≠ [] ∧
    s.req.http_version_major = number major ∧
    s.req.http_version_minor = number minor ∧ s.overflowed = false

/-- The request line has a URI and no version number that is too great. -/
def LineFits (bytes : List Byte) : Prop :=
  ∃ method uri major minor, RequestLine bytes method uri major minor ∧
    uri ≠ [] ∧ number major ≤ maxNumber ∧ number minor ≤ maxNumber

namespace RequestLine

variable {bytes method method' uri uri' major major' minor minor' : List Byte}

theorem not_mem_of_digits {c : Byte} {digits : List Byte}
    (hdigits : ∀ d ∈ digits, isDigit d = true) (hc : isDigit c = false) :
    c ∉ digits := fun hmem => ne_of_test (hdigits c hmem) hc rfl

/-- There is only one way to read it. -/
theorem unique (h : RequestLine bytes method uri major minor)
    (h' : RequestLine bytes method' uri' major' minor') :
    method = method' ∧ uri = uri' ∧ major = major' ∧ minor = minor' := by
  obtain ⟨rest, htext⟩ := h.text
  obtain ⟨rest', htext'⟩ := h'.text
  have hsame := htext.symm.trans htext'
  have hhttp : literal " HTTP/" = byte ' ' :: literal "HTTP/" := rfl
  have hdot : literal "." = [byte '.'] := rfl
  have hreturn : literal "\r\n" = [byte '\r', byte '\n'] := rfl
  simp only [hhttp, hdot, hreturn, List.append_assoc, List.cons_append,
    List.nil_append] at hsame
  obtain ⟨rfl, htarget⟩ := LineStream.append_cons_inj_of_not_mem h.method_word
    h'.method_word hsame
  obtain ⟨rfl, hversion⟩ := LineStream.append_cons_inj_of_not_mem h.uri_word
    h'.uri_word htarget
  obtain ⟨rfl, hminor⟩ := LineStream.append_cons_inj_of_not_mem
    (not_mem_of_digits h.major_digits (by decide))
    (not_mem_of_digits h'.major_digits (by decide))
    (List.append_cancel_left hversion)
  obtain ⟨rfl, -⟩ := LineStream.append_cons_inj_of_not_mem
    (not_mem_of_digits h.minor_digits (by decide))
    (not_mem_of_digits h'.minor_digits (by decide)) hminor
  exact ⟨rfl, rfl, rfl, rfl⟩

theorem append (h : RequestLine bytes method uri major minor)
    (after : List Byte) :
    RequestLine (bytes ++ after) method uri major minor := by
  obtain ⟨rest, rfl⟩ := h.text
  exact { h with text := ⟨rest ++ after, List.append_assoc _ _ _⟩ }

end RequestLine

namespace RequestParser

/-- The method and the URI, as they stand in the request line. -/
def target (s : RequestParser) : List Byte :=
  s.req.method ++ byte ' ' :: s.req.uri

/-- There is a method, and a space can only end it or the URI. -/
structure Named (s : RequestParser) : Prop where
  method_ne : s.req.method ≠ []
  method_word : byte ' ' ∉ s.req.method
  uri_word : byte ' ' ∉ s.req.uri

/-- The request line up to the version, and what came of that. -/
structure Versioned (major minor : List Byte) (s : RequestParser) : Prop where
  named : Named s
  version : Version major minor s
  major_digits : ∀ c ∈ major, isDigit c = true
  minor_digits : ∀ c ∈ minor, isDigit c = true

/-- What has been read in each state. -/
def Progress (s : RequestParser) (read : List Byte) : Prop :=
  match s.state_ with
  | .methodStart =>
      read = [] ∧ s.req.method = [] ∧ s.req.uri = [] ∧ s.overflowed = false
  | .method => read = s.req.method ∧ s.req.uri = [] ∧ Named s ∧
      s.overflowed = false
  | .uriStart => False
  | .uri => read = s.target ∧ Named s ∧ s.overflowed = false
  | .httpVersionH =>
      read = s.target ++ literal " " ∧ Named s ∧ s.overflowed = false
  | .httpVersionT1 =>
      read = s.target ++ literal " H" ∧ Named s ∧ s.overflowed = false
  | .httpVersionT2 =>
      read = s.target ++ literal " HT" ∧ Named s ∧ s.overflowed = false
  | .httpVersionP =>
      read = s.target ++ literal " HTT" ∧ Named s ∧ s.overflowed = false
  | .httpVersionSlash =>
      read = s.target ++ literal " HTTP" ∧ Named s ∧ s.overflowed = false
  | .httpVersionMajorStart =>
      read = s.target ++ literal " HTTP/" ∧ Versioned [] [] s
  | .httpVersionMajor => ∃ major, major ≠ [] ∧
      read = s.target ++ literal " HTTP/" ++ major ∧ Versioned major [] s
  | .httpVersionMinorStart => ∃ major, major ≠ [] ∧
      read = s.target ++ literal " HTTP/" ++ major ++ literal "." ∧
      Versioned major [] s
  | .httpVersionMinor => ∃ major minor, major ≠ [] ∧ minor ≠ [] ∧
      read = s.target ++ literal " HTTP/" ++ major ++ literal "." ++ minor ∧
      Versioned major minor s
  | .expectingNewline1 => ∃ major minor, major ≠ [] ∧ minor ≠ [] ∧
      read = s.target ++ literal " HTTP/" ++ major ++ literal "." ++ minor ++
        literal "\r" ∧ Versioned major minor s
  | _ => ∃ major minor rest, major ≠ [] ∧ minor ≠ [] ∧
      read = s.target ++ literal " HTTP/" ++ major ++ literal "." ++ minor ++
        literal "\r\n" ++ rest ∧ Versioned major minor s

variable {s s' : RequestParser} {c : Byte} {read major minor : List Byte}

theorem named_pushMethod (h : byte ' ' ∉ s.req.method)
    (huri : byte ' ' ∉ s.req.uri) (hc : c ≠ byte ' ') :
    Named (s.pushMethod c) where
  method_ne := by simp [pushMethod]
  method_word := by simpa [pushMethod, h] using Ne.symm hc
  uri_word := huri

theorem Named.pushUri (h : Named s) (hc : c ≠ byte ' ') :
    Named (s.pushUri c) where
  method_ne := h.method_ne
  method_word := h.method_word
  uri_word := by simpa [RequestParser.pushUri, h.uri_word] using Ne.symm hc

theorem versioned_clearVersion (h : Named s) (hfine : s.overflowed = false) :
    Versioned [] [] s.clearVersion where
  named := ⟨h.method_ne, h.method_word, h.uri_word⟩
  version := version_clearVersion hfine
  major_digits _ hc := absurd hc List.not_mem_nil
  minor_digits _ hc := absurd hc List.not_mem_nil

theorem Versioned.accumulateMajor (h : Versioned major minor s)
    (hc : isDigit c = true) :
    Versioned (major ++ [c]) minor (s.accumulateMajor c) where
  named := ⟨h.named.method_ne, h.named.method_word, h.named.uri_word⟩
  version := h.version.accumulateMajor hc
  major_digits := List.forall_mem_append.mpr
    ⟨h.major_digits, List.forall_mem_singleton.mpr hc⟩
  minor_digits := h.minor_digits

theorem Versioned.accumulateMinor (h : Versioned major minor s)
    (hc : isDigit c = true) :
    Versioned major (minor ++ [c]) (s.accumulateMinor c) where
  named := ⟨h.named.method_ne, h.named.method_word, h.named.uri_word⟩
  version := h.version.accumulateMinor hc
  major_digits := h.major_digits
  minor_digits := List.forall_mem_append.mpr
    ⟨h.minor_digits, List.forall_mem_singleton.mpr hc⟩

/-- What the request line left in the request is still there. -/
structure SameLine (s s' : RequestParser) : Prop where
  method : s'.req.method = s.req.method
  uri : s'.req.uri = s.req.uri
  major : s'.req.http_version_major = s.req.http_version_major
  minor : s'.req.http_version_minor = s.req.http_version_minor
  overflowed : s'.overflowed = s.overflowed

theorem sameLine_goTo (s : RequestParser) (next : ParserState) :
    SameLine s (s.goTo next) := ⟨rfl, rfl, rfl, rfl, rfl⟩

theorem SameLine.target (h : SameLine s s') : s'.target = s.target := by
  rw [RequestParser.target, RequestParser.target, h.method, h.uri]

theorem Named.congr (h : Named s) (hsame : SameLine s s') : Named s' where
  method_ne := hsame.method ▸ h.method_ne
  method_word := hsame.method ▸ h.method_word
  uri_word := hsame.uri ▸ h.uri_word

theorem Versioned.congr (h : Versioned major minor s) (hsame : SameLine s s') :
    Versioned major minor s' where
  named := h.named.congr hsame
  version := {
    fits := hsame.overflowed ▸ h.version.fits
    major_eq := fun hfits =>
      hsame.major.trans (h.version.major_eq (hsame.overflowed ▸ hfits))
    minor_eq := fun hfits =>
      hsame.minor.trans (h.version.minor_eq (hsame.overflowed ▸ hfits)) }
  major_digits := h.major_digits
  minor_digits := h.minor_digits

end RequestParser

/-- The states after the request line. -/
def ParserState.afterLine : ParserState → Bool
  | .headerLineStart | .headerLws | .headerName | .spaceBeforeHeaderValue
  | .headerValue | .expectingNewline2 | .expectingNewline3 => true
  | _ => false

namespace RequestParser

variable {s s' : RequestParser} {c : Byte} {read : List Byte}

/-- The headers leave the request line alone. -/
theorem afterLine_step (h : s.state_.afterLine = true)
    (hstep : s.consume c = (none, s')) :
    s'.state_.afterLine = true ∧ SameLine s s' := by
  cases hstate : s.state_
  case headerLineStart | headerLws | headerName | spaceBeforeHeaderValue
      | headerValue | expectingNewline2 | expectingNewline3 =>
    simp only [consume, hstate, expect] at hstep
    repeat' split at hstep
    all_goals cases hstep
    all_goals
      refine ⟨?_, rfl, rfl, rfl, rfl, rfl⟩
      simp [goTo, pushHeader, pushName, pushValue, hstate,
        ParserState.afterLine]
  all_goals simp [hstate, ParserState.afterLine] at h

theorem progress_afterLine (h : s.state_.afterLine = true) :
    Progress s read ↔ ∃ major minor rest, major ≠ [] ∧ minor ≠ [] ∧
      read = s.target ++ literal " HTTP/" ++ major ++ literal "." ++ minor ++
        literal "\r\n" ++ rest ∧ Versioned major minor s := by
  cases hstate : s.state_
  case headerLineStart | headerLws | headerName | spaceBeforeHeaderValue
      | headerValue | expectingNewline2 | expectingNewline3 =>
    simp only [Progress, hstate]
  all_goals simp [hstate, ParserState.afterLine] at h

/-! What the operations leave. -/

@[simp] theorem goTo_state_ (s : RequestParser) (next : ParserState) :
    (s.goTo next).state_ = next := rfl

@[simp] theorem goTo_req (s : RequestParser) (next : ParserState) :
    (s.goTo next).req = s.req := rfl

@[simp] theorem goTo_overflowed (s : RequestParser) (next : ParserState) :
    (s.goTo next).overflowed = s.overflowed := rfl

@[simp] theorem goTo_target (s : RequestParser) (next : ParserState) :
    (s.goTo next).target = s.target := rfl

@[simp] theorem named_goTo (s : RequestParser) (next : ParserState) :
    Named (s.goTo next) ↔ Named s :=
  ⟨fun h => ⟨h.1, h.2, h.3⟩, fun h => h.congr (sameLine_goTo s next)⟩

@[simp] theorem pushMethod_state_ (s : RequestParser) (c : Byte) :
    (s.pushMethod c).state_ = s.state_ := rfl

@[simp] theorem pushUri_state_ (s : RequestParser) (c : Byte) :
    (s.pushUri c).state_ = s.state_ := rfl

@[simp] theorem accumulateMajor_state_ (s : RequestParser) (c : Byte) :
    (s.accumulateMajor c).state_ = s.state_ := rfl

@[simp] theorem accumulateMinor_state_ (s : RequestParser) (c : Byte) :
    (s.accumulateMinor c).state_ = s.state_ := rfl

theorem Versioned.goTo {major minor : List Byte} (h : Versioned major minor s)
    (next : ParserState) : Versioned major minor (s.goTo next) :=
  h.congr (sameLine_goTo s next)

/-- An expected character has been read, and the `word` is longer by it. -/
theorem expect_cases {expected : Byte} {next : ParserState}
    {front word : List Byte} (hstep : s.expect c expected next = (none, s'))
    (hread : read = front ++ word) :
    s' = s.goTo next ∧ read ++ [c] = front ++ (word ++ [expected]) := by
  rw [expect] at hstep
  split at hstep
  · next hc =>
      rw [hread, hc, List.append_assoc]
      exact ⟨(Prod.mk.inj hstep).2.symm, rfl⟩
  · cases hstep

/-! One symbol, state by state. -/

theorem progress_methodStart (hstate : s.state_ = .methodStart)
    (h : Progress s read) (hstep : s.consume c = (none, s')) :
    Progress s' (read ++ [c]) := by
  simp only [Progress, hstate] at h
  obtain ⟨rfl, hmethod, huri, hfine⟩ := h
  simp only [consume, hstate, not_isToken] at hstep
  split at hstep
  · cases hstep
  · next hc =>
      cases hstep
      have htoken : isToken c = true := by simpa using hc
      simp only [Progress, goTo_state_, goTo_req, goTo_overflowed, named_goTo]
      refine ⟨?_, huri, ?_, hfine⟩
      · simp [pushMethod, hmethod]
      · exact named_pushMethod (by simp [hmethod]) (by simp [huri])
          (ne_of_test htoken (by decide))

theorem progress_method (hstate : s.state_ = .method) (h : Progress s read)
    (hstep : s.consume c = (none, s')) : Progress s' (read ++ [c]) := by
  simp only [Progress, hstate] at h
  obtain ⟨rfl, huri, hnamed, hfine⟩ := h
  simp only [consume, hstate] at hstep
  split at hstep
  · next hspace =>
      cases hstep
      simp only [Progress, goTo_state_, goTo_target, goTo_overflowed,
        named_goTo]
      refine ⟨?_, hnamed, hfine⟩
      rw [target, huri, hspace]
  split at hstep
  · cases hstep
  · next hspace _ =>
      cases hstep
      simp only [Progress, pushMethod_state_, hstate]
      exact ⟨rfl, huri, named_pushMethod hnamed.method_word hnamed.uri_word
        hspace, hfine⟩

theorem progress_uri (hstate : s.state_ = .uri) (h : Progress s read)
    (hstep : s.consume c = (none, s')) : Progress s' (read ++ [c]) := by
  simp only [Progress, hstate] at h
  obtain ⟨rfl, hnamed, hfine⟩ := h
  simp only [consume, hstate] at hstep
  split at hstep
  · next hspace =>
      cases hstep
      simp only [Progress, goTo_state_, goTo_target, goTo_overflowed,
        named_goTo]
      refine ⟨?_, hnamed, hfine⟩
      rw [hspace]
      rfl
  split at hstep
  · cases hstep
  · next hspace _ =>
      cases hstep
      simp only [Progress, pushUri_state_, hstate]
      refine ⟨?_, hnamed.pushUri hspace, hfine⟩
      rw [target, List.append_assoc]
      rfl

/-- The four states that only lead on. -/
theorem progress_http (hstate : s.state_ = .httpVersionH ∨
      s.state_ = .httpVersionT1 ∨ s.state_ = .httpVersionT2 ∨
      s.state_ = .httpVersionP)
    (h : Progress s read) (hstep : s.consume c = (none, s')) :
    Progress s' (read ++ [c]) := by
  rcases hstate with hstate | hstate | hstate | hstate
  all_goals
    simp only [Progress, hstate] at h
    obtain ⟨hread, hnamed, hfine⟩ := h
    simp only [consume, hstate] at hstep
    obtain ⟨rfl, hreads⟩ := expect_cases hstep hread
    simp only [Progress, goTo_state_, goTo_target, goTo_overflowed, named_goTo]
    exact ⟨hreads, hnamed, hfine⟩

theorem progress_slash (hstate : s.state_ = .httpVersionSlash)
    (h : Progress s read) (hstep : s.consume c = (none, s')) :
    Progress s' (read ++ [c]) := by
  simp only [Progress, hstate] at h
  obtain ⟨rfl, hnamed, hfine⟩ := h
  simp only [consume, hstate] at hstep
  split at hstep
  · next hslash =>
      cases hstep
      simp only [Progress, goTo_state_, goTo_target]
      refine ⟨?_, (versioned_clearVersion hnamed hfine).goTo _⟩
      rw [hslash, List.append_assoc]
      rfl
  · cases hstep

theorem progress_majorStart (hstate : s.state_ = .httpVersionMajorStart)
    (h : Progress s read) (hstep : s.consume c = (none, s')) :
    Progress s' (read ++ [c]) := by
  simp only [Progress, hstate] at h
  obtain ⟨rfl, hversioned⟩ := h
  simp only [consume, hstate] at hstep
  split at hstep
  · next hc =>
      cases hstep
      simp only [Progress, goTo_state_, goTo_target]
      exact ⟨[c], List.cons_ne_nil c [], rfl,
        (hversioned.accumulateMajor hc).goTo _⟩
  · cases hstep

theorem progress_major (hstate : s.state_ = .httpVersionMajor)
    (h : Progress s read) (hstep : s.consume c = (none, s')) :
    Progress s' (read ++ [c]) := by
  simp only [Progress, hstate] at h
  obtain ⟨major, hmajor, rfl, hversioned⟩ := h
  simp only [consume, hstate] at hstep
  split at hstep
  · next hdot =>
      cases hstep
      simp only [Progress, goTo_state_, goTo_target]
      refine ⟨major, hmajor, ?_, hversioned.goTo _⟩
      rw [hdot]
      rfl
  split at hstep
  · next hc =>
      cases hstep
      simp only [Progress, accumulateMajor_state_, hstate]
      exact ⟨major ++ [c], List.append_ne_nil_of_left_ne_nil hmajor [c],
        List.append_assoc _ _ _, hversioned.accumulateMajor hc⟩
  · cases hstep

theorem progress_minorStart (hstate : s.state_ = .httpVersionMinorStart)
    (h : Progress s read) (hstep : s.consume c = (none, s')) :
    Progress s' (read ++ [c]) := by
  simp only [Progress, hstate] at h
  obtain ⟨major, hmajor, rfl, hversioned⟩ := h
  simp only [consume, hstate] at hstep
  split at hstep
  · next hc =>
      cases hstep
      simp only [Progress, goTo_state_, goTo_target]
      exact ⟨major, [c], hmajor, List.cons_ne_nil c [], rfl,
        (hversioned.accumulateMinor hc).goTo _⟩
  · cases hstep

theorem progress_minor (hstate : s.state_ = .httpVersionMinor)
    (h : Progress s read) (hstep : s.consume c = (none, s')) :
    Progress s' (read ++ [c]) := by
  simp only [Progress, hstate] at h
  obtain ⟨major, minor, hmajor, hminor, rfl, hversioned⟩ := h
  simp only [consume, hstate] at hstep
  split at hstep
  · next hreturn =>
      cases hstep
      simp only [Progress, goTo_state_, goTo_target]
      refine ⟨major, minor, hmajor, hminor, ?_, hversioned.goTo _⟩
      rw [hreturn]
      rfl
  split at hstep
  · next hc =>
      cases hstep
      simp only [Progress, accumulateMinor_state_, hstate]
      exact ⟨major, minor ++ [c], hmajor,
        List.append_ne_nil_of_left_ne_nil hminor [c],
        List.append_assoc _ _ _, hversioned.accumulateMinor hc⟩
  · cases hstep

theorem progress_newline (hstate : s.state_ = .expectingNewline1)
    (h : Progress s read) (hstep : s.consume c = (none, s')) :
    Progress s' (read ++ [c]) := by
  simp only [Progress, hstate] at h
  obtain ⟨major, minor, hmajor, hminor, hread, hversioned⟩ := h
  simp only [consume, hstate] at hstep
  obtain ⟨rfl, hreads⟩ := expect_cases hstep hread
  simp only [Progress, goTo_state_, goTo_target]
  refine ⟨major, minor, [], hmajor, hminor, ?_, hversioned.goTo _⟩
  rw [hreads, List.append_nil]
  rfl

/-- In the headers only the rest grows. -/
theorem progress_headers (hafter : s.state_.afterLine = true)
    (h : Progress s read) (hstep : s.consume c = (none, s')) :
    Progress s' (read ++ [c]) := by
  obtain ⟨hafter', hsame⟩ := afterLine_step hafter hstep
  obtain ⟨major, minor, rest, hmajor, hminor, rfl, hversioned⟩ :=
    (progress_afterLine hafter).mp h
  refine (progress_afterLine hafter').mpr ⟨major, minor, rest ++ [c],
    hmajor, hminor, ?_, hversioned.congr hsame⟩
  rw [hsame.target, List.append_assoc]

/-- Each symbol that is read leads on. -/
theorem progress_step (h : Progress s read)
    (hstep : s.consume c = (none, s')) : Progress s' (read ++ [c]) := by
  cases hstate : s.state_
  case methodStart => exact progress_methodStart hstate h hstep
  case method => exact progress_method hstate h hstep
  case uriStart => simp only [Progress, hstate] at h
  case uri => exact progress_uri hstate h hstep
  case httpVersionH | httpVersionT1 | httpVersionT2 | httpVersionP =>
    exact progress_http (by simp [hstate]) h hstep
  case httpVersionSlash => exact progress_slash hstate h hstep
  case httpVersionMajorStart => exact progress_majorStart hstate h hstep
  case httpVersionMajor => exact progress_major hstate h hstep
  case httpVersionMinorStart => exact progress_minorStart hstate h hstep
  case httpVersionMinor => exact progress_minor hstate h hstep
  case expectingNewline1 => exact progress_newline hstate h hstep
  all_goals exact progress_headers (by rw [hstate]; rfl) h hstep

theorem progress_new (first second : Int) : Progress (new first second) [] :=
  And.intro rfl ⟨rfl, rfl, rfl⟩

theorem consume_accepts (h : s.consume c = (some true, s')) :
    s.state_ = .expectingNewline3 ∧ s' = s := by
  cases hstate : s.state_ <;> simp only [consume, expect, hstate] at h
  case expectingNewline3 => exact ⟨rfl, (Prod.mk.inj h).2.symm⟩
  all_goals
    repeat' split at h
    all_goals cases h

/-- An accepted request begins with its request line. -/
theorem accepted {first second : Int} {input rest : List Byte}
    (h : requestParser.run (new first second) input = (some true, s, rest)) :
    ∃ consumed major minor, input = consumed ++ rest ∧
      RequestLine consumed s.req.method s.req.uri major minor ∧
      s.req.method ≠ [] ∧ major ≠ [] ∧ minor ≠ [] ∧ Version major minor s := by
  rcases requestParser.run_cases (new first second) input with ⟨s', hreads⟩ |
    ⟨read, c, rest', mid, r, s', hinput, hreads, hdecides, hrun⟩
  · rw [hreads] at h
    cases h
  · rw [hrun] at h
    cases h
    obtain ⟨hstate, rfl⟩ := consume_accepts hdecides
    have hprogress : Progress s ([] ++ read) :=
      hreads.invariant progress_step (progress_new first second)
    simp only [Progress, hstate, List.nil_append] at hprogress
    obtain ⟨major, minor, more, hmajor, hminor, hread, hversioned⟩ := hprogress
    refine ⟨read ++ [c], major, minor, ?_, ?_, hversioned.named.method_ne,
      hmajor, hminor, hversioned.version⟩
    · rw [hinput, List.append_assoc, List.singleton_append]
    · exact {
        text := ⟨more ++ [c], by rw [hread, List.append_assoc]; rfl⟩
        method_word := hversioned.named.method_word
        uri_word := hversioned.named.uri_word
        major_digits := hversioned.major_digits
        minor_digits := hversioned.minor_digits }

/-- What is accepted is read as it is written if and only if its URI is not
empty and its version numbers are not too great. -/
theorem lineAsRead_iff (first second : Int) (chunks : List (List Byte))
    {s : RequestParser} {rest : List Byte}
    (h : requestParser.runParts (new first second) chunks =
      (some true, s, rest)) :
    ∃ consumed, chunks.flatten = consumed ++ rest ∧
      (LineAsRead consumed s ↔ LineFits chunks.flatten) := by
  rw [Recognizer.runParts_eq] at h
  obtain ⟨consumed, major, minor, hinput, hline, hmethod, hmajor, hminor,
    hversion⟩ := accepted h
  refine ⟨consumed, hinput, ?_, ?_⟩
  · rintro ⟨method, uri, major', minor', hline', -, huri, -, -, -, -, hfine⟩
    obtain ⟨rfl, rfl, rfl, rfl⟩ := hline.unique hline'
    exact ⟨_, _, _, _, hinput ▸ hline.append rest, huri,
      hversion.fits.mp hfine⟩
  · rintro ⟨method, uri, major', minor', hline', huri, hfits⟩
    rw [hinput] at hline'
    obtain ⟨rfl, rfl, rfl, rfl⟩ := (hline.append rest).unique hline'
    have hfine := hversion.fits.mpr hfits
    exact ⟨_, _, _, _, hline, hmethod, huri, hmajor, hminor,
      hversion.major_eq hfine, hversion.minor_eq hfine, hfine⟩

theorem lineAsRead_iff_get :
    ∃ consumed, [literal "GE", literal "T / HTTP/1.0\r\n\r\nx"].flatten =
        consumed ++ literal "x" ∧
      (LineAsRead consumed
          { state_ := .expectingNewline3
            req := { method := literal "GET", uri := literal "/"
                     http_version_major := 1, http_version_minor := 0
                     headers := [] }
            overflowed := false } ↔
        LineFits [literal "GE", literal "T / HTTP/1.0\r\n\r\nx"].flatten) :=
  lineAsRead_iff 7 7 [literal "GE", literal "T / HTTP/1.0\r\n\r\nx"]
    (by decide +kernel)

/-- After a method and two spaces comes the version: the state in which a URI
starts is never entered. -/
theorem not_lineAsRead : ¬∀ (first second : Int) (chunks : List (List Byte))
    (s : RequestParser) (rest : List Byte),
    requestParser.runParts (new first second) chunks = (some true, s, rest) →
    ∃ consumed, chunks.flatten = consumed ++ rest ∧ LineAsRead consumed s := by
  intro hclaim
  obtain ⟨consumed, hconsumed, method, uri, major, minor, hline, -, huri, -⟩ :=
    hclaim 0 0 [literal "GET  HTTP/1.0\r\n\r\n"]
      { state_ := .expectingNewline3
        req := { method := literal "GET", uri := []
                 http_version_major := 1, http_version_minor := 0
                 headers := [] }
        overflowed := false } [] (by decide +kernel)
  have hmissing : RequestLine consumed (literal "GET") [] (literal "1")
      (literal "0") := {
    text := ⟨literal "\r\n", by
      rw [List.append_nil] at hconsumed
      rw [← hconsumed]
      rfl⟩
    method_word := by decide
    uri_word := by decide
    major_digits := by decide
    minor_digits := by decide }
  exact huri (hmissing.unique hline).2.1.symm

example : ((requestParser.runParts (new 0 0)
    [literal "GET / HTTP/2147483600.0\r\n\r\n"]).2.1).overflowed = true := by
  decide +kernel

end RequestParser

end BohunoPyzord
