/-
`http::server::request_parser`: a machine of 21 states that consumes a request
byte by byte and puts it together.  The arithmetic of the version numbers is
that of a 32-bit `int`; that it leaves its range is on record.
-/
import BohunoPyzord.License
import BohunoPyzord.Recognizer
import Mathlib.Data.List.ModifyLast

namespace BohunoPyzord

/-- The byte of a character. -/
def byte (c : Char) : Byte := BitVec.ofNat 8 c.toNat

structure HttpHeader where
  name : List Byte
  value : List Byte
deriving DecidableEq, Repr

/-- `http::server::request`. -/
structure HttpRequest where
  method : List Byte
  uri : List Byte
  http_version_major : Int
  http_version_minor : Int
  headers : List HttpHeader
deriving DecidableEq, Repr

/-- The states of the parser. -/
inductive ParserState where
  | methodStart
  | method
  | uriStart
  | uri
  | httpVersionH
  | httpVersionT1
  | httpVersionT2
  | httpVersionP
  | httpVersionSlash
  | httpVersionMajorStart
  | httpVersionMajor
  | httpVersionMinorStart
  | httpVersionMinor
  | expectingNewline1
  | headerLineStart
  | headerLws
  | headerName
  | spaceBeforeHeaderValue
  | headerValue
  | expectingNewline2
  | expectingNewline3
deriving DecidableEq, Repr

/-! The tests take an `int`, and a `char` is signed. -/

def isChar (c : Byte) : Bool := 0 ≤ c.toInt && c.toInt ≤ 127

def isCtl (c : Byte) : Bool :=
  (0 ≤ c.toInt && c.toInt ≤ 31) || c.toInt = 127

def isTspecial (c : Byte) : Bool :=
  c ∈ literal "()<>@,;:\\\"/[]?=\x7b\x7d \t"

def isDigit (c : Byte) : Bool :=
  (byte '0').toInt ≤ c.toInt && c.toInt ≤ (byte '9').toInt

/-- Whether a number is an `int`. -/
def isInt (v : Int) : Bool := -2 ^ 31 ≤ v && v < 2 ^ 31

/-- `v * 10 + input - '0'`, if overflows wrap around, and whether one of the
three operations overflows. -/
def accumulate (v : Int) (input : Byte) : Int × Bool :=
  let product := v * 10
  let sum := product + input.toInt
  let difference := sum - (byte '0').toInt
  (difference.bmod (2 ^ 32),
    !isInt product || !isInt sum || !isInt difference)

/-- The parser and the request that it fills in. -/
structure RequestParser where
  state_ : ParserState
  req : HttpRequest
  overflowed : Bool
deriving DecidableEq, Repr

namespace RequestParser

/-- A fresh parser and a fresh request, in which the version numbers have no
initial values. -/
def new (major minor : Int) : RequestParser :=
  { state_ := .methodStart
    req := { method := [], uri := [], http_version_major := major
             http_version_minor := minor, headers := [] }
    overflowed := false }

variable (s : RequestParser)

def goTo (state_ : ParserState) : RequestParser := { s with state_ }

def pushMethod (input : Byte) : RequestParser :=
  { s with req := { s.req with method := s.req.method ++ [input] } }

def pushUri (input : Byte) : RequestParser :=
  { s with req := { s.req with uri := s.req.uri ++ [input] } }

/-- Both version numbers are set to zero. -/
def clearVersion : RequestParser :=
  { s with req := { s.req with http_version_major := 0
                               http_version_minor := 0 } }

def accumulateMajor (input : Byte) : RequestParser :=
  let (major, overflowed) := accumulate s.req.http_version_major input
  { s with
    req := { s.req with http_version_major := major }
    overflowed := s.overflowed || overflowed }

def accumulateMinor (input : Byte) : RequestParser :=
  let (minor, overflowed) := accumulate s.req.http_version_minor input
  { s with
    req := { s.req with http_version_minor := minor }
    overflowed := s.overflowed || overflowed }

def pushHeader (input : Byte) : RequestParser :=
  { s with req := { s.req with
    headers := s.req.headers ++ [{ name := [input], value := [] }] } }

/-- `req.headers.back().name.push_back`. -/
def pushName (input : Byte) : RequestParser :=
  let headers := s.req.headers.modifyLast fun header =>
    { header with name := header.name ++ [input] }
  { s with req := { s.req with headers } }

/-- `req.headers.back().value.push_back`. -/
def pushValue (input : Byte) : RequestParser :=
  let headers := s.req.headers.modifyLast fun header =>
    { header with value := header.value ++ [input] }
  { s with req := { s.req with headers } }

/-- The states that one character is expected in. -/
def expect (input expected : Byte) (next : ParserState) :
    Option Bool × RequestParser :=
  if input = expected then (none, s.goTo next) else (some false, s)

/-- `request_parser::consume`; no result is `indeterminate`. -/
def consume (input : Byte) : Option Bool × RequestParser :=
  match s.state_ with
  | .methodStart =>
      if !isChar input || isCtl input || isTspecial input then (some false, s)
      else (none, (s.pushMethod input).goTo .method)
  | .method =>
      if input = byte ' ' then (none, s.goTo .uri)
      else if !isChar input || isCtl input || isTspecial input then
        (some false, s)
      else (none, s.pushMethod input)
  | .uriStart =>
      if isCtl input then (some false, s)
      else (none, (s.pushUri input).goTo .uri)
  | .uri =>
      if input = byte ' ' then (none, s.goTo .httpVersionH)
      else if isCtl input then (some false, s)
      else (none, s.pushUri input)
  | .httpVersionH => s.expect input (byte 'H') .httpVersionT1
  | .httpVersionT1 => s.expect input (byte 'T') .httpVersionT2
  | .httpVersionT2 => s.expect input (byte 'T') .httpVersionP
  | .httpVersionP => s.expect input (byte 'P') .httpVersionSlash
  | .httpVersionSlash =>
      if input = byte '/' then
        (none, s.clearVersion.goTo .httpVersionMajorStart)
      else (some false, s)
  | .httpVersionMajorStart =>
      if isDigit input then
        (none, (s.accumulateMajor input).goTo .httpVersionMajor)
      else (some false, s)
  | .httpVersionMajor =>
      if input = byte '.' then (none, s.goTo .httpVersionMinorStart)
      else if isDigit input then (none, s.accumulateMajor input)
      else (some false, s)
  | .httpVersionMinorStart =>
      if isDigit input then
        (none, (s.accumulateMinor input).goTo .httpVersionMinor)
      else (some false, s)
  | .httpVersionMinor =>
      if input = byte '\r' then (none, s.goTo .expectingNewline1)
      else if isDigit input then (none, s.accumulateMinor input)
      else (some false, s)
  | .expectingNewline1 => s.expect input (byte '\n') .headerLineStart
  | .headerLineStart =>
      if input = byte '\r' then (none, s.goTo .expectingNewline3)
      else if s.req.headers ≠ [] ∧ (input = byte ' ' ∨ input = byte '\t') then
        (none, s.goTo .headerLws)
      else if !isChar input || isCtl input || isTspecial input then
        (some false, s)
      else (none, (s.pushHeader input).goTo .headerName)
  | .headerLws =>
      if input = byte '\r' then (none, s.goTo .expectingNewline2)
      else if input = byte ' ' ∨ input = byte '\t' then (none, s)
      else if isCtl input then (some false, s)
      else (none, (s.pushValue input).goTo .headerValue)
  | .headerName =>
      if input = byte ':' then (none, s.goTo .spaceBeforeHeaderValue)
      else if !isChar input || isCtl input || isTspecial input then
        (some false, s)
      else (none, s.pushName input)
  | .spaceBeforeHeaderValue => s.expect input (byte ' ') .headerValue
  | .headerValue =>
      if input = byte '\r' then (none, s.goTo .expectingNewline2)
      else if isCtl input then (some false, s)
      else (none, s.pushValue input)
  | .expectingNewline2 => s.expect input (byte '\n') .headerLineStart
  | .expectingNewline3 => (some (decide (input = byte '\n')), s)

end RequestParser

/-- `request_parser::parse`. -/
def requestParser : Recognizer RequestParser Byte Bool where
  step := RequestParser.consume

/-! Characters. -/

/-- The characters of methods and of the names of headers. -/
def isToken (c : Byte) : Bool := isChar c && !isCtl c && !isTspecial c

theorem not_isToken (c : Byte) :
    (!isChar c || isCtl c || isTspecial c) = !isToken c := by
  simp [isToken, Bool.not_and]

/-- A character that passes a test is not one that fails it. -/
theorem ne_of_test {test : Byte → Bool} {c d : Byte} (hc : test c = true)
    (hd : test d = false) : c ≠ d := by
  rintro rfl
  rw [hc] at hd
  cases hd

/-! Version numbers. -/

/-- The number that digits write. -/
def number (digits : List Byte) : Nat :=
  digits.foldl (fun n c => n * 10 + (c.toNat - 48)) 0

/-- The greatest number to which no step overflows: the digit is added as a
character before `'0'` is taken off. -/
def maxNumber : Nat := 2 ^ 31 - 1 - 48

theorem number_append_singleton (digits : List Byte) (c : Byte) :
    number (digits ++ [c]) = number digits * 10 + (c.toNat - 48) := by
  rw [number, List.foldl_append]
  rfl

theorem isDigit_iff : ∀ c : Byte,
    isDigit c = true ↔ 48 ≤ c.toNat ∧ c.toNat ≤ 57 := by
  decide +kernel

theorem toInt_of_isDigit {c : Byte} (h : isDigit c = true) :
    c.toInt = c.toNat := by
  have hle := ((isDigit_iff c).mp h).2
  rw [BitVec.toInt_eq_toNat_of_lt]
  omega

theorem isInt_iff (v : Int) : isInt v = true ↔ -2 ^ 31 ≤ v ∧ v < 2 ^ 31 := by
  simp [isInt]

/-- A step from a number on does not overflow if and only if it comes to one
that is not too great. -/
theorem accumulate_spec {c : Byte} (h : isDigit c = true) {n : Nat}
    (hn : n ≤ maxNumber) :
    ((accumulate n c).2 = false ↔ n * 10 + (c.toNat - 48) ≤ maxNumber) ∧
      ((accumulate n c).2 = false →
        (accumulate n c).1 = (n * 10 + (c.toNat - 48) : Nat)) := by
  have hdigit := (isDigit_iff c).mp h
  have hzero : (byte '0').toInt = 48 := by decide
  have hsub : ((c.toNat - 48 : Nat) : Int) = (c.toNat : Int) - 48 := by omega
  have hranges : (accumulate n c).2 = false ↔
      n * 10 + (c.toNat - 48) ≤ maxNumber := by
    simp only [accumulate, Bool.or_eq_false_iff, Bool.not_eq_false', isInt_iff,
      toInt_of_isDigit h, hzero, maxNumber] at hn ⊢
    omega
  refine ⟨hranges, fun hfits => ?_⟩
  have hle := hranges.mp hfits
  rw [maxNumber] at hle
  rw [accumulate, toInt_of_isDigit h, hzero]
  push_cast
  rw [hsub]
  rw [Int.bmod_eq_of_le] <;> omega

/-- The same for one of two numbers: they fit until one of them does not. -/
theorem accumulate_fits {c : Byte} (hc : isDigit c = true) {v : Int}
    {before : Bool} {digits : List Byte} {other : Prop}
    (hfits : before = false ↔ number digits ≤ maxNumber ∧ other)
    (hv : before = false → v = number digits) :
    ((before || (accumulate v c).2) = false ↔
        number (digits ++ [c]) ≤ maxNumber ∧ other) ∧
      ((before || (accumulate v c).2) = false →
        (accumulate v c).1 = number (digits ++ [c])) := by
  rw [number_append_singleton, Bool.or_eq_false_iff]
  rcases before with _ | _
  · obtain ⟨hdigits, hother⟩ := hfits.mp rfl
    obtain ⟨hstep, hvalue⟩ := accumulate_spec hc hdigits
    rw [hv rfl, hstep]
    exact ⟨⟨fun h => ⟨h.2, hother⟩, fun h => ⟨rfl, h.1⟩⟩,
      fun h => hvalue (hstep.mpr h.2)⟩
  · have hnot : ¬(number digits ≤ maxNumber ∧ other) := by
      rw [← hfits]
      simp
    refine ⟨iff_of_false (by simp) ?_, by simp⟩
    rintro ⟨hdigits, hother⟩
    have hgrows : number digits ≤ number digits * 10 + (c.toNat - 48) := by
      omega
    exact hnot ⟨hgrows.trans hdigits, hother⟩

namespace RequestParser

/-- The digits of the version that have been read, and what came of them. -/
structure Version (major minor : List Byte) (s : RequestParser) : Prop where
  fits : s.overflowed = false ↔
    number major ≤ maxNumber ∧ number minor ≤ maxNumber
  major_eq : s.overflowed = false →
    s.req.http_version_major = number major
  minor_eq : s.overflowed = false →
    s.req.http_version_minor = number minor

variable {s : RequestParser} {major minor : List Byte} {c : Byte}

theorem version_clearVersion (h : s.overflowed = false) :
    Version [] [] s.clearVersion where
  fits := iff_of_true h (by decide)
  major_eq _ := rfl
  minor_eq _ := rfl

theorem Version.accumulateMajor (h : Version major minor s)
    (hc : isDigit c = true) :
    Version (major ++ [c]) minor (s.accumulateMajor c) := by
  obtain ⟨hfits, hvalue⟩ := accumulate_fits hc h.fits h.major_eq
  exact {
    fits := hfits
    major_eq := hvalue
    minor_eq := fun hfine => h.minor_eq (Bool.or_eq_false_iff.mp hfine).1 }

theorem Version.accumulateMinor (h : Version major minor s)
    (hc : isDigit c = true) :
    Version major (minor ++ [c]) (s.accumulateMinor c) := by
  obtain ⟨hfits, hvalue⟩ := accumulate_fits hc (h.fits.trans and_comm) h.minor_eq
  exact {
    fits := hfits.trans and_comm
    major_eq := fun hfine => h.major_eq (Bool.or_eq_false_iff.mp hfine).1
    minor_eq := hvalue }

end RequestParser

end BohunoPyzord
