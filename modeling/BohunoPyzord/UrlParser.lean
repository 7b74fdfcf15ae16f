/-
`http::url` in detail: `parse` with the indices that it reads, `update`, which
builds a URL that it parses back, and what it makes of a port.
-/
import BohunoPyzord.DecimalDigits
import BohunoPyzord.PyzordDaemon
import BohunoPyzord.UnreadableNames
import Mathlib.Data.List.TakeWhile

namespace BohunoPyzord

namespace HttpUrl

/-- `url::update`. -/
def update (scheme_ host_ : Text) (port_ : Nat) (path_ : Text) : Text :=
  if path_ ≠ [] then
    scheme_ ++ "://".toList ++ host_ ++ ":".toList ++ decimal port_ ++ path_
  else scheme_ ++ "://".toList ++ host_ ++ ":".toList ++ decimal port_

end HttpUrl

/-- How `url::parse` ends if not with a URL; `outOfRange` is a read behind the
NUL of a string. -/
inductive UrlError where
  | invalidUrl
  | noDefaultPort
  | outOfRange
deriving DecidableEq, Repr

/-- The text of a `runtime_error`. -/
def UrlError.what : UrlError → String
  | .invalidUrl => "Invalid URL"
  | .noDefaultPort => "Invalid URL: Don't know default port number for scheme"
  | .outOfRange => ""

namespace UrlParser

variable (s : Text)

/-- `s[n]`. -/
def charAt (n : Nat) : Except UrlError Char :=
  if n ≤ s.length then .ok (s.getD n '\x00') else .error .outOfRange

/-- A loop that reads characters as long as it may: these, and where it has
stopped. -/
def readWhile (goesOn : Char → Bool) (n : Nat) : Except UrlError (Text × Nat) :=
  if n < s.length then do
    let c ← charAt s n
    if goesOn c then
      let (read, n) ← readWhile goesOn (n + 1)
      pure (c :: read, n)
    else pure ([], n)
  else pure ([], n)
termination_by s.length - n

def readSeparator (n : Nat) : Except UrlError Nat := do
  let first ← charAt s n
  if first ≠ ':' then throw .invalidUrl
  else
    let second ← charAt s (n + 1)
    if second ≠ '/' then throw .invalidUrl
    else
      let third ← charAt s (n + 2)
      if third ≠ '/' then throw .invalidUrl
      else pure (n + 3)

/-- The loop over the digits of the port, after `tmp`. -/
def readPort (tmp : Text) (port_ : Option Nat) (n : Nat) :
    Except UrlError (Option Nat × Nat) :=
  if n < s.length then do
    let c ← charAt s n
    if c.isDigit then
      let tmp := tmp ++ [c]
      let port_ := HttpUrl.portNumber tmp
      if port_ = 0 then throw .invalidUrl
      else readPort tmp (some port_) (n + 1)
    else pure (port_, n)
  else pure (port_, n)
termination_by s.length - n

def readAuthorityEnd (scheme_ : Text) (n : Nat) :
    Except UrlError (Option Nat × Nat) := do
  let c ← charAt s n
  if c = ':' then readPort s [] none (n + 1)
  else
    match HttpUrl.defaultPort scheme_ with
    | some port_ => pure (some port_, n)
    | none => throw .noDefaultPort

def readPath (n : Nat) : Except UrlError Text :=
  if n < s.length then do
    let c ← charAt s n
    if c ≠ '/' then throw .invalidUrl else pure (s.drop n)
  else pure []

/-- `url::parse`. -/
def parse : Except UrlError HttpUrl := do
  let (scheme_, n) ← readWhile s (fun c => c ≠ ':') 0
  let n ← readSeparator s n
  let (host_, n) ← readWhile s (fun c => c ≠ ':' ∧ c ≠ '/') n
  let (port_, n) ← readAuthorityEnd s scheme_ n
  let path_ ← readPath s n
  pure { scheme_, host_, port_, path_ }

/-- `rest` is what is left of the string at an index that may be read. -/
structure At (n : Nat) (rest : Text) : Prop where
  le : n ≤ s.length
  drop : s.drop n = rest

variable {s}

theorem At.next {n : Nat} {c : Char} {rest : Text} (h : At s n (c :: rest)) :
    At s (n + 1) rest := by
  have hlength := congrArg List.length h.drop
  rw [List.length_drop, List.length_cons] at hlength
  refine ⟨by omega, ?_⟩
  rw [← List.drop_drop, h.drop, List.drop_one, List.tail_cons]

theorem At.lt_iff {n : Nat} {rest : Text} (h : At s n rest) :
    n < s.length ↔ rest ≠ [] := by
  rw [← h.drop, Ne, List.drop_eq_nil_iff, Nat.not_le]

theorem At.charAt {n : Nat} {rest : Text} (h : At s n rest) :
    UrlParser.charAt s n = .ok (rest.headD '\x00') := by
  have hhead : s.getD n '\x00' = rest.headD '\x00' := by
    rw [← h.drop, List.headD_eq_head?_getD, List.head?_drop,
      List.getD_eq_getElem?_getD]
  rw [UrlParser.charAt, if_pos h.le, hhead]

/-- Each loop stops before the first character that it may not read. -/
theorem At.readWhile {n : Nat} {rest : Text} (h : At s n rest)
    (goesOn : Char → Bool) :
    ∃ n', UrlParser.readWhile s goesOn n = .ok (rest.takeWhile goesOn, n') ∧
      At s n' (rest.dropWhile goesOn) := by
  induction rest generalizing n with
  | nil =>
      have hend : ¬ n < s.length := fun hlt => h.lt_iff.mp hlt rfl
      refine ⟨n, ?_, h⟩
      rw [UrlParser.readWhile, if_neg hend]
      rfl
  | cons c rest ih =>
      have hlt : n < s.length := h.lt_iff.mpr (List.cons_ne_nil c rest)
      rw [UrlParser.readWhile, if_pos hlt, h.charAt]
      by_cases hgoes : goesOn c = true
      · obtain ⟨n', hread, hat⟩ := ih h.next
        refine ⟨n', ?_, ?_⟩
        · simp only [List.headD_cons, hgoes, hread, bind, Except.bind,
            ↓reduceIte, pure, Except.pure, List.takeWhile_cons_of_pos]
        · rw [List.dropWhile_cons_of_pos hgoes]
          exact hat
      · refine ⟨n, ?_, ?_⟩
        · simp only [List.headD_cons, hgoes, bind, Except.bind,
            pure, Except.pure, List.takeWhile_cons, Bool.false_eq_true,
            ↓reduceIte]
        · rw [List.dropWhile_cons_of_neg hgoes]
          exact h

/-- A character of the separator is there, or another is read. -/
theorem At.expect {n : Nat} {rest : Text} (h : At s n rest) {expected : Char}
    (hexpected : expected ≠ '\x00') (literal : Text) :
    (∃ rest', UrlParser.charAt s n = .ok expected ∧ At s (n + 1) rest' ∧
      stripLiteral (expected :: literal) rest = stripLiteral literal rest') ∨
    (∃ c ≠ expected, UrlParser.charAt s n = .ok c ∧
      stripLiteral (expected :: literal) rest = none) := by
  cases rest with
  | nil => exact Or.inr ⟨'\x00', hexpected.symm, h.charAt, rfl⟩
  | cons c rest =>
      by_cases hc : c = expected
      · subst hc
        refine Or.inl ⟨rest, h.charAt, h.next, ?_⟩
        simp [stripLiteral]
      · refine Or.inr ⟨c, hc, h.charAt, ?_⟩
        simp [stripLiteral, Ne.symm hc]

/-- The separator is there, or the constructor throws. -/
theorem At.readSeparator {n : Nat} {rest : Text} (h : At s n rest) :
    (∃ authority, stripLiteral "://".toList rest = some authority ∧
      UrlParser.readSeparator s n = .ok (n + 3) ∧ At s (n + 3) authority) ∨
    (stripLiteral "://".toList rest = none ∧
      UrlParser.readSeparator s n = .error .invalidUrl) := by
  have hliteral : "://".toList = [':', '/', '/'] := rfl
  have hslash : '/' ≠ '\x00' := by decide
  rw [hliteral]
  obtain ⟨second, hfirst, h₁, hstrip₁⟩ | ⟨c, hc, hread, hnone⟩ :=
    h.expect (by decide : ':' ≠ '\x00') ['/', '/']
  · obtain ⟨third, hsecond, h₂, hstrip₂⟩ | ⟨c, hc, hread, hnone⟩ :=
      h₁.expect hslash ['/']
    · obtain ⟨authority, hthird, h₃, hstrip₃⟩ | ⟨c, hc, hread, hnone⟩ :=
        h₂.expect hslash []
      · refine Or.inl ⟨authority, ?_, ?_, h₃⟩
        · rw [hstrip₁, hstrip₂, hstrip₃]
          rfl
        · simp [UrlParser.readSeparator, hfirst, hsecond, hthird, bind,
            Except.bind, pure, Except.pure]
      · refine Or.inr ⟨by rw [hstrip₁, hstrip₂, hnone], ?_⟩
        simp [UrlParser.readSeparator, hfirst, hsecond, hread, hc, bind,
          Except.bind, throw, throwThe, MonadExceptOf.throw]
    · refine Or.inr ⟨by rw [hstrip₁, hnone], ?_⟩
      simp [UrlParser.readSeparator, hfirst, hread, hc, bind, Except.bind,
        throw, throwThe, MonadExceptOf.throw]
  · refine Or.inr ⟨hnone, ?_⟩
    simp [UrlParser.readSeparator, hread, hc, bind, Except.bind, throw,
      throwThe, MonadExceptOf.throw]

theorem At.readPort_cons {n : Nat} {c : Char} {rest : Text}
    (h : At s n (c :: rest)) (tmp : Text) (port_ : Option Nat) :
    UrlParser.readPort s tmp port_ n =
      if c.isDigit then
        if HttpUrl.portNumber (tmp ++ [c]) = 0 then .error .invalidUrl
        else UrlParser.readPort s (tmp ++ [c])
          (some (HttpUrl.portNumber (tmp ++ [c]))) (n + 1)
      else .ok (port_, n) := by
  have hlt : n < s.length := h.lt_iff.mpr (List.cons_ne_nil c rest)
  rw [UrlParser.readPort, if_pos hlt, h.charAt]
  rfl

/-- `digits` are digits of a port, read after `tmp`, of which no beginning is
zero in 16 bits. -/
def NeverZero (tmp digits : Text) : Prop :=
  ∀ read, read <+: digits → read ≠ [] → HttpUrl.portNumber (tmp ++ read) ≠ 0

theorem neverZero_nil (tmp : Text) : NeverZero tmp [] :=
  fun _ hread hne => absurd (List.prefix_nil.mp hread) hne

theorem neverZero_cons_iff {tmp digits : Text} {c : Char} :
    NeverZero tmp (c :: digits) ↔
      HttpUrl.portNumber (tmp ++ [c]) ≠ 0 ∧ NeverZero (tmp ++ [c]) digits := by
  constructor
  · intro h
    refine ⟨h [c] (List.prefix_append [c] digits) (List.cons_ne_nil c []), ?_⟩
    intro read hread _
    have hcons := h (c :: read) (List.cons_prefix_cons.mpr ⟨rfl, hread⟩)
      (List.cons_ne_nil c read)
    rwa [List.append_cons] at hcons
  · rintro ⟨hfirst, hrest⟩ read hread hne
    obtain hnil | ⟨later, rfl, hlater⟩ := List.prefix_cons_iff.mp hread
    · exact absurd hnil hne
    · by_cases hnone : later = []
      · subst hnone
        exact hfirst
      · rw [List.append_cons]
        exact hrest later hlater hnone

/-- The loop over the digits throws at the first of their beginnings that is
zero in 16 bits. -/
theorem At.readPort {n : Nat} {rest : Text} (h : At s n rest) (tmp : Text)
    (port_ : Option Nat) :
    (NeverZero tmp (rest.takeWhile Char.isDigit) ∧
      ∃ n', UrlParser.readPort s tmp port_ n =
          .ok (if rest.takeWhile Char.isDigit = [] then port_
            else some (HttpUrl.portNumber
              (tmp ++ rest.takeWhile Char.isDigit)), n') ∧
        At s n' (rest.dropWhile Char.isDigit)) ∨
    (¬ NeverZero tmp (rest.takeWhile Char.isDigit) ∧
      UrlParser.readPort s tmp port_ n = .error .invalidUrl) := by
  induction rest generalizing n tmp port_ with
  | nil =>
      have hend : ¬ n < s.length := fun hlt => h.lt_iff.mp hlt rfl
      refine Or.inl ⟨neverZero_nil tmp, n, ?_, h⟩
      rw [UrlParser.readPort, if_neg hend]
      rfl
  | cons c rest ih =>
      rw [h.readPort_cons]
      by_cases hdigit : c.isDigit = true
      · rw [List.takeWhile_cons_of_pos hdigit,
          List.dropWhile_cons_of_pos hdigit, if_pos hdigit, neverZero_cons_iff]
        by_cases hzero : HttpUrl.portNumber (tmp ++ [c]) = 0
        · exact Or.inr ⟨fun hnever => hnever.1 hzero, if_pos hzero⟩
        · rw [if_neg hzero]
          rcases ih h.next (tmp ++ [c])
            (some (HttpUrl.portNumber (tmp ++ [c]))) with
            ⟨hnever, n', hread, hat⟩ | ⟨hnever, hread⟩
          · refine Or.inl ⟨⟨hzero, hnever⟩, n', ?_, hat⟩
            rw [hread, if_neg (List.cons_ne_nil c _)]
            split_ifs with hlast
            · rw [hlast]
            · rw [List.append_assoc, List.singleton_append]
          · exact Or.inr ⟨fun h => hnever h.2, hread⟩
      · rw [List.takeWhile_cons_of_neg hdigit,
          List.dropWhile_cons_of_neg hdigit, if_neg hdigit]
        exact Or.inl ⟨neverZero_nil tmp, n, rfl, h⟩

theorem At.readPath {n : Nat} {rest : Text} (h : At s n rest) :
    UrlParser.readPath s n =
      if rest.head?.all (· = '/') then .ok rest else .error .invalidUrl := by
  cases rest with
  | nil =>
      have hend : ¬ n < s.length := fun hlt => h.lt_iff.mp hlt rfl
      rw [UrlParser.readPath, if_neg hend]
      rfl
  | cons c rest =>
      have hlt : n < s.length := h.lt_iff.mpr (List.cons_ne_nil c rest)
      rw [UrlParser.readPath, if_pos hlt, h.charAt, h.drop]
      by_cases hc : c = '/'
      · subst hc
        rfl
      · simp [hc, bind, Except.bind, throw, throwThe, MonadExceptOf.throw]

theorem parsePath_eq (scheme_ host_ : Text) (port_ : Option Nat)
    (rest : Text) :
    HttpUrl.parsePath scheme_ host_ port_ rest =
      if rest.head?.all (· = '/') then
        some { scheme_, host_, port_, path_ := rest }
      else none := by
  cases rest with
  | nil => rfl
  | cons c rest =>
      by_cases hc : c = '/'
      · subst hc
        rfl
      · rw [HttpUrl.parsePath]
        · simp [hc]
        · exact hc

theorem all_inits_iff (digits : Text) :
    (digits.inits.tail.all fun read => HttpUrl.portNumber read ≠ 0) = true ↔
      NeverZero [] digits := by
  rw [List.all_eq_true]
  cases digits with
  | nil => simp [neverZero_nil]
  | cons c digits =>
      simp only [List.inits_cons, List.tail_cons, List.mem_map,
        List.mem_inits, decide_eq_true_eq, forall_exists_index, and_imp,
        forall_apply_eq_imp_iff₂]
      constructor
      · intro h read hread hne
        obtain hnil | ⟨later, rfl, hlater⟩ := List.prefix_cons_iff.mp hread
        · exact absurd hnil hne
        · exact h later hlater
      · intro h later hlater
        exact h (c :: later) (List.cons_prefix_cons.mpr ⟨rfl, hlater⟩)
          (List.cons_ne_nil c later)

/-- What `parse` makes of the rest behind the host. -/
def parseAfterHost (scheme_ host_ after : Text) : Option HttpUrl :=
  if after.head? = some ':' then
    let digits := after.tail.takeWhile Char.isDigit
    if digits.inits.tail.all fun read => HttpUrl.portNumber read ≠ 0 then
      HttpUrl.parsePath scheme_ host_
        (if digits = [] then none else some (HttpUrl.portNumber digits))
        (after.tail.dropWhile Char.isDigit)
    else none
  else
    (HttpUrl.defaultPort scheme_).bind fun port_ =>
      HttpUrl.parsePath scheme_ host_ (some port_) after

theorem parseAfterHost_of_neverZero {rest : Text}
    (h : NeverZero [] (rest.takeWhile Char.isDigit)) (scheme_ host_ : Text) :
    parseAfterHost scheme_ host_ (':' :: rest) =
      HttpUrl.parsePath scheme_ host_
        (if rest.takeWhile Char.isDigit = [] then none
          else some (HttpUrl.portNumber (rest.takeWhile Char.isDigit)))
        (rest.dropWhile Char.isDigit) :=
  (if_pos rfl).trans (if_pos ((all_inits_iff _).mpr h))

theorem parseAfterHost_of_zero {rest : Text}
    (h : ¬ NeverZero [] (rest.takeWhile Char.isDigit)) (scheme_ host_ : Text) :
    parseAfterHost scheme_ host_ (':' :: rest) = none :=
  (if_pos rfl).trans (if_neg fun hall => h ((all_inits_iff _).mp hall))

theorem parseAfterHost_of_ne {after : Text} (h : after.head? ≠ some ':')
    (scheme_ host_ : Text) :
    parseAfterHost scheme_ host_ after =
      (HttpUrl.defaultPort scheme_).bind fun port_ =>
        HttpUrl.parsePath scheme_ host_ (some port_) after := if_neg h

theorem parse_eq (s : Text) :
    HttpUrl.parse s =
      (stripLiteral "://".toList (s.dropWhile (· ≠ ':'))).bind
        fun authority =>
          parseAfterHost (s.takeWhile (· ≠ ':'))
            (authority.takeWhile fun c => c ≠ ':' ∧ c ≠ '/')
            (authority.dropWhile fun c => c ≠ ':' ∧ c ≠ '/') := by
  rw [HttpUrl.parse]
  apply congrArg (Option.bind _)
  funext authority
  generalize (authority.dropWhile fun c => c ≠ ':' ∧ c ≠ '/') = after
  cases after with
  | nil => rfl
  | cons c rest =>
      by_cases hc : c = ':'
      · subst hc
        rfl
      · have hhead : (c :: rest).head? ≠ some ':' :=
          fun h => hc (Option.some.inj h)
        rw [parseAfterHost, if_neg hhead]
        split
        · rename_i heq
          exact absurd (List.cons.inj heq).1 hc
        · rfl

/-- A reading that goes no further than the NUL, and comes to what is
expected. -/
def Agrees (read : Except UrlError HttpUrl) (expected : Option HttpUrl) : Prop :=
  read ≠ .error .outOfRange ∧ read.toOption = expected

theorem agrees_ok (url : HttpUrl) : Agrees (.ok url) (some url) :=
  ⟨fun h => absurd h (by simp), rfl⟩

theorem agrees_error {e : UrlError} (h : e ≠ .outOfRange) :
    Agrees (.error e) none :=
  ⟨fun heq => h (Except.error.inj heq), rfl⟩

theorem At.agrees_path {n : Nat} {rest : Text} (h : At s n rest)
    (scheme_ host_ : Text) (port_ : Option Nat) :
    Agrees (do
        let path_ ← UrlParser.readPath s n
        pure { scheme_, host_, port_, path_ })
      (HttpUrl.parsePath scheme_ host_ port_ rest) := by
  rw [h.readPath, parsePath_eq]
  by_cases hslash : rest.head?.all (· = '/') = true
  · rw [if_pos hslash, if_pos hslash]
    exact agrees_ok _
  · rw [if_neg hslash, if_neg hslash]
    exact agrees_error (by decide)

theorem At.agrees_afterHost {n : Nat} {after : Text} (h : At s n after)
    (scheme_ host_ : Text) :
    Agrees (do
        let (port_, n) ← UrlParser.readAuthorityEnd s scheme_ n
        let path_ ← UrlParser.readPath s n
        pure { scheme_, host_, port_, path_ })
      (parseAfterHost scheme_ host_ after) := by
  rw [UrlParser.readAuthorityEnd, h.charAt]
  by_cases hcolon : after.head? = some ':'
  · obtain ⟨rest, rfl⟩ := List.head?_eq_some_iff.mp hcolon
    simp only [List.headD_cons, bind, Except.bind, ↓reduceIte]
    rcases h.next.readPort [] none with
      ⟨hnever, n', hread, hat⟩ | ⟨hzero, hread⟩
    · rw [hread, parseAfterHost_of_neverZero hnever]
      exact hat.agrees_path scheme_ host_ _
    · rw [hread, parseAfterHost_of_zero hzero]
      exact agrees_error (by decide)
  · have hother : after.headD '\x00' ≠ ':' := by
      cases after with
      | nil => decide
      | cons c rest => exact fun hc => hcolon (congrArg some hc)
    rw [parseAfterHost_of_ne hcolon]
    simp only [bind, Except.bind, hother, ↓reduceIte]
    cases HttpUrl.defaultPort scheme_ with
    | none => exact agrees_error (by decide)
    | some port_ => exact h.agrees_path scheme_ host_ (some port_)

/-- No index behind the NUL is read, and what is parsed is what `HttpUrl.parse`
makes of the string. -/
theorem agrees_parse (s : Text) : Agrees (parse s) (HttpUrl.parse s) := by
  have hstart : At s 0 s := ⟨Nat.zero_le _, rfl⟩
  obtain ⟨n₁, hscheme, h₁⟩ := hstart.readWhile fun c => c ≠ ':'
  rw [parse_eq, parse, hscheme]
  rcases h₁.readSeparator with
    ⟨authority, hstrip, hseparator, h₂⟩ | ⟨hstrip, hseparator⟩
  · obtain ⟨n₃, hhost, h₃⟩ := h₂.readWhile fun c => c ≠ ':' ∧ c ≠ '/'
    simp only [bind, Except.bind, hseparator, hhost, hstrip, Option.bind]
    exact h₃.agrees_afterHost _ _
  · simp only [bind, Except.bind, hseparator, hstrip]
    exact agrees_error (by decide)

/-- The parts that the first two loops of the parser stop at. -/
structure Parts (scheme_ host_ after : Text) : Prop where
  scheme : ∀ c ∈ scheme_, c ≠ ':'
  host : ∀ c ∈ host_, c ≠ ':' ∧ c ≠ '/'
  ends : ∀ c ∈ after.head?, c = ':' ∨ c = '/'

/-- A loop stops behind the characters that it may read if another follows. -/
theorem takeWhile_dropWhile_of_ends (goesOn : Char → Bool) {front rest : Text}
    (hfront : ∀ c ∈ front, goesOn c = true)
    (hrest : ∀ c ∈ rest.head?, goesOn c = false) :
    (front ++ rest).takeWhile goesOn = front ∧
      (front ++ rest).dropWhile goesOn = rest := by
  rw [List.takeWhile_append_of_pos hfront, List.dropWhile_append_of_pos hfront]
  cases rest with
  | nil => exact ⟨List.append_nil front, rfl⟩
  | cons c rest =>
      have hc : ¬ goesOn c = true := by simp [hrest c rfl]
      rw [List.takeWhile_cons_of_neg hc, List.dropWhile_cons_of_neg hc]
      exact ⟨List.append_nil front, rfl⟩

theorem Parts.parse_eq {scheme_ host_ after : Text}
    (h : Parts scheme_ host_ after) :
    HttpUrl.parse (scheme_ ++ "://".toList ++ host_ ++ after) =
      parseAfterHost scheme_ host_ after := by
  have hends : ∀ c ∈ after.head?, decide (c ≠ ':' ∧ c ≠ '/') = false := by
    intro c hc
    rcases h.ends c hc with rfl | rfl <;> decide
  obtain ⟨hscheme, hrest⟩ := takeWhile_dropWhile_of_ends (fun c => c ≠ ':')
    (fun c hc => decide_eq_true (h.scheme c hc))
    (by simp : ∀ c ∈ ("://".toList ++ (host_ ++ after)).head?,
      decide (c ≠ ':') = false)
  obtain ⟨hhost, hafter⟩ := takeWhile_dropWhile_of_ends
    (fun c => c ≠ ':' ∧ c ≠ '/')
    (fun c hc => decide_eq_true (h.host c hc)) hends
  have hstrip : stripLiteral "://".toList ("://".toList ++ (host_ ++ after)) =
      some (host_ ++ after) := rfl
  rw [UrlParser.parse_eq, List.append_assoc, List.append_assoc, hscheme, hrest,
    hstrip, Option.bind_some, hhost, hafter]

/-- What is accepted has such parts. -/
theorem exists_parts {s : Text} {url : HttpUrl}
    (h : HttpUrl.parse s = some url) :
    ∃ scheme_ host_ after, Parts scheme_ host_ after ∧
      s = scheme_ ++ "://".toList ++ host_ ++ after := by
  rw [UrlParser.parse_eq, Option.bind_eq_some_iff] at h
  obtain ⟨authority, hstrip, -⟩ := h
  refine ⟨s.takeWhile (· ≠ ':'), authority.takeWhile fun c => c ≠ ':' ∧ c ≠ '/',
    authority.dropWhile fun c => c ≠ ':' ∧ c ≠ '/', ⟨?_, ?_, ?_⟩, ?_⟩
  · exact fun c hc => by simpa using List.mem_takeWhile_imp hc
  · exact fun c hc => by simpa using List.mem_takeWhile_imp hc
  · intro c hc
    have hstop := List.head?_dropWhile_not (fun c => c ≠ ':' ∧ c ≠ '/') authority
    rw [Option.mem_def.mp hc] at hstop
    by_contra hnot
    exact of_decide_eq_false hstop (not_or.mp hnot)
  · rw [stripLiteral] at hstrip
    split_ifs at hstrip with hprefix
    obtain ⟨rest, hrest⟩ := List.isPrefixOf_iff_prefix.mp hprefix
    rw [← hrest, List.drop_left'] at hstrip
    · obtain rfl := Option.some.inj hstrip
      rw [List.append_assoc, List.append_assoc, List.takeWhile_append_dropWhile,
        hrest, List.takeWhile_append_dropWhile]
    · rfl

end UrlParser

namespace HttpUrl

open UrlParser

/-- A URL with a port: the digits behind the colon, and what follows them. -/
structure WithPort (s scheme_ host_ digits rest : Text) : Prop where
  text : s = scheme_ ++ "://".toList ++ host_ ++ ':' :: (digits ++ rest)
  scheme : ∀ c ∈ scheme_, c ≠ ':'
  host : ∀ c ∈ host_, c ≠ ':' ∧ c ≠ '/'
  digits : ∀ c ∈ digits, c.isDigit = true
  ends : ∀ c ∈ rest.head?, c.isDigit = false

/-- What `parse` makes of it. -/
theorem WithPort.parse_eq_some_iff {s scheme_ host_ digits rest : Text}
    (h : WithPort s scheme_ host_ digits rest) (url : HttpUrl) :
    parse s = some url ↔ NeverZero [] digits ∧ (∀ c ∈ rest.head?, c = '/') ∧
      url = { scheme_, host_
              port_ := if digits = [] then none else some (portNumber digits)
              path_ := rest } := by
  obtain ⟨rfl, hscheme, hhost, hdigits, hends⟩ := h
  have hparts : Parts scheme_ host_ (':' :: (digits ++ rest)) :=
    ⟨hscheme, hhost, fun c hc => Or.inl (Option.some.inj hc).symm⟩
  obtain ⟨htake, hdrop⟩ :=
    takeWhile_dropWhile_of_ends Char.isDigit hdigits hends
  have hslash : rest.head?.all (· = '/') = true ↔ ∀ c ∈ rest.head?, c = '/' := by
    cases rest <;> simp
  rw [hparts.parse_eq]
  by_cases hnever : NeverZero [] digits
  · rw [parseAfterHost_of_neverZero (htake.symm ▸ hnever), htake, hdrop,
      parsePath_eq, Option.ite_none_right_eq_some, hslash, Option.some.injEq,
      eq_comm (b := url)]
    exact ⟨fun h => ⟨hnever, h⟩, And.right⟩
  · rw [parseAfterHost_of_zero (htake.symm ▸ hnever)]
    exact iff_of_false (Option.some_ne_none url).symm fun h => hnever h.1

theorem portNumber_eq_zero_iff (read : Text) :
    portNumber read = 0 ↔
      decimalValue read < 2 ^ 63 ∧ 2 ^ 16 ∣ decimalValue read := by
  rw [portNumber, ← decimalValue]
  omega

theorem portNumber_of_lt {digits : Text} (h : decimalValue digits < 2 ^ 16) :
    portNumber digits = decimalValue digits := by
  rw [portNumber, ← decimalValue]
  omega

/-- If the URL is accepted, its port is the number written in it, from 1 to
65535, or the default of its scheme where it has none. -/
def PortAsWritten (s : Text) : Prop :=
  ∀ url, parse s = some url →
    (∀ scheme_ host_ digits rest, WithPort s scheme_ host_ digits rest →
      url.port_ = some (decimalValue digits) ∧
        1 ≤ decimalValue digits ∧ decimalValue digits ≤ 65535) ∧
    ((¬ ∃ scheme_ host_ digits rest, WithPort s scheme_ host_ digits rest) →
      ∃ port_, defaultPort url.scheme_ = some port_ ∧
        url.port_ = some port_)

/-- The port of the URL is written in digits and fits 16 bits, or something
else is wrong with the URL: another character follows the port, or the number
of its first digits is a multiple of 65536 (and below what `strtol` ends
at). -/
def PortFits (s : Text) : Prop :=
  ∀ scheme_ host_ digits rest, WithPort s scheme_ host_ digits rest →
    (digits ≠ [] ∧ decimalValue digits ≤ 65535) ∨
      (∃ c ∈ rest.head?, c ≠ '/') ∨
      ∃ read, read <+: digits ∧ read ≠ [] ∧ decimalValue read < 2 ^ 63 ∧
        2 ^ 16 ∣ decimalValue read

/-- A URL without a port has the default one. -/
theorem default_of_not_withPort {s : Text} {url : HttpUrl}
    (h : parse s = some url)
    (hnone : ¬ ∃ scheme_ host_ digits rest,
      WithPort s scheme_ host_ digits rest) :
    ∃ port_, defaultPort url.scheme_ = some port_ ∧
      url.port_ = some port_ := by
  obtain ⟨scheme_, host_, after, hparts, rfl⟩ := exists_parts h
  rw [hparts.parse_eq] at h
  by_cases hcolon : after.head? = some ':'
  · obtain ⟨rest, rfl⟩ := List.head?_eq_some_iff.mp hcolon
    refine absurd ⟨scheme_, host_, rest.takeWhile Char.isDigit,
      rest.dropWhile Char.isDigit, ?_, hparts.scheme, hparts.host, ?_, ?_⟩ hnone
    · rw [List.takeWhile_append_dropWhile]
    · exact fun c hc => List.mem_takeWhile_imp hc
    · intro c hc
      have hstop := List.head?_dropWhile_not Char.isDigit rest
      rwa [Option.mem_def.mp hc] at hstop
  · rw [parseAfterHost_of_ne hcolon, Option.bind_eq_some_iff] at h
    obtain ⟨port_, hdefault, hpath⟩ := h
    rw [parsePath_eq, Option.ite_none_right_eq_some, Option.some.injEq] at hpath
    obtain ⟨-, rfl⟩ := hpath
    exact ⟨port_, hdefault, rfl⟩

/-- The port of an accepted URL is as written exactly if it fits. -/
theorem portAsWritten_iff (s : Text) : PortAsWritten s ↔ PortFits s := by
  constructor
  · intro h scheme_ host_ digits rest hport
    by_contra hnot
    rw [not_or, not_or] at hnot
    obtain ⟨hbad, hslash, hzero⟩ := hnot
    have hparsed := (hport.parse_eq_some_iff _).mpr ⟨?_, ?_, rfl⟩
    · obtain ⟨-, hpos, hle⟩ := (h _ hparsed).1 _ _ _ _ hport
      refine hbad ⟨?_, hle⟩
      rintro rfl
      exact absurd hpos (by decide)
    · intro read hread hne heq
      exact hzero ⟨read, hread, hne, (portNumber_eq_zero_iff read).mp heq⟩
    · intro c hc
      by_contra hother
      exact hslash ⟨c, hc, hother⟩
  · intro h url hparsed
    refine ⟨fun scheme_ host_ digits rest hport => ?_,
      default_of_not_withPort hparsed⟩
    obtain ⟨hnever, hslash, rfl⟩ := (hport.parse_eq_some_iff url).mp hparsed
    rcases h _ _ _ _ hport with
      ⟨hne, hle⟩ | ⟨c, hc, hother⟩ | ⟨read, hread, hne, hzero⟩
    · have hlt : decimalValue digits < 2 ^ 16 := Nat.lt_succ_of_le hle
      have hpos := hnever digits List.prefix_rfl hne
      rw [List.nil_append, portNumber_of_lt hlt] at hpos
      refine ⟨?_, Nat.pos_of_ne_zero hpos, hle⟩
      rw [if_neg hne, portNumber_of_lt hlt]
    · exact absurd (hslash c hc) hother
    · exact absurd ((portNumber_eq_zero_iff read).mpr hzero)
        (hnever read hread hne)

/-- No port behind the colon, and one that is too large. -/
theorem not_portAsWritten :
    (parse "http://h:".toList = some ⟨"http".toList, "h".toList, none, []⟩ ∧
      ¬ PortAsWritten "http://h:".toList) ∧
    parse "http://h:65537".toList =
        some ⟨"http".toList, "h".toList, some 1, []⟩ ∧
      ¬ PortAsWritten "http://h:65537".toList := by
  have hnone : parse "http://h:".toList =
      some ⟨"http".toList, "h".toList, none, []⟩ := by decide
  have hone : parse "http://h:65537".toList =
      some ⟨"http".toList, "h".toList, some 1, []⟩ := by decide
  have hport : WithPort "http://h:".toList "http".toList "h".toList [] [] :=
    ⟨by decide, by decide, by decide, by decide, by decide⟩
  have hport' : WithPort "http://h:65537".toList "http".toList "h".toList
      "65537".toList [] :=
    ⟨by decide, by decide, by decide, by decide, by decide⟩
  refine ⟨⟨hnone, fun h => ?_⟩, hone, fun h => ?_⟩
  · exact absurd ((h _ hnone).1 _ _ _ _ hport).2.1 (by decide)
  · exact absurd ((h _ hone).1 _ _ _ _ hport').2.2 (by decide)

/-- No beginning of a port is zero in 16 bits. -/
theorem neverZero_decimal {port_ : Nat} (h : 1 ≤ port_ ∧ port_ ≤ 65535) :
    NeverZero [] (decimal port_) := by
  intro read hread hne
  obtain ⟨hle, hpos⟩ := DecimalDigits.value_of_prefix hne hread
  have hlt : decimalValue read < 2 ^ 16 := by
    rw [decimalValue]
    omega
  rw [List.nil_append, portNumber_of_lt hlt]
  exact (hpos h.1).ne'

theorem withPort_update {scheme_ host_ path_ : Text} {port_ : Nat}
    (hscheme : ∀ c ∈ scheme_, c ≠ ':')
    (hhost : ∀ c ∈ host_, c ≠ ':' ∧ c ≠ '/')
    (hpath : ∀ c ∈ path_.head?, c = '/') :
    WithPort (update scheme_ host_ port_ path_) scheme_ host_ (decimal port_)
      path_ where
  text := by
    have hcolon : ":".toList = [':'] := rfl
    rw [update, hcolon]
    split_ifs with hne
    · simp only [List.append_assoc, List.cons_append, List.nil_append]
    · rw [not_not.mp hne, List.append_nil, List.append_assoc]
      rfl
  scheme := hscheme
  host := hhost
  digits _ hc := isDigit_of_mem_decimal hc
  ends c hc := by
    rw [hpath c hc]
    decide

/-- What `update` builds of parts that can be told apart is parsed back into
these, and no string makes the parser read behind its NUL. -/
theorem parse_update {scheme_ host_ path_ : Text} {port_ : Nat}
    (hscheme : ∀ c ∈ scheme_, c ≠ ':')
    (hhost : ∀ c ∈ host_, c ≠ ':' ∧ c ≠ '/')
    (hport : 1 ≤ port_ ∧ port_ ≤ 65535) (hpath : ∀ c ∈ path_.head?, c = '/') :
    UrlParser.parse (update scheme_ host_ port_ path_) =
        .ok { scheme_, host_, port_ := some port_, path_ } ∧
      ∀ s, UrlParser.parse s ≠ .error .outOfRange := by
  refine ⟨?_, fun s => (agrees_parse s).1⟩
  have hvalue : decimalValue (decimal port_) = port_ :=
    ofDigitChars_decimal port_
  have hnumber : portNumber (decimal port_) = port_ := by
    rw [portNumber_of_lt (by omega), hvalue]
  have hne : decimal port_ ≠ [] := decimal_ne_nil port_
  have hwith : WithPort (update scheme_ host_ port_ path_) scheme_ host_
      (decimal port_) path_ := withPort_update hscheme hhost hpath
  have hparsed := (hwith.parse_eq_some_iff _).mpr
    ⟨neverZero_decimal hport, hpath, rfl⟩
  rw [← (agrees_parse _).2, if_neg hne, hnumber] at hparsed
  cases hread : UrlParser.parse (update scheme_ host_ port_ path_) with
  | error e =>
      rw [hread] at hparsed
      cases hparsed
  | ok url =>
      rw [hread] at hparsed
      rw [Option.some.inj hparsed]

theorem parse_update_snapshot :
    update "http".toList "localhost".toList 24441 "/snapshot".toList =
        "http://localhost:24441/snapshot".toList ∧
      UrlParser.parse (update "http".toList "localhost".toList 24441
          "/snapshot".toList) =
        .ok { scheme_ := "http".toList, host_ := "localhost".toList
              port_ := some 24441, path_ := "/snapshot".toList } ∧
      ∀ s, UrlParser.parse s ≠ .error .outOfRange := by
  obtain ⟨hparsed, hinside⟩ := @parse_update "http".toList "localhost".toList
    "/snapshot".toList 24441 (by decide) (by decide) (by decide) (by decide)
  exact ⟨by decide +kernel, hparsed, hinside⟩

end HttpUrl

end BohunoPyzord
