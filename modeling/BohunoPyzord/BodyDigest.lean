/-
The digest that `pyzord-hash` makes of the body of a message: its lines without
what differs from copy to copy, all of them if they are few, and otherwise two
samples of three.
-/
import BohunoPyzord.Packet
import Mathlib.Algebra.Order.Floor.Ring
import Mathlib.Data.List.TakeWhile
import Mathlib.Data.Rat.Floor
import Mathlib.Tactic.Linarith
import Mathlib.Tactic.NormNum

namespace BohunoPyzord

/-! `re.sub('', line)`.  A pattern is given by how much of a text it matches at
the front, zero if it does not match there. -/

/-- The text without its matches; `skip` characters belong to one. -/
def subFrom (pattern : Text → Nat) : Nat → Text → Text
  | _, [] => []
  | skip + 1, _ :: s => subFrom pattern skip s
  | 0, c :: s =>
      match pattern (c :: s) with
      | 0 => c :: subFrom pattern 0 s
      | n + 1 => subFrom pattern n s

def sub (pattern : Text → Nat) (s : Text) : Text := subFrom pattern 0 s

/-- `\S*`. -/
def solid (s : Text) : Text := s.takeWhile fun c => !isSpace c

/-- `\S+@\S+`: the last `@` that has something behind it. -/
def email (s : Text) : Nat :=
  if '@' ∈ (solid s).tail.dropLast then (solid s).length else 0

/-- `[a-z]+:\S+`, in either case. -/
def url (s : Text) : Nat :=
  let name := s.takeWhile Char.isAlpha
  let rest := s.dropWhile Char.isAlpha
  if name ≠ [] ∧ rest.head? = some ':' ∧ solid rest.tail ≠ [] then
    name.length + 1 + (solid rest.tail).length
  else 0

/-- `\S{10,}`. -/
def longString (s : Text) : Nat :=
  if 10 ≤ (solid s).length then (solid s).length else 0

/-- `<.*?>`; a dot is not a line feed. -/
def htmlTag (s : Text) : Nat :=
  let inside := s.tail.takeWhile fun c => c ≠ '>' ∧ c ≠ '\n'
  if s.head? = some '<' ∧ (s.tail.drop inside.length).head? = some '>' then
    inside.length + 2
  else 0

/-- `\s`. -/
def whitespace (s : Text) : Nat := if s.head?.any isSpace then 1 else 0

/-- `str.rstrip`. -/
def rstrip (s : Text) : Text := (s.reverse.dropWhile isSpace).reverse

/-- What a list raises at an index that it does not have. -/
inductive IndexError where
  | listIndexOutOfRange
deriving DecidableEq, Repr

namespace DataDigester

def MINIMAL_LINE_LENGTH : Nat := 8

def FULL_DIGEST_TRESHOLD : Nat := 4

def REGULAR_EXPRESSIONS : List (Text → Nat) :=
  [email, url, longString, htmlTag, whitespace]

/-- The lines of a file that are long enough when all expressions are taken
out of them. -/
def normalize (fp : List Text) : List Text :=
  (fp.map fun line =>
    REGULAR_EXPRESSIONS.foldl (fun line e => sub e line) line).filter
      fun line => MINIMAL_LINE_LENGTH ≤ line.length

/-- `int(percentage * len(lines) / 100.0)`. -/
def offset (percentage n : Nat) : Nat := percentage * n / 100

/-- What is hashed before and after `lines[index]`. -/
def updateLine (lines : List Text) (updated : Text) (index : Nat) :
    Except IndexError Text :=
  match lines[index]? with
  | some line => .ok (updated ++ rstrip line)
  | none => .error .listIndexOutOfRange

section Digest

-- `sha.new(...).hexdigest()` of all that was hashed.
variable (hexdigest : Text → Text)

def handleSmall (lines : List Text) : Text :=
  hexdigest (lines.flatMap rstrip)

/-- The loop over one sample. -/
def updateSample (lines : List Text) (updated : Text)
    (sample : Nat × Nat) : Except IndexError Text :=
  (List.range sample.2).foldlM
    (fun updated i =>
      updateLine lines updated (offset sample.1 lines.length + i)) updated

def handleLarge (lines : List Text) : Except IndexError Text := do
  let updated ← [(20, 3), (60, 3)].foldlM (updateSample lines) []
  pure (hexdigest updated)

def digest (fp : List Text) : Except IndexError (Option Text) :=
  let lines := normalize fp
  if lines.length = 0 then .ok none
  else if lines.length ≤ FULL_DIGEST_TRESHOLD then
    .ok (some (handleSmall hexdigest lines))
  else (handleLarge hexdigest lines).map some

end Digest

/-- A division that rounds keeps the offset, if it keeps what has seven binary
places and is monotone, as that of floating point numbers is. -/
theorem floor_round_eq_offset {round : ℚ → ℚ} (hmono : Monotone round)
    (hexact : ∀ k : ℕ, k < 2 ^ 53 → round ((k : ℚ) / 128) = (k : ℚ) / 128)
    (percentage n : Nat) (hn : percentage * n < 2 ^ 46) :
    ⌊round ((percentage * n : ℕ) / 100)⌋ = offset percentage n := by
  generalize hx : percentage * n = x at hn
  have hdiv := Nat.div_add_mod x 100
  have hmod := Nat.mod_lt x (by decide : 100 > 0)
  rw [offset, hx]
  generalize x / 100 = q at hdiv
  have hx' : (x : ℚ) = 100 * q + (x % 100 : ℕ) := by exact_mod_cast hdiv.symm
  have hmod' : ((x % 100 : ℕ) : ℚ) ≤ 99 := by exact_mod_cast Nat.le_of_lt_succ hmod
  have hlower : round ((128 * q : ℕ) / 128) = ((128 * q : ℕ) : ℚ) / 128 :=
    hexact (128 * q) (by omega)
  have hupper : round ((128 * q + 127 : ℕ) / 128) =
      ((128 * q + 127 : ℕ) : ℚ) / 128 := hexact (128 * q + 127) (by omega)
  have hle : ((128 * q : ℕ) : ℚ) / 128 ≤ (x : ℚ) / 100 := by
    push_cast
    linarith [Nat.cast_nonneg (α := ℚ) (x % 100)]
  have hge : (x : ℚ) / 100 ≤ ((128 * q + 127 : ℕ) : ℚ) / 128 := by
    push_cast
    linarith
  have hmonoLower := hmono hle
  have hmonoUpper := hmono hge
  rw [hlower] at hmonoLower
  rw [hupper] at hmonoUpper
  push_cast at hmonoLower hmonoUpper
  rw [Int.floor_eq_iff]
  push_cast
  constructor <;> linarith

theorem isSpace_of_mem_subFrom_whitespace (s : Text) :
    ∀ c ∈ subFrom whitespace 0 s, isSpace c = false := by
  induction s with
  | nil => simp [subFrom]
  | cons c s ih =>
      rw [subFrom]
      by_cases hc : isSpace c = true
      · have hone : whitespace (c :: s) = 1 := if_pos (by simpa using hc)
        rw [hone]
        exact ih
      · have hnone : whitespace (c :: s) = 0 := if_neg (by simpa using hc)
        rw [hnone]
        exact List.forall_mem_cons.mpr ⟨Bool.eq_false_of_not_eq_true hc, ih⟩

theorem rstrip_eq_self {s : Text} (h : ∀ c ∈ s, isSpace c = false) :
    rstrip s = s := by
  have hkept : s.reverse.dropWhile isSpace = s.reverse := by
    cases hlast : s.reverse with
    | nil => rfl
    | cons c rest =>
        have hc := h c (List.mem_reverse.mp (hlast ▸ List.mem_cons_self))
        exact List.dropWhile_cons_of_neg (by simp [hc])
  rw [rstrip, hkept, List.reverse_reverse]

/-- Nothing is stripped off the lines any more. -/
theorem rstrip_of_mem_normalize {fp : List Text} :
    ∀ line ∈ normalize fp, rstrip line = line := by
  intro line hline
  obtain ⟨source, -, rfl⟩ := List.mem_map.mp (List.mem_filter.mp hline).1
  exact rstrip_eq_self (isSpace_of_mem_subFrom_whitespace _)

section Sample

variable (lines : List Text) (updated : Text) {start length : Nat}

/-- A sample whose lines are there. -/
theorem foldlM_updateLine_of_le (h : start + length ≤ lines.length) :
    (List.range length).foldlM
        (fun updated i => updateLine lines updated (start + i)) updated =
      .ok (updated ++ ((lines.drop start).take length).flatMap rstrip) := by
  induction length with
  | zero => simp [pure, Except.pure]
  | succ length ih =>
      have hlt : start + length < lines.length := h
      have hlast : updateLine lines (updated ++
          ((lines.drop start).take length).flatMap rstrip) (start + length) =
            .ok (updated ++ ((lines.drop start).take length).flatMap rstrip ++
              rstrip lines[start + length]) := by
        rw [updateLine, List.getElem?_eq_getElem hlt]
      have hdrop : length < (lines.drop start).length := by
        rw [List.length_drop]
        omega
      rw [List.range_succ, List.foldlM_append, ih (by omega),
        List.take_succ_eq_append_getElem hdrop, List.getElem_drop]
      simp only [bind, Except.bind, List.foldlM_cons, List.foldlM_nil, hlast,
        pure, Except.pure, List.flatMap_append, List.flatMap_cons,
        List.flatMap_nil, List.append_nil, List.append_assoc]

/-- One that runs over the end. -/
theorem foldlM_updateLine_of_lt (hstart : start ≤ lines.length)
    (h : lines.length < start + length) :
    (List.range length).foldlM
        (fun updated i => updateLine lines updated (start + i)) updated =
      .error .listIndexOutOfRange := by
  induction length with
  | zero => omega
  | succ length ih =>
      rw [List.range_succ, List.foldlM_append]
      by_cases hover : lines.length < start + length
      · rw [ih hover]
        rfl
      · have hnone : lines[start + length]? = none :=
          List.getElem?_eq_none (by omega)
        rw [foldlM_updateLine_of_le lines updated (by omega)]
        simp only [bind, Except.bind, List.foldlM_cons, updateLine, hnone]

end Sample

/-- The body yields a digest, that of the lines of both samples if there are
more lines than are digested completely, and these lines exist. -/
def Digests (hexdigest : Text → Text) (fp : List Text) : Prop :=
  ∃ hex, digest hexdigest fp = .ok (some hex) ∧
    let lines := normalize fp
    let first := 20 * lines.length / 100
    let second := 60 * lines.length / 100
    FULL_DIGEST_TRESHOLD < lines.length →
      first + 3 ≤ lines.length ∧ second + 3 ≤ lines.length ∧
        hex = hexdigest (((lines.drop first).take 3).flatten ++
          ((lines.drop second).take 3).flatten)

theorem flatMap_rstrip {fp lines : List Text}
    (h : ∀ line ∈ lines, line ∈ normalize fp) :
    lines.flatMap rstrip = lines.flatten := by
  rw [← List.flatMap_id']
  exact List.flatMap_congr fun line hline =>
    rstrip_of_mem_normalize line (h line hline)

theorem handleLarge_eq (hexdigest : Text → Text) (lines : List Text) :
    handleLarge hexdigest lines =
      (updateSample lines [] (20, 3)).bind fun updated =>
        (updateSample lines updated (60, 3)).map hexdigest := by
  rw [handleLarge]
  simp only [List.foldlM_cons, List.foldlM_nil, bind, Except.bind, pure,
    Except.pure]
  cases updateSample lines [] (20, 3) with
  | error e => rfl
  | ok updated =>
      simp only
      cases updateSample lines updated (60, 3) <;> rfl

/-- Both samples are there unless there are five lines. -/
theorem handleLarge_of_ne_five (hexdigest : Text → Text) {lines : List Text}
    (hlarge : 4 < lines.length) (hfive : lines.length ≠ 5) :
    handleLarge hexdigest lines =
      .ok (hexdigest
        (((lines.drop (20 * lines.length / 100)).take 3).flatMap rstrip ++
          ((lines.drop (60 * lines.length / 100)).take 3).flatMap rstrip)) := by
  have hfirst : updateSample lines [] (20, 3) =
      .ok ([] ++ ((lines.drop (20 * lines.length / 100)).take 3).flatMap
        rstrip) := foldlM_updateLine_of_le lines [] (by rw [offset]; omega)
  have hsecond : ∀ updated, updateSample lines updated (60, 3) =
      .ok (updated ++ ((lines.drop (60 * lines.length / 100)).take 3).flatMap
        rstrip) :=
    fun updated => foldlM_updateLine_of_le lines updated (by rw [offset]; omega)
  rw [handleLarge_eq, hfirst]
  simp only [Except.bind, hsecond, List.nil_append]
  rfl

/-- The second sample of five lines ends one line behind the last. -/
theorem handleLarge_of_five (hexdigest : Text → Text) {lines : List Text}
    (hfive : lines.length = 5) :
    handleLarge hexdigest lines = .error .listIndexOutOfRange := by
  have hsecond : ∀ updated, updateSample lines updated (60, 3) =
      .error .listIndexOutOfRange := by
    intro updated
    apply foldlM_updateLine_of_lt lines updated
    · rw [offset, hfive]
      decide
    · rw [offset, hfive]
      decide
  rw [handleLarge_eq]
  simp only [hsecond]
  cases hfirst : updateSample lines [] (20, 3) with
  | ok updated => rfl
  | error e =>
      cases e
      rfl

/-- Every body with lines to digest is digested, unless it has five. -/
theorem digests_iff (hexdigest : Text → Text) (fp : List Text)
    (hlines : 1 ≤ (normalize fp).length) :
    Digests hexdigest fp ↔ (normalize fp).length ≠ 5 := by
  have hsome : (normalize fp).length ≠ 0 := Nat.ne_of_gt hlines
  rw [Digests, digest, if_neg hsome]
  by_cases hsmall : (normalize fp).length ≤ FULL_DIGEST_TRESHOLD
  · rw [if_pos hsmall]
    refine iff_of_true ⟨_, rfl, fun hlarge => ?_⟩ ?_
    · exact absurd hlarge (Nat.not_lt.mpr hsmall)
    · intro hfive
      rw [hfive] at hsmall
      exact absurd hsmall (by decide)
  · have hlarge : 4 < (normalize fp).length := Nat.lt_of_not_le hsmall
    rw [if_neg hsmall]
    constructor
    · rintro ⟨hex, hdigest, -⟩ hfive
      rw [handleLarge_of_five hexdigest hfive] at hdigest
      cases hdigest
    · intro hfive
      refine ⟨_, congrArg (Except.map some)
        (handleLarge_of_ne_five hexdigest hlarge hfive), fun _ => ?_⟩
      refine ⟨by omega, by omega, ?_⟩
      rw [flatMap_rstrip fun line hline =>
          List.mem_of_mem_drop (List.mem_of_mem_take hline),
        flatMap_rstrip fun line hline =>
          List.mem_of_mem_drop (List.mem_of_mem_take hline)]

/-- Six lines. -/
theorem digests_iff_six :
    let fp := List.replicate 6 "line one 1\n".toList
    Digests id fp ↔ (normalize fp).length ≠ 5 :=
  digests_iff id _ (by decide)

/-- A body of five lines. -/
theorem not_digests :
    let fp := List.replicate 5 "line one 1\n".toList
    (normalize fp).length = 5 ∧
      (∀ hexdigest, digest hexdigest fp = .error .listIndexOutOfRange) ∧
      ∀ hexdigest, ¬ Digests hexdigest fp := by
  intro fp
  have hfive : (normalize fp).length = 5 := by decide
  have hdigest : ∀ hexdigest,
      digest hexdigest fp = .error .listIndexOutOfRange := by
    intro hexdigest
    rw [digest, hfive]
    exact congrArg (Except.map some) (handleLarge_of_five hexdigest hfive)
  refine ⟨hfive, hdigest, ?_⟩
  rintro hexdigest ⟨hex, hok, -⟩
  rw [hdigest] at hok
  cases hok

end DataDigester

end BohunoPyzord
