/-
The names of the published files.  A snapshot is named by the ten digits of
its timestamp, an update by the ten digits of each end of its window, and
whoever reads the directories has only the names to go by.
-/
import Mathlib.Algebra.Group.Nat.Defs
import Mathlib.Data.List.Basic
import Mathlib.Tactic.Common

namespace BohunoPyzord

abbrev FileName := List Char

/-- What can end a tick early: an exception of `lexical_cast`, or a call
through a `NULL` Berkeley DB handle. -/
inductive TickFailure where
  | badLexicalCast
  | nullHandle
deriving DecidableEq, Repr

/-- A sequence that succeeds does so step by step. -/
theorem bind_eq_ok {E A B : Type} {x : Except E A} {f : A → Except E B}
    {b : B} (h : x >>= f = .ok b) : ∃ a, x = .ok a ∧ f a = .ok b := by
  cases x with
  | error e => cases h
  | ok a => exact ⟨a, rfl, h⟩

/-- `lexical_cast<std::string>` of a timestamp. -/
def timestampName (t : Nat) : FileName := Nat.toDigits 10 t

/-- `lexical_cast<boost::uint32_t>` of a string of digits. -/
def lexicalCast (digits : List Char) : Except TickFailure Nat :=
  let t := Nat.ofDigitChars 10 digits 0
  if t < 2 ^ 32 then .ok t else .error .badLexicalCast

def isTimestamp (s : FileName) : Bool :=
  s.length = 10 && s.all Char.isDigit

/-- The name of a regular file. -/
def parseSnapshotFileName (name : FileName) :
    Except TickFailure (Option Nat) :=
  if isTimestamp name then do
    let timestamp ← lexicalCast name
    pure (some timestamp)
  else pure none

/-- The name of any entry of a directory. -/
def parseUpdateFileName (name : FileName) :
    Except TickFailure (Option (Nat × Nat)) :=
  if name.length = 20 then
    let mins := name.take 10
    let maxs := (name.drop 10).take 10
    if isTimestamp mins && isTimestamp maxs then do
      let min ← lexicalCast mins
      let max ← lexicalCast maxs
      pure (some (min, max))
    else pure none
  else pure none

/-- The name of the update with window `[start, finish]`. -/
def updateName (start finish : Nat) : FileName :=
  timestampName start ++ timestampName finish

/-- A time that the names can carry: it has ten digits and fits 32 bits. -/
structure TenDigits (t : Nat) : Prop where
  lower : 10 ^ 9 ≤ t
  upper : t < 2 ^ 32

theorem TenDigits.length {t : Nat} (h : TenDigits t) :
    (timestampName t).length = 10 := by
  have hle : (timestampName t).length ≤ 10 :=
    (Nat.length_toDigits_le_iff (by decide) (by decide)).mpr
      (Nat.lt_trans h.upper (by decide))
  have hnot : ¬ (timestampName t).length ≤ 9 := fun hnine =>
    absurd ((Nat.length_toDigits_le_iff (by decide) (by decide)).mp hnine)
      (Nat.not_lt.mpr h.lower)
  omega

theorem TenDigits.isTimestamp {t : Nat} (h : TenDigits t) :
    isTimestamp (timestampName t) = true := by
  have hdigits : ∀ c ∈ timestampName t, c.isDigit = true := fun c hc =>
    Nat.isDigit_of_mem_toDigits (by decide) (by decide) hc
  simp only [BohunoPyzord.isTimestamp, h.length, decide_true, Bool.true_and]
  exact List.all_eq_true.mpr hdigits

theorem TenDigits.lexicalCast {t : Nat} (h : TenDigits t) :
    lexicalCast (timestampName t) = .ok t := by
  have hread : Nat.ofDigitChars 10 (timestampName t) 0 = t := by
    simp [timestampName]
  rw [BohunoPyzord.lexicalCast, hread]
  exact if_pos h.upper

/-- A published snapshot name is read back as its timestamp. -/
theorem parseSnapshotFileName_timestampName {t : Nat} (h : TenDigits t) :
    parseSnapshotFileName (timestampName t) = .ok (some t) := by
  simp only [parseSnapshotFileName, h.isTimestamp, h.lexicalCast]
  rfl

/-- A published update name is read back as its window. -/
theorem parseUpdateFileName_updateName {start finish : Nat}
    (hstart : TenDigits start) (hfinish : TenDigits finish) :
    parseUpdateFileName (updateName start finish) =
      .ok (some (start, finish)) := by
  have hlength : (updateName start finish).length = 20 := by
    simp [updateName, hstart.length, hfinish.length]
  have hmins : (updateName start finish).take 10 = timestampName start := by
    rw [updateName, ← hstart.length, List.take_left]
  have hmaxs : ((updateName start finish).drop 10).take 10 =
      timestampName finish := by
    rw [updateName, ← hstart.length, List.drop_left, hstart.length,
      ← hfinish.length, List.take_length]
  simp only [parseUpdateFileName, hlength, hmins, hmaxs,
    hstart.isTimestamp, hfinish.isTimestamp, hstart.lexicalCast,
    hfinish.lexicalCast]
  rfl

end BohunoPyzord
