/-
Hashes as text: the 40 hexadecimal digits `operator<<` prints, and the
decoding that goes digit pair by digit pair through `strtol`.
-/
import BohunoPyzord.Update

namespace BohunoPyzord

/-- `isspace` in the C locale. -/
def isSpace (c : Char) : Bool :=
  c = ' ' || c = '\t' || c = '\n' || c = '\x0b' || c = '\x0c' || c = '\r'

theorem isSpace_eq_false_of_isDigit {c : Char} (h : c.isDigit = true) :
    isSpace c = false := by
  apply Bool.eq_false_of_not_eq_true
  intro hspace
  simp only [isSpace, Bool.or_eq_true, decide_eq_true_eq] at hspace
  rcases hspace with ((((rfl | rfl) | rfl) | rfl) | rfl) | rfl <;>
    exact absurd h (by decide)

/-- The value of a hexadecimal digit. -/
def hexValue? (c : Char) : Option Nat :=
  if '0' ≤ c ∧ c ≤ '9' then some (c.toNat - '0'.toNat)
  else if 'a' ≤ c ∧ c ≤ 'f' then some (c.toNat - 'a'.toNat + 10)
  else if 'A' ≤ c ∧ c ≤ 'F' then some (c.toNat - 'A'.toNat + 10)
  else none

/-- The longest run of hexadecimal digits, read as a number. -/
def hexNumber (acc : Nat) : List Char → Nat
  | [] => acc
  | c :: cs =>
      match hexValue? c with
      | some v => hexNumber (16 * acc + v) cs
      | none => acc

/-- `strtol(s, NULL, 16)` on a short string: white space, a sign and `0x` are
skipped, and what is not a number is zero. -/
def strtol16 (s : List Char) : Int :=
  let unsigned (s : List Char) : Nat :=
    match s with
    | '0' :: x :: d :: rest =>
        if (x = 'x' ∨ x = 'X') ∧ (hexValue? d).isSome
        then hexNumber 0 (d :: rest) else hexNumber 0 s
    | s => hexNumber 0 s
  match s.dropWhile isSpace with
  | '-' :: s => - (unsigned s : Int)
  | '+' :: s => unsigned s
  | s => unsigned s

/-- The byte two characters of a signature stand for. -/
def hexByte (c d : Char) : Byte := BitVec.ofInt 8 (strtol16 [c, d])

/-- `decode_signature`: `none` where it returns false. -/
def decodeSignature (hex : List Char) : Option Hash :=
  if hex.length ≠ 40 then none
  else some ⟨Vector.ofFn fun i =>
    hexByte (hex.getD (i * 2) '\x00') (hex.getD (i * 2 + 1) '\x00')⟩

/-- `std::hex` digit. -/
def hexDigit (n : Nat) : Char :=
  if n < 10 then Char.ofNat ('0'.toNat + n) else Char.ofNat ('a'.toNat + n - 10)

/-- `operator<<` on a hash. -/
def Hash.hex (h : Hash) : List Char :=
  h.data_.toList.flatMap fun b =>
    [hexDigit (b.toNat / 16), hexDigit (b.toNat % 16)]

theorem strtol16_hexDigit : ∀ hi lo : Fin 16,
    strtol16 [hexDigit hi, hexDigit lo] = 16 * hi.val + lo.val := by
  decide +kernel

theorem hexByte_hexDigit (b : Byte) :
    hexByte (hexDigit (b.toNat / 16)) (hexDigit (b.toNat % 16)) = b := by
  have hhi : b.toNat / 16 < 16 := by have := b.isLt; omega
  have hlo : b.toNat % 16 < 16 := Nat.mod_lt _ (by decide)
  have hvalue := strtol16_hexDigit ⟨_, hhi⟩ ⟨_, hlo⟩
  simp only at hvalue
  have hwhole : (16 * (b.toNat / 16 : Nat) + (b.toNat % 16 : Nat) : Int) =
      (b.toNat : Int) := by omega
  rw [hexByte, hvalue, hwhole, BitVec.ofInt_natCast, BitVec.ofNat_toNat,
    BitVec.setWidth_eq]

theorem getD_flatMap_pair {α β : Type} (f g : α → β) (l : List α) (i : Nat)
    (hi : i < l.length) (d : β) :
    (l.flatMap fun a => [f a, g a]).getD (i * 2) d = f (l.get ⟨i, hi⟩) ∧
      (l.flatMap fun a => [f a, g a]).getD (i * 2 + 1) d =
        g (l.get ⟨i, hi⟩) := by
  induction l generalizing i with
  | nil => simp at hi
  | cons a l ih =>
      cases i with
      | zero => simp
      | succ i =>
          have hrest := ih i (by simpa using hi)
          simpa [Nat.succ_mul] using hrest

@[simp] theorem Hash.hex_length (h : Hash) : h.hex.length = 40 := by
  simp [Hash.hex, List.length_flatMap]

/-- A printed hash is decoded to itself. -/
theorem decodeSignature_hex (h : Hash) : decodeSignature h.hex = some h := by
  rw [decodeSignature, if_neg (by simp)]
  obtain ⟨data⟩ := h
  refine congrArg some (congrArg Hash.mk (Vector.ext fun i hi => ?_))
  have hlen : i < data.toList.length := by simpa using hi
  obtain ⟨hfirst, hsecond⟩ := getD_flatMap_pair
    (fun b : Byte => hexDigit (b.toNat / 16))
    (fun b : Byte => hexDigit (b.toNat % 16)) data.toList i hlen '\x00'
  simp only [Vector.getElem_ofFn, Hash.hex]
  rw [hfirst, hsecond, hexByte_hexDigit]
  simp

end BohunoPyzord
