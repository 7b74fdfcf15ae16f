/-
Base64 with the standard alphabet: three bytes as four digits of six bits, a
shorter last group filled up with the padding character.  Joined again, four
digits give the bytes back, and so do fewer, whatever small values the
padding is taken to have.
-/
import Mathlib.Data.Nat.Bitwise
import Mathlib.Tactic.Common

namespace Base64

def alphabet : List (BitVec 8) :=
  "ABCDEFGHIJKLMNOPQRSTUVWXYZabcdefghijklmnopqrstuvwxyz0123456789+/".toList.map
    fun c => BitVec.ofNat 8 c.toNat

def padding : BitVec 8 := BitVec.ofNat 8 '='.toNat

def digit (n : Nat) : BitVec 8 := alphabet.getD n padding

def encode : List (BitVec 8) → List (BitVec 8)
  | [] => []
  | [a] => [digit (a.toNat / 4), digit (a.toNat % 4 * 16), padding, padding]
  | [a, b] =>
      [digit (a.toNat / 4), digit (a.toNat % 4 * 16 + b.toNat / 16),
        digit (b.toNat % 16 * 4), padding]
  | a :: b :: c :: rest =>
      digit (a.toNat / 4) :: digit (a.toNat % 4 * 16 + b.toNat / 16) ::
        digit (b.toNat % 16 * 4 + c.toNat / 64) :: digit (c.toNat % 64) ::
          encode rest

theorem mem_digit (n : Nat) : digit n ∈ padding :: alphabet := by
  rw [digit, List.getD_eq_getElem?_getD]
  cases hn : alphabet[n]? with
  | none => exact List.mem_cons_self
  | some c => exact List.mem_cons_of_mem _ (List.mem_of_getElem? hn)

/-- Every character is the padding or one of the digits. -/
theorem mem_encode {text : List (BitVec 8)} {c : BitVec 8}
    (h : c ∈ encode text) : c ∈ padding :: alphabet := by
  induction text using encode.induct with
  | case1 => cases h
  | case2 a =>
      simp only [encode, List.mem_cons, List.not_mem_nil, or_false] at h
      rcases h with rfl | rfl | rfl | rfl
      · exact mem_digit _
      · exact mem_digit _
      · exact List.mem_cons_self
      · exact List.mem_cons_self
  | case3 a b =>
      simp only [encode, List.mem_cons, List.not_mem_nil, or_false] at h
      rcases h with rfl | rfl | rfl | rfl
      · exact mem_digit _
      · exact mem_digit _
      · exact mem_digit _
      · exact List.mem_cons_self
  | case4 a b d rest ih =>
      simp only [encode, List.mem_cons] at h
      rcases h with rfl | rfl | rfl | rfl | h
      · exact mem_digit _
      · exact mem_digit _
      · exact mem_digit _
      · exact mem_digit _
      · exact ih h

/-- Four digits as one number. -/
def join (p q r s : Nat) : Nat := p <<< 18 ||| q <<< 12 ||| r <<< 6 ||| s

theorem join_shiftRight (p q r s k : Nat) :
    join p q r s >>> k =
      p <<< 18 >>> k ||| q <<< 12 >>> k ||| r <<< 6 >>> k ||| s >>> k := by
  simp only [join, Nat.shiftRight_or_distrib]

theorem or_eq_add {a b n : Nat} (h : b < 2 ^ n) : a * 2 ^ n ||| b = a * 2 ^ n + b := by
  rw [← Nat.shiftLeft_eq, Nat.shiftLeft_add_eq_or_of_lt h]

variable {a b c r s : Nat}

theorem join_first (ha : a < 256) (hb : b < 256) (hr : r < 256) (hs : s < 256) :
    join (a / 4) (a % 4 * 16 + b / 16) r s >>> 16 &&& 255 = a := by
  have hq : (a % 4 * 16 + b / 16) <<< 12 >>> 16 = a % 4 := by
    rw [Nat.shiftLeft_eq, Nat.shiftRight_eq_div_pow]
    omega
  have hr : r <<< 6 >>> 16 = 0 := by
    rw [Nat.shiftLeft_eq, Nat.shiftRight_eq_div_pow]
    omega
  have hs : s >>> 16 = 0 := by
    rw [Nat.shiftRight_eq_div_pow]
    omega
  have hp : (a / 4) <<< 18 >>> 16 = a / 4 * 2 ^ 2 := by
    rw [Nat.shiftLeft_eq, Nat.shiftRight_eq_div_pow]
    omega
  rw [join_shiftRight, hp, hq, hr, hs, Nat.or_zero, Nat.or_zero,
    or_eq_add (b := a % 4) (n := 2) (Nat.mod_lt a (by decide)),
    Nat.and_two_pow_sub_one_eq_mod _ 8]
  omega

theorem join_second (hb : b < 256) (hc : c < 256) (hs : s < 256) :
    join (a / 4) (a % 4 * 16 + b / 16) (b % 16 * 4 + c / 64) s >>> 8 &&& 255 =
      b := by
  have hp : (a / 4) <<< 18 >>> 8 % 2 ^ 8 = 0 := by
    rw [Nat.shiftLeft_eq, Nat.shiftRight_eq_div_pow]
    omega
  have hq : (a % 4 * 16 + b / 16) <<< 12 >>> 8 % 2 ^ 8 = b / 16 * 2 ^ 4 := by
    rw [Nat.shiftLeft_eq, Nat.shiftRight_eq_div_pow]
    omega
  have hr : (b % 16 * 4 + c / 64) <<< 6 >>> 8 % 2 ^ 8 = b % 2 ^ 4 := by
    rw [Nat.shiftLeft_eq, Nat.shiftRight_eq_div_pow]
    omega
  have hs : s >>> 8 % 2 ^ 8 = 0 := by
    rw [Nat.shiftRight_eq_div_pow]
    omega
  rw [join_shiftRight, Nat.and_two_pow_sub_one_eq_mod _ 8, Nat.or_mod_two_pow,
    Nat.or_mod_two_pow, Nat.or_mod_two_pow, hp, hq, hr, hs, Nat.zero_or,
    Nat.or_zero, or_eq_add (Nat.mod_lt b (by decide))]
  omega

theorem join_third (hc : c < 256) :
    join (a / 4) (a % 4 * 16 + b / 16) (b % 16 * 4 + c / 64) (c % 64) &&& 255 =
      c := by
  have hp : (a / 4) <<< 18 % 2 ^ 8 = 0 := by
    rw [Nat.shiftLeft_eq]
    omega
  have hq : (a % 4 * 16 + b / 16) <<< 12 % 2 ^ 8 = 0 := by
    rw [Nat.shiftLeft_eq]
    omega
  have hr : (b % 16 * 4 + c / 64) <<< 6 % 2 ^ 8 = c / 64 * 2 ^ 6 := by
    rw [Nat.shiftLeft_eq]
    omega
  have hs : c % 64 % 2 ^ 8 = c % 2 ^ 6 := by
    omega
  rw [join, Nat.and_two_pow_sub_one_eq_mod _ 8, Nat.or_mod_two_pow,
    Nat.or_mod_two_pow, Nat.or_mod_two_pow, hp, hq, hr, hs, Nat.zero_or,
    Nat.zero_or, or_eq_add (Nat.mod_lt c (by decide))]
  omega

/-! The last group, whose digits end with zeros. -/

theorem join_first_alone (ha : a < 256) (hr : r < 256) (hs : s < 256) :
    join (a / 4) (a % 4 * 16) r s >>> 16 &&& 255 = a := by
  have hfirst := join_first ha (by decide : 0 < 256) hr hs
  rwa [Nat.zero_div, Nat.add_zero] at hfirst

theorem join_second_last (hb : b < 256) (hs : s < 256) :
    join (a / 4) (a % 4 * 16 + b / 16) (b % 16 * 4) s >>> 8 &&& 255 = b := by
  have hsecond := join_second (a := a) hb (by decide : 0 < 256) hs
  rwa [Nat.zero_div, Nat.add_zero] at hsecond

end Base64
