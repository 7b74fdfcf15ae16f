/-
`base64::encode` and `base64::decode`, with which a client writes its basic
authorization.  The encoder counts to the length minus two, in unsigned
arithmetic.
-/
import BohunoPyzord.License

namespace BohunoPyzord

namespace Base64Codec

def gBase64EncodeTable : List Byte :=
  "ABCDEFGHIJKLMNOPQRSTUVWXYZabcdefghijklmnopqrstuvwxyz0123456789+/".toList.map
    fun c => BitVec.ofNat 8 c.toNat

/-- The same 256 numbers as in the decoder of the license. -/
def gBase64DecodeTable : List Nat := base64_decoder_table

/-- A character as an operand; it is signed. -/
def promote (c : Byte) : Uint32 := c.signExtend 32

def digitAt (index : Uint32) : Byte :=
  gBase64EncodeTable.getD index.toNat 0

/-- The loop over whole groups, from index `i` on, where `rest` of the string
begins: what it has encoded, and where it has stopped.  `none` is a read behind
the last byte. -/
def encodeGroups (bound i : Nat) :
    List Byte → Option (List Byte × Nat × List Byte)
  | a :: b :: c :: rest =>
      if i < bound then
        (encodeGroups bound (i + 3) rest).map fun (encoded, stopped) =>
          (digitAt ((promote a).sshiftRight 2 &&& 0x3F) ::
            digitAt ((promote a &&& 0x3) <<< 4 |||
              (promote b &&& 0xF0).sshiftRight 4) ::
            digitAt ((promote b &&& 0xF) <<< 2 |||
              (promote c &&& 0xC0).sshiftRight 6) ::
            digitAt (promote c &&& 0x3F) :: encoded, stopped)
      else some ([], i, a :: b :: c :: rest)
  | rest => if i < bound then none else some ([], i, rest)

/-- What is left after the loop, at index `i`. -/
def encodeRest (length i : Nat) (rest : List Byte) : Option (List Byte) :=
  if i < length then do
    let a ← rest[0]?
    let first := digitAt ((promote a).sshiftRight 2 &&& 0x3F)
    if i = length - 1 then
      pure [first, digitAt ((promote a &&& 0x3) <<< 4), Base64.padding,
        Base64.padding]
    else
      let b ← rest[1]?
      pure [first, digitAt ((promote a &&& 0x3) <<< 4 |||
        (promote b &&& 0xF0).sshiftRight 4),
        digitAt ((promote b &&& 0xF) <<< 2), Base64.padding]
  else pure []

/-- `encode`; `length() - 2` is a 64-bit `size_t`. -/
def encode (string : List Byte) : Option (List Byte) := do
  let bound := (BitVec.ofNat 64 string.length - 2).toNat
  let (encoded, i, rest) ← encodeGroups bound 0 string
  let last ← encodeRest string.length i rest
  pure (encoded ++ last)

/-- The variables of `decode`, and what it has decoded. -/
structure DecodeState where
  g : Int
  t : Nat
  y : Nat
  decoded : List Byte
deriving DecidableEq, Repr

def decodeChar (s : DecodeState) (char : Byte) : DecodeState :=
  let c := gBase64DecodeTable.getD char.toNat 0
  if c = 255 then s
  else
    let (c, g) := if c = 254 then (0, s.g - 1) else (c, s.g)
    let t := s.t <<< 6 ||| c
    if s.y + 1 = 4 then
      { g
        t := 0
        y := 0
        decoded := s.decoded ++ [BitVec.ofNat 8 (t >>> 16 &&& 255)] ++
          (if g > 1 then [BitVec.ofNat 8 (t >>> 8 &&& 255)] else []) ++
          (if g > 2 then [BitVec.ofNat 8 (t &&& 255)] else []) }
    else { s with g, t, y := s.y + 1 }

def decode (data : List Byte) : List Byte :=
  (data.foldl decodeChar { g := 3, t := 0, y := 0, decoded := [] }).decoded

/-! The digits that the encoder reads off its table. -/

theorem gBase64EncodeTable_eq : gBase64EncodeTable = Base64.alphabet := rfl

theorem digitAt_eq {index : Uint32} (h : index.toNat < 64) :
    digitAt index = Base64.digit index.toNat := by
  rw [digitAt, gBase64EncodeTable_eq, Base64.digit,
    List.getD_eq_getElem _ _ h, List.getD_eq_getElem _ _ h]

theorem toNat_first : ∀ a : Byte,
    ((promote a).sshiftRight 2 &&& 0x3F).toNat = a.toNat / 4 := by
  decide +kernel

theorem toNat_high : ∀ a : Byte,
    ((promote a &&& 0x3) <<< 4).toNat = a.toNat % 4 * 2 ^ 4 := by
  decide +kernel

theorem toNat_low : ∀ b : Byte,
    ((promote b &&& 0xF0).sshiftRight 4).toNat = b.toNat / 16 := by
  decide +kernel

theorem toNat_middle : ∀ b : Byte,
    ((promote b &&& 0xF) <<< 2).toNat = b.toNat % 16 * 2 ^ 2 := by
  decide +kernel

theorem toNat_top : ∀ c : Byte,
    ((promote c &&& 0xC0).sshiftRight 6).toNat = c.toNat / 64 := by
  decide +kernel

theorem toNat_last : ∀ c : Byte,
    (promote c &&& 0x3F).toNat = c.toNat % 64 := by
  decide +kernel

section Digits

variable (a b c : Byte)

theorem digitAt_first :
    digitAt ((promote a).sshiftRight 2 &&& 0x3F) =
      Base64.digit (a.toNat / 4) := by
  have ha := a.isLt
  rw [digitAt_eq (by rw [toNat_first]; omega), toNat_first]

theorem digitAt_high :
    digitAt ((promote a &&& 0x3) <<< 4) =
      Base64.digit (a.toNat % 4 * 16) := by
  rw [digitAt_eq (by rw [toNat_high]; omega), toNat_high]
  rfl

theorem digitAt_second :
    digitAt ((promote a &&& 0x3) <<< 4 |||
        (promote b &&& 0xF0).sshiftRight 4) =
      Base64.digit (a.toNat % 4 * 16 + b.toNat / 16) := by
  have hb := b.isLt
  have hindex : ((promote a &&& 0x3) <<< 4 |||
      (promote b &&& 0xF0).sshiftRight 4).toNat =
        a.toNat % 4 * 16 + b.toNat / 16 := by
    rw [BitVec.toNat_or, toNat_high, toNat_low,
      Base64.or_eq_add (by omega : b.toNat / 16 < 2 ^ 4)]
    rfl
  rw [digitAt_eq (by rw [hindex]; omega), hindex]

theorem digitAt_middle :
    digitAt ((promote b &&& 0xF) <<< 2) =
      Base64.digit (b.toNat % 16 * 4) := by
  rw [digitAt_eq (by rw [toNat_middle]; omega), toNat_middle]
  rfl

theorem digitAt_third :
    digitAt ((promote b &&& 0xF) <<< 2 |||
        (promote c &&& 0xC0).sshiftRight 6) =
      Base64.digit (b.toNat % 16 * 4 + c.toNat / 64) := by
  have hc := c.isLt
  have hindex : ((promote b &&& 0xF) <<< 2 |||
      (promote c &&& 0xC0).sshiftRight 6).toNat =
        b.toNat % 16 * 4 + c.toNat / 64 := by
    rw [BitVec.toNat_or, toNat_middle, toNat_top,
      Base64.or_eq_add (by omega : c.toNat / 64 < 2 ^ 2)]
    rfl
  rw [digitAt_eq (by rw [hindex]; omega), hindex]

theorem digitAt_fourth :
    digitAt (promote c &&& 0x3F) = Base64.digit (c.toNat % 64) := by
  rw [digitAt_eq (by rw [toNat_last]; omega), toNat_last]

end Digits

/-- From index `i` on, where the bound is two before the end, the loop and what
comes after it encode what is left. -/
theorem encodeGroups_encodeRest {bound i : Nat} (rest : List Byte)
    (h : i + rest.length = bound + 2) :
    (do
      let (encoded, i, rest) ← encodeGroups bound i rest
      let last ← encodeRest (bound + 2) i rest
      pure (encoded ++ last)) = some (Base64.encode rest) := by
  induction rest using Base64.encode.induct generalizing i with
  | case1 =>
      have hi : i = bound + 2 := h
      have hloop : encodeGroups bound i [] = some ([], i, []) :=
        if_neg (by omega)
      rw [hloop]
      simp only [Option.bind_eq_bind, Option.bind_some]
      rw [encodeRest, if_neg (by omega)]
      rfl
  | case2 a =>
      rw [List.length_singleton] at h
      have hloop : encodeGroups bound i [a] = some ([], i, [a]) :=
        if_neg (by omega)
      rw [hloop]
      simp only [Option.bind_eq_bind, Option.bind_some]
      rw [encodeRest, if_pos (by omega)]
      change Option.bind (if i = bound + 2 - 1 then _ else _) _ = _
      rw [if_pos (by omega), digitAt_first, digitAt_high]
      rfl
  | case3 a b =>
      simp only [List.length_cons, List.length_nil] at h
      have hloop : encodeGroups bound i [a, b] = some ([], i, [a, b]) :=
        if_neg (by omega)
      rw [hloop]
      simp only [Option.bind_eq_bind, Option.bind_some]
      rw [encodeRest, if_pos (by omega)]
      change Option.bind (if i = bound + 2 - 1 then _ else _) _ = _
      rw [if_neg (by omega), digitAt_first]
      change some _ = some _
      rw [digitAt_second, digitAt_middle]
      rfl
  | case4 a b c rest ih =>
      simp only [List.length_cons] at h
      have hrest := ih (i := i + 3) (by omega)
      rw [encodeGroups, if_pos (by omega), digitAt_first, digitAt_second,
        digitAt_third, digitAt_fourth, Base64.encode]
      obtain ⟨⟨encoded, stopped, left⟩, hgroups, hlast⟩ :=
        Option.bind_eq_some_iff.mp hrest
      obtain ⟨last, hlast, hencoded⟩ := Option.bind_eq_some_iff.mp hlast
      obtain hencoded := Option.some.inj hencoded
      rw [hgroups, ← hencoded]
      simp only [Option.bind_eq_bind, Option.map_some, Option.bind_some]
      rw [hlast]
      rfl

/-- The encoder on a string that `length() - 2` does not go below zero for. -/
theorem encode_eq {string : List Byte} (hlong : 2 ≤ string.length)
    (hsize : string.length < 2 ^ 64) :
    encode string = some (Base64.encode string) := by
  have hbound : (BitVec.ofNat 64 string.length - 2).toNat + 2 =
      string.length := by
    rw [BitVec.toNat_sub, BitVec.toNat_ofNat]
    change (2 ^ 64 - 2 + string.length % 2 ^ 64) % 2 ^ 64 + 2 = _
    omega
  have hencode := encodeGroups_encodeRest (i := 0) string
    (by rw [Nat.zero_add, hbound])
  rw [hbound] at hencode
  exact hencode

/-- With less than two bytes the bound wraps around, and the loop reads on
behind the string. -/
theorem encode_eq_none {string : List Byte} (hshort : string.length < 2) :
    encode string = none := by
  rcases string with _ | ⟨a, _ | ⟨b, rest⟩⟩
  · rfl
  · rfl
  · simp only [List.length_cons] at hshort
    omega

/-! What the decoder makes of a group. -/

theorem getD_digit {n : Nat} (h : n < 64) :
    gBase64DecodeTable.getD (Base64.digit n).toNat 0 = n :=
  Base64Decoder.value_digit h

theorem getD_padding :
    gBase64DecodeTable.getD Base64.padding.toNat 0 = 254 :=
  Base64Decoder.value_padding

theorem decodeChar_digit (s : DecodeState) {n : Nat} (h : n < 64) :
    decodeChar s (Base64.digit n) =
      if s.y + 1 = 4 then
        let t := s.t <<< 6 ||| n
        { g := s.g, t := 0, y := 0
          decoded := s.decoded ++ [BitVec.ofNat 8 (t >>> 16 &&& 255)] ++
            (if s.g > 1 then [BitVec.ofNat 8 (t >>> 8 &&& 255)] else []) ++
            (if s.g > 2 then [BitVec.ofNat 8 (t &&& 255)] else []) }
      else { s with t := s.t <<< 6 ||| n, y := s.y + 1 } := by
  rw [decodeChar, getD_digit h, if_neg (by omega), if_neg (by omega)]

theorem decodeChar_padding (s : DecodeState) :
    decodeChar s Base64.padding =
      if s.y + 1 = 4 then
        let t := s.t <<< 6 ||| 0
        { g := s.g - 1, t := 0, y := 0
          decoded := s.decoded ++ [BitVec.ofNat 8 (t >>> 16 &&& 255)] ++
            (if s.g - 1 > 1 then [BitVec.ofNat 8 (t >>> 8 &&& 255)] else []) ++
            (if s.g - 1 > 2 then [BitVec.ofNat 8 (t &&& 255)] else []) }
      else { s with g := s.g - 1, t := s.t <<< 6 ||| 0, y := s.y + 1 } := by
  rw [decodeChar, getD_padding, if_neg (by decide), if_pos rfl]

/-- Shifting in one digit after the other joins them. -/
theorem shifted_eq_join (p q r s : Nat) :
    (((0 <<< 6 ||| p) <<< 6 ||| q) <<< 6 ||| r) <<< 6 ||| s =
      Base64.join p q r s := by
  simp only [Base64.join, Nat.zero_shiftLeft, Nat.zero_or,
    Nat.shiftLeft_or_distrib, ← Nat.shiftLeft_add, Nat.or_assoc]

section Groups

variable (a b c : Byte) (decoded : List Byte)

theorem foldl_decodeChar_three :
    [Base64.digit (a.toNat / 4), Base64.digit (a.toNat % 4 * 16 + b.toNat / 16),
      Base64.digit (b.toNat % 16 * 4 + c.toNat / 64),
      Base64.digit (c.toNat % 64)].foldl decodeChar
        { g := 3, t := 0, y := 0, decoded } =
      { g := 3, t := 0, y := 0, decoded := decoded ++ [a, b, c] } := by
  have ha : a.toNat < 256 := a.isLt
  have hb : b.toNat < 256 := b.isLt
  have hc : c.toNat < 256 := c.isLt
  simp only [List.foldl_cons, List.foldl_nil]
  rw [decodeChar_digit _ (by omega), decodeChar_digit _ (by omega),
    decodeChar_digit _ (by omega), decodeChar_digit _ (by omega)]
  simp only [Nat.zero_add, Nat.reduceAdd, Nat.reduceEqDiff, ↓reduceIte,
    shifted_eq_join]
  rw [Base64.join_first ha hb (by omega) (by omega),
    Base64.join_second hb hc (by omega), Base64.join_third hc]
  simp

theorem foldl_decodeChar_two :
    ([Base64.digit (a.toNat / 4),
      Base64.digit (a.toNat % 4 * 16 + b.toNat / 16),
      Base64.digit (b.toNat % 16 * 4), Base64.padding].foldl decodeChar
        { g := 3, t := 0, y := 0, decoded }).decoded = decoded ++ [a, b] := by
  have ha : a.toNat < 256 := a.isLt
  have hb : b.toNat < 256 := b.isLt
  simp only [List.foldl_cons, List.foldl_nil]
  rw [decodeChar_digit _ (by omega), decodeChar_digit _ (by omega),
    decodeChar_digit _ (by omega), decodeChar_padding]
  simp only [Nat.zero_add, Nat.reduceAdd, Nat.reduceEqDiff, ↓reduceIte,
    shifted_eq_join]
  rw [Base64.join_first ha hb (by omega) (by omega),
    Base64.join_second_last hb (by decide)]
  simp

theorem foldl_decodeChar_one :
    ([Base64.digit (a.toNat / 4), Base64.digit (a.toNat % 4 * 16),
      Base64.padding, Base64.padding].foldl decodeChar
        { g := 3, t := 0, y := 0, decoded }).decoded = decoded ++ [a] := by
  have ha : a.toNat < 256 := a.isLt
  simp only [List.foldl_cons, List.foldl_nil]
  rw [decodeChar_digit _ (by omega), decodeChar_digit _ (by omega),
    decodeChar_padding, decodeChar_padding]
  simp only [Nat.zero_add, Nat.reduceAdd, Nat.reduceEqDiff, ↓reduceIte,
    shifted_eq_join]
  rw [Base64.join_first_alone ha (by decide) (by decide)]
  simp

end Groups

/-- The decoder undoes the standard encoding. -/
theorem decode_encode (string : List Byte) :
    decode (Base64.encode string) = string := by
  have along : ∀ decoded : List Byte,
      ((Base64.encode string).foldl decodeChar
        { g := 3, t := 0, y := 0, decoded }).decoded = decoded ++ string := by
    induction string using Base64.encode.induct with
    | case1 => exact fun decoded => (List.append_nil decoded).symm
    | case2 a => exact foldl_decodeChar_one a
    | case3 a b => exact foldl_decodeChar_two a b
    | case4 a b c rest ih =>
        intro decoded
        have hgroup := foldl_decodeChar_three a b c decoded
        have hrest := ih (decoded ++ [a, b, c])
        rw [← hgroup] at hrest
        rw [Base64.encode]
        refine hrest.trans ?_
        rw [List.append_assoc]
        rfl
  exact along []

/-- The encoder stays inside the string, writes its standard text, and the
decoder reads it back. -/
def RoundTrips (string : List Byte) : Prop :=
  ∃ text, encode string = some text ∧ text = Base64.encode string ∧
    decode text = string

/-- The codec works on exactly the strings of two bytes and more. -/
theorem roundTrips_iff (string : List Byte)
    (hsize : string.length < 2 ^ 64) :
    RoundTrips string ↔ 2 ≤ string.length := by
  constructor
  · rintro ⟨text, htext, -⟩
    by_contra hshort
    rw [encode_eq_none (Nat.not_le.mp hshort)] at htext
    cases htext
  · intro hlong
    exact ⟨_, encode_eq hlong hsize, rfl, decode_encode string⟩

theorem roundTrips_userPassword :
    RoundTrips ("user:pass".toList.map fun c => BitVec.ofNat 8 c.toNat) :=
  (roundTrips_iff _ (by decide)).mpr (by decide)

/-- The empty string is read behind its end. -/
theorem not_roundTrips :
    ¬ ∀ string : List Byte, string.length < 2 ^ 64 → RoundTrips string := by
  intro h
  obtain ⟨text, htext, -⟩ := h [] (by decide)
  have hnone : encode [] = none := rfl
  rw [hnone] at htext
  cases htext

end Base64Codec

end BohunoPyzord
