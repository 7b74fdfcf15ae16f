/-
License keys.  `generate-license.py` joins a real name, a user name and a
password with tabs, encrypts them with the RC4 of Wikipedia and prints them in
base64.  `license` reads such a key through a `base64_decoder` and an
`arcfour_filter`, in chunks of whatever size, and takes it apart at the tabs.
-/
import BohunoPyzord.Base64
import BohunoPyzord.StreamCipher
import BohunoPyzord.Update
import Mathlib.Data.List.TakeWhile

namespace BohunoPyzord

/-- The bytes of a literal. -/
def literal (s : String) : List Byte :=
  s.toList.map fun c => BitVec.ofNat 8 c.toNat

/-- The class of `generate-license.py`. -/
structure WikipediaARC4 where
  state : List Nat
  x : Nat
  y : Nat

namespace WikipediaARC4

def new : WikipediaARC4 := { state := List.range 256, x := 0, y := 0 }

/-- One turn of the loop of `init`. -/
def mix (key : List Byte) (self : WikipediaARC4) (i : Nat) : WikipediaARC4 :=
  let x := ((key.getD (i % key.length) 0).toNat + self.state.getD i 0 +
    self.x) &&& 0xff
  { self with x, state := swapAt self.state i x }

def init (self : WikipediaARC4) (key : List Byte) : WikipediaARC4 :=
  { (List.range 256).foldl (mix key) self with x := 0 }

/-- `crypt`, a byte at a time. -/
def crypt : Transducer WikipediaARC4 Byte Byte where
  step self input :=
    let x := (self.x + 1) &&& 0xff
    let y := (self.state.getD x 0 + self.y) &&& 0xff
    let state := swapAt self.state x y
    let r := state.getD ((state.getD x 0 + state.getD y 0) &&& 0xff) 0
    ({ state, x, y }, [BitVec.ofNat 8 (input.toNat ^^^ r)])

/-- The arrays and indices of an abstract state. -/
def ofRc4 (s : Rc4) : WikipediaARC4 :=
  { state := table fun i => (s.perm i).toNat, x := s.x.toNat, y := s.y.toNat }

end WikipediaARC4

def tab : Byte := BitVec.ofNat 8 '\t'.toNat

/-- `KEY` of the script, and the key that `license::decode` has in it. -/
def licenseCipherKey : List Byte :=
  literal "Work it, make it, do it, makes us harder, better, faster, STRONGER!"

/-- The key that the script prints. -/
def generateLicense (realname username password : List Byte) : List Byte :=
  let cipher := WikipediaARC4.new.init licenseCipherKey
  let joined := [tab].intercalate [realname, username, password]
  Base64.encode (WikipediaARC4.crypt.run cipher joined).2

/-- `v & 0xff` of an `int`. -/
def lowByte (v : Int) : Int := v % 256

/-- `arcfour_filter_impl`.  A `char` is signed. -/
structure Arcfour where
  state_ : List Byte
  x_ : Int
  y_ : Int

namespace Arcfour

/-- One turn of the second loop of the constructor. -/
def mix (key_ : List Byte) (s : Arcfour) (i : Nat) : Arcfour :=
  let x_ := lowByte ((key_.getD (i % key_.length) 0).toInt +
    (s.state_.getD i 0).toInt + s.x_)
  { s with x_, state_ := swapAt s.state_ i x_.toNat }

/-- The state before that loop. -/
def identity : Arcfour :=
  { state_ := (List.range 256).map (BitVec.ofNat 8), x_ := 0, y_ := 0 }

def new (key : List Byte) : Arcfour :=
  { (List.range 256).foldl (mix key) identity with x_ := 0 }

/-- What `filter` does with each character it moves. -/
def encrypt : Transducer Arcfour Byte Byte where
  step s c :=
    let x_ := lowByte (s.x_ + 1)
    let y_ := lowByte ((s.state_.getD x_.toNat 0).toInt + s.y_)
    let state_ := swapAt s.state_ x_.toNat y_.toNat
    let at_ := lowByte ((state_.getD x_.toNat 0).toInt +
      (state_.getD y_.toNat 0).toInt)
    ({ state_, x_, y_ }, [c ^^^ state_.getD at_.toNat 0])

def ofRc4 (s : Rc4) : Arcfour :=
  { state_ := table s.perm, x_ := s.x.toNat, y_ := s.y.toNat }

end Arcfour

def base64_decoder_table : List Nat := [
  255, 255, 255, 255, 255, 255, 255, 255, 255, 255, 255, 255,
  255, 255, 255, 255, 255, 255, 255, 255, 255, 255, 255, 255,
  255, 255, 255, 255, 255, 255, 255, 255, 255, 255, 255, 255,
  255, 255, 255, 255, 255, 255, 255,  62, 255, 255, 255,  63,
   52,  53,  54,  55,  56,  57,  58,  59,  60,  61, 255, 255,
  255, 254, 255, 255, 255,   0,   1,   2,   3,   4,   5,   6,
    7,   8,   9,  10,  11,  12,  13,  14,  15,  16,  17,  18,
   19,  20,  21,  22,  23,  24,  25, 255, 255, 255, 255, 255,
  255,  26,  27,  28,  29,  30,  31,  32,  33,  34,  35,  36,
   37,  38,  39,  40,  41,  42,  43,  44,  45,  46,  47,  48,
   49,  50,  51, 255, 255, 255, 255, 255, 255, 255, 255, 255,
  255, 255, 255, 255, 255, 255, 255, 255, 255, 255, 255, 255,
  255, 255, 255, 255, 255, 255, 255, 255, 255, 255, 255, 255,
  255, 255, 255, 255, 255, 255, 255, 255, 255, 255, 255, 255,
  255, 255, 255, 255, 255, 255, 255, 255, 255, 255, 255, 255,
  255, 255, 255, 255, 255, 255, 255, 255, 255, 255, 255, 255,
  255, 255, 255, 255, 255, 255, 255, 255, 255, 255, 255, 255,
  255, 255, 255, 255, 255, 255, 255, 255, 255, 255, 255, 255,
  255, 255, 255, 255, 255, 255, 255, 255, 255, 255, 255, 255,
  255, 255, 255, 255, 255, 255, 255, 255, 255, 255, 255, 255,
  255, 255, 255, 255, 255, 255, 255, 255, 255, 255, 255, 255,
  255, 255, 255, 255]

/-- `base64_decoder`: the characters of a group that is not complete. -/
structure Base64Decoder where
  buffer_ : List Byte
  incomplete : buffer_.length < 4

namespace Base64Decoder

def reset : Base64Decoder := ⟨[], by decide⟩

/-- The table at a character.  One over 127 would be a negative index. -/
def value (c : Byte) : Nat := base64_decoder_table.getD c.toNat 0

/-- The bytes of four characters. -/
def decodeGroup (buffer_ : List Byte) : List Byte :=
  let v := value (buffer_.getD 0 0) <<< (3 * 6) |||
    value (buffer_.getD 1 0) <<< (2 * 6) |||
    value (buffer_.getD 2 0) <<< (1 * 6) |||
    value (buffer_.getD 3 0) <<< (0 * 6)
  let c1 := BitVec.ofNat 8 (v >>> 16 &&& 0xff)
  let c2 := BitVec.ofNat 8 (v >>> 8 &&& 0xff)
  let c3 := BitVec.ofNat 8 (v >>> 0 &&& 0xff)
  let equals := BitVec.ofNat 8 '='.toNat
  let n := if buffer_.getD 3 0 = equals then
      if buffer_.getD 2 0 = equals then 1 else 2
    else 3
  [c1, c2, c3].take n

/-- What `read` does with each character it has got. -/
def read : Transducer Base64Decoder Byte Byte where
  step s c :=
    if h : s.buffer_.length + 1 = 4 then
      (reset, decodeGroup (s.buffer_ ++ [c]))
    else
      let buffer_ := s.buffer_ ++ [c]
      have incomplete := by
        have := s.incomplete
        rw [List.length_append, List.length_singleton]
        omega
      (⟨buffer_, incomplete⟩, [])

end Base64Decoder

/-- The filters of `license::decode`. -/
abbrev LicenseStream := Pipeline Base64Decoder Arcfour Byte Byte Byte

/-- `base64_decoder::read` for `n` characters, where its source has `k`, or
`arcfour_filter_impl::filter` for `m`. -/
inductive FilterCall where
  | read (n k : Nat)
  | filter (m : Nat)
deriving DecidableEq, Repr

namespace LicenseStream

def ofLicense (license : List Byte) : LicenseStream :=
  { rest := license, first := .reset, buffer := []
    second := .new licenseCipherKey, output := [] }

/-- `read` throws if `n` is less than 3, and wants no more than its buffer
holds. -/
def step (s : LicenseStream) : FilterCall → Option LicenseStream
  | .read n k =>
      if 3 ≤ n ∧ k ≤ n / 3 * 4 then
        some (Pipeline.step Base64Decoder.read Arcfour.encrypt s (.fill k))
      else none
  | .filter m =>
      some (Pipeline.step Base64Decoder.read Arcfour.encrypt s (.drain m))

end LicenseStream

def licenseStream (license : List Byte) :
    StepSystem LicenseStream FilterCall where
  init := .ofLicense license
  step := LicenseStream.step

structure License where
  realname_ : List Byte
  username_ : List Byte
  password_ : List Byte
deriving DecidableEq, Repr

namespace License

/-- `license::parse` of what `decode` has returned. -/
def parse (decoded : List Byte) : Option License :=
  match decoded.splitOn tab with
  | [realname_, username_, password_] =>
      some { realname_, username_, password_ }
  | _ => none

def isSpace (c : Byte) : Bool := decide (9 ≤ c.toNat ∧ c.toNat ≤ 13) || c = 32

/-- `file >> license` of the other constructor. -/
def extract (file : List Byte) : List Byte :=
  (file.dropWhile isSpace).takeWhile fun c => !isSpace c

end License

/-! The script and the filter compute one cipher. -/

theorem and_low (n : Nat) : n &&& 0xff = n % 2 ^ 8 :=
  Nat.and_two_pow_sub_one_eq_mod n 8

theorem exists_byte {i : Nat} (h : i ∈ List.range 256) :
    ∃ k : Byte, k.toNat = i ∧ BitVec.ofNat 8 i = k :=
  ⟨BitVec.ofNat 8 i, by
    rw [BitVec.toNat_ofNat, Nat.mod_eq_of_lt (List.mem_range.mp h)], rfl⟩

theorem lowByte_natCast (n : Nat) : lowByte n = (n % 2 ^ 8 : Nat) := by
  rw [lowByte]
  omega

theorem lowByte_toInt (a : Byte) (v : Int) :
    lowByte (a.toInt + v) = lowByte (a.toNat + v) := by
  rw [lowByte, lowByte, BitVec.toInt_eq_toNat_cond]
  split <;> omega

namespace WikipediaARC4

theorem new_eq : new = ofRc4 ⟨id, 0, 0⟩ := by
  have htable : table (fun i : Byte => (id i).toNat) = List.range 256 := by
    conv_rhs => rw [← List.map_id (List.range 256)]
    apply List.map_congr_left
    intro i hi
    exact Nat.mod_eq_of_lt (List.mem_range.mp hi)
  rw [new, ofRc4, htable]
  rfl

theorem mix_ofRc4 (key : List Byte) (s : Rc4) {i : Nat}
    (hi : i ∈ List.range 256) :
    mix key (ofRc4 s) i = ofRc4 (s.mix key i) := by
  obtain ⟨k, rfl, hk⟩ := exists_byte hi
  have hx : ((key.getD (k.toNat % key.length) 0).toNat + (s.perm k).toNat +
      s.x.toNat) &&& 0xff =
        (key.getD (k.toNat % key.length) 0 + s.perm k + s.x).toNat := by
    rw [and_low, BitVec.toNat_add, BitVec.toNat_add, Nat.mod_add_mod]
  simp only [mix, Rc4.mix, ofRc4, getD_table, hx, hk, swapAt_table]
  rfl

theorem init_eq (key : List Byte) :
    new.init key = ofRc4 (Rc4.schedule key) := by
  have hloop := Rc4.foldl_mix fun s i hi => mix_ofRc4 key s hi
  rw [init, new_eq, hloop, Rc4.schedule]
  generalize (List.range 256).foldl (Rc4.mix key) ⟨id, 0, 0⟩ = s
  rfl

theorem crypt_ofRc4 (s : Rc4) (c : Byte) :
    crypt.step (ofRc4 s) c =
      (ofRc4 (Rc4.keystream.cipher.step s c).1,
        (Rc4.keystream.cipher.step s c).2) := by
  have hadd : ∀ a b : Byte, (a.toNat + b.toNat) &&& 0xff = (a + b).toNat := by
    intro a b
    rw [and_low, BitVec.toNat_add]
  have hx : (s.x.toNat + 1) &&& 0xff = (s.x + 1).toNat := hadd s.x 1
  have hxor : ∀ a b : Byte, BitVec.ofNat 8 (a.toNat ^^^ b.toNat) = a ^^^ b := by
    intro a b
    rw [← BitVec.toNat_xor, BitVec.ofNat_toNat, BitVec.setWidth_eq]
  simp only [crypt, Keystream.cipher, Rc4.keystream, Rc4.next, ofRc4, hx,
    getD_table, hadd, swapAt_table, Function.comp_apply, hxor]
  rfl

end WikipediaARC4

namespace Arcfour

theorem identity_eq : identity = ofRc4 ⟨id, 0, 0⟩ := by
  have htable : table (id : Byte → Byte) =
      (List.range 256).map (BitVec.ofNat 8) := rfl
  rw [identity, ofRc4, htable]
  rfl

theorem mix_ofRc4 (key : List Byte) (s : Rc4) {i : Nat}
    (hi : i ∈ List.range 256) :
    mix key (ofRc4 s) i = ofRc4 (s.mix key i) := by
  obtain ⟨k, rfl, hk⟩ := exists_byte hi
  have hx : lowByte ((key.getD (k.toNat % key.length) 0).toInt +
      (s.perm k).toInt + s.x.toNat) =
        (key.getD (k.toNat % key.length) 0 + s.perm k + s.x).toNat := by
    rw [Int.add_assoc, lowByte_toInt, Int.add_left_comm, lowByte_toInt,
      Int.add_left_comm, ← Int.add_assoc, BitVec.toNat_add, BitVec.toNat_add,
      Nat.mod_add_mod, ← lowByte_natCast]
    push_cast
    rfl
  simp only [mix, Rc4.mix, ofRc4, getD_table, hx, hk, swapAt_table,
    Int.toNat_natCast]

theorem new_eq (key : List Byte) :
    new key = ofRc4 (Rc4.schedule key) := by
  have hloop := Rc4.foldl_mix fun s i hi => mix_ofRc4 key s hi
  rw [new, identity_eq, hloop, Rc4.schedule]
  generalize (List.range 256).foldl (Rc4.mix key) ⟨id, 0, 0⟩ = s
  rfl

theorem encrypt_ofRc4 (s : Rc4) (c : Byte) :
    encrypt.step (ofRc4 s) c =
      (ofRc4 (Rc4.keystream.cipher.step s c).1,
        (Rc4.keystream.cipher.step s c).2) := by
  have hx : lowByte ((s.x.toNat : Int) + 1) = (s.x + 1).toNat := by
    rw [BitVec.toNat_add, ← lowByte_natCast]
    rfl
  have hadd : ∀ a b : Byte, lowByte (a.toInt + b.toNat) = (a + b).toNat := by
    intro a b
    rw [lowByte_toInt, BitVec.toNat_add, ← lowByte_natCast]
    rfl
  have hint : ∀ a b : Byte, lowByte (a.toInt + b.toInt) = (a + b).toNat := by
    intro a b
    rw [Int.add_comm, lowByte_toInt, Int.add_comm, hadd]
  simp only [encrypt, Keystream.cipher, Rc4.keystream, Rc4.next, ofRc4, hx,
    getD_table, hadd, hint, swapAt_table, Function.comp_apply,
    Int.toNat_natCast]

end Arcfour

/-! The decoder undoes the encoding. -/

namespace Base64Decoder

open Base64

theorem value_padding : value padding = 254 := by decide +kernel

theorem map_value_alphabet : alphabet.map value = List.range 64 := by
  decide +kernel

theorem value_digit {n : Nat} (h : n < 64) : value (digit n) = n := by
  have hmap := List.getD_map (n := n) (l := alphabet) (d := padding) value
  rw [map_value_alphabet, List.getD_eq_getElem _ _ (by simpa using h),
    List.getElem_range] at hmap
  exact hmap.symm

theorem digit_ne_padding {n : Nat} (h : n < 64) : digit n ≠ padding := by
  intro heq
  have hvalue := value_digit h
  rw [heq, value_padding] at hvalue
  omega

theorem decodeGroup_eq (p q r s : Byte) :
    decodeGroup [p, q, r, s] =
      [BitVec.ofNat 8 (join (value p) (value q) (value r) (value s) >>> 16 &&& 255),
        BitVec.ofNat 8 (join (value p) (value q) (value r) (value s) >>> 8 &&& 255),
        BitVec.ofNat 8 (join (value p) (value q) (value r) (value s) &&& 255)].take
          (if s = padding then if r = padding then 1 else 2 else 3) := rfl

theorem run_group (p q r s : Byte) (rest : List Byte) :
    (read.run reset (p :: q :: r :: s :: rest)).2 =
      decodeGroup [p, q, r, s] ++ (read.run reset rest).2 := rfl

theorem decode_three (a b c : Byte) :
    decodeGroup [digit (a.toNat / 4), digit (a.toNat % 4 * 16 + b.toNat / 16),
      digit (b.toNat % 16 * 4 + c.toNat / 64), digit (c.toNat % 64)] =
        [a, b, c] := by
  have ha : a.toNat < 256 := a.isLt
  have hb : b.toNat < 256 := b.isLt
  have hc : c.toNat < 256 := c.isLt
  rw [decodeGroup_eq, value_digit (by omega), value_digit (by omega),
    value_digit (by omega), value_digit (by omega),
    join_first ha hb (by omega) (by omega), join_second hb hc (by omega),
    join_third hc, if_neg (digit_ne_padding (by omega))]
  simp

theorem decode_two (a b : Byte) :
    decodeGroup [digit (a.toNat / 4), digit (a.toNat % 4 * 16 + b.toNat / 16),
      digit (b.toNat % 16 * 4), padding] = [a, b] := by
  have ha : a.toNat < 256 := a.isLt
  have hb : b.toNat < 256 := b.isLt
  rw [decodeGroup_eq, value_digit (by omega), value_digit (by omega),
    value_digit (by omega), value_padding,
    join_first ha hb (by omega) (by omega),
    join_second_last hb (by decide), if_pos rfl, if_neg (digit_ne_padding (by omega))]
  simp

theorem decode_one (a : Byte) :
    decodeGroup [digit (a.toNat / 4), digit (a.toNat % 4 * 16), padding,
      padding] = [a] := by
  have ha : a.toNat < 256 := a.isLt
  rw [decodeGroup_eq, value_digit (by omega), value_digit (by omega),
    value_padding, join_first_alone ha (by decide) (by decide), if_pos rfl,
    if_pos rfl]
  simp

theorem read_encode (text : List Byte) :
    (read.run reset (encode text)).2 = text := by
  induction text using encode.induct with
  | case1 => rfl
  | case2 a =>
      rw [encode, run_group, decode_one]
      rfl
  | case3 a b =>
      rw [encode, run_group, decode_two]
      rfl
  | case4 a b c rest ih =>
      rw [encode, run_group, decode_three, ih]
      rfl

end Base64Decoder

/-- What the two filters make of a key is what the script has encrypted. -/
theorem total_ofLicense (realname username password : List Byte) :
    (LicenseStream.ofLicense
      (generateLicense realname username password)).total
        Base64Decoder.read Arcfour.encrypt =
      [tab].intercalate [realname, username, password] := by
  have hcrypt := Rc4.keystream.cipher.run_of_step WikipediaARC4.crypt_ofRc4
    (Rc4.schedule licenseCipherKey)
  have hencrypt := Rc4.keystream.cipher.run_of_step Arcfour.encrypt_ofRc4
    (Rc4.schedule licenseCipherKey)
  rw [Pipeline.total]
  change (Arcfour.encrypt.run (Arcfour.new licenseCipherKey)
    (Base64Decoder.read.run Base64Decoder.reset
      (generateLicense realname username password)).2).2 = _
  rw [generateLicense, Base64Decoder.read_encode, WikipediaARC4.init_eq,
    Arcfour.new_eq, hcrypt, hencrypt, Keystream.crypt_crypt]

namespace License

/-- A text without tabs, tabs between, is split where it was joined. -/
theorem parse_join {realname username password : List Byte}
    (hrealname : tab ∉ realname) (husername : tab ∉ username)
    (hpassword : tab ∉ password) :
    parse ([tab].intercalate [realname, username, password]) =
      some ⟨realname, username, password⟩ := by
  rw [parse, List.splitOn_intercalate]
  · intro component hmem
    simp only [List.mem_cons, List.not_mem_nil, or_false] at hmem
    rcases hmem with rfl | rfl | rfl
    · exact hrealname
    · exact husername
    · exact hpassword
  · exact List.cons_ne_nil _ _

/-- However the filters are called for a key, the end can still be reached,
and what has been decoded there is parsed into `l`. -/
def Loads (license : List Byte) (l : License) : Prop :=
  ∀ calls, (licenseStream license).Always (fun s =>
    (s.Finished → parse s.output = some l) ∧
      ∃ more s', (licenseStream license).runFrom s more = some s' ∧
        s'.Finished) calls

theorem exists_finished (license : List Byte) (s : LicenseStream) :
    ∃ more s', (licenseStream license).runFrom s more = some s' ∧
      s'.Finished := by
  let filled := Pipeline.step Base64Decoder.read Arcfour.encrypt s
    (.fill s.rest.length)
  have hread : (licenseStream license).step s
      (.read (3 * (s.rest.length + 1)) s.rest.length) = some filled :=
    if_pos (by omega)
  refine ⟨[.read (3 * (s.rest.length + 1)) s.rest.length,
    .filter filled.buffer.length], _, ?_,
    Pipeline.finished_of_large Base64Decoder.read Arcfour.encrypt s
      (Nat.le_refl _) (Nat.le_refl _)⟩
  rw [StepSystem.runFrom_cons, hread]
  rfl

theorem loads_of_total {license : List Byte} {l : License}
    (h : parse ((LicenseStream.ofLicense license).total
      Base64Decoder.read Arcfour.encrypt) = some l) :
    Loads license l := by
  intro calls
  apply StepSystem.always_of_invariant _
    (I := fun s => parse (s.total Base64Decoder.read Arcfour.encrypt) = some l) h
  · intro s s' call hs _ hstep
    have htotal : s'.total Base64Decoder.read Arcfour.encrypt =
        s.total Base64Decoder.read Arcfour.encrypt := by
      cases call with
      | read n k =>
          have hread : s.step (.read n k) = some s' := hstep
          rw [LicenseStream.step] at hread
          split_ifs at hread
          rw [← Option.some.inj hread, Pipeline.total_step]
      | filter m =>
          have hfilter : s.step (.filter m) = some s' := hstep
          rw [← Option.some.inj hfilter, Pipeline.total_step]
    rw [htotal]
    exact hs
  · intro s hs
    refine ⟨?_, exists_finished license s⟩
    intro hfinished
    rw [Pipeline.output_of_finished _ _ hfinished]
    exact hs

theorem extract_of_spaces {before license after : List Byte}
    (hbefore : ∀ c ∈ before, isSpace c = true)
    (hlicense : ∀ c ∈ license, isSpace c = false)
    (hafter : ∀ c ∈ after, isSpace c = true) :
    extract (before ++ license ++ after) = license := by
  rw [extract, List.append_assoc, List.dropWhile_append_of_pos hbefore]
  cases license with
  | nil =>
      rw [List.nil_append, List.dropWhile_eq_nil_iff.mpr hafter]
      rfl
  | cons c license =>
      have hfirst : ¬ isSpace c = true := by
        rw [hlicense c List.mem_cons_self]
        decide
      rw [List.cons_append, List.dropWhile_cons_of_neg hfirst,
        ← List.cons_append, List.takeWhile_append_of_pos (by simpa using hlicense)]
      cases after with
      | nil => exact List.append_nil _
      | cons d after =>
          rw [List.takeWhile_cons_of_neg (by simpa using hafter d List.mem_cons_self),
            List.append_nil]

/-- 32 hexadecimal digits. -/
def IsPassword (password : List Byte) : Prop :=
  password.length = 32 ∧
    ∀ c ∈ password, c ∈ literal "0123456789abcdefABCDEF"

instance (password : List Byte) : Decidable (IsPassword password) :=
  inferInstanceAs (Decidable (_ ∧ _))

/-- No character of a key is white space, or an index outside of the table. -/
theorem plain_of_mem {realname username password : List Byte} {c : Byte}
    (h : c ∈ generateLicense realname username password) :
    isSpace c = false ∧ c.toNat < 128 := by
  have hall : ∀ c ∈ Base64.padding :: Base64.alphabet,
      isSpace c = false ∧ c.toNat < 128 := by decide +kernel
  exact hall c (Base64.mem_encode h)

/-- What the script prints for a real name and a user name without tabs is
loaded as these and the password, also from a file with white space around
it. -/
theorem loads_generateLicense {realname username password : List Byte}
    (hrealname : tab ∉ realname) (husername : tab ∉ username)
    (hpassword : IsPassword password) :
    Loads (generateLicense realname username password)
        ⟨realname, username, password⟩ ∧
      (∀ c ∈ generateLicense realname username password, c.toNat < 128) ∧
      ∀ before after, (∀ c ∈ before ++ after, isSpace c = true) →
        extract (before ++ generateLicense realname username password ++ after) =
          generateLicense realname username password := by
  have hdigits : tab ∉ literal "0123456789abcdefABCDEF" := by decide +kernel
  refine ⟨?_, fun c hc => (plain_of_mem hc).2, ?_⟩
  · apply loads_of_total
    rw [total_ofLicense]
    exact parse_join hrealname husername fun htab =>
      hdigits (hpassword.2 tab htab)
  · intro before after hspaces
    exact extract_of_spaces
      (fun c hc => hspaces c (List.mem_append_left _ hc))
      (fun c hc => (plain_of_mem hc).1)
      fun c hc => hspaces c (List.mem_append_right _ hc)

theorem loads_generateLicense_jane :
    Loads (generateLicense (literal "Jane Doe") (literal "")
        (literal "0123456789abcdef0123456789ABCDEF"))
        ⟨literal "Jane Doe", literal "",
          literal "0123456789abcdef0123456789ABCDEF"⟩ ∧
      (∀ c ∈ generateLicense (literal "Jane Doe") (literal "")
        (literal "0123456789abcdef0123456789ABCDEF"), c.toNat < 128) ∧
      ∀ before after, (∀ c ∈ before ++ after, isSpace c = true) →
        extract (before ++ generateLicense (literal "Jane Doe") (literal "")
          (literal "0123456789abcdef0123456789ABCDEF") ++ after) =
          generateLicense (literal "Jane Doe") (literal "")
            (literal "0123456789abcdef0123456789ABCDEF") :=
  loads_generateLicense (by decide +kernel) (by decide +kernel)
    (by decide +kernel)

end License
end BohunoPyzord
