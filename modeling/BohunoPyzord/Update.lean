/-
The fixed-size update that a client queues for the master: a 20-byte hash, a
type and a time, the last two kept in network byte order.
-/
import Mathlib.Data.Vector.Basic
import Mathlib.Data.List.Basic
import Mathlib.Tactic.Common

namespace BohunoPyzord

abbrev Byte := BitVec 8

/-- `boost::uint32_t`. -/
abbrev Uint32 := BitVec 32

/-- The `k`-th byte of a word in the memory of a little-endian host. -/
def byteAt (v : Uint32) (k : Nat) : Byte :=
  BitVec.ofNat 8 (v.toNat / 256 ^ k)

/-- The word a little-endian host reads from four bytes. -/
def wordOfBytes (b0 b1 b2 b3 : Byte) : Uint32 :=
  BitVec.ofNat 32
    (b0.toNat + 256 * b1.toNat + 65536 * b2.toNat + 16777216 * b3.toNat)

/-- Host to network order: the bytes are reversed. -/
def htonl (v : Uint32) : Uint32 :=
  wordOfBytes (byteAt v 3) (byteAt v 2) (byteAt v 1) (byteAt v 0)

def ntohl (v : Uint32) : Uint32 := htonl v

theorem byteAt_toNat (v : Uint32) (k : Nat) :
    (byteAt v k).toNat = v.toNat / 256 ^ k % 256 := by
  simp [byteAt]

theorem wordOfBytes_toNat (b0 b1 b2 b3 : Byte) :
    (wordOfBytes b0 b1 b2 b3).toNat =
      b0.toNat + 256 * b1.toNat + 65536 * b2.toNat + 16777216 * b3.toNat := by
  have h0 := b0.isLt
  have h1 := b1.isLt
  have h2 := b2.isLt
  have h3 := b3.isLt
  rw [wordOfBytes, BitVec.toNat_ofNat]
  omega

/-- A word is read back from its own bytes. -/
@[simp] theorem wordOfBytes_byteAt (v : Uint32) :
    wordOfBytes (byteAt v 0) (byteAt v 1) (byteAt v 2) (byteAt v 3) = v := by
  apply BitVec.eq_of_toNat_eq
  have hv := v.isLt
  rw [wordOfBytes_toNat]
  simp only [byteAt_toNat]
  omega

/-- The bytes of an assembled word are the ones it was assembled from. -/
theorem byteAt_wordOfBytes (b0 b1 b2 b3 : Byte) :
    byteAt (wordOfBytes b0 b1 b2 b3) 0 = b0 ∧
      byteAt (wordOfBytes b0 b1 b2 b3) 1 = b1 ∧
      byteAt (wordOfBytes b0 b1 b2 b3) 2 = b2 ∧
      byteAt (wordOfBytes b0 b1 b2 b3) 3 = b3 := by
  have h0 := b0.isLt
  have h1 := b1.isLt
  have h2 := b2.isLt
  have h3 := b3.isLt
  refine ⟨?_, ?_, ?_, ?_⟩ <;> apply BitVec.eq_of_toNat_eq <;>
    rw [byteAt_toNat, wordOfBytes_toNat] <;> omega

@[simp] theorem ntohl_htonl (v : Uint32) : ntohl (htonl v) = v := by
  obtain ⟨h0, h1, h2, h3⟩ := byteAt_wordOfBytes
    (byteAt v 3) (byteAt v 2) (byteAt v 1) (byteAt v 0)
  rw [ntohl, htonl, htonl, h0, h1, h2, h3]
  exact wordOfBytes_byteAt v

@[simp] theorem htonl_ntohl (v : Uint32) : htonl (ntohl v) = v :=
  ntohl_htonl v

/-- `struct hash`. -/
structure Hash where
  data_ : Vector Byte 20
deriving DecidableEq, Repr

/-- `enum update_type { erase, report, whitelist }`. -/
inductive UpdateType where
  | erase
  | report
  | whitelist
deriving DecidableEq, Repr

/-- The number of an enumerator. -/
def UpdateType.code : UpdateType → Uint32
  | .erase => 0
  | .report => 1
  | .whitelist => 2

/-- The enumerator with a number, if there is one.  A word off the wire can
hold any number. -/
def UpdateType.ofCode (code : Uint32) : Option UpdateType :=
  if code = 0 then some .erase
  else if code = 1 then some .report
  else if code = 2 then some .whitelist
  else none

@[simp] theorem UpdateType.ofCode_code (t : UpdateType) :
    UpdateType.ofCode t.code = some t := by
  cases t <;> rfl

/-- `struct update`; `type_` and `time_` are in network order. -/
structure Update where
  hash_ : Hash
  type_ : Uint32
  time_ : Uint32
deriving DecidableEq, Repr

namespace Update

/-- The constructor `update(hash, type)` run at clock reading `now`. -/
def make (hash : Hash) (type : UpdateType) (now : Uint32) : Update :=
  { hash_ := hash, type_ := htonl type.code, time_ := htonl now }

def ghash (u : Update) : Hash := u.hash_

def type (u : Update) : Option UpdateType := UpdateType.ofCode (ntohl u.type_)

def time (u : Update) : Uint32 := ntohl u.time_

@[simp] theorem ghash_make (hash : Hash) (type : UpdateType) (now : Uint32) :
    (make hash type now).ghash = hash := rfl

@[simp] theorem type_make (hash : Hash) (type : UpdateType) (now : Uint32) :
    (make hash type now).type = some type := by
  simp [Update.type, make]

@[simp] theorem time_make (hash : Hash) (type : UpdateType) (now : Uint32) :
    (make hash type now).time = now := by
  simp [Update.time, make]

end Update

end BohunoPyzord
