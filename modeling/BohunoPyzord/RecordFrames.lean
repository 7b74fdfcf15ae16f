/-
The 52 bytes that an exported file has for a record: its hash, and the eight
words of the record as they lie in memory.
-/
import BohunoPyzord.Record
import BohunoPyzord.Transport

namespace BohunoPyzord

namespace Hash

def bytes (h : Hash) : List Byte := h.data_.toList

/-- The hash that is read from memory. -/
def ofBytes (bs : List Byte) : Hash :=
  ⟨Vector.ofFn fun i : Fin 20 => bs.getD i 0⟩

theorem length_bytes (h : Hash) : h.bytes.length = 20 := by
  simp [bytes]

theorem bytes_ofBytes (bs : List Byte) (h : bs.length = 20) :
    (ofBytes bs).bytes = bs := by
  apply List.ext_getElem (by rw [length_bytes, h])
  intro i hi hi'
  simp only [bytes, ofBytes, Vector.getElem_toList, Vector.getElem_ofFn]
  exact List.getD_eq_getElem _ _ hi'

theorem ofBytes_bytes (h : Hash) : ofBytes h.bytes = h := by
  have hbytes := bytes_ofBytes h.bytes h.length_bytes
  exact congrArg Hash.mk (Vector.toList_inj.mp hbytes)

/-- `sizeof(hash)` bytes hold one hash. -/
def framing : Framing Hash Byte where
  size := 20
  encode := bytes
  decode := ofBytes
  size_pos := by decide
  length_encode := length_bytes
  decode_encode := ofBytes_bytes
  encode_decode := bytes_ofBytes

end Hash

namespace Record

def bytes (r : Record) : List Byte :=
  wordBytes r.entered_ ++ wordBytes r.updated_ ++
    wordBytes r.report_count_ ++ wordBytes r.report_entered_ ++
    wordBytes r.report_updated_ ++ wordBytes r.whitelist_count_ ++
    wordBytes r.whitelist_entered_ ++ wordBytes r.whitelist_updated_

/-- The record that is read from memory. -/
def ofBytes (bs : List Byte) : Record :=
  { entered_ := wordAt bs 0
    updated_ := wordAt bs 4
    report_count_ := wordAt bs 8
    report_entered_ := wordAt bs 12
    report_updated_ := wordAt bs 16
    whitelist_count_ := wordAt bs 20
    whitelist_entered_ := wordAt bs 24
    whitelist_updated_ := wordAt bs 28 }

theorem length_bytes (r : Record) : r.bytes.length = 32 := by
  simp [bytes, wordBytes]

theorem ofBytes_bytes (r : Record) : ofBytes r.bytes = r := by
  simp [ofBytes, bytes, wordAt, wordBytes]

theorem bytes_ofBytes (bs : List Byte) (h : bs.length = 32) :
    (ofBytes bs).bytes = bs := by
  have hstep : ∀ k, (bs.drop k).take 4 ++ bs.drop (k + 4) = bs.drop k := by
    intro k
    rw [← List.drop_drop, List.take_append_drop]
  have hlast : (bs.drop 28).take 4 = bs.drop 28 :=
    List.take_of_length_le (by rw [List.length_drop]; omega)
  simp only [bytes, ofBytes]
  rw [wordBytes_wordAt bs 0 (by omega), wordBytes_wordAt bs 4 (by omega),
    wordBytes_wordAt bs 8 (by omega), wordBytes_wordAt bs 12 (by omega),
    wordBytes_wordAt bs 16 (by omega), wordBytes_wordAt bs 20 (by omega),
    wordBytes_wordAt bs 24 (by omega), wordBytes_wordAt bs 28 (by omega),
    hlast]
  simp only [List.append_assoc]
  rw [hstep 24, hstep 20, hstep 16, hstep 12, hstep 8, hstep 4, hstep 0,
    List.drop_zero]

/-- `sizeof(record)` bytes hold one record. -/
def framing : Framing Record Byte where
  size := 32
  encode := bytes
  decode := ofBytes
  size_pos := by decide
  length_encode := length_bytes
  decode_encode := ofBytes_bytes
  encode_decode := bytes_ofBytes

end Record

/-- A hash and its record, as they are written one after the other. -/
def recordFraming : Framing (Hash × Record) Byte :=
  Hash.framing.pair Record.framing

end BohunoPyzord
