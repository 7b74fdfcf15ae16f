/-
The check of a replica against the check of the server: both look the hash of a
digest up in the same table, and say that a record is found if it was not
reset.
-/
import BohunoPyzord.DigestKeys

namespace BohunoPyzord

/-- What the record of a hash that was reset has. -/
def Record.IsReset (r : Record) : Prop :=
  r.count .report = 0 ∧ r.count .whitelist = 0

/-- Both checks find the digest exactly when its hash is stored and was not
reset, and deliver the same counts. -/
def Database.LookupsAgree (db : Database) (digest : Text) : Prop :=
  ∃ hash, Hash.ofHex digest = some hash ∧
    ((db.lookupRecord hash).1 = true ↔ (db.get digest).1 = true) ∧
    ((db.get digest).1 = true ↔
      ∃ r, db.lookup hash = some r ∧ ¬ r.IsReset) ∧
    (db.lookupRecord hash).2.count = (db.get digest).2.count

namespace Database

/-- The server reads what `decode_signature` makes of the digest. -/
theorem get_of_decode (db : Database) {digest : Text} {hash : Hash}
    (h : decodeSignature digest = some hash) :
    ((db.get digest).1 = true ↔ ∃ r, db.lookup hash = some r ∧
      ¬ r.IsReset) ∧
    (db.get digest).2 = (db.lookup hash).getD Record.zero := by
  simp only [get, h]
  cases db.lookup hash with
  | none => simp
  | some r =>
      simp only [Option.some.injEq, exists_eq_left', Option.getD_some]
      split_ifs with hreset
      · exact ⟨iff_of_false id (not_not_intro hreset), rfl⟩
      · exact ⟨iff_of_true rfl hreset, rfl⟩

/-- The replica asks for both counts where the server asks for one of them. -/
theorem lookupRecord_iff (db : Database) (hash : Hash) :
    ((db.lookupRecord hash).1 = true ↔ ∃ r, db.lookup hash = some r ∧
      r.count .report ≠ 0 ∧ r.count .whitelist ≠ 0) ∧
    (db.lookupRecord hash).2 = (db.lookup hash).getD Record.zero := by
  rw [lookupRecord]
  cases db.lookup hash with
  | none => simp
  | some r => simp

/-- The two checks agree on a digest exactly when its record, if there is one,
has both counts or neither. -/
theorem lookupsAgree_iff (db : Database) (digest : Text)
    (hdigest : IsDigest digest) :
    db.LookupsAgree digest ↔
      ∀ hash r, decodeSignature digest = some hash →
        db.lookup hash = some r →
        (r.count .report = 0 ↔ r.count .whitelist = 0) := by
  obtain ⟨hash, hdecode, -⟩ := hdigest.decode
  obtain ⟨hget, hgetRecord⟩ := db.get_of_decode hdecode
  obtain ⟨hfound, hlookupRecord⟩ := db.lookupRecord_iff hash
  constructor
  · rintro ⟨hash', hofHex, hsame, -⟩ hash'' r hdecode' hr
    obtain rfl := Option.some.inj (hdecode.symm.trans hdecode')
    rw [ofHex_eq_decodeSignature, hdecode, Option.some.injEq] at hofHex
    subst hofHex
    rw [hfound, hget, hr] at hsame
    simp only [Option.some.injEq, exists_eq_left', Record.IsReset] at hsame
    tauto
  · intro hboth
    refine ⟨hash, (ofHex_eq_decodeSignature digest).trans hdecode, ?_, hget,
      by rw [hlookupRecord, hgetRecord]⟩
    rw [hfound, hget]
    refine exists_congr fun r => and_congr_right fun hr => ?_
    have hcounts := hboth hash r hdecode hr
    rw [Record.IsReset]
    tauto

/-- A digest and the hash that it spells. -/
def storedDigest : Text := "da39a3ee5e6b4b0d3255bfef95601890afd80709".toList

def storedHash : Hash :=
  ⟨⟨#[0xda, 0x39, 0xa3, 0xee, 0x5e, 0x6b, 0x4b, 0x0d, 0x32, 0x55, 0xbf, 0xef,
    0x95, 0x60, 0x18, 0x90, 0xaf, 0xd8, 0x07, 0x09], rfl⟩⟩

/-- The table in which that hash has a record. -/
def stored (r : Record) : Database := (∅ : Database).insert storedHash r

/-- The checks agree on a hash that was reported and whitelisted and on one
that was erased, and not on one that was whitelisted alone. -/
theorem lookupsAgree_iff_stored :
    let reported := Record.zero.report 10 10
    (stored (reported.whitelist 20 20)).LookupsAgree storedDigest ∧
      (stored (reported.reset 20 20)).LookupsAgree storedDigest ∧
      ¬ (stored (Record.zero.whitelist 10 10)).LookupsAgree storedDigest := by
  intro reported
  have hdecode : decodeSignature storedDigest = some storedHash := by
    decide +kernel
  have hiff : ∀ r, (stored r).LookupsAgree storedDigest ↔
      (r.count .report = 0 ↔ r.count .whitelist = 0) := by
    intro r
    rw [lookupsAgree_iff _ storedDigest (by decide), hdecode]
    constructor
    · exact fun h => h storedHash r rfl (AList.lookup_insert _)
    · rintro h hash r' hhash hr'
      obtain rfl := Option.some.inj hhash
      rw [stored, AList.lookup_insert, Option.some.injEq] at hr'
      exact hr' ▸ h
  exact ⟨(hiff _).mpr (by decide), (hiff _).mpr (by decide),
    fun h => absurd ((hiff _).mp h) (by decide)⟩

/-- A hash that was reported and never whitelisted is found by the server and
not by the replica. -/
theorem not_lookupsAgree :
    ¬ ∀ (db : Database) (digest : Text), IsDigest digest →
      db.LookupsAgree digest := by
  intro h
  obtain ⟨hash, hhash, hsame, -⟩ := h (stored (Record.zero.report 10 10))
    storedDigest (by decide)
  have hstored : Hash.ofHex storedDigest = some storedHash := by
    decide +kernel
  obtain rfl := Option.some.inj (hstored.symm.trans hhash)
  have hserver : ((stored (Record.zero.report 10 10)).get
      storedDigest).1 = true := by
    decide +kernel
  have hreplica : ((stored (Record.zero.report 10 10)).lookupRecord
      storedHash).1 = false := by
    decide +kernel
  rw [hserver, hreplica] at hsame
  exact Bool.false_ne_true (hsame.mpr rfl)

end Database

end BohunoPyzord
