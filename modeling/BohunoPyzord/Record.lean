/-
The stored record of a hash: eight 32-bit fields in network byte order, two of
them times of the record itself and three each for its reports and its
whitelists.
-/
import BohunoPyzord.Update
import Mathlib.Tactic.Simps.Basic

namespace BohunoPyzord

/-- `struct record`; every field is in network order. -/
structure Record where
  entered_ : Uint32
  updated_ : Uint32
  report_count_ : Uint32
  report_entered_ : Uint32
  report_updated_ : Uint32
  whitelist_count_ : Uint32
  whitelist_entered_ : Uint32
  whitelist_updated_ : Uint32
deriving DecidableEq, Repr

/-- Which of the two triples of fields an accessor is about. -/
inductive Tally where
  | report
  | whitelist
deriving DecidableEq, Repr

/-- The later of two times. -/
def later (s t : Uint32) : Uint32 := if s < t then t else s

theorem later_toNat (s t : Uint32) :
    (later s t).toNat = max s.toNat t.toNat := by
  unfold later
  split <;> rename_i h <;> rw [BitVec.lt_def] at h <;> omega

/-- The first time kept, with zero for none. -/
def keepFirst (s t : Uint32) : Uint32 := if s = 0 then t else s

theorem keepFirst_of_ne {s : Uint32} (h : s ≠ 0) (t : Uint32) :
    keepFirst s t = s := if_neg h

namespace Record

/-- The record the constructor and `memset` leave. -/
def zero : Record := ⟨0, 0, 0, 0, 0, 0, 0, 0⟩

def entered (r : Record) : Uint32 := ntohl r.entered_

def updated (r : Record) : Uint32 := ntohl r.updated_

/-- `report_count()` and `whitelist_count()`. -/
def count (r : Record) : Tally → Uint32
  | .report => ntohl r.report_count_
  | .whitelist => ntohl r.whitelist_count_

/-- `report_entered()` and `whitelist_entered()`. -/
def tallyEntered (r : Record) : Tally → Uint32
  | .report => ntohl r.report_entered_
  | .whitelist => ntohl r.whitelist_entered_

/-- `report_updated()` and `whitelist_updated()`. -/
def tallyUpdated (r : Record) : Tally → Uint32
  | .report => ntohl r.report_updated_
  | .whitelist => ntohl r.whitelist_updated_

def setEntered (r : Record) (v : Uint32) : Record :=
  { r with entered_ := htonl v }

def setUpdated (r : Record) (v : Uint32) : Record :=
  { r with updated_ := htonl v }

def setCount (r : Record) (tally : Tally) (v : Uint32) : Record :=
  match tally with
  | .report => { r with report_count_ := htonl v }
  | .whitelist => { r with whitelist_count_ := htonl v }

def setTallyEntered (r : Record) (tally : Tally) (v : Uint32) : Record :=
  match tally with
  | .report => { r with report_entered_ := htonl v }
  | .whitelist => { r with whitelist_entered_ := htonl v }

def setTallyUpdated (r : Record) (tally : Tally) (v : Uint32) : Record :=
  match tally with
  | .report => { r with report_updated_ := htonl v }
  | .whitelist => { r with whitelist_updated_ := htonl v }

/-- What `report` and `whitelist` do to their own fields, at clock reading
`now`. -/
def bump (r : Record) (tally : Tally) (t now : Uint32) : Record :=
  let r := r.setCount tally (r.count tally + 1)
  let (r, t) :=
    if t = 0 then
      let t := now
      let r :=
        if r.tallyEntered tally = 0 then r.setTallyEntered tally t else r
      (r.setTallyUpdated tally t, t)
    else if r.tallyUpdated tally < t then
      let r := r.setTallyUpdated tally t
      if r.tallyEntered tally = 0 then
        (r.setTallyEntered tally (r.tallyUpdated tally), t)
      else (r, t)
    else (r, t)
  let r := if r.entered = 0 then r.setEntered t else r
  if r.updated < t then r.setUpdated t else r

def report (r : Record) (t now : Uint32) : Record := r.bump .report t now

def whitelist (r : Record) (t now : Uint32) : Record := r.bump .whitelist t now

def reset (r : Record) (t now : Uint32) : Record :=
  let r := r.setCount .whitelist 0
  let r := r.setCount .report 0
  let t := if t = 0 then now else t
  let r := r.setTallyUpdated .report 0
  let r := r.setTallyUpdated .whitelist 0
  r.setUpdated t

/-- A record is what its accessors read. -/
theorem ext_accessors {r s : Record} (hentered : r.entered = s.entered)
    (hupdated : r.updated = s.updated) (hcount : r.count = s.count)
    (htallyEntered : r.tallyEntered = s.tallyEntered)
    (htallyUpdated : r.tallyUpdated = s.tallyUpdated) : r = s := by
  have back : ∀ {v w : Uint32}, ntohl v = ntohl w → v = w := by
    intro v w h
    rw [← htonl_ntohl v, h, htonl_ntohl]
  cases r
  cases s
  simp only [mk.injEq]
  exact ⟨back hentered, back hupdated,
    back (congrFun hcount .report), back (congrFun htallyEntered .report),
    back (congrFun htallyUpdated .report),
    back (congrFun hcount .whitelist),
    back (congrFun htallyEntered .whitelist),
    back (congrFun htallyUpdated .whitelist)⟩

section Accessors

variable (r : Record) (tally : Tally) (v : Uint32)

@[simp] theorem entered_setEntered : (r.setEntered v).entered = v := by
  simp [entered, setEntered]

@[simp] theorem updated_setEntered :
    (r.setEntered v).updated = r.updated := rfl

@[simp] theorem count_setEntered : (r.setEntered v).count = r.count := rfl

@[simp] theorem tallyEntered_setEntered :
    (r.setEntered v).tallyEntered = r.tallyEntered := rfl

@[simp] theorem tallyUpdated_setEntered :
    (r.setEntered v).tallyUpdated = r.tallyUpdated := rfl

@[simp] theorem entered_setUpdated :
    (r.setUpdated v).entered = r.entered := rfl

@[simp] theorem updated_setUpdated : (r.setUpdated v).updated = v := by
  simp [updated, setUpdated]

@[simp] theorem count_setUpdated : (r.setUpdated v).count = r.count := rfl

@[simp] theorem tallyEntered_setUpdated :
    (r.setUpdated v).tallyEntered = r.tallyEntered := rfl

@[simp] theorem tallyUpdated_setUpdated :
    (r.setUpdated v).tallyUpdated = r.tallyUpdated := rfl

@[simp] theorem entered_setCount :
    (r.setCount tally v).entered = r.entered := by
  cases tally <;> rfl

@[simp] theorem updated_setCount :
    (r.setCount tally v).updated = r.updated := by
  cases tally <;> rfl

@[simp] theorem count_setCount :
    (r.setCount tally v).count = Function.update r.count tally v := by
  funext other
  cases tally <;> cases other <;> simp [count, setCount, Function.update]

@[simp] theorem tallyEntered_setCount :
    (r.setCount tally v).tallyEntered = r.tallyEntered := by
  cases tally <;> rfl

@[simp] theorem tallyUpdated_setCount :
    (r.setCount tally v).tallyUpdated = r.tallyUpdated := by
  cases tally <;> rfl

@[simp] theorem entered_setTallyEntered :
    (r.setTallyEntered tally v).entered = r.entered := by
  cases tally <;> rfl

@[simp] theorem updated_setTallyEntered :
    (r.setTallyEntered tally v).updated = r.updated := by
  cases tally <;> rfl

@[simp] theorem count_setTallyEntered :
    (r.setTallyEntered tally v).count = r.count := by
  cases tally <;> rfl

@[simp] theorem tallyEntered_setTallyEntered :
    (r.setTallyEntered tally v).tallyEntered =
      Function.update r.tallyEntered tally v := by
  funext other
  cases tally <;> cases other <;>
    simp [tallyEntered, setTallyEntered, Function.update]

@[simp] theorem tallyUpdated_setTallyEntered :
    (r.setTallyEntered tally v).tallyUpdated = r.tallyUpdated := by
  cases tally <;> rfl

@[simp] theorem entered_setTallyUpdated :
    (r.setTallyUpdated tally v).entered = r.entered := by
  cases tally <;> rfl

@[simp] theorem updated_setTallyUpdated :
    (r.setTallyUpdated tally v).updated = r.updated := by
  cases tally <;> rfl

@[simp] theorem count_setTallyUpdated :
    (r.setTallyUpdated tally v).count = r.count := by
  cases tally <;> rfl

@[simp] theorem tallyEntered_setTallyUpdated :
    (r.setTallyUpdated tally v).tallyEntered = r.tallyEntered := by
  cases tally <;> rfl

@[simp] theorem tallyUpdated_setTallyUpdated :
    (r.setTallyUpdated tally v).tallyUpdated =
      Function.update r.tallyUpdated tally v := by
  funext other
  cases tally <;> cases other <;>
    simp [tallyUpdated, setTallyUpdated, Function.update]

end Accessors

/-! What `bump` and `reset` do to each accessor. -/

/-- The time that `report(t)` or `whitelist(t)` takes. -/
def effectiveTime (t now : Uint32) : Uint32 := if t = 0 then now else t

theorem entered_bump_effective (r : Record) (tally : Tally) (t now : Uint32) :
    (r.bump tally t now).entered =
      keepFirst r.entered (effectiveTime t now) := by
  by_cases ht : t = 0
  · unfold bump keepFirst effectiveTime
    simp only [ht, ↓reduceIte]
    split_ifs <;> simp_all
  · unfold bump keepFirst effectiveTime
    simp only [ht, ↓reduceIte]
    split_ifs <;> simp_all

theorem updated_bump_effective (r : Record) (tally : Tally) (t now : Uint32) :
    (r.bump tally t now).updated = later r.updated (effectiveTime t now) := by
  by_cases ht : t = 0
  · unfold bump later effectiveTime
    simp only [ht, ↓reduceIte]
    split_ifs <;> simp_all
  · unfold bump later effectiveTime
    simp only [ht, ↓reduceIte]
    split_ifs <;> simp_all

theorem count_bump (r : Record) (tally : Tally) (t now : Uint32) :
    (r.bump tally t now).count =
      Function.update r.count tally (r.count tally + 1) := by
  by_cases ht : t = 0
  · unfold bump
    simp only [ht, ↓reduceIte]
    split_ifs <;> simp
  · unfold bump
    simp only [ht, ↓reduceIte]
    split_ifs <;> simp

theorem effectiveTime_of_ne {t : Uint32} (ht : t ≠ 0) (now : Uint32) :
    effectiveTime t now = t := if_neg ht

theorem entered_bump (r : Record) (tally : Tally) {t : Uint32} (now : Uint32)
    (ht : t ≠ 0) :
    (r.bump tally t now).entered = keepFirst r.entered t := by
  rw [entered_bump_effective, effectiveTime_of_ne ht]

theorem updated_bump (r : Record) (tally : Tally) {t : Uint32} (now : Uint32)
    (ht : t ≠ 0) :
    (r.bump tally t now).updated = later r.updated t := by
  rw [updated_bump_effective, effectiveTime_of_ne ht]

theorem tallyUpdated_bump (r : Record) (tally : Tally) {t : Uint32}
    (now : Uint32) (ht : t ≠ 0) : (r.bump tally t now).tallyUpdated =
      Function.update r.tallyUpdated tally
        (later (r.tallyUpdated tally) t) := by
  unfold bump later
  simp only [ht, ↓reduceIte]
  split_ifs <;> simp_all

theorem tallyEntered_bump (r : Record) (tally : Tally) {t : Uint32}
    (now : Uint32) (ht : t ≠ 0) : (r.bump tally t now).tallyEntered =
      if r.tallyUpdated tally < t then
        Function.update r.tallyEntered tally
          (keepFirst (r.tallyEntered tally) t)
      else r.tallyEntered := by
  unfold bump keepFirst
  simp only [ht, ↓reduceIte]
  split_ifs <;> simp_all

@[simp] theorem entered_reset (r : Record) (t now : Uint32) :
    (r.reset t now).entered = r.entered := by
  simp [reset]

@[simp] theorem updated_reset (r : Record) (t now : Uint32) :
    (r.reset t now).updated = if t = 0 then now else t := by
  simp [reset]

@[simp] theorem count_reset (r : Record) (t now : Uint32) (tally : Tally) :
    (r.reset t now).count tally = 0 := by
  cases tally <;> simp [reset, Function.update]

@[simp] theorem tallyUpdated_reset (r : Record) (t now : Uint32)
    (tally : Tally) : (r.reset t now).tallyUpdated tally = 0 := by
  cases tally <;> simp [reset, Function.update]

@[simp] theorem tallyEntered_reset (r : Record) (t now : Uint32) :
    (r.reset t now).tallyEntered = r.tallyEntered := by
  simp [reset]

end Record

end BohunoPyzord
