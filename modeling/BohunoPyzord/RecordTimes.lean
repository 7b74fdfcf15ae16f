/-
The order of the times in a record: what any sequence of reports, whitelists
and resets with times of their own leaves of it.  A report moves a time forward
only; a reset sets the time of the record to whatever it is given, and forgets
when a hash was last reported but not when it was first.
-/
import BohunoPyzord.Master
import BohunoPyzord.StepSystem

namespace BohunoPyzord

/-- A call of `report`, `whitelist` or `reset` with a time that is not zero,
at clock reading `now`. -/
structure RecordCall where
  type : UpdateType
  t : Uint32
  now : Uint32
  nonzero : t ≠ 0
deriving DecidableEq, Repr

/-- A first time that outlives the last time of its tally is at or before
`t`. -/
def Record.FirstKept (r : Record) (tally : Tally) (t : Uint32) : Prop :=
  r.tallyUpdated tally = 0 → r.tallyEntered tally ≤ t

instance (r : Record) (tally : Tally) (t : Uint32) :
    Decidable (r.FirstKept tally t) :=
  inferInstanceAs (Decidable (_ → _))

namespace RecordCall

def apply (r : Record) (call : RecordCall) : Record :=
  match call.type with
  | .report => r.report call.t call.now
  | .whitelist => r.whitelist call.t call.now
  | .erase => r.reset call.t call.now

/-- The call does not go back behind a first time that the record keeps. -/
def InOrder (r : Record) (call : RecordCall) : Prop :=
  match call.type with
  | .report => r.FirstKept .report call.t
  | .whitelist => r.FirstKept .whitelist call.t
  | .erase => r.entered ≤ call.t

instance (r : Record) (call : RecordCall) : Decidable (InOrder r call) := by
  unfold InOrder
  cases call.type <;> infer_instance

end RecordCall

/-- A record in memory, from the zero record on. -/
def recordSystem : StepSystem Record RecordCall where
  init := Record.zero
  step r call := some (call.apply r)

namespace Record

/-- The times of the record, and of each tally that is not empty, are in
order. -/
structure TimesOrdered (r : Record) : Prop where
  entered_le : r.entered ≤ r.updated
  entered_pos : ∀ tally, 0 < r.count tally → 0 < r.tallyEntered tally
  tally_le : ∀ tally, 0 < r.count tally →
    r.tallyEntered tally ≤ r.tallyUpdated tally
  tally_le_updated : ∀ tally, 0 < r.count tally →
    r.tallyUpdated tally ≤ r.updated

/-- What the calls keep of a tally: a last time is at or after the first and
at or before that of the record; without one nothing is counted. -/
structure TallyTimes (r : Record) (tally : Tally) : Prop where
  entered_ne : r.tallyUpdated tally ≠ 0 → r.tallyEntered tally ≠ 0
  entered_le : r.tallyUpdated tally ≠ 0 →
    r.tallyEntered tally ≤ r.tallyUpdated tally
  le_updated : r.tallyUpdated tally ≤ r.updated
  count_eq : r.tallyUpdated tally = 0 → r.count tally = 0

/-- The invariant of the calls that stay in order. -/
structure TimesKept (r : Record) : Prop where
  entered_le : r.entered ≤ r.updated
  tallies : ∀ tally, r.TallyTimes tally

theorem TimesKept.timesOrdered {r : Record} (h : r.TimesKept) :
    r.TimesOrdered := by
  have counted : ∀ tally, 0 < r.count tally → r.tallyUpdated tally ≠ 0 := by
    intro tally hcount hzero
    rw [(h.tallies tally).count_eq hzero] at hcount
    exact absurd hcount (by decide)
  exact
    { entered_le := h.entered_le
      entered_pos := fun tally hcount => BitVec.pos_iff_ne_zero _ |>.mpr
        ((h.tallies tally).entered_ne (counted tally hcount))
      tally_le := fun tally hcount =>
        (h.tallies tally).entered_le (counted tally hcount)
      tally_le_updated := fun tally _ => (h.tallies tally).le_updated }

theorem timesKept_zero : zero.TimesKept where
  entered_le := by decide
  tallies tally := by
    cases tally <;> constructor <;> decide

theorem le_later_left (s t : Uint32) : s ≤ later s t := by
  rw [BitVec.le_def, later_toNat]
  exact Nat.le_max_left _ _

theorem le_later_right (s t : Uint32) : t ≤ later s t := by
  rw [BitVec.le_def, later_toNat]
  exact Nat.le_max_right _ _

theorem later_le_later {s s' : Uint32} (h : s ≤ s') (t : Uint32) :
    later s t ≤ later s' t := by
  rw [BitVec.le_def] at *
  rw [later_toNat, later_toNat]
  omega

theorem later_ne_zero (s : Uint32) {t : Uint32} (ht : t ≠ 0) :
    later s t ≠ 0 := by
  intro hzero
  have hle := le_later_right s t
  rw [hzero] at hle
  exact ht (BitVec.le_zero_iff.mp hle)

/-- The tally that is counted: its first time is set with the first call later
than its last time, and a call that is not later finds it set. -/
theorem TallyTimes.bump_self {r : Record} {tally : Tally}
    (h : r.TallyTimes tally) {t : Uint32} (now : Uint32) (ht : t ≠ 0)
    (hfirst : r.FirstKept tally t) :
    (r.bump tally t now).TallyTimes tally := by
  have hset : ¬ r.tallyUpdated tally < t → r.tallyUpdated tally ≠ 0 := by
    intro hnot hzero
    exact hnot (hzero ▸ (BitVec.pos_iff_ne_zero t).mpr ht)
  constructor
  · intro _
    rw [tallyEntered_bump r tally now ht]
    split_ifs with hlt
    · rw [Function.update_self]
      unfold keepFirst
      split_ifs with hzero
      · exact ht
      · exact hzero
    · exact h.entered_ne (hset hlt)
  · intro _
    rw [tallyEntered_bump r tally now ht, tallyUpdated_bump r tally now ht,
      Function.update_self]
    have hkept : r.tallyUpdated tally ≠ 0 →
        r.tallyEntered tally ≤ later (r.tallyUpdated tally) t := fun hne =>
      BitVec.le_trans (h.entered_le hne) (le_later_left _ _)
    split_ifs with hlt
    · rw [Function.update_self]
      unfold keepFirst
      split_ifs with hzero
      · exact le_later_right _ _
      · by_cases hne : r.tallyUpdated tally = 0
        · exact BitVec.le_trans (hfirst hne) (le_later_right _ _)
        · exact hkept hne
    · exact hkept (hset hlt)
  · rw [tallyUpdated_bump r tally now ht, updated_bump r tally now ht,
      Function.update_self]
    exact later_le_later h.le_updated t
  · intro hzero
    rw [tallyUpdated_bump r tally now ht, Function.update_self] at hzero
    exact absurd hzero (later_ne_zero _ ht)

/-- The other tally: only the time of the record moves, and forward. -/
theorem TallyTimes.bump_other {r : Record} {tally other : Tally}
    (h : r.TallyTimes other) (hne : other ≠ tally) {t : Uint32}
    (now : Uint32) (ht : t ≠ 0) :
    (r.bump tally t now).TallyTimes other := by
  have hupdated : (r.bump tally t now).tallyUpdated other =
      r.tallyUpdated other := by
    rw [tallyUpdated_bump r tally now ht, Function.update_of_ne hne]
  have hentered : (r.bump tally t now).tallyEntered other =
      r.tallyEntered other := by
    rw [tallyEntered_bump r tally now ht]
    split_ifs
    · exact Function.update_of_ne hne _ _
    · rfl
  have hcount : (r.bump tally t now).count other = r.count other := by
    rw [count_bump, Function.update_of_ne hne]
  constructor
  · rw [hupdated, hentered]
    exact h.entered_ne
  · rw [hupdated, hentered]
    exact h.entered_le
  · rw [hupdated, updated_bump r tally now ht]
    exact BitVec.le_trans h.le_updated (le_later_left _ _)
  · rw [hupdated, hcount]
    exact h.count_eq

theorem TimesKept.bump {r : Record} (h : r.TimesKept) (tally : Tally)
    {t : Uint32} (now : Uint32) (ht : t ≠ 0)
    (hfirst : r.FirstKept tally t) : (r.bump tally t now).TimesKept := by
  constructor
  · rw [entered_bump r tally now ht, updated_bump r tally now ht]
    unfold keepFirst
    split_ifs
    · exact le_later_right _ _
    · exact BitVec.le_trans h.entered_le (le_later_left _ _)
  · intro other
    by_cases hother : other = tally
    · subst hother
      exact (h.tallies other).bump_self now ht hfirst
    · exact (h.tallies other).bump_other hother now ht

/-- A reset leaves both tallies empty and without a last time; the time of the
record is the one it is given. -/
theorem TimesKept.reset {r : Record} {t : Uint32} (now : Uint32)
    (ht : t ≠ 0) (hle : r.entered ≤ t) : (r.reset t now).TimesKept := by
  constructor
  · rw [entered_reset, updated_reset, if_neg ht]
    exact hle
  · intro tally
    constructor
    · exact fun hne => absurd (tallyUpdated_reset r t now tally) hne
    · exact fun hne => absurd (tallyUpdated_reset r t now tally) hne
    · rw [tallyUpdated_reset]
      exact BitVec.le_def.mpr (Nat.zero_le _)
    · exact fun _ => count_reset r t now tally

/-- A first time that was kept over a reset and lies ahead of the first call
after it stays ahead of the last time. -/
theorem not_timesOrdered_bump {r : Record} (h : r.TimesKept) {tally : Tally}
    {t : Uint32} (now : Uint32) (ht : t ≠ 0)
    (hnot : ¬ r.FirstKept tally t) : ¬ (r.bump tally t now).TimesOrdered := by
  intro hordered
  obtain ⟨hzero, hlate⟩ := Classical.not_imp.mp hnot
  have hentered : r.tallyEntered tally ≠ 0 := by
    intro hfirst
    exact hlate (hfirst ▸ BitVec.le_def.mpr (Nat.zero_le _))
  have hlt : r.tallyUpdated tally < t := by
    rw [hzero]
    exact (BitVec.pos_iff_ne_zero t).mpr ht
  have hcount : 0 < (r.bump tally t now).count tally := by
    rw [count_bump, Function.update_self, (h.tallies tally).count_eq hzero]
    decide
  have hle := hordered.tally_le tally hcount
  rw [tallyEntered_bump r tally now ht, if_pos hlt, Function.update_self,
    keepFirst_of_ne hentered, tallyUpdated_bump r tally now ht,
    Function.update_self, later, if_pos hlt] at hle
  exact hlate hle

end Record

namespace RecordCall

theorem timesKept_apply : recordSystem.Preserves Record.TimesKept InOrder := by
  rintro r r' ⟨type, t, now, ht⟩ h hguard hstep
  obtain rfl := Option.some.inj hstep
  cases type with
  | report => exact h.bump .report now ht hguard
  | whitelist => exact h.bump .whitelist now ht hguard
  | erase => exact Record.TimesKept.reset now ht hguard

theorem not_timesOrdered_apply {r r' : Record} {call : RecordCall}
    (h : r.TimesKept) (hstep : recordSystem.step r call = some r')
    (hnot : ¬ InOrder r call) : ¬ r'.TimesOrdered := by
  obtain ⟨type, t, now, ht⟩ := call
  obtain rfl := Option.some.inj hstep
  cases type with
  | report => exact Record.not_timesOrdered_bump h now ht hnot
  | whitelist => exact Record.not_timesOrdered_bump h now ht hnot
  | erase =>
      intro hordered
      have hle : (r.reset t now).entered ≤ (r.reset t now).updated :=
        hordered.entered_le
      rw [Record.entered_reset, Record.updated_reset, if_neg ht] at hle
      exact hnot hle

end RecordCall

/-- The times of a record stay in order through exactly the runs in which no
reset is given a time before the first of the record, and no first report (or
whitelist) after a reset a time before the first report (or whitelist) ever. -/
theorem always_timesOrdered_iff (calls : List RecordCall) :
    recordSystem.Always Record.TimesOrdered calls ↔
      recordSystem.Each RecordCall.InOrder calls :=
  recordSystem.always_iff_each Record.timesKept_zero
    RecordCall.timesKept_apply (fun _ h => h.timesOrdered)
    RecordCall.not_timesOrdered_apply calls

/-- A report at 10 and a reset at 5 leave a record that was entered after it
was last updated. -/
theorem not_always_timesOrdered :
    ¬ ∀ calls : List RecordCall, calls.length < 2 ^ 32 →
      recordSystem.Always Record.TimesOrdered calls := by
  intro h
  let calls : List RecordCall :=
    [⟨.report, 10, 0, by decide⟩, ⟨.erase, 5, 0, by decide⟩]
  have halways := h calls (by decide)
  have hordered := (halways.2 _ rfl).2 _ rfl
  exact absurd hordered.entered_le (by decide)

namespace Processed

/-- The call that the master makes for an update: an erase is a reset at the
clock of the master, whatever the time of the update. -/
structure Calls (p : Processed) (call : RecordCall) : Prop where
  type_eq : p.update.type = some call.type
  now_eq : call.now = p.now
  t_eq : call.t = if call.type = .erase then p.now else p.update.time

theorem Calls.rewritten {p : Processed} {call : RecordCall}
    (h : p.Calls call) (stored : Option Record) :
    Processed.rewritten stored p =
      some (call.apply (stored.getD Record.zero)) := by
  rw [Processed.rewritten, h.type_eq, RecordCall.apply, h.now_eq, h.t_eq]
  cases call.type with
  | report => simp
  | whitelist => simp
  | erase => simp [Record.reset]

/-- What a hash ends up with is where the calls of its updates lead. -/
theorem runFrom_foldl {log : List Processed} {calls : List RecordCall}
    (h : List.Forall₂ Calls log calls) (stored : Option Record) :
    recordSystem.runFrom (stored.getD Record.zero) calls =
      some ((log.foldl (KeyedFold.stepValue Processed.rewritten)
        stored).getD Record.zero) := by
  induction h generalizing stored with
  | nil => rfl
  | @cons p call log calls hp _ ih =>
      rw [List.foldl_cons, KeyedFold.stepValue, hp.rewritten stored]
      exact ih (some (call.apply (stored.getD Record.zero)))

end Processed

/-- The master's record of a hash has its times in order after updates whose
calls stay in order. -/
theorem Database.timesOrdered_processAll {log : List Processed} {h : Hash}
    {calls : List RecordCall}
    (hcalls : List.Forall₂ Processed.Calls
      (log.filter fun p => p.update.ghash = h) calls)
    (heach : recordSystem.Each RecordCall.InOrder calls) :
    ∃ db, Database.processAll ∅ log = some db ∧
      ((db.lookup h).getD Record.zero).TimesOrdered := by
  obtain ⟨db, hdb, hlookup⟩ := Database.processAll_lookup ∅ log
  have hrun := Processed.runFrom_foldl hcalls none
  rw [← AList.lookup_empty (β := fun _ : Hash => Record) h, ← hlookup h] at hrun
  have hkept := recordSystem.runFrom_invariant_of_each
    RecordCall.timesKept_apply Record.timesKept_zero heach hrun
  exact ⟨db, hdb, hkept.timesOrdered⟩

end BohunoPyzord
