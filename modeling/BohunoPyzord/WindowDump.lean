/-
Dumps of a window through the index.  `dump_modified_records2` positions its
cursor on the first entry of the window and goes on from there, so this one is
left out, and every other one is written once.
-/
import BohunoPyzord.ExportWindows
import BohunoPyzord.Import

namespace BohunoPyzord

/-- `database::dump_modified_records2`: the file, before it is compressed, and
the number it returns. -/
def Database.dumpModified2 (index : TimeIndex) (stored : Database)
    (min max : Uint32) : List Byte × Nat :=
  let records := index.written stored min.toNat max.toNat
  (dumpStream records, records.length)

/-- A file and a number that are those of the records of a window, each of
them once. -/
def IsWindowDump (stored : Database) (min max : Uint32)
    (out : List Byte × Nat) : Prop :=
  ∃ records : Dump, records.Perm (stored.window min.toNat max.toNat) ∧
    out = (dumpStream records, records.length)

/-- Through the index the same is dumped as by going through all records. -/
def DumpsAlike (index : TimeIndex) (order : PrimaryOrder) (stored : Database)
    (min max : Uint32) : Prop :=
  IsWindowDump stored min max (stored.dumpModified2 index min max) ∧
    IsWindowDump stored min max (stored.dumpModified order min max) ∧
    (stored.dumpModified2 index min max).2 =
      (stored.dumpModified order min max).2

theorem Database.mem_window {stored : Database} {min max : Nat}
    {p : Hash × Record} :
    p ∈ stored.window min max ↔
      stored.lookup p.1 = some p.2 ∧ min ≤ stamp p ∧ stamp p ≤ max := by
  rw [window, List.mem_filter, mem_pairs, decide_eq_true_eq]
  rfl

theorem Database.nodup_window (stored : Database) (min max : Nat) :
    (stored.window min max).Nodup :=
  stored.nodup_keys.of_map.filter _

namespace TimeIndex

variable (index : TimeIndex) {stored : Database} {min max : Nat}

theorem mem_window_of_mem_written {p : Hash × Record}
    (h : p ∈ index.written stored min max) : p ∈ stored.window min max := by
  have hordered := (index.ordered_entriesFrom stored min).tail
  obtain ⟨htail, hmax⟩ := (OrderedScan.mem_upTo hordered).mp h
  obtain ⟨hlookup, hmin⟩ :=
    index.mem_entriesFrom.mp (List.mem_of_mem_tail htail)
  exact Database.mem_window.mpr ⟨hlookup, hmin, hmax⟩

/-- The first entry of a window, put in front of what is written of it, makes
up the window. -/
theorem exists_first_cons_written (h : stored.window min max ≠ []) :
    ∃ first, (first :: index.written stored min max).Perm
      (stored.window min max) := by
  obtain ⟨p, hp⟩ := List.exists_mem_of_ne_nil _ h
  obtain ⟨hlookup, hmin, hmax⟩ := Database.mem_window.mp hp
  have hmem := index.mem_entriesFrom.mpr ⟨hlookup, hmin⟩
  have hordered := index.ordered_entriesFrom stored min
  rcases hentries : index.entriesFrom stored min with - | ⟨first, rest⟩
  · rw [hentries] at hmem
    cases hmem
  · have hfirst : (index.entriesFrom stored min).head? = some first := by
      rw [hentries]
      rfl
    have hfirstMem : first ∈ index.entriesFrom stored min :=
      List.mem_of_mem_head? hfirst
    have hfirstMax : stamp first ≤ max := by
      rw [hentries] at hmem hordered
      rcases List.mem_cons.mp hmem with rfl | hlater
      · exact hmax
      · exact Nat.le_trans ((List.pairwise_cons.mp hordered).1 p hlater) hmax
    refine ⟨first, ?_⟩
    apply (List.perm_ext_iff_of_nodup ?_ (stored.nodup_window min max)).mpr
    · intro q
      constructor
      · intro hq
        rcases List.mem_cons.mp hq with rfl | hq
        · obtain ⟨hqlookup, hqmin⟩ := index.mem_entriesFrom.mp hfirstMem
          exact Database.mem_window.mpr ⟨hqlookup, hqmin, hfirstMax⟩
        · exact index.mem_window_of_mem_written hq
      · intro hq
        obtain ⟨hqlookup, hqmin, hqmax⟩ := Database.mem_window.mp hq
        rcases index.first_or_mem_written hqlookup hqmin hqmax with hhead | hq
        · rw [hfirst] at hhead
          rw [Option.some.inj hhead]
          exact List.mem_cons_self
        · exact List.mem_cons_of_mem _ hq
    · have hnodup : (index.entriesFrom stored min).Nodup :=
        (index.nodup_entriesFrom stored min).of_map
      apply List.nodup_cons.mpr
      exact ⟨index.first_not_mem_written hfirst,
        hnodup.sublist ((List.takeWhile_sublist _).trans (List.tail_sublist _))⟩

theorem written_eq_nil (h : stored.window min max = []) :
    index.written stored min max = [] := by
  apply List.eq_nil_iff_forall_not_mem.mpr
  intro p hp
  have hmem := index.mem_window_of_mem_written hp
  rw [h] at hmem
  cases hmem

end TimeIndex

/-- The two dumps are alike exactly if there is nothing to dump. -/
theorem dumpsAlike_iff (index : TimeIndex) (order : PrimaryOrder)
    (stored : Database) (min max : Uint32) :
    DumpsAlike index order stored min max ↔
      ∀ h r, stored.lookup h = some r →
        ¬ (min ≤ r.updated ∧ r.updated ≤ max) := by
  have hempty : stored.window min.toNat max.toNat = [] ↔
      ∀ h r, stored.lookup h = some r →
        ¬ (min ≤ r.updated ∧ r.updated ≤ max) := by
    rw [List.eq_nil_iff_forall_not_mem]
    constructor
    · intro hnone h r hlookup hwindow
      exact hnone (h, r) (Database.mem_window.mpr ⟨hlookup, hwindow⟩)
    · intro hnone p hp
      obtain ⟨hlookup, hwindow⟩ := Database.mem_window.mp hp
      exact hnone p.1 p.2 hlookup hwindow
  rw [← hempty]
  obtain ⟨listed, hlisted, hlist⟩ := dumpModified_window order stored min max
  constructor
  · rintro ⟨⟨records, hrecords, hdump⟩, -, -⟩
    by_contra hwindow
    obtain ⟨first, hfirst⟩ := index.exists_first_cons_written hwindow
    have hcount : (index.written stored min.toNat max.toNat).length =
        records.length := congrArg Prod.snd hdump
    have hmore := hfirst.length_eq
    rw [List.length_cons, ← hrecords.length_eq] at hmore
    omega
  · intro hwindow
    have hdump : stored.dumpModified2 index min max = (dumpStream [], 0) := by
      rw [Database.dumpModified2, index.written_eq_nil hwindow]
      rfl
    have hnone : listed = [] := by
      rw [hwindow] at hlisted
      exact hlisted.eq_nil
    refine ⟨⟨[], ?_, hdump⟩, ⟨listed, hlisted, hlist⟩, ?_⟩
    · rw [hwindow]
    · rw [hdump, hlist, hnone]
      rfl

/-- A single record that was updated within the window. -/
theorem not_dumpsAlike :
    ¬ ∀ (index : TimeIndex) (order : PrimaryOrder) (stored : Database)
      (min max : Uint32), min ≤ max →
        DumpsAlike index order stored min max := by
  intro h
  have hcount := (h .stable .entered
    (AList.insert ⟨Vector.replicate 20 1⟩ (Record.zero.report 7 7) ∅) 7 7
    (by decide)).2.2
  exact absurd hcount (by decide +kernel)

end BohunoPyzord
