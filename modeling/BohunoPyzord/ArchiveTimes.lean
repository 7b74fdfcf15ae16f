/-
The two directories of the exporter as the times in their names.  Every
operation of a tick that succeeds is described by what it does to the times of
the snapshots and to the windows of the updates; other names are passed over.
-/
import BohunoPyzord.Publishing
import Mathlib.Data.Set.Insert

namespace BohunoPyzord

namespace Directories

/-- The times of the snapshots on disk. -/
def marks (dirs : Directories) : Set Nat :=
  {t | ∃ file ∈ dirs.snapshots, parseSnapshotFileName file.1 = .ok (some t)}

/-- The windows of the updates on disk. -/
def windows (dirs : Directories) : Set (Nat × Nat) :=
  {w | ∃ file ∈ dirs.updates, parseUpdateFileName file.1 = .ok (some w)}

theorem mem_marks {dirs : Directories} {t : Nat} :
    t ∈ dirs.marks ↔ t ∈ dirs.snapshotFiles.map SnapshotFile.timestamp := by
  simp only [marks, snapshotFiles, Set.mem_ofPred_eq, List.mem_map,
    List.mem_filterMap]
  constructor
  · rintro ⟨file, hfile, hparse⟩
    exact ⟨⟨t, file.2⟩, ⟨file, hfile, by rw [hparse]⟩, rfl⟩
  · rintro ⟨f, ⟨file, hfile, hread⟩, rfl⟩
    refine ⟨file, hfile, ?_⟩
    split at hread
    · rename_i time hparse
      rw [hparse, ← Option.some.inj hread]
    · cases hread

theorem mem_windows {dirs : Directories} {w : Nat × Nat} :
    w ∈ dirs.windows ↔
      w ∈ dirs.updateFiles.map fun f => (f.min, f.max) := by
  simp only [windows, updateFiles, Set.mem_ofPred_eq, List.mem_map,
    List.mem_filterMap]
  constructor
  · rintro ⟨file, hfile, hparse⟩
    exact ⟨⟨w.1, w.2, file.2⟩, ⟨file, hfile, by rw [hparse]⟩, rfl⟩
  · rintro ⟨f, ⟨file, hfile, hread⟩, rfl⟩
    refine ⟨file, hfile, ?_⟩
    split at hread
    · rename_i min max hparse
      rw [hparse, ← Option.some.inj hread]
    · cases hread

end Directories

theorem mem_publish {files : List (FileName × Dump)} {name : FileName}
    {dump : Dump} {file : FileName × Dump} :
    file ∈ publish files name dump ↔
      (file ∈ files ∧ file.1 ≠ name) ∨ file = (name, dump) := by
  simp [publish]

/-- Only a name of ten digits is read as a timestamp, and as its own. -/
theorem tenDigits_of_parse {t t' : Nat}
    (h : parseSnapshotFileName (timestampName t) = .ok (some t')) :
    t' = t ∧ TenDigits t := by
  unfold parseSnapshotFileName at h
  split at h
  · rename_i hname
    have hlength : (timestampName t).length = 10 := by
      simpa using (Bool.and_eq_true_iff.mp hname).1
    have hread : Nat.ofDigitChars 10 (timestampName t) 0 = t := by
      simp [timestampName]
    rw [lexicalCast, hread] at h
    by_cases hfits : t < 2 ^ 32
    · rw [if_pos hfits] at h
      refine ⟨(Option.some.inj (Except.ok.inj h)).symm, ?_, hfits⟩
      by_contra hshort
      have hle : (timestampName t).length ≤ 9 :=
        (Nat.length_toDigits_le_iff (by decide) (by decide)).mpr
          (Nat.not_le.mp hshort)
      omega
    · rw [if_neg hfits] at h
      cases h
  · cases h

theorem mem_of_filterM {α : Type} {keep : α → Except TickFailure Bool}
    {l kept : List α} (h : l.filterM keep = .ok kept) {a : α} :
    a ∈ kept ↔ a ∈ l ∧ keep a = .ok true := by
  have along : ∀ (l acc : List α) {kept : List α},
      l.filterAuxM keep acc = .ok kept →
      (a ∈ kept ↔ a ∈ acc ∨ (a ∈ l ∧ keep a = .ok true)) := by
    intro l
    induction l with
    | nil =>
        intro acc kept hkept
        obtain rfl := Except.ok.inj hkept
        simp
    | cons b l ih =>
        intro acc kept hkept
        rw [List.filterAuxM] at hkept
        obtain ⟨keeps, hb, hkept⟩ := bind_eq_ok hkept
        -- `b` is kept exactly if its test is passed
        have hrest := ih _ hkept
        cases keeps <;> grind
  rw [List.filterM] at h
  obtain ⟨reversed, hkept, hreverse⟩ := bind_eq_ok h
  obtain rfl := Except.ok.inj hreverse
  simpa using along l [] hkept

section Scan

variable {A B : Type} (parse : FileName → Except TickFailure (Option A))
  (key : A → Nat) (time : B → Nat) (R : Nat → Nat → Prop)

/-- One entry of a scan: a name that is read replaces the best so far or is
not better. -/
def ScanStep (b b' : B) (file : FileName × Dump) : Prop :=
  (parse file.1 = .ok none ∧ b' = b) ∨
    ∃ a, parse file.1 = .ok (some a) ∧
      ((R (key a) (time b) ∧ b' = b) ∨ (R (time b) (key a) ∧ time b' = key a))

/-- After one entry the time is no worse than before or than the one that was
read, and one of the two. -/
theorem ScanStep.best (hrefl : ∀ t, R t t) {b b' : B}
    {file : FileName × Dump} (h : ScanStep parse key time R b b' file) :
    R (time b) (time b') ∧
      (∀ a, parse file.1 = .ok (some a) → R (key a) (time b')) ∧
      (time b' = time b ∨
        ∃ a, parse file.1 = .ok (some a) ∧ key a = time b') := by
  rcases h with ⟨hnone, rfl⟩ | ⟨a, ha, ⟨hworse, rfl⟩ | ⟨hworse, htime⟩⟩
  · refine ⟨hrefl _, fun a ha => ?_, Or.inl rfl⟩
    rw [hnone] at ha
    cases ha
  · refine ⟨hrefl _, fun c hc => ?_, Or.inl rfl⟩
    obtain rfl := Option.some.inj (Except.ok.inj (ha.symm.trans hc))
    exact hworse
  · rw [htime]
    refine ⟨hworse, fun c hc => ?_, Or.inr ⟨a, ha, rfl⟩⟩
    obtain rfl := Option.some.inj (Except.ok.inj (ha.symm.trans hc))
    exact hrefl _

/-- A scan ends with a time that no name on its way is better than, and that
it started with or met. -/
theorem foldlM_best (hrefl : ∀ t, R t t)
    (htrans : ∀ {t u v}, R t u → R u v → R t v)
    {scan : B → FileName × Dump → Except TickFailure B}
    (hscan : ∀ {b file b'}, scan b file = .ok b' →
      ScanStep parse key time R b b' file)
    {files : List (FileName × Dump)} {b b' : B}
    (h : files.foldlM scan b = .ok b') :
    R (time b) (time b') ∧
      (∀ file ∈ files, ∀ a, parse file.1 = .ok (some a) →
        R (key a) (time b')) ∧
      (time b' = time b ∨
        ∃ file ∈ files, ∃ a, parse file.1 = .ok (some a) ∧
          key a = time b') := by
  induction files generalizing b with
  | nil =>
      obtain rfl := Except.ok.inj h
      simp [hrefl]
  | cons file files ih =>
      rw [List.foldlM_cons] at h
      obtain ⟨mid, hfirst, h⟩ := bind_eq_ok h
      obtain ⟨hbest, hothers, hfrom⟩ := ih h
      obtain ⟨hbetter, hread, hmet⟩ := (hscan hfirst).best _ _ _ _ hrefl
      refine ⟨htrans hbetter hbest, ?_, ?_⟩
      · intro other hmem a ha
        rcases List.mem_cons.mp hmem with rfl | hlater
        · exact htrans (hread a ha) hbest
        · exact hothers other hlater a ha
      · rcases hfrom with hsame | ⟨other, hmem, hother⟩
        · rw [hsame]
          apply hmet.imp_right
          rintro ⟨a, ha, hkey⟩
          exact ⟨file, List.mem_cons_self, a, ha, hkey⟩
        · exact Or.inr ⟨other, List.mem_cons_of_mem file hmem, hother⟩

/-- What follows the reading of a name takes a better one, and keeps the best
so far otherwise. -/
theorem scanStep_of_better {b b' : B} {file : FileName × Dump}
    {pick : Option A → Except TickFailure B} (better : A → Prop)
    [DecidablePred better] (picked : A → B)
    (h : (parse file.1).bind pick = .ok b') (hnone : pick none = .ok b)
    (hsome : ∀ a, pick (some a) =
      if better a then .ok (picked a) else .ok b)
    (hbetter : ∀ a, better a → R (time b) (key a) ∧ time (picked a) = key a)
    (hworse : ∀ a, ¬ better a → R (key a) (time b)) :
    ScanStep parse key time R b b' file := by
  obtain ⟨read, hparse, h⟩ := bind_eq_ok h
  cases read with
  | none => exact Or.inl ⟨hparse, Except.ok.inj (h.symm.trans hnone)⟩
  | some a =>
    refine Or.inr ⟨a, hparse, ?_⟩
    have hpicked := h.symm.trans (hsome a)
    split_ifs at hpicked with ha
    · rw [Except.ok.inj hpicked]
      exact Or.inr (hbetter a ha)
    · exact Or.inl ⟨hworse a ha, Except.ok.inj hpicked⟩

/-- A scan for the latest time, zero standing for none. -/
theorem scanLatest_spec {scan : B → FileName × Dump → Except TickFailure B}
    (hscan : ∀ {b file b'}, scan b file = .ok b' →
      ScanStep parse key time (· ≤ ·) b b' file)
    {files : List (FileName × Dump)} {start : B} {best : Option B}
    (hstart : time start = 0)
    (h : (do
      let best ← files.foldlM scan start
      pure (if time best ≠ 0 then some best else none)) = Except.ok best) :
    (∀ file ∈ files, ∀ a, parse file.1 = .ok (some a) →
        key a ≤ (best.map time).getD 0) ∧
      ∀ b ∈ best, ∃ file ∈ files, ∃ a, parse file.1 = .ok (some a) ∧
        key a = time b := by
  obtain ⟨last, hfold, h⟩ := bind_eq_ok h
  obtain ⟨-, hlatest, hfrom⟩ := foldlM_best parse key time (· ≤ ·)
    Nat.le_refl Nat.le_trans hscan hfold
  obtain rfl := Except.ok.inj h
  rw [hstart] at hfrom
  by_cases hzero : time last = 0
  · rw [if_neg (not_not.mpr hzero)]
    constructor
    · intro file hfile a ha
      exact hzero ▸ hlatest file hfile a ha
    · intro b hb
      cases hb
  · rw [if_pos hzero]
    constructor
    · exact hlatest
    · intro b hb
      obtain rfl := Option.some.inj hb
      exact hfrom.resolve_left hzero

end Scan

namespace Updated

theorem moreRecentSnapshot_step {b b' : FileName × Nat}
    {file : FileName × Dump} (h : moreRecentSnapshot b file = .ok b') :
    ScanStep parseSnapshotFileName id Prod.snd (· ≤ ·) b b' file := by
  apply scanStep_of_better _ _ _ _ (fun timestamp => timestamp > b.2)
    (fun timestamp => (file.1, timestamp)) h rfl fun _ => rfl
  · intro timestamp hlater
    exact ⟨Nat.le_of_lt hlater, rfl⟩
  · intro timestamp hnot
    exact Nat.not_lt.mp hnot

theorem olderSnapshot_step {b b' : FileName × Nat} {file : FileName × Dump}
    (h : olderSnapshot b file = .ok b') :
    ScanStep parseSnapshotFileName id Prod.snd (· ≥ ·) b b' file := by
  apply scanStep_of_better _ _ _ _ (fun timestamp => timestamp < b.2)
    (fun timestamp => (file.1, timestamp)) h rfl fun _ => rfl
  · intro timestamp hearlier
    exact ⟨Nat.le_of_lt hearlier, rfl⟩
  · intro timestamp hnot
    exact Nat.not_lt.mp hnot

theorem moreRecentUpdate_step {b b' : FileName × Nat × Nat}
    {file : FileName × Dump} (h : moreRecentUpdate b file = .ok b') :
    ScanStep parseUpdateFileName Prod.snd (fun b => b.2.2) (· ≤ ·) b b'
      file := by
  apply scanStep_of_better _ _ _ _ (fun window => window.2 > b.2.2)
    (fun window => (file.1, window)) h rfl fun _ => rfl
  · intro window hlater
    exact ⟨Nat.le_of_lt hlater, rfl⟩
  · intro window hnot
    exact Nat.not_lt.mp hnot

variable {dirs dirs' : Directories} {d : ClientDatabase} {stored : Database}

/-- The most recent snapshot is one on disk, and none is later. -/
theorem findMostRecentSnapshot_spec {best : Option (FileName × Nat)}
    (h : findMostRecentSnapshot dirs.snapshots = .ok best) :
    (∀ m ∈ dirs.marks, m ≤ (best.map Prod.snd).getD 0) ∧
      (∀ b ∈ best, b.2 ∈ dirs.marks) := by
  obtain ⟨hlatest, hfrom⟩ := scanLatest_spec _ _ _ moreRecentSnapshot_step
    rfl h
  constructor
  · rintro m ⟨file, hfile, hparse⟩
    exact hlatest file hfile m hparse
  · intro b hb
    obtain ⟨file, hfile, m, hm, rfl⟩ := hfrom b hb
    exact ⟨file, hfile, hm⟩

/-- The oldest snapshot is one on disk, and none is earlier. -/
theorem findOldestSnapshot_spec {oldest : FileName × Nat}
    (h : findOldestSnapshot dirs.snapshots = .ok (some oldest)) :
    oldest.2 ∈ dirs.marks ∧ ∀ m ∈ dirs.marks, oldest.2 ≤ m := by
  obtain ⟨first, hscan, hbest⟩ := bind_eq_ok h
  obtain ⟨-, hearliest, hfrom⟩ := foldlM_best _ _ _ (· ≥ ·) Nat.le_refl
    (fun h h' => Nat.le_trans h' h) olderSnapshot_step hscan
  have hfirst := Except.ok.inj hbest
  split_ifs at hfirst with hlast
  obtain rfl := Option.some.inj hfirst
  constructor
  · obtain ⟨file, hfile, a, ha, rfl⟩ := hfrom.resolve_left hlast
    exact ⟨file, hfile, ha⟩
  · rintro m ⟨file, hfile, hparse⟩
    exact hearliest file hfile m hparse

/-- The most recent update is one on disk, and none ends later. -/
theorem findMostRecentUpdate_spec {best : Option (FileName × Nat × Nat)}
    (h : findMostRecentUpdate dirs.updates = .ok best) :
    (∀ w ∈ dirs.windows, w.2 ≤ (best.map fun b => b.2.2).getD 0) ∧
      (∀ b ∈ best, ∃ w ∈ dirs.windows, w.2 = b.2.2) := by
  obtain ⟨hlatest, hfrom⟩ := scanLatest_spec _ _ _ moreRecentUpdate_step rfl h
  constructor
  · rintro w ⟨file, hfile, hparse⟩
    exact hlatest file hfile w hparse
  · intro b hb
    obtain ⟨file, hfile, w, hw, hend⟩ := hfrom b hb
    exact ⟨w, ⟨file, hfile, hw⟩, hend⟩

/-- An update starts at the latest end of a window, or, no window being left,
at the latest snapshot. -/
theorem updateStart_spec {start : Nat} (h : updateStart dirs = .ok start) :
    (∃ w ∈ dirs.windows, w.2 = start) ∨
      ((∀ w ∈ dirs.windows, w.2 = 0) ∧ (∀ m ∈ dirs.marks, m ≤ start) ∧
        (start ≠ 0 → start ∈ dirs.marks)) := by
  obtain ⟨update, hupdate, h⟩ := bind_eq_ok h
  obtain ⟨hnone, hon⟩ := findMostRecentUpdate_spec hupdate
  rcases update with - | update
  · obtain ⟨recent, hsnapshot, h⟩ := bind_eq_ok h
    obtain ⟨hlatest, honMark⟩ := findMostRecentSnapshot_spec hsnapshot
    apply Or.inr
    apply And.intro fun w hw => Nat.le_zero.mp (hnone w hw)
    cases recent with
    | none =>
        obtain rfl := Except.ok.inj h
        exact ⟨hlatest, fun hzero => absurd rfl hzero⟩
    | some recent =>
        obtain rfl := Except.ok.inj h
        exact ⟨hlatest, fun _ => honMark recent rfl⟩
  · obtain rfl := Except.ok.inj h
    exact Or.inl (hon update rfl)

theorem expireSnapshots_marks {now : Nat} {removed : Bool}
    (h : expireSnapshots dirs now = .ok (dirs', removed)) :
    dirs'.marks ⊆ dirs.marks ∧ dirs'.windows = dirs.windows := by
  obtain ⟨kept, hkept, hdirs⟩ := bind_eq_ok h
  obtain ⟨rfl, -⟩ := Prod.mk.inj (Except.ok.inj hdirs)
  refine ⟨?_, rfl⟩
  rintro m ⟨file, hfile, hparse⟩
  exact ⟨file, ((mem_of_filterM hkept).mp hfile).1, hparse⟩

/-- Updates are removed that end before a snapshot on disk, and only if they
end before all. -/
theorem expireUpdates_windows (h : expireUpdates dirs = .ok dirs') :
    dirs'.marks = dirs.marks ∧ dirs'.windows ⊆ dirs.windows ∧
      (∀ w ∈ dirs.windows, ∀ m ∈ dirs.marks, m ≤ w.2 → w ∈ dirs'.windows) ∧
      ∀ w ∈ dirs.windows, w ∈ dirs'.windows ∨ ∃ m ∈ dirs.marks, w.2 < m := by
  obtain ⟨oldest, holdest, h⟩ := bind_eq_ok h
  cases oldest with
  | none =>
    obtain rfl := Except.ok.inj h
    exact ⟨rfl, subset_rfl, fun w hw _ _ _ => hw, fun w hw => Or.inl hw⟩
  | some oldest =>
    obtain ⟨hon, hearliest⟩ := findOldestSnapshot_spec holdest
    obtain ⟨kept, hkept, hdirs⟩ := bind_eq_ok h
    obtain rfl := Except.ok.inj hdirs
    have hkeeps : ∀ file w, parseUpdateFileName file.1 = .ok (some w) →
        keepUpdate oldest.2 file = .ok (!decide (w.2 < oldest.2)) := by
      intro file w hparse
      rw [keepUpdate, hparse]
      rfl
    have hstays : ∀ w ∈ dirs.windows, oldest.2 ≤ w.2 →
        w ∈ Directories.windows { dirs with updates := kept } := by
      rintro w ⟨file, hfile, hparse⟩ hle
      refine ⟨file, (mem_of_filterM hkept).mpr ⟨hfile, ?_⟩, hparse⟩
      simp [hkeeps file w hparse, hle]
    refine ⟨rfl, ?_, ?_, ?_⟩
    · rintro w ⟨file, hfile, hparse⟩
      exact ⟨file, ((mem_of_filterM hkept).mp hfile).1, hparse⟩
    · exact fun w hw m hm hle => hstays w hw ((hearliest m hm).trans hle)
    · intro w hw
      by_cases hle : oldest.2 ≤ w.2
      · exact Or.inl (hstays w hw hle)
      · exact Or.inr ⟨oldest.2, hon, Nat.not_le.mp hle⟩

/-- `make_snapshot` publishes the second before the tick, or nothing. -/
theorem makeSnapshot_marks {now : Nat} {fails : Option PublishStep}
    {created : Bool}
    (h : makeSnapshot d stored dirs now fails = .ok (dirs', created)) :
    dirs'.windows = dirs.windows ∧ ∀ m ∈ dirs'.marks,
      m ∈ dirs.marks ∨ (m = now - 1 ∧ TenDigits m) := by
  have hsame : dirs'.updates = dirs.updates ∧
      (dirs'.snapshots = dirs.snapshots ∨ ∃ dump,
        dirs'.snapshots =
          publish dirs.snapshots (timestampName (now - 1)) dump) := by
    obtain ⟨recent, -, h⟩ := bind_eq_ok h
    by_cases hdue : now - (recent.map Prod.snd).getD 0 ≥ snapshotInterval
    · rw [if_pos hdue] at h
      obtain ⟨dump, -, h⟩ := bind_eq_ok h
      dsimp only at h
      split_ifs at h
      · obtain ⟨rfl, -⟩ := Prod.mk.inj (Except.ok.inj h)
        exact ⟨rfl, Or.inl rfl⟩
      all_goals
        obtain ⟨rfl, -⟩ := Prod.mk.inj (Except.ok.inj h)
        exact ⟨rfl, Or.inr ⟨dump, rfl⟩⟩
    · rw [if_neg hdue] at h
      obtain ⟨rfl, -⟩ := Prod.mk.inj (Except.ok.inj h)
      exact ⟨rfl, Or.inl rfl⟩
  obtain ⟨hupdates, hsnapshots⟩ := hsame
  apply And.intro (by rw [Directories.windows, Directories.windows, hupdates])
  rintro m ⟨file, hfile, hparse⟩
  rcases hsnapshots with heq | ⟨dump, heq⟩
  · exact Or.inl ⟨file, heq ▸ hfile, hparse⟩
  · rw [heq, mem_publish] at hfile
    rcases hfile with ⟨hold, -⟩ | rfl
    · exact Or.inl ⟨file, hold, hparse⟩
    · obtain ⟨rfl, hdigits⟩ := tenDigits_of_parse hparse
      exact Or.inr ⟨rfl, hdigits⟩

/-- `make_update` publishes the window from its start to the second before the
tick, or nothing. -/
theorem makeUpdate_windows {dump2 : Nat → Nat → Except TickFailure Dump}
    {now : Nat} {throws : Bool}
    (h : makeUpdate dump2 dirs now throws = .ok dirs') :
    ∃ start, updateStart dirs = .ok start ∧
      ((dirs' = dirs ∧ (throws = true ∨ start = 0)) ∨
        (throws = false ∧ start ≠ 0 ∧ ∃ dump, dirs' = { dirs with
          updates := publish dirs.updates (updateName start (now - 1))
            dump })) := by
  obtain ⟨start, hstart, h⟩ := bind_eq_ok h
  refine ⟨start, hstart, ?_⟩
  by_cases hzero : start ≠ 0
  · rw [if_pos hzero] at h
    obtain ⟨dump, -, h⟩ := bind_eq_ok h
    split_ifs at h with hthrows
    · exact Or.inl ⟨(Except.ok.inj h).symm, Or.inl hthrows⟩
    · exact Or.inr ⟨by simpa using hthrows, hzero, dump,
        (Except.ok.inj h).symm⟩
  · rw [if_neg hzero] at h
    exact Or.inl ⟨(Except.ok.inj h).symm, Or.inr (not_not.mp hzero)⟩

/-- What publishing an update does to the windows on disk. -/
theorem windows_publish {start finish : Nat} (hstart : TenDigits start)
    (hfinish : TenDigits finish) (dirs : Directories) (dump : Dump) :
    let dirs' := { dirs with
      updates := publish dirs.updates (updateName start finish) dump }
    (start, finish) ∈ dirs'.windows ∧ dirs.windows ⊆ dirs'.windows ∧
      dirs'.windows ⊆ insert (start, finish) dirs.windows := by
  intro dirs'
  have hparse := parseUpdateFileName_updateName hstart hfinish
  have hnew : (start, finish) ∈ dirs'.windows :=
    ⟨(updateName start finish, dump), mem_publish.mpr (Or.inr rfl), hparse⟩
  refine ⟨hnew, ?_, ?_⟩
  · rintro w ⟨file, hfile, hw⟩
    by_cases hname : file.1 = updateName start finish
    · rw [hname, hparse] at hw
      exact Option.some.inj (Except.ok.inj hw) ▸ hnew
    · exact ⟨file, mem_publish.mpr (Or.inl ⟨hfile, hname⟩), hw⟩
  · rintro w ⟨file, hfile, hw⟩
    rcases mem_publish.mp hfile with ⟨hold, -⟩ | rfl
    · exact Set.mem_insert_of_mem _ ⟨file, hold, hw⟩
    · rw [hparse] at hw
      exact Or.inl (Option.some.inj (Except.ok.inj hw)).symm

/-- A tick up to `make_update`: the directories, and whether a snapshot was
made. -/
def beforeUpdate (d : ClientDatabase) (stored : Database)
    (dirs : Directories) (now : Nat) (fails : Option PublishStep) :
    Except TickFailure (Directories × Bool) := do
  let (dirs, removed) ← expireSnapshots dirs now
  let dirs ← if removed then expireUpdates dirs else pure dirs
  makeSnapshot d stored dirs now fails

/-- What a tick may do. -/
theorem snapshot_cases {dump2 : Nat → Nat → Except TickFailure Dump}
    {now : Nat} {fails : Option PublishStep} {throws : Bool}
    (h : snapshot d stored dump2 dirs now fails throws = .ok dirs') :
    (d.up = false ∧ dirs' = dirs) ∨
      (d.up = true ∧ ∃ dirs₁ created,
        beforeUpdate d stored dirs now fails = .ok (dirs₁, created) ∧
        ((created = true ∧ dirs' = dirs₁) ∨
          (created = false ∧
            makeUpdate dump2 dirs₁ now throws = .ok dirs'))) := by
  have hsplit : d.up = true →
      (beforeUpdate d stored dirs now fails >>= fun made =>
        if made.2 then pure made.1 else makeUpdate dump2 made.1 now throws) =
          .ok dirs' := by
    intro hup
    rw [snapshot, hup] at h
    rw [← h, beforeUpdate]
    rcases expireSnapshots dirs now with e | ⟨dirs₁, removed⟩
    · rfl
    · cases removed with
      | false => rfl
      | true =>
          change ((expireUpdates dirs₁ >>= _) >>= _) = (expireUpdates dirs₁ >>= _)
          rw [bind_assoc]
  by_cases hup : d.up = true
  · refine Or.inr ⟨hup, ?_⟩
    have hmade := hsplit hup
    obtain ⟨⟨dirs₁, created⟩, hbefore, hmade⟩ := bind_eq_ok hmade
    refine ⟨dirs₁, created, hbefore, ?_⟩
    split_ifs at hmade with hcreated
    · exact Or.inl ⟨hcreated, (Except.ok.inj hmade).symm⟩
    · exact Or.inr ⟨by simpa using hcreated, hmade⟩
  · refine Or.inl ⟨by simpa using hup, ?_⟩
    rw [snapshot, Bool.eq_false_iff.mpr hup] at h
    exact (Except.ok.inj h).symm

end Updated

end BohunoPyzord
