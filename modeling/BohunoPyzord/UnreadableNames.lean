/-
Names that the exporter cannot read.  A name is checked for its length and its
digits only, and then converted to 32 bits by a cast that throws; the five
scans of a tick stand outside any `try` block.
-/
import BohunoPyzord.ArchiveTimes

namespace BohunoPyzord

section Scans

variable {E A B : Type}

/-- A computation completes if both of its parts do. -/
theorem bind_isOk_iff_and {x : Except E A} {f : A → Except E B} {Q : Prop}
    (hf : ∀ a, (∃ b, f a = .ok b) ↔ Q) :
    (∃ b, x >>= f = .ok b) ↔ (∃ a, x = .ok a) ∧ Q := by
  cases x with
  | error e =>
      constructor
      · rintro ⟨b, hb⟩
        cases hb
      · rintro ⟨⟨a, ha⟩, -⟩
        cases ha
  | ok a =>
      have hfirst : ∃ a', Except.ok (ε := E) a = .ok a' := ⟨a, rfl⟩
      rw [and_iff_right hfirst]
      exact hf a

theorem bind_isOk_iff {x : Except E A} {f : A → Except E B}
    (hf : ∀ a, ∃ b, f a = .ok b) :
    (∃ b, x >>= f = .ok b) ↔ ∃ a, x = .ok a :=
  (bind_isOk_iff_and fun a => iff_true_intro (hf a)).trans
    (and_iff_left trivial)

/-- A fold whose steps succeed or fail by the entry alone meets every entry. -/
theorem foldlM_isOk_iff {P : A → Prop} {f : B → A → Except E B}
    (hf : ∀ b a, (∃ c, f b a = .ok c) ↔ P a) (b : B) (l : List A) :
    (∃ c, l.foldlM f b = .ok c) ↔ ∀ a ∈ l, P a := by
  induction l generalizing b with
  | nil => exact iff_of_true ⟨b, rfl⟩ fun a ha => absurd ha List.not_mem_nil
  | cons a l ih =>
      rw [List.forall_mem_cons, List.foldlM_cons, ← hf b a]
      exact bind_isOk_iff_and fun b' => ih b'

theorem filterM_isOk_iff {P : A → Prop} {f : A → Except E Bool}
    (hf : ∀ a, (∃ keep, f a = .ok keep) ↔ P a) (l : List A) :
    (∃ kept, l.filterM f = .ok kept) ↔ ∀ a ∈ l, P a := by
  have along : ∀ (l acc : List A),
      (∃ kept, l.filterAuxM f acc = .ok kept) ↔ ∀ a ∈ l, P a := by
    intro l
    induction l with
    | nil =>
        exact fun acc => iff_of_true ⟨acc, rfl⟩
          fun a ha => absurd ha List.not_mem_nil
    | cons a l ih =>
        intro acc
        rw [List.forall_mem_cons, List.filterAuxM, ← hf a]
        exact bind_isOk_iff_and fun keep => ih _
  exact (bind_isOk_iff fun acc => ⟨acc.reverse, rfl⟩).trans (along l [])

end Scans

/-- The number that a string of digits is. -/
def decimalValue (digits : List Char) : Nat := Nat.ofDigitChars 10 digits 0

/-- The two halves of the name of an update. -/
def updateStartDigits (name : FileName) : FileName := name.take 10

def updateEndDigits (name : FileName) : FileName := (name.drop 10).take 10

/-- A name of twenty digits. -/
def IsUpdateName (name : FileName) : Prop :=
  name.length = 20 ∧ isTimestamp (updateStartDigits name) = true ∧
    isTimestamp (updateEndDigits name) = true

instance (name : FileName) : Decidable (IsUpdateName name) :=
  inferInstanceAs (Decidable (_ ∧ _ ∧ _))

/-- If the name has ten digits, their number fits 32 bits. -/
def SnapshotNameFits (name : FileName) : Prop :=
  isTimestamp name = true → decimalValue name < 2 ^ 32

/-- If the name has twenty digits, the numbers of both halves do. -/
def UpdateNameFits (name : FileName) : Prop :=
  IsUpdateName name → decimalValue (updateStartDigits name) < 2 ^ 32 ∧
    decimalValue (updateEndDigits name) < 2 ^ 32

/-- Every name in the two directories fits. -/
structure Directories.NamesFit (dirs : Directories) : Prop where
  snapshots : ∀ file ∈ dirs.snapshots, SnapshotNameFits file.1
  updates : ∀ file ∈ dirs.updates, UpdateNameFits file.1

theorem lexicalCast_eq (digits : List Char) :
    lexicalCast digits = if decimalValue digits < 2 ^ 32
      then .ok (decimalValue digits) else .error .badLexicalCast := rfl

/-- A name is passed over, read as its number, or makes the cast throw. -/
theorem parseSnapshotFileName_eq (name : FileName) :
    parseSnapshotFileName name =
      if isTimestamp name = true then
        if decimalValue name < 2 ^ 32 then .ok (some (decimalValue name))
        else .error .badLexicalCast
      else .ok none := by
  rw [parseSnapshotFileName, lexicalCast_eq]
  split_ifs <;> rfl

theorem parseSnapshotFileName_isOk_iff (name : FileName) :
    (∃ r, parseSnapshotFileName name = .ok r) ↔ SnapshotNameFits name := by
  rw [parseSnapshotFileName_eq, SnapshotNameFits]
  split_ifs with hname hfits <;> simp_all

theorem parseUpdateFileName_eq (name : FileName) :
    parseUpdateFileName name =
      if IsUpdateName name then
        if decimalValue (updateStartDigits name) < 2 ^ 32 ∧
            decimalValue (updateEndDigits name) < 2 ^ 32 then
          .ok (some (decimalValue (updateStartDigits name),
            decimalValue (updateEndDigits name)))
        else .error .badLexicalCast
      else .ok none := by
  have hparse : parseUpdateFileName name =
      if name.length = 20 then
        if isTimestamp (updateStartDigits name) &&
            isTimestamp (updateEndDigits name) then do
          let min ← lexicalCast (updateStartDigits name)
          let max ← lexicalCast (updateEndDigits name)
          pure (some (min, max))
        else pure none
      else pure none := rfl
  rw [hparse, lexicalCast_eq, lexicalCast_eq]
  by_cases hname : IsUpdateName name
  · rw [if_pos hname, if_pos hname.1,
      if_pos (Bool.and_eq_true_iff.mpr hname.2)]
    by_cases hstart : decimalValue (updateStartDigits name) < 2 ^ 32
    · by_cases hend : decimalValue (updateEndDigits name) < 2 ^ 32
      · rw [if_pos hstart, if_pos hend, if_pos ⟨hstart, hend⟩]
        rfl
      · rw [if_pos hstart, if_neg hend, if_neg (not_and_of_not_right _ hend)]
        rfl
    · rw [if_neg hstart, if_neg (not_and_of_not_left _ hstart)]
      rfl
  · rw [if_neg hname]
    by_cases hlength : name.length = 20
    · rw [if_pos hlength, if_neg fun h =>
        hname ⟨hlength, Bool.and_eq_true_iff.mp h⟩]
      rfl
    · rw [if_neg hlength]
      rfl

theorem parseUpdateFileName_isOk_iff (name : FileName) :
    (∃ r, parseUpdateFileName name = .ok r) ↔ UpdateNameFits name := by
  rw [parseUpdateFileName_eq, UpdateNameFits]
  split_ifs with hname hfits <;> simp_all

namespace Updated

/-! A step of a scan, or the test of one file, fails with its name only. -/

theorem moreRecentSnapshot_isOk_iff (best : FileName × Nat)
    (file : FileName × Dump) :
    (∃ b, moreRecentSnapshot best file = .ok b) ↔ SnapshotNameFits file.1 := by
  rw [← parseSnapshotFileName_isOk_iff]
  refine bind_isOk_iff fun parsed => ?_
  cases parsed with
  | none => exact ⟨best, rfl⟩
  | some timestamp => exact ⟨_, (apply_ite _ _ _ _).symm⟩

theorem olderSnapshot_isOk_iff (best : FileName × Nat)
    (file : FileName × Dump) :
    (∃ b, olderSnapshot best file = .ok b) ↔ SnapshotNameFits file.1 := by
  rw [← parseSnapshotFileName_isOk_iff]
  refine bind_isOk_iff fun parsed => ?_
  cases parsed with
  | none => exact ⟨best, rfl⟩
  | some timestamp => exact ⟨_, (apply_ite _ _ _ _).symm⟩

theorem moreRecentUpdate_isOk_iff (best : FileName × Nat × Nat)
    (file : FileName × Dump) :
    (∃ b, moreRecentUpdate best file = .ok b) ↔ UpdateNameFits file.1 := by
  rw [← parseUpdateFileName_isOk_iff]
  refine bind_isOk_iff fun parsed => ?_
  cases parsed with
  | none => exact ⟨best, rfl⟩
  | some window => exact ⟨_, (apply_ite _ _ _ _).symm⟩

theorem keepSnapshot_isOk_iff (expireTime : Nat) (file : FileName × Dump) :
    (∃ keep, keepSnapshot expireTime file = .ok keep) ↔
      SnapshotNameFits file.1 := by
  rw [← parseSnapshotFileName_isOk_iff]
  refine bind_isOk_iff fun parsed => ?_
  cases parsed <;> exact ⟨_, rfl⟩

theorem keepUpdate_isOk_iff (oldest : Nat) (file : FileName × Dump) :
    (∃ keep, keepUpdate oldest file = .ok keep) ↔ UpdateNameFits file.1 := by
  rw [← parseUpdateFileName_isOk_iff]
  refine bind_isOk_iff fun parsed => ?_
  cases parsed <;> exact ⟨_, rfl⟩

/-! A scan completes exactly when every name that it meets fits. -/

theorem findMostRecentSnapshot_isOk_iff (files : List (FileName × Dump)) :
    (∃ found, findMostRecentSnapshot files = .ok found) ↔
      ∀ file ∈ files, SnapshotNameFits file.1 :=
  (bind_isOk_iff fun _ => ⟨_, rfl⟩).trans
    (foldlM_isOk_iff moreRecentSnapshot_isOk_iff ([], 0) files)

theorem findOldestSnapshot_isOk_iff (files : List (FileName × Dump)) :
    (∃ found, findOldestSnapshot files = .ok found) ↔
      ∀ file ∈ files, SnapshotNameFits file.1 :=
  (bind_isOk_iff fun _ => ⟨_, rfl⟩).trans
    (foldlM_isOk_iff olderSnapshot_isOk_iff ([], 0xffffffff) files)

theorem findMostRecentUpdate_isOk_iff (files : List (FileName × Dump)) :
    (∃ found, findMostRecentUpdate files = .ok found) ↔
      ∀ file ∈ files, UpdateNameFits file.1 :=
  (bind_isOk_iff fun _ => ⟨_, rfl⟩).trans
    (foldlM_isOk_iff moreRecentUpdate_isOk_iff ([], 0, 0) files)

theorem expireSnapshots_isOk_iff (dirs : Directories) (now : Nat) :
    (∃ r, expireSnapshots dirs now = .ok r) ↔
      ∀ file ∈ dirs.snapshots, SnapshotNameFits file.1 :=
  (bind_isOk_iff fun _ => ⟨_, rfl⟩).trans
    (filterM_isOk_iff (keepSnapshot_isOk_iff _) dirs.snapshots)

/-- Updates are looked at only if a snapshot was found. -/
theorem expireUpdates_isOk {dirs : Directories} (h : dirs.NamesFit) :
    ∃ dirs', expireUpdates dirs = .ok dirs' := by
  obtain ⟨oldest, holdest⟩ :=
    (findOldestSnapshot_isOk_iff dirs.snapshots).mpr h.snapshots
  rw [expireUpdates, holdest]
  cases oldest with
  | none => exact ⟨dirs, rfl⟩
  | some oldest =>
      exact (bind_isOk_iff fun kept => ⟨_, rfl⟩).mpr
        ((filterM_isOk_iff (keepUpdate_isOk_iff oldest.2) dirs.updates).mpr
          h.updates)

/-- The computation does not fail on a name, and what it returns has `Q`. -/
def ReadsNames {A : Type} (Q : A → Prop) (x : Except TickFailure A) : Prop :=
  x ≠ .error .badLexicalCast ∧ ∀ a, x = .ok a → Q a

theorem ReadsNames.ok {A : Type} {Q : A → Prop} {a : A} (h : Q a) :
    ReadsNames Q (.ok a) := by
  constructor
  · intro hfailed
    cases hfailed
  · rintro b hb
    exact Except.ok.inj hb ▸ h

theorem ReadsNames.bind {A B : Type} {Q : A → Prop} {R : B → Prop}
    {x : Except TickFailure A} {f : A → Except TickFailure B}
    (hx : ReadsNames Q x) (hf : ∀ a, Q a → ReadsNames R (f a)) :
    ReadsNames R (x >>= f) := by
  cases x with
  | error failure =>
      constructor
      · intro hfailed
        cases hfailed
        exact hx.1 rfl
      · intro b hb
        cases hb
  | ok a => exact hf a (hx.2 a rfl)

theorem ReadsNames.of_isOk {A : Type} {Q : A → Prop}
    {x : Except TickFailure A} (hx : ∃ a, x = .ok a)
    (h : ∀ a, x = .ok a → Q a) : ReadsNames Q x := by
  obtain ⟨a, rfl⟩ := hx
  exact .ok (h a rfl)

theorem ReadsNames.of_completes {A : Type} {x : Except TickFailure A}
    (hx : ∃ a, x = .ok a) : ReadsNames (fun _ => True) x :=
  .of_isOk hx fun _ _ => trivial

theorem namesFit_of_subset {dirs dirs' : Directories} (h : dirs.NamesFit)
    (hsnapshots : ∀ file ∈ dirs'.snapshots, file ∈ dirs.snapshots)
    (hupdates : ∀ file ∈ dirs'.updates, file ∈ dirs.updates) :
    dirs'.NamesFit where
  snapshots file hfile := h.snapshots file (hsnapshots file hfile)
  updates file hfile := h.updates file (hupdates file hfile)

theorem readsNames_expireSnapshots {dirs : Directories} (h : dirs.NamesFit)
    (now : Nat) : ReadsNames (fun r => r.1.NamesFit)
      (expireSnapshots dirs now) := by
  apply ReadsNames.of_isOk
    ((expireSnapshots_isOk_iff dirs now).mpr h.snapshots)
  intro r hr
  obtain ⟨kept, hkept, hr⟩ := bind_eq_ok hr
  obtain rfl := Except.ok.inj hr
  exact namesFit_of_subset h
    (fun file hfile => ((mem_of_filterM hkept).mp hfile).1) fun _ hu => hu

theorem readsNames_expireUpdates {dirs : Directories} (h : dirs.NamesFit) :
    ReadsNames Directories.NamesFit (expireUpdates dirs) := by
  apply ReadsNames.of_isOk (expireUpdates_isOk h)
  intro dirs' hdirs
  obtain ⟨oldest, -, hdirs⟩ := bind_eq_ok hdirs
  cases oldest with
  | none => exact Except.ok.inj hdirs ▸ h
  | some oldest =>
      obtain ⟨kept, hkept, hdirs⟩ := bind_eq_ok hdirs
      obtain rfl := Except.ok.inj hdirs
      exact namesFit_of_subset h (fun _ hs => hs)
        fun file hfile => ((mem_of_filterM hkept).mp hfile).1

/-- The name of a new snapshot fits until the clock leaves 32 bits. -/
theorem snapshotNameFits_timestampName {now : Nat} (hnow : now ≤ 2 ^ 32) :
    SnapshotNameFits (timestampName (now - 1)) := by
  intro _
  have hread : decimalValue (timestampName (now - 1)) = now - 1 := by
    simp [decimalValue, timestampName]
  omega

theorem readsNames_makeSnapshot (d : ClientDatabase) (stored : Database)
    {dirs : Directories} (h : dirs.NamesFit) {now : Nat}
    (hnow : now ≤ 2 ^ 32) (fails : Option PublishStep) :
    ReadsNames (fun r => r.1.NamesFit)
      (makeSnapshot d stored dirs now fails) := by
  have hscan : ReadsNames (fun _ => True)
      (findMostRecentSnapshot dirs.snapshots) :=
    .of_completes
      ((findMostRecentSnapshot_isOk_iff dirs.snapshots).mpr h.snapshots)
  have hpublished : ∀ dump current, Directories.NamesFit { dirs with
      snapshots := publish dirs.snapshots (timestampName (now - 1)) dump
      current := current } := by
    intro dump current
    refine ⟨fun file hfile => ?_, h.updates⟩
    rcases mem_publish.mp hfile with ⟨hold, -⟩ | rfl
    · exact h.snapshots file hold
    · exact snapshotNameFits_timestampName hnow
  have hdump : ReadsNames (fun _ => True)
      (d.dumpModifiedRecords stored 0 (now - 1)) := by
    rw [ClientDatabase.dumpModifiedRecords]
    split_ifs
    · exact .ok trivial
    · refine ⟨fun herror => ?_, fun dump hok => ?_⟩
      · cases herror
      · cases hok
  refine hscan.bind fun mostRecent _ => ?_
  by_cases hdue : now - (mostRecent.map Prod.snd).getD 0 ≥ snapshotInterval
  · dsimp only
    rw [if_pos hdue]
    refine hdump.bind fun dump _ => ?_
    split_ifs
    · exact .ok h
    all_goals exact .ok (hpublished dump _)
  · dsimp only
    rw [if_neg hdue]
    exact .ok h

theorem readsNames_makeUpdate {dump2 : Nat → Nat → Except TickFailure Dump}
    (hdump2 : ∀ min max, dump2 min max ≠ .error .badLexicalCast)
    {dirs : Directories} (h : dirs.NamesFit) (now : Nat) (throws : Bool) :
    ReadsNames (fun _ => True) (makeUpdate dump2 dirs now throws) := by
  have hstart : ReadsNames (fun _ => True) (updateStart dirs) := by
    have hsnapshot : ReadsNames (fun _ => True)
        (findMostRecentSnapshot dirs.snapshots) :=
      .of_completes
        ((findMostRecentSnapshot_isOk_iff dirs.snapshots).mpr h.snapshots)
    have hupdate : ReadsNames (fun _ => True)
        (findMostRecentUpdate dirs.updates) :=
      .of_completes
        ((findMostRecentUpdate_isOk_iff dirs.updates).mpr h.updates)
    refine hupdate.bind fun update _ => ?_
    rcases update with - | update
    · refine hsnapshot.bind fun snapshot _ => ?_
      cases snapshot <;> exact .ok trivial
    · exact .ok trivial
  refine hstart.bind fun start _ => ?_
  by_cases hzero : start ≠ 0
  · rw [if_pos hzero]
    have hdump : ReadsNames (fun _ => True) (dump2 start (now - 1)) :=
      ⟨hdump2 _ _, fun _ _ => trivial⟩
    refine hdump.bind fun dump _ => ?_
    split_ifs <;> exact .ok trivial
  · rw [if_neg hzero]
    exact .ok trivial

/-- No name that fits ends a tick early. -/
theorem readsNames_snapshot (d : ClientDatabase) (stored : Database)
    {dump2 : Nat → Nat → Except TickFailure Dump}
    (hdump2 : ∀ min max, dump2 min max ≠ .error .badLexicalCast)
    {dirs : Directories} (h : dirs.NamesFit) {now : Nat}
    (hnow : now ≤ 2 ^ 32) (fails : Option PublishStep) (throws : Bool) :
    ReadsNames (fun _ => True)
      (snapshot d stored dump2 dirs now fails throws) := by
  rw [snapshot]
  split_ifs
  · exact .ok trivial
  · have hrest : ∀ dirs : Directories, dirs.NamesFit →
        ReadsNames (fun _ => True)
          (makeSnapshot d stored dirs now fails >>= fun made =>
            if made.2 then pure made.1
            else makeUpdate dump2 made.1 now throws) := by
      intro dirs hdirs
      refine (readsNames_makeSnapshot d stored hdirs hnow fails).bind
        fun made hmade => ?_
      split_ifs
      · exact .ok trivial
      · exact readsNames_makeUpdate hdump2 hmade now throws
    refine (readsNames_expireSnapshots h now).bind fun expired hexpired => ?_
    obtain ⟨dirs, removed⟩ := expired
    cases removed with
    | true => exact (readsNames_expireUpdates hexpired).bind hrest
    | false => exact hrest dirs hexpired

/-- The scans of a tick over the two directories, at clock reading `now`. -/
structure ScansComplete (dirs : Directories) (now : Nat) : Prop where
  mostRecentSnapshot : ∃ found, findMostRecentSnapshot dirs.snapshots = .ok found
  oldestSnapshot : ∃ found, findOldestSnapshot dirs.snapshots = .ok found
  mostRecentUpdate : ∃ found, findMostRecentUpdate dirs.updates = .ok found
  snapshotsExpired : ∃ r, expireSnapshots dirs now = .ok r
  updatesExpired : ∃ r, expireUpdates dirs = .ok r

/-- Every name is rejected or read as the numbers that its digits are. -/
structure NamesRead (dirs : Directories) : Prop where
  snapshot : ∀ file ∈ dirs.snapshots,
    parseSnapshotFileName file.1 = .ok none ∨
      parseSnapshotFileName file.1 = .ok (some (decimalValue file.1))
  update : ∀ file ∈ dirs.updates,
    parseUpdateFileName file.1 = .ok none ∨
      parseUpdateFileName file.1 =
        .ok (some (decimalValue (updateStartDigits file.1),
          decimalValue (updateEndDigits file.1)))

/-- No tick at a clock reading of 32 bits ends early on a name. -/
def TickReadsNames (dirs : Directories) (now : Nat) : Prop :=
  now ≤ 2 ^ 32 → ∀ (d : ClientDatabase) (stored : Database)
    (dump2 : Nat → Nat → Except TickFailure Dump)
    (fails : Option PublishStep) (throws : Bool),
    (∀ min max, dump2 min max ≠ .error .badLexicalCast) →
      snapshot d stored dump2 dirs now fails throws ≠ .error .badLexicalCast

theorem namesRead_of_namesFit {dirs : Directories} (h : dirs.NamesFit) :
    NamesRead dirs where
  snapshot file hfile := by
    have hfits := h.snapshots file hfile
    rw [parseSnapshotFileName_eq]
    by_cases hname : isTimestamp file.1 = true
    · rw [if_pos hname, if_pos (hfits hname)]
      exact Or.inr rfl
    · rw [if_neg hname]
      exact Or.inl rfl
  update file hfile := by
    have hfits := h.updates file hfile
    rw [parseUpdateFileName_eq]
    by_cases hname : IsUpdateName file.1
    · rw [if_pos hname, if_pos (hfits hname)]
      exact Or.inr rfl
    · rw [if_neg hname]
      exact Or.inl rfl

/-- All scans complete, and read every name as its numbers, exactly when no
name of ten digits, and no half of one of twenty, is a number from `2 ^ 32`
on. -/
theorem scansComplete_iff_namesFit (dirs : Directories) (now : Nat) :
    (ScansComplete dirs now ∧ NamesRead dirs ∧ TickReadsNames dirs now) ↔
      dirs.NamesFit := by
  constructor
  · rintro ⟨hscans, -, -⟩
    exact
      { snapshots := (findMostRecentSnapshot_isOk_iff _).mp
          hscans.mostRecentSnapshot
        updates := (findMostRecentUpdate_isOk_iff _).mp
          hscans.mostRecentUpdate }
  · intro h
    refine ⟨?_, namesRead_of_namesFit h, ?_⟩
    · exact
        { mostRecentSnapshot := (findMostRecentSnapshot_isOk_iff _).mpr
            h.snapshots
          oldestSnapshot := (findOldestSnapshot_isOk_iff _).mpr h.snapshots
          mostRecentUpdate := (findMostRecentUpdate_isOk_iff _).mpr h.updates
          snapshotsExpired := (expireSnapshots_isOk_iff _ now).mpr h.snapshots
          updatesExpired := expireUpdates_isOk h }
    · intro hnow d stored dump2 fails throws hdump2
      exact (readsNames_snapshot d stored hdump2 h hnow fails throws).1

/-- A file `9999999999` among the snapshots ends every scan of them. -/
theorem not_scansComplete :
    ¬ ∀ (dirs : Directories) (now : Nat),
      ScansComplete dirs now ∧ NamesRead dirs ∧ TickReadsNames dirs now := by
  intro h
  obtain ⟨hscans, -, -⟩ := h
    { snapshots := [("9999999999".toList, [])], current := none, updates := [] }
    0
  obtain ⟨found, hfound⟩ := hscans.mostRecentSnapshot
  have hthrows : findMostRecentSnapshot [("9999999999".toList, [])] =
      .error .badLexicalCast := by
    decide +kernel
  rw [hthrows] at hfound
  cases hfound

end Updated

end BohunoPyzord
