/-
`bohuno-pyzord-setup`: the first import of a replica.  The file `license` is
written last, and only over an empty database into which all of a snapshot
was imported; whatever fails before leaves the old file.  That a write to it
fails goes unnoticed.
-/
import BohunoPyzord.ImportEnds
import BohunoPyzord.LicenseKeys
import BohunoPyzord.Network
import BohunoPyzord.RequestParser
import BohunoPyzord.WgetRuns

universe u

namespace BohunoPyzord

/-- The constructor of `license` for a key; `none` is its exception. -/
def License.construct (key : List Byte) : Option License :=
  License.parse ((LicenseStream.ofLicense key).total Base64Decoder.read
    Arcfour.encrypt)

/-- `database::empty`. -/
def Database.empty (db : Database) (index : TimeIndex) : Bool :=
  (db.lookupLast index).isNone

/-- The home directory of a replica: the database under it and the file
`license`. -/
structure Home where
  database_ : Database
  license : Option (List Byte)

/-- `pyzord_setup_options`; without a snapshot one is downloaded. -/
structure SetupOptions where
  key : List Byte
  snapshot : Text
deriving DecidableEq, Repr

/-- What a setup meets with: whether it runs as the user, finds the directory
and can open and read the database, what it reads of the file that `snapshot`
names if it can be opened, how the calls of the import go, whether the file
`license` can be opened for writing, and how many bytes can be written to
it. -/
structure SetupWorld where
  prepared : Bool
  file : Option (List Byte)
  calls : Nat → ImportCalls
  opensLicense : Bool
  writtenBytes : Nat

namespace Setup

variable {E : Type u}

/-- The variables that the callbacks of a download set. -/
structure Downloaded where
  gerror : Option WgetError
  gstatus : Nat
  gcontent : Text
deriving DecidableEq, Repr

/-- `download_failure` and `download_success`. -/
def Downloaded.callBack (d : Downloaded) : WgetCallback → Downloaded
  | .failure gerror => { d with gerror }
  | .success gstatus _ gcontent => { d with gstatus, gcontent }

/-- `download`, once the client is at its end: the variables as they are. -/
def download (client : WgetClient E) : Downloaded :=
  client.callbacks.foldl Downloaded.callBack
    { gerror := none, gstatus := 0, gcontent := [] }

/-- The content to import; `none` where the setup exits or an exception ends
it. -/
def content (options : SetupOptions) (world : SetupWorld)
    (client : WgetClient E) : Option (List Byte) :=
  if options.snapshot.isEmpty then
    if client.thrown then none
    else
      let d := download client
      if d.gerror.isSome then none
      else if d.gstatus ≠ 200 then none
      else some (d.gcontent.map byte)
  else world.file

/-- `license_file << options.key`, with the code that the setup exits with.
To open the file empties it, and nobody asks whether the write succeeds. -/
def writeLicense (options : SetupOptions) (world : SetupWorld) (home : Home) :
    Nat × Home :=
  if world.opensLicense then
    (0, { home with license := some (options.key.take world.writtenBytes) })
  else (1, home)

/-- From the import of the content on; `none` while the import goes on. -/
def populate (gunzip : Decompressor) (options : SetupOptions)
    (world : SetupWorld) (fuel : Nat) (content : List Byte) (home : Home) :
    Option (Nat × Home) :=
  if options.snapshot ≠ "/dev/null".toList then
    (home.database_.importStream world.calls fuel
        (gunzip.opened content)).map fun ended =>
      let home := { home with database_ := ended.2.stored }
      match ended.1 with
      | .ok _ => writeLicense options world home
      | .error _ => (1, home)
  else some (writeLicense options world home)

/-- `pyzord_setup_main`; `none` while the client or the import goes on. -/
def main (index : TimeIndex) (gunzip : Decompressor) (options : SetupOptions)
    (world : SetupWorld) (client : WgetClient E) (fuel : Nat) (home : Home) :
    Option (Nat × Home) :=
  if !world.prepared then some (1, home)
  else if !home.database_.empty index then some (1, home)
  else
    match License.construct options.key with
    | none => some (1, home)
    | some _ =>
        if options.snapshot.isEmpty && !client.pending.isEmpty then none
        else
          match content options world client with
          | none => some (1, home)
          | some content => populate gunzip options world fuel content home

/-- What is to be imported: the file, or what the whole answer to the client
comes to. -/
inductive Supplies (options : SetupOptions) (world : SetupWorld)
    (client : WgetClient E) (content : List Byte) : Prop where
  | file (named : options.snapshot ≠ []) (opened : world.file = some content)
  | download (unnamed : options.snapshot = []) (headers : List (Text × Text))
      (data : Text) (answered : HttpClient.readResponse client.arrived =
        .success 200 headers data) (same : content = data.map byte)

/-- A content that can be decompressed to its end and holds the records. -/
def Holds (gunzip : Decompressor) (content : List Byte) (records : Dump) :
    Prop :=
  (gunzip content).2 = false ∧ ∃ rest, rest.length < 52 ∧
    (gunzip content).1.drop 4 = recordFraming.encodeAll records ++ rest

/-- What a setup has done to the home directory when it exits. -/
structure Installs (index : TimeIndex) (gunzip : Decompressor)
    (options : SetupOptions) (world : SetupWorld) (client : WgetClient E)
    (home : Home) (code : Nat) (after : Home) : Prop where
  occupied : home.database_.empty index = false → code ≠ 0 ∧ after = home
  refused : code ≠ 0 → after.license = home.license
  first : ∀ content records, Supplies options world client content →
    Holds gunzip content records → ∃ beginning, beginning <+: records ∧
      after.database_ = home.database_.importDump beginning
  unsupplied : (∀ content, ¬ Supplies options world client content) →
    code ≠ 0 ∧ after.database_ = home.database_
  installed : code = 0 →
    after.license = some (options.key.take world.writtenBytes) ∧
    (License.construct options.key).isSome = true ∧
    (options.snapshot = "/dev/null".toList ∧
        after.database_ = home.database_ ∨
      ∃ content records, Supplies options world client content ∧
        Holds gunzip content records ∧
        after.database_ = Database.importDump ∅ records)

variable {index : TimeIndex} {gunzip : Decompressor} {options : SetupOptions}
  {world : SetupWorld} {client : WgetClient E}

/-- A license is obtained from all that was decoded. -/
theorem step_obtained {s : LicenseStream} {event : LicenseEvent} {l : License}
    (h : LicenseRun.step (.copying s) event = some (.obtained l)) :
    s.Finished ∧ License.parse s.output = some l := by
  cases event with
  | call call =>
      cases call with
      | read n k =>
          rw [LicenseRun.step] at h
          split_ifs at h
          · cases h
          · split at h
            · cases h
            · obtain ⟨s', -, hs'⟩ := Option.map_eq_some_iff.mp h
              cases hs'
      | filter m =>
          rw [LicenseRun.step] at h
          split_ifs at h
          obtain ⟨s', -, hs'⟩ := Option.map_eq_some_iff.mp h
          cases hs'
  | parse =>
      rw [LicenseRun.step] at h
      split_ifs at h with hfinished
      cases hparse : License.parse s.output with
      | none =>
          rw [hparse] at h
          cases h
      | some l' =>
          rw [hparse] at h
          obtain rfl := LicenseRun.obtained.inj (Option.some.inj h)
          exact ⟨hfinished, rfl⟩

/-- Whatever the filters are called for, a constructor obtains the license
that `construct` is. -/
theorem constructing_obtains (key : List Byte) (events : List LicenseEvent) :
    (constructing (.license key)).Always
      (fun r => ∀ l, r = .obtained l → License.construct key = some l)
      events := by
  apply StepSystem.always_of_invariant _ (I := fun r =>
    (∀ s : LicenseStream, r = .copying s →
      s.total Base64Decoder.read Arcfour.encrypt =
        (LicenseStream.ofLicense key).total Base64Decoder.read
          Arcfour.encrypt) ∧
    ∀ l, r = .obtained l → License.construct key = some l)
  · refine ⟨fun s hs => ?_, fun l hl => by cases hl⟩
    obtain rfl := LicenseRun.copying.inj hs
    rfl
  · rintro r r' event ⟨htotal, -⟩ - hstep
    obtain ⟨s, rfl, hcases⟩ := LicenseRun.step_cases hstep
    refine ⟨fun s' hs' => ?_, fun l hl => ?_⟩
    · subst hs'
      rw [← htotal s rfl]
      rcases hcases with ⟨k, -, -, hmoved⟩ | ⟨m, -, -, hmoved⟩ |
        ⟨_, -, -, hother⟩ | ⟨_, hother⟩ | ⟨_, hother⟩
      · rw [LicenseRun.copying.inj hmoved, Pipeline.total_step]
      · rw [LicenseRun.copying.inj hmoved, Pipeline.total_step]
      · cases hother
      · cases hother
      · cases hother
    · subst hl
      obtain ⟨hfinished, hparse⟩ := step_obtained hstep
      rw [License.construct, ← htotal s rfl,
        ← Pipeline.output_of_finished _ _ hfinished, hparse]
  · exact fun r hr => hr.2

/-- A database is empty if nothing is stored in it. -/
theorem empty_iff {db : Database} : db.empty index = true ↔ db = ∅ := by
  rw [Database.empty, Database.lookupLast, Option.isNone_iff_eq_none,
    Option.map_eq_none_iff, List.getLast?_eq_none_iff]
  constructor
  · intro hnone
    have hpairs : db.pairs = [] := by
      have hperm := index.perm db
      rw [hnone] at hperm
      exact hperm.nil_eq.symm
    exact AList.ext (List.map_eq_nil_iff.mp hpairs)
  · rintro rfl
    exact List.perm_nil.mp (index.perm ∅)

theorem download_of_callbacks (hone : client.callbacks.length ≤ 1)
    (hstatus : (download client).gstatus = 200) :
    ∃ headers, .success 200 headers (download client).gcontent ∈
      client.callbacks := by
  rw [download] at *
  match hcallbacks : client.callbacks with
  | [] =>
      rw [hcallbacks] at hstatus
      cases hstatus
  | [.failure gerror] =>
      rw [hcallbacks] at hstatus
      cases hstatus
  | [.success status headers data] =>
      rw [hcallbacks] at hstatus
      obtain rfl : status = 200 := hstatus
      exact ⟨headers, List.mem_singleton_self _⟩
  | _ :: _ :: _ =>
      rw [hcallbacks] at hone
      simp at hone

/-- A content that the setup imports has been supplied. -/
theorem supplies_of_content {request : Text} {content : List Byte}
    (hclient : client.Orderly request)
    (h : Setup.content options world client = some content) :
    Supplies options world client content := by
  rw [Setup.content] at h
  dsimp only at h
  split_ifs at h with hempty hthrown herror hstatus
  · obtain rfl := Option.some.inj h
    have hone : client.callbacks.length ≤ 1 := by
      have honce := hclient.once
      omega
    obtain ⟨headers, hmem⟩ :=
      download_of_callbacks hone (not_not.mp hstatus)
    exact .download (List.isEmpty_iff.mp hempty) headers _
      (hclient.told _ hmem).1 rfl
  · exact .file (fun hnone => hempty (List.isEmpty_iff.mpr hnone)) h

/-- A read from a source that fails finds a frame, of what is left in memory
at last. -/
theorem readFrame_corrupt {input : InputStream Byte}
    (hcorrupt : input.corrupt = true) (heof : input.eof = false) :
    ∃ p input', readFrame input = (some p, input') ∧
      input'.corrupt = true ∧ input'.eof = false := by
  obtain ⟨hcorrupt', heof'⟩ := read_corrupt hcorrupt heof 20
  obtain ⟨hcorrupt'', heof''⟩ := read_corrupt hcorrupt' heof' 32
  refine ⟨(Hash.ofBytes (input.read 20).1,
    Record.ofBytes ((input.read 20).2.read 32).1),
    ((input.read 20).2.read 32).2, ?_, hcorrupt'', heof''⟩
  rw [readFrame]
  dsimp only
  rw [heof', heof'']
  rfl

/-- An import whose source fails does not return. -/
theorem importLoop_corrupt_error {calls : Nat → ImportCalls} {fuel : Nat}
    {s : ImportState} (hcorrupt : s.input.corrupt = true)
    (heof : s.input.eof = false)
    {ended : Except ImportError Int × ImportState}
    (hended : importLoop calls fuel s = some ended) :
    ∃ error, ended.1 = .error error := by
  induction fuel generalizing calls s with
  | zero => cases hended
  | succ fuel ih =>
      obtain ⟨p, input', hread, hcorrupt', heof'⟩ :=
        readFrame_corrupt hcorrupt heof
      rw [importLoop, importTurn_eq, hread, heof] at hended
      by_cases hbegin : (s.txn.isNone && !(calls 0).txnBegin) = true
      · simp only [hbegin, Bool.false_eq_true, ↓reduceIte] at hended
        obtain rfl := Option.some.inj hended
        exact ⟨_, rfl⟩
      · simp only [hbegin, Bool.false_eq_true, ↓reduceIte] at hended
        rw [putTurn] at hended
        split_ifs at hended
        · obtain rfl := Option.some.inj hended
          exact ⟨_, rfl⟩
        · obtain rfl := Option.some.inj hended
          exact ⟨_, rfl⟩
        · obtain rfl := Option.some.inj hended
          exact ⟨_, rfl⟩
        · exact ih hcorrupt' heof' hended
        · exact ih hcorrupt' heof' hended

theorem importStream_corrupt_error {content : List Byte}
    (hcorrupt : (gunzip content).2 = true) {calls : Nat → ImportCalls}
    {fuel : Nat} {stored : Database}
    {ended : Except ImportError Int × ImportState}
    (hended : stored.importStream calls fuel (gunzip.opened content) =
      some ended) : ∃ error, ended.1 = .error error := by
  obtain ⟨hcorrupt', heof⟩ := read_corrupt
    (show (gunzip.opened content).corrupt = true from hcorrupt) rfl 4
  exact importLoop_corrupt_error hcorrupt' heof hended

theorem opened_of_holds {content : List Byte} {records : Dump}
    (h : Holds gunzip content records) :
    gunzip.opened content = InputStream.opened (gunzip content).1 := by
  rw [Decompressor.opened, h.1]
  rfl

theorem exists_holds {content : List Byte} (h : (gunzip content).2 = false) :
    ∃ records, Holds gunzip content records := by
  obtain ⟨records, rest, hsplit, hrest⟩ :=
    recordFraming.exists_encodeAll ((gunzip content).1.drop 4)
  exact ⟨records, h, rest, hrest, hsplit⟩

/-- The setup has left everything. -/
theorem installs_of_refused {home : Home} :
    Installs index gunzip options world client home 1 home where
  occupied _ := ⟨Nat.one_ne_zero, rfl⟩
  refused _ := rfl
  first _ _ _ _ := ⟨[], List.nil_prefix, rfl⟩
  unsupplied _ := ⟨Nat.one_ne_zero, rfl⟩
  installed h := absurd h Nat.one_ne_zero

theorem installs_writeLicense {home : Home} {database_ : Database}
    {content : List Byte} (hsupplies : Supplies options world client content)
    (hempty : home.database_.empty index = true)
    (hlicense : (License.construct options.key).isSome = true)
    (hfirst : ∀ content records, Supplies options world client content →
      Holds gunzip content records → ∃ beginning, beginning <+: records ∧
        database_ = home.database_.importDump beginning)
    (hall : options.snapshot = "/dev/null".toList ∧
        database_ = home.database_ ∨
      ∃ content records, Supplies options world client content ∧
        Holds gunzip content records ∧
        database_ = Database.importDump ∅ records) :
    let done := writeLicense options world { home with database_ }
    Installs index gunzip options world client home done.1 done.2 := by
  intro done
  have hoccupied : home.database_.empty index ≠ false := by
    rw [hempty]
    exact Bool.noConfusion
  by_cases hopens : world.opensLicense = true
  · have hdone : done =
        (0, ⟨database_, some (options.key.take world.writtenBytes)⟩) :=
      if_pos hopens
    rw [hdone]
    exact ⟨fun h => absurd h hoccupied, fun h => absurd rfl h, hfirst,
      fun hnone => absurd hsupplies (hnone content),
      fun _ => ⟨rfl, hlicense, hall⟩⟩
  · have hdone : done = (1, ⟨database_, home.license⟩) := if_neg hopens
    rw [hdone]
    exact ⟨fun h => absurd h hoccupied, fun _ => rfl, hfirst,
      fun hnone => absurd hsupplies (hnone content),
      fun h => absurd h Nat.one_ne_zero⟩

theorem Supplies.unique {content content' : List Byte}
    (h : Supplies options world client content)
    (h' : Supplies options world client content') : content = content' := by
  cases h with
  | file named opened =>
      cases h' with
      | file _ opened' => exact Option.some.inj (opened.symm.trans opened')
      | download unnamed _ _ _ _ => exact absurd unnamed named
  | download unnamed headers data answered same =>
      cases h' with
      | file named _ => exact absurd unnamed named
      | download _ headers' data' answered' same' =>
          rw [answered] at answered'
          obtain ⟨-, -, rfl⟩ := HttpOutcome.success.inj answered'
          rw [same, same']

/-- A setup that exits has left everything, or it has come to the import. -/
theorem main_cases {fuel : Nat} {home : Home} {done : Nat × Home}
    (h : main index gunzip options world client fuel home = some done) :
    done = (1, home) ∨
      home.database_.empty index = true ∧
      (License.construct options.key).isSome = true ∧
      ∃ content, Setup.content options world client = some content ∧
        populate gunzip options world fuel content home = some done := by
  have hleft : some (1, home) = some done → done = (1, home) := fun h =>
    (Option.some.inj h).symm
  unfold main at h
  split at h
  · exact Or.inl (hleft h)
  · split at h
    · exact Or.inl (hleft h)
    · rename_i hempty
      split at h
      · exact Or.inl (hleft h)
      · rename_i l hlicense
        split at h
        · cases h
        · split at h
          · exact Or.inl (hleft h)
          · rename_i content hcontent
            refine Or.inr ⟨by simpa using hempty, ?_, content, hcontent, h⟩
            rw [hlicense]
            rfl

/-- What a content has left of an import of it. -/
theorem commits_of_holds {content : List Byte} {records : Dump}
    (h : Holds gunzip content records) {calls : Nat → ImportCalls}
    {fuel : Nat} {stored : Database}
    {ended : Except ImportError Int × ImportState}
    (hended : stored.importStream calls fuel (gunzip.opened content) =
      some ended) : Commits stored records ended := by
  obtain ⟨hsound, rest, hrest, hframes⟩ := h
  rw [opened_of_holds ⟨hsound, rest, hrest, hframes⟩] at hended
  exact importStream_commits hframes hrest hended

theorem installs_of_main {request : Text} (hclient : client.Orderly request)
    {fuel : Nat} {home after : Home} {code : Nat}
    (hmain : main index gunzip options world client fuel home =
      some (code, after)) :
    Installs index gunzip options world client home code after := by
  rcases main_cases hmain with
    hleft | ⟨hempty, hlicense, content, hcontent, hpopulate⟩
  · obtain ⟨rfl, rfl⟩ := Prod.mk.inj hleft
    exact installs_of_refused
  · have hsupplies := supplies_of_content hclient hcontent
    unfold populate at hpopulate
    split_ifs at hpopulate with hnull
    · obtain ⟨ended, hended, hdone⟩ := Option.map_eq_some_iff.mp hpopulate
      have hfirst : ∀ content' records,
          Supplies options world client content' →
            Holds gunzip content' records → ∃ beginning,
              beginning <+: records ∧
                ended.2.stored = home.database_.importDump beginning := by
        intro content' records hsupplies' hholds
        obtain rfl := hsupplies.unique hsupplies'
        obtain ⟨beginning, hbeginning, hstored, -⟩ :=
          commits_of_holds hholds hended
        exact ⟨beginning, hbeginning, hstored⟩
      cases hresult : ended.1 with
      | error error =>
          rw [hresult] at hdone
          obtain ⟨rfl, rfl⟩ := Prod.mk.inj hdone
          refine ⟨fun h => ?_, fun _ => rfl, hfirst,
            fun hnone => absurd hsupplies (hnone content), fun h => ?_⟩
          · rw [hempty] at h
            cases h
          · cases h
      | ok n =>
          have hsound : (gunzip content).2 = false := by
            rw [← Bool.not_eq_true]
            intro hcorrupt
            obtain ⟨error, herror⟩ := importStream_corrupt_error hcorrupt hended
            rw [hresult] at herror
            cases herror
          obtain ⟨records, hholds⟩ := exists_holds hsound
          obtain ⟨beginning, -, hstored, hall⟩ := commits_of_holds hholds hended
          rw [hall n hresult, empty_iff.mp hempty] at hstored
          rw [hresult] at hdone
          have hinstalls := installs_writeLicense hsupplies hempty hlicense
            hfirst (Or.inr ⟨content, records, hsupplies, hholds, hstored⟩)
          dsimp only at hdone hinstalls
          rw [hdone] at hinstalls
          exact hinstalls
    · have hinstalls : Installs index gunzip options world client home
          (writeLicense options world home).1
          (writeLicense options world home).2 :=
        installs_writeLicense hsupplies hempty hlicense
          (fun _ _ _ _ => ⟨[], List.nil_prefix, rfl⟩)
          (Or.inl ⟨not_not.mp hnull, rfl⟩)
      rw [Option.some.inj hpopulate] at hinstalls
      exact hinstalls

/-- An import whose source gets to its end ends. -/
theorem exists_importStream {content : List Byte}
    (hsound : (gunzip content).2 = false) (calls : Nat → ImportCalls)
    (stored : Database) :
    ∃ fuel ended, stored.importStream calls fuel (gunzip.opened content) =
      some ended := by
  obtain ⟨records, hholds⟩ := exists_holds hsound
  rw [opened_of_holds hholds]
  have hheader : SoundInput
      ((InputStream.opened (gunzip content).1).read 4).2 :=
    (soundInput_header _).imp_right fun h => ⟨_, h⟩
  let s : ImportState :=
    { stored, txn := none, n := 0
      input := ((InputStream.opened (gunzip content).1).read 4).2 }
  obtain ⟨ended, hended⟩ :
      ∃ ended, importLoop calls (s.input.rest.length + 1) s = some ended :=
    importLoop_ends hheader (Nat.lt_succ_self _)
  exact ⟨s.input.rest.length + 1, ended, hended⟩

theorem exists_main {request : Text} (hclient : client.Orderly request)
    {home : Home}
    (hdone : options.snapshot = [] → client.pending = [])
    (hsound : ∀ content, Supplies options world client content →
      (gunzip content).2 = false) :
    ∃ fuel done, main index gunzip options world client fuel home =
      some done := by
  have hover :
      (options.snapshot.isEmpty && !client.pending.isEmpty) = false := by
    cases hsnapshot : options.snapshot with
    | nil => rw [hdone hsnapshot]; rfl
    | cons c snapshot => rfl
  cases hcontent : Setup.content options world client with
  | none =>
      refine ⟨0, (1, home), ?_⟩
      simp only [main, hover, hcontent]
      split
      · rfl
      · split
        · rfl
        · split <;> rfl
  | some content =>
      obtain ⟨fuel, ended, hended⟩ := exists_importStream
        (hsound content (supplies_of_content hclient hcontent)) world.calls
        home.database_
      have hpopulate : ∃ done,
          populate gunzip options world fuel content home = some done := by
        rw [populate, hended]
        split
        · exact ⟨_, rfl⟩
        · exact ⟨_, rfl⟩
      obtain ⟨done, hpopulate⟩ := hpopulate
      refine ⟨fuel, ?_⟩
      simp only [main, hover, hcontent]
      split
      · exact ⟨_, rfl⟩
      · split
        · exact ⟨_, rfl⟩
        · split
          · exact ⟨_, rfl⟩
          · exact ⟨done, hpopulate⟩

/-- In every run of the client, with any answers, any files and any failing
calls: the setup exits once the client is at its end, if the content can be
decompressed to its end, and has then installed the replica or refused to. -/
theorem always_installs (index : TimeIndex) (gunzip : Decompressor)
    (options : SetupOptions) (world : SetupWorld) (home : Home)
    (request : Text) (events : List (WgetEvent E)) :
    (wgetSystem true true request).Always (fun client =>
      (∀ fuel code after, main index gunzip options world client fuel home =
          some (code, after) →
        Installs index gunzip options world client home code after) ∧
      ((options.snapshot = [] → client.pending = []) →
        (∀ content, Supplies options world client content →
          (gunzip content).2 = false) →
        ∃ fuel done, main index gunzip options world client fuel home =
          some done)) events :=
  WgetClient.always_of_orderly true true request
    (fun _ hclient => ⟨fun _ _ _ => installs_of_main hclient,
      exists_main hclient⟩) events

end Setup

/-- Over a published file, a setup leaves what a replica is started over. -/
theorem Network.setup_of_installs {s : Network} {dump : Dump}
    (hdump : dump ∈ s.published) {index : TimeIndex} {gunzip : Decompressor}
    {options : SetupOptions} {world : SetupWorld} {E : Type u}
    {client : WgetClient E} {home after : Home} {code : Nat}
    (hempty : home.database_ = ∅) {content : List Byte}
    (hsupplies : Setup.Supplies options world client content)
    (hcontent : gunzip content = (dumpStream dump, false))
    (hinstalls : Setup.Installs index gunzip options world client home code
      after) (state : PyzordState) :
    ∃ file records daemon, s.step index (.setup file records state) =
        some { s with replicas := s.replicas ++ [daemon] } ∧
      daemon.database_ = after.database_ := by
  have hholds : Setup.Holds gunzip content dump := by
    rw [Setup.Holds, hcontent]
    refine ⟨rfl, [], by decide, ?_⟩
    rw [List.append_nil]
    exact List.drop_left' rfl
  obtain ⟨beginning, hbeginning, hstored⟩ :=
    hinstalls.first content dump hsupplies hholds
  obtain ⟨file, hfile⟩ := List.getElem?_of_mem hdump
  have hfirst : dump.take beginning.length = beginning :=
    (List.prefix_iff_eq_take.mp hbeginning).symm
  refine ⟨file, beginning.length, (pyzordDaemonSystem index
    (Database.importDump ∅ beginning) state).init, ?_, ?_⟩
  · rw [Network.step, hfile, Option.map_some, hfirst]
  · rw [hstored, hempty]
    rfl

end BohunoPyzord
