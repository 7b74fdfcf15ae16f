/-
Whether a client database that says it is up can be used.  `up()` reports
`connected_`, and the exporter's tick calls through the handles when it is
set; a lost ping closes the handles and leaves `connected_` as it is.
-/
import BohunoPyzord.Updated

namespace BohunoPyzord

/-- A computation that does not call through a `NULL` handle. -/
def NoNullCall {α : Type} (x : Except TickFailure α) : Prop :=
  x ≠ .error .nullHandle

namespace NoNullCall

variable {α β : Type}

theorem ok (a : α) : NoNullCall (Except.ok a) := by
  intro h
  cases h

theorem bind {x : Except TickFailure α} {f : α → Except TickFailure β}
    (hx : NoNullCall x) (hf : ∀ a, NoNullCall (f a)) :
    NoNullCall (x >>= f) := by
  cases x with
  | error failure => exact fun h => hx (by cases h; rfl)
  | ok a => exact hf a

theorem foldlM {f : β → α → Except TickFailure β}
    (hf : ∀ b a, NoNullCall (f b a)) (b : β) (l : List α) :
    NoNullCall (l.foldlM f b) := by
  induction l generalizing b with
  | nil => exact ok b
  | cons a l ih =>
      rw [List.foldlM_cons]
      exact bind (hf b a) fun b' => ih b'

theorem filterM {f : α → Except TickFailure Bool}
    (hf : ∀ a, NoNullCall (f a)) (l : List α) :
    NoNullCall (l.filterM f) := by
  have along : ∀ (l acc : List α), NoNullCall (l.filterAuxM f acc) := by
    intro l
    induction l with
    | nil => exact fun acc => ok acc
    | cons a l ih => exact fun acc => bind (hf a) fun keep => ih _
  exact bind (along l []) fun acc => ok _

end NoNullCall

namespace Updated

/-! The scans and the deletions never use a handle. -/

theorem noNullCall_lexicalCast (digits : List Char) :
    NoNullCall (lexicalCast digits) := by
  unfold lexicalCast
  dsimp only
  split
  · exact NoNullCall.ok _
  · exact fun h => by cases h

theorem noNullCall_parseSnapshotFileName (name : FileName) :
    NoNullCall (parseSnapshotFileName name) := by
  unfold parseSnapshotFileName
  split
  · exact (noNullCall_lexicalCast name).bind fun t => NoNullCall.ok _
  · exact NoNullCall.ok _

theorem noNullCall_parseUpdateFileName (name : FileName) :
    NoNullCall (parseUpdateFileName name) := by
  unfold parseUpdateFileName
  split
  · dsimp only
    split
    · exact (noNullCall_lexicalCast _).bind fun min =>
        (noNullCall_lexicalCast _).bind fun max => NoNullCall.ok _
    · exact NoNullCall.ok _
  · exact NoNullCall.ok _

theorem noNullCall_findMostRecentSnapshot (files : List (FileName × Dump)) :
    NoNullCall (findMostRecentSnapshot files) := by
  refine (NoNullCall.foldlM (fun best file => ?_) _ _).bind
    fun best => NoNullCall.ok _
  apply (noNullCall_parseSnapshotFileName file.1).bind
  intro parsed
  cases parsed with
  | none => exact NoNullCall.ok _
  | some timestamp => dsimp only; split <;> exact NoNullCall.ok _

theorem noNullCall_findOldestSnapshot (files : List (FileName × Dump)) :
    NoNullCall (findOldestSnapshot files) := by
  refine (NoNullCall.foldlM (fun best file => ?_) _ _).bind
    fun best => NoNullCall.ok _
  apply (noNullCall_parseSnapshotFileName file.1).bind
  intro parsed
  cases parsed with
  | none => exact NoNullCall.ok _
  | some timestamp => dsimp only; split <;> exact NoNullCall.ok _

theorem noNullCall_findMostRecentUpdate (files : List (FileName × Dump)) :
    NoNullCall (findMostRecentUpdate files) := by
  refine (NoNullCall.foldlM (fun best file => ?_) _ _).bind
    fun best => NoNullCall.ok _
  apply (noNullCall_parseUpdateFileName file.1).bind
  intro parsed
  cases parsed with
  | none => exact NoNullCall.ok _
  | some window => dsimp only; split <;> exact NoNullCall.ok _

theorem noNullCall_expireSnapshots (dirs : Directories) (now : Nat) :
    NoNullCall (expireSnapshots dirs now) := by
  refine (NoNullCall.filterM (fun file => ?_) _).bind
    fun kept => NoNullCall.ok _
  apply (noNullCall_parseSnapshotFileName file.1).bind
  intro parsed
  cases parsed <;> exact NoNullCall.ok _

theorem noNullCall_expireUpdates (dirs : Directories) :
    NoNullCall (expireUpdates dirs) := by
  apply (noNullCall_findOldestSnapshot _).bind
  intro oldest
  cases oldest with
  | none => exact NoNullCall.ok _
  | some oldest =>
      refine (NoNullCall.filterM (fun file => ?_) _).bind
        fun kept => NoNullCall.ok _
      apply (noNullCall_parseUpdateFileName file.1).bind
      intro parsed
      cases parsed <;> exact NoNullCall.ok _

theorem noNullCall_makeSnapshot {d : ClientDatabase} (hopen : d.HandlesOpen)
    (stored : Database) (dirs : Directories) (currentTime : Nat)
    (fails : Option PublishStep) :
    NoNullCall (makeSnapshot d stored dirs currentTime fails) := by
  apply (noNullCall_findMostRecentSnapshot _).bind
  intro mostRecent
  dsimp only
  split
  · have hdump : d.dumpModifiedRecords stored 0 (currentTime - 1) =
        .ok (stored.window 0 (currentTime - 1)) := if_pos hopen.2.1
    rw [hdump]
    apply (NoNullCall.ok _).bind
    intro dump
    repeat' split
    all_goals exact NoNullCall.ok _
  · exact NoNullCall.ok _

theorem noNullCall_makeUpdate {dump2 : Nat → Nat → Except TickFailure Dump}
    (hdump2 : ∀ start finish, NoNullCall (dump2 start finish))
    (dirs : Directories) (currentTime : Nat) (throws : Bool) :
    NoNullCall (makeUpdate dump2 dirs currentTime throws) := by
  have hstart : NoNullCall (updateStart dirs) := by
    apply (noNullCall_findMostRecentUpdate _).bind
    intro update
    cases update with
    | some update => exact NoNullCall.ok _
    | none =>
        apply (noNullCall_findMostRecentSnapshot _).bind
        intro snapshot
        cases snapshot <;> exact NoNullCall.ok _
  apply hstart.bind
  intro start
  dsimp only
  split
  · apply (hdump2 _ _).bind
    intro dump
    split <;> exact NoNullCall.ok _
  · exact NoNullCall.ok _

/-- With the handles open the tick uses no closed database. -/
theorem noNullCall_snapshot {d : ClientDatabase} (hopen : d.HandlesOpen)
    (index : TimeIndex) (stored : Database) (dirs : Directories)
    (currentTime : Nat) (fails : Option PublishStep) (throws : Bool) :
    NoNullCall (snapshot d stored (d.dumpModifiedRecords2 index stored) dirs
      currentTime fails throws) := by
  have hdump2 : ∀ start finish,
      NoNullCall (d.dumpModifiedRecords2 index stored start finish) := by
    intro start finish
    rw [ClientDatabase.dumpModifiedRecords2, if_pos hopen.2.2]
    exact NoNullCall.ok _
  unfold snapshot
  split
  · exact NoNullCall.ok _
  · have hmade : ∀ dirs, NoNullCall (do
        let made ← makeSnapshot d stored dirs currentTime fails
        if made.2 then pure made.1 else
          makeUpdate (d.dumpModifiedRecords2 index stored) made.1 currentTime
            throws) := by
      intro dirs
      apply (noNullCall_makeSnapshot hopen _ _ _ _).bind
      intro made
      split
      · exact NoNullCall.ok _
      · exact noNullCall_makeUpdate hdump2 _ _ _
    apply (noNullCall_expireSnapshots _ _).bind
    intro expired
    dsimp only
    split
    · exact (noNullCall_expireUpdates _).bind hmade
    · exact (NoNullCall.ok _).bind hmade

end Updated

namespace ClientRun

/-- While `up()` returns true the handles are open, and no tick of the
exporter uses a closed database. -/
def UpIsOpen (s : ClientRun) : Prop :=
  (s.db.up = true → s.db.HandlesOpen) ∧
    ∀ index stored dirs currentTime fails throws, NoNullCall
      (Updated.snapshot s.db stored (s.db.dumpModifiedRecords2 index stored)
        dirs currentTime fails throws)

/-- A failed ping read is handled only after `connected_` was cleared. -/
def PingLostWhileDown (s : ClientRun) : ClientEvent → Prop
  | .handleReadPing _ true => s.db.connected_ = false
  | _ => True

/-- The invariant behind `UpIsOpen`. -/
def OpenInv (s : ClientRun) : Prop :=
  s.db.connected_ = true → s.db.HandlesOpen

theorem OpenInv.upIsOpen {s : ClientRun} (h : s.OpenInv) : s.UpIsOpen := by
  refine ⟨h, fun index stored dirs currentTime fails throws => ?_⟩
  by_cases hup : s.db.connected_ = true
  · exact Updated.noNullCall_snapshot (h hup) _ _ _ _ _ _
  · have hdown : s.db.up = false := Bool.eq_false_iff.mpr hup
    rw [Updated.snapshot, hdown]
    exact NoNullCall.ok _

theorem openInv_init : clientSystem.init.OpenInv := by
  intro h
  cases h

/-- The steps that leave the handles and `connected_` alone. -/
theorem OpenInv.frame {s s' : ClientRun} (h : s.OpenInv)
    (hconnected : s'.db.connected_ = s.db.connected_)
    (hhandles : s'.db.HandlesOpen ↔ s.db.HandlesOpen) : s'.OpenInv := by
  intro hc
  exact hhandles.mpr (h (hconnected ▸ hc))

theorem handlesOpen_handleConnect (d : ClientDatabase) :
    (d.handleConnect false).HandlesOpen := by
  cases hq : d.updates_ <;>
    simp [ClientDatabase.handleConnect, ClientDatabase.HandlesOpen, hq]

theorem handlesOpen_writeUpdate (d : ClientDatabase) (u : Update) :
    (d.writeUpdate u).HandlesOpen ↔ d.HandlesOpen := by
  simp only [ClientDatabase.writeUpdate]
  split <;> rfl

theorem handlesOpen_handleWriteUpdate (d : ClientDatabase) :
    (d.handleWriteUpdate false).HandlesOpen ↔ d.HandlesOpen := by
  simp only [ClientDatabase.handleWriteUpdate, Bool.not_false, ↓reduceIte]
  split <;> rfl

/-- One step: unless a lost ping is handled while `connected_` is set. -/
theorem openInv_step :
    clientSystem.Preserves OpenInv PingLostWhileDown := by
  intro s s' event h hguard hstep
  change s.step event = some s' at hstep
  cases event with
  | writeUpdate u =>
      obtain rfl := Option.some.inj hstep
      exact h.frame (s.db.writeUpdate_connected_ u)
        (handlesOpen_writeUpdate s.db u)
  | handleConnect i error =>
      obtain ⟨link, hlink, rfl⟩ := Option.map_eq_some_iff.mp hstep
      cases error with
      | false => exact fun _ => handlesOpen_handleConnect _
      | true => exact h.frame rfl Iff.rfl
  | handleReadPing i error =>
      obtain ⟨link, hlink, rfl⟩ := Option.map_eq_some_iff.mp hstep
      cases error with
      | false => exact h.frame rfl Iff.rfl
      | true =>
          intro hc
          have hdown : s.db.connected_ = false := hguard
          have hup : s.db.connected_ = true := hc
          rw [hdown] at hup
          cases hup
  | handleWriteUpdate i error =>
      obtain ⟨⟨data, link⟩, hlink, rfl⟩ := Option.map_eq_some_iff.mp hstep
      cases error with
      | false =>
          exact h.frame (by simp) (handlesOpen_handleWriteUpdate _)
      | true =>
          intro hc
          simp at hc
  | timer =>
      obtain ⟨link, hlink, rfl⟩ := Option.map_eq_some_iff.mp hstep
      exact h.frame rfl Iff.rfl
  | timerCancelled =>
      obtain ⟨link, hlink, rfl⟩ := Option.map_eq_some_iff.mp hstep
      exact h.frame rfl Iff.rfl

/-- A ping lost while `connected_` is set leaves it set over closed
handles. -/
theorem not_upIsOpen_of_ping_lost {s s' : ClientRun} {event : ClientEvent}
    (hstep : s.step event = some s')
    (hlost : ¬ s.PingLostWhileDown event) : ¬ s'.UpIsOpen := by
  cases event with
  | handleReadPing i error =>
      cases error with
      | false => exact (hlost trivial).elim
      | true =>
          obtain ⟨link, hlink, rfl⟩ := Option.map_eq_some_iff.mp hstep
          have hup : s.db.connected_ = true := by
            simpa [PingLostWhileDown] using hlost
          intro hopen
          have hhandles := hopen.1 hup
          exact absurd hhandles.1 (by simp [ClientDatabase.handleReadPing])
  | writeUpdate u => exact (hlost trivial).elim
  | handleConnect i error => exact (hlost trivial).elim
  | handleWriteUpdate i error => exact (hlost trivial).elim
  | timer => exact (hlost trivial).elim
  | timerCancelled => exact (hlost trivial).elim

end ClientRun

/-- The runs in which `up()` always means open handles are exactly the runs
in which no failed ping read is handled while `connected_` is set. -/
theorem client_upIsOpen_iff (events : List ClientEvent) :
    clientSystem.Always ClientRun.UpIsOpen events ↔
      clientSystem.Each ClientRun.PingLostWhileDown events :=
  clientSystem.always_iff_each ClientRun.openInv_init
    ClientRun.openInv_step (fun _ h => h.upIsOpen)
    (fun _ hstep hlost => ClientRun.not_upIsOpen_of_ping_lost hstep hlost)
    events

/-- The server closes an idle connection. -/
def pingLost : List ClientEvent :=
  [.handleConnect 0 false, .handleReadPing 0 true]

/-- After it `up()` is true, the handles are `NULL`, and the first snapshot
tick calls through one. -/
theorem client_not_always_upIsOpen :
    (∃ s, clientSystem.run pingLost = some s ∧ s.db.up = true ∧
      Updated.snapshot s.db ∅ (s.db.dumpModifiedRecords2 TimeIndex.stable ∅)
        { snapshots := [], current := none, updates := [] } 1200000000 none
        false = .error .nullHandle) ∧
      ¬ ∀ events, clientSystem.Always ClientRun.UpIsOpen events := by
  refine ⟨⟨_, rfl, rfl, rfl⟩, fun h => ?_⟩
  obtain ⟨s, hrun, hup, hclosed⟩ : ∃ s, clientSystem.run pingLost = some s ∧
      s.db.up = true ∧ ¬ s.db.HandlesOpen := ⟨_, rfl, rfl, by decide⟩
  have hend := clientSystem.alwaysFrom_iff.mp (h pingLost) pingLost s
    List.prefix_rfl hrun
  exact hclosed (hend.1 hup)

end BohunoPyzord
