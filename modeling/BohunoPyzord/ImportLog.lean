/-
The calls on the database that an import makes, turn by turn.  What these
leave behind is what the import keeps track of: its open transaction is the
one that is running, and what is stored is what was stored before and the
batches committed since.
-/
import BohunoPyzord.Import
import BohunoPyzord.TransactionLog

namespace BohunoPyzord

/-- The frame that a turn reads, if no read finds the end of the stream. -/
def readFrame (input : InputStream Byte) :
    Option (Hash × Record) × InputStream Byte :=
  let (hashBytes, input) := input.read 20
  if input.eof then (none, input)
  else
    let (recordBytes, input) := input.read 32
    if input.eof then (none, input)
    else (some (Hash.ofBytes hashBytes, Record.ofBytes recordBytes), input)

def ImportTurn.state : ImportTurn → ImportState
  | .again s => s
  | .leave s => s
  | .throw _ s => s

/-- A turn that puts the record `p`, having read it. -/
def putTurn (calls : ImportCalls) (s : ImportState) (txn : Dump)
    (p : Hash × Record) (input : InputStream Byte) : ImportTurn :=
  let n := incrementInt s.n
  if !calls.put then
    .throw .cannotInsertRecord { s with txn := some txn, input }
  else if n.tmod importBatchSize = 0 then
    if !calls.callback then
      .throw .callback { s with txn := some (txn ++ [p]), n, input }
    else if !calls.commit then
      .throw .cannotCommitTransaction { s with txn := none, n, input }
    else
      .again { stored := s.stored.importDump (txn ++ [p]), txn := none, n, input }
  else .again { s with txn := some (txn ++ [p]), n, input }

theorem importTurn_eq (calls : ImportCalls) (s : ImportState) :
    importTurn calls s =
      if s.input.eof then .leave s
      else if s.txn.isNone && !calls.txnBegin then
        .throw .cannotCreateTransaction s
      else
        match readFrame s.input with
        | (none, input) =>
            .leave { s with txn := some (s.txn.getD []), input }
        | (some p, input) => putTurn calls s (s.txn.getD []) p input := by
  rw [importTurn, readFrame]
  dsimp only
  split
  · rfl
  · split
    · rfl
    · split
      · rfl
      · split
        · rfl
        · rfl

/-- The calls of the part of a turn that puts a record. -/
def putLog (calls : ImportCalls) (s : ImportState) (p : Hash × Record) :
    List (StoreCall (Hash × Record)) :=
  if !calls.put then [.put p false]
  else if (incrementInt s.n).tmod importBatchSize = 0 ∧ calls.callback then
    [.put p true, .commit calls.commit]
  else [.put p true]

/-- The calls of a turn. -/
def turnLog (calls : ImportCalls) (s : ImportState) :
    List (StoreCall (Hash × Record)) :=
  if s.input.eof then []
  else if s.txn.isNone && !calls.txnBegin then [.txnBegin false]
  else
    (if s.txn.isNone then [.txnBegin true] else []) ++
      match readFrame s.input with
      | (none, _) => []
      | (some p, _) => putLog calls s p

/-- The commit after the loop. -/
def finishLog (calls : ImportCalls) (s : ImportState) :
    List (StoreCall (Hash × Record)) :=
  if s.txn.isSome && calls.callback then [.commit calls.commit] else []

def importLog (calls : Nat → ImportCalls) :
    Nat → ImportState → List (StoreCall (Hash × Record))
  | 0, _ => []
  | fuel + 1, s =>
      turnLog (calls 0) s ++
        match importTurn (calls 0) s with
        | .again s => importLog (fun turn => calls (turn + 1)) fuel s
        | .leave s => finishLog (calls 0) s
        | .throw _ _ => []

/-- The calls of `bohuno::database::import`. -/
def Database.importStreamLog (calls : Nat → ImportCalls) (fuel : Nat)
    (stored : Database) (input : InputStream Byte) :
    List (StoreCall (Hash × Record)) :=
  let (_, input) := input.read 4
  importLog calls fuel { stored, txn := none, n := 0, input }

/-- The state of an import that started with `stored`, after the calls that
left `t` behind. -/
structure Tracks (stored : Database) (t : Transactions (Hash × Record))
    (s : ImportState) : Prop where
  running : t.running = s.txn.toList
  batches : s.stored = stored.importDump t.batches.flatten

namespace Tracks

variable {stored : Database} {t : Transactions (Hash × Record)}
  {s : ImportState}

/-- After the start of a transaction if there was none. -/
theorem begun (h : Tracks stored t s) :
    Tracks stored
      (t.replay (if s.txn.isNone then [.txnBegin true] else []))
      { s with txn := some (s.txn.getD []) } := by
  obtain ⟨hrunning, hbatches⟩ := h
  rcases s with ⟨db, _ | txn, n, input⟩
  · exact ⟨congrArg _ hrunning, hbatches⟩
  · exact ⟨hrunning, hbatches⟩

/-- Neither the count nor the stream matters. -/
theorem congr (h : Tracks stored t s) {s' : ImportState}
    (hstored : s'.stored = s.stored) (htxn : s'.txn = s.txn) :
    Tracks stored t s' :=
  ⟨by rw [htxn, h.running], by rw [hstored, h.batches]⟩

theorem put {txn : Dump} (h : Tracks stored t { s with txn := some txn })
    (p : Hash × Record) :
    Tracks stored (t.call (.put p true))
      { s with txn := some (txn ++ [p]) } := by
  refine ⟨?_, h.batches⟩
  have hrunning : t.running = [txn] := h.running
  rw [Transactions.call, hrunning]
  rfl

theorem commit {txn : Dump} (h : Tracks stored t { s with txn := some txn })
    (ok : Bool) :
    Tracks stored (t.call (.commit ok))
      { s with
        stored := if ok then s.stored.importDump txn else s.stored
        txn := none } := by
  have hrunning : t.running = [txn] := h.running
  have hbatches : s.stored = stored.importDump t.batches.flatten := h.batches
  cases ok with
  | false =>
      refine ⟨?_, hbatches⟩
      rw [Transactions.call, hrunning]
      rfl
  | true =>
      refine ⟨?_, ?_⟩
      · rw [Transactions.call, hrunning]
        rfl
      · have hmore : (t.call (.commit true)).batches = t.batches ++ [txn] := by
          rw [Transactions.call, hrunning]
          rfl
        rw [hmore, List.flatten_append, Database.importDump_append, ← hbatches]
        simp

theorem putTurn {txn : Dump} (h : Tracks stored t { s with txn := some txn })
    (calls : ImportCalls) (p : Hash × Record) (input : InputStream Byte) :
    Tracks stored (t.replay (putLog calls s p))
      (putTurn calls s txn p input).state := by
  rcases calls with ⟨txnBegin, put, callback, commit⟩
  rw [BohunoPyzord.putTurn, putLog]
  cases put with
  | false => exact h.congr rfl rfl
  | true =>
      have hput := h.put p
      by_cases hbatch : (incrementInt s.n).tmod importBatchSize = 0
      · simp only [hbatch]
        cases callback with
        | false => exact hput.congr rfl rfl
        | true =>
            have hcommit := hput.commit commit
            cases commit with
            | false => exact hcommit.congr rfl rfl
            | true => exact hcommit.congr rfl rfl
      · simp only [hbatch]
        exact hput.congr rfl rfl

/-- What a turn keeps track of is what its calls leave behind. -/
theorem turn (h : Tracks stored t s) (calls : ImportCalls) :
    Tracks stored (t.replay (turnLog calls s)) (importTurn calls s).state := by
  rw [importTurn_eq, turnLog]
  split
  · exact h
  · split
    · exact h
    · rw [Transactions.replay_append]
      rcases readFrame s.input with ⟨_ | p, input⟩
      · exact h.begun.congr rfl rfl
      · exact h.begun.putTurn calls p input

theorem finish (h : Tracks stored t s) (calls : ImportCalls) :
    Tracks stored (t.replay (finishLog calls s)) (finishImport calls s).2 := by
  rcases s with ⟨db, _ | txn, n, input⟩
  · exact h
  · rcases calls with ⟨txnBegin, put, callback, commit⟩
    cases callback with
    | false => exact h
    | true =>
        have hcommit := Tracks.commit (s := ⟨db, some txn, n, input⟩) h commit
        cases commit with
        | false => exact hcommit
        | true => exact hcommit

/-- The same of a whole loop. -/
theorem loop (h : Tracks stored t s) {calls : Nat → ImportCalls} {fuel : Nat}
    {ended : Except ImportError Int × ImportState}
    (hended : importLoop calls fuel s = some ended) :
    Tracks stored (t.replay (importLog calls fuel s)) ended.2 := by
  induction fuel generalizing calls t s with
  | zero => cases hended
  | succ fuel ih =>
      have hturn := h.turn (calls 0)
      rw [importLoop] at hended
      rw [importLog, Transactions.replay_append]
      cases hnext : importTurn (calls 0) s with
      | again s' =>
          rw [hnext] at hended hturn
          exact ih hturn hended
      | leave s' =>
          rw [hnext] at hended hturn
          rw [← Option.some.inj hended]
          exact hturn.finish (calls 0)
      | throw error s' =>
          rw [hnext] at hended hturn
          rw [← Option.some.inj hended]
          exact hturn

end Tracks

/-- An import is described by its calls alone. -/
theorem tracks_importStream {calls : Nat → ImportCalls} {fuel : Nat}
    {stored : Database} {input : InputStream Byte}
    {ended : Except ImportError Int × ImportState}
    (hended : stored.importStream calls fuel input = some ended) :
    Tracks stored (Transactions.none.replay
      (stored.importStreamLog calls fuel input)) ended.2 := by
  have hstart : Tracks stored Transactions.none
      { stored, txn := none, n := 0, input := (input.read 4).2 } := ⟨rfl, rfl⟩
  exact hstart.loop hended

end BohunoPyzord
