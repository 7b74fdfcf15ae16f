/-
How an import ends.  It leaves its loop only at the end of the stream or by an
exception, and an exception of `put` or of the callback leaves the transaction
open.  A stream that fails instead of ending is read for ever.
-/
import BohunoPyzord.ImportLog

namespace BohunoPyzord

/-- The transactions of an import that has ended: none is open, and what is
stored is what was stored before and the batches whose commit succeeded. -/
def Settled (stored : Database) (log : List (StoreCall (Hash × Record)))
    (ended : Except ImportError Int × ImportState) : Prop :=
  let left := Transactions.none.replay log
  left.running = [] ∧
    ended.2.stored = stored.importDump left.batches.flatten

/-- In a turn from `s`, the put succeeds if it is come to, and the callback
does not throw. -/
def TurnHolds (calls : ImportCalls) (s : ImportState) : Prop :=
  if s.input.eof then s.txn.isSome = true → calls.callback = true
  else
    s.txn.isSome = true ∨ calls.txnBegin = true →
      match (readFrame s.input).1 with
      | none => calls.callback = true
      | some _ =>
          calls.put = true ∧
            ((incrementInt s.n).tmod importBatchSize = 0 →
              calls.callback = true)

/-- The same in every turn the loop comes to. -/
def CallsHold (calls : Nat → ImportCalls) : Nat → ImportState → Prop
  | 0, _ => True
  | fuel + 1, s =>
      TurnHolds (calls 0) s ∧
        match importTurn (calls 0) s with
        | .again s => CallsHold (fun turn => calls (turn + 1)) fuel s
        | _ => True

/-- The same in an import from the start. -/
def StreamCallsHold (calls : Nat → ImportCalls) (fuel : Nat)
    (stored : Database) (input : InputStream Byte) : Prop :=
  let (_, input) := input.read 4
  CallsHold calls fuel { stored, txn := none, n := 0, input }

theorem finishImport_closed (calls : ImportCalls) (s : ImportState) :
    (finishImport calls s).2.txn = none ↔
      (s.txn.isSome = true → calls.callback = true) := by
  rcases s with ⟨db, _ | txn, n, input⟩
  · simp [finishImport]
  · rw [finishImport]
    dsimp only
    cases calls.callback
    · simp
    · cases calls.commit
      · simp
      · simp

theorem putTurn_closed (calls : ImportCalls) (s : ImportState) (txn : Dump)
    (p : Hash × Record) (input : InputStream Byte) :
    (match putTurn calls s txn p input with
      | .again _ => True
      | .leave s => (finishImport calls s).2.txn = none
      | .throw _ s => s.txn = none) ↔
        calls.put = true ∧
          ((incrementInt s.n).tmod importBatchSize = 0 →
            calls.callback = true) := by
  rw [putTurn]
  cases calls.put
  · simp
  · by_cases hbatch : (incrementInt s.n).tmod importBatchSize = 0
    · simp only [hbatch]
      cases calls.callback
      · simp
      · cases calls.commit
        · simp
        · simp
    · simp [hbatch]

/-- A turn that is the last one leaves a transaction open exactly if it does
not hold. -/
theorem turnHolds_iff (calls : ImportCalls) (s : ImportState) :
    TurnHolds calls s ↔
      match importTurn calls s with
      | .again _ => True
      | .leave s => (finishImport calls s).2.txn = none
      | .throw _ s => s.txn = none := by
  rw [importTurn_eq, TurnHolds]
  split
  · exact (finishImport_closed calls s).symm
  · by_cases hbegin : s.txn.isSome = true ∨ calls.txnBegin = true
    · have hgoes : (s.txn.isNone && !calls.txnBegin) = false := by
        rcases hbegin with htxn | hcall
        · rw [← Option.not_isSome, htxn]
          rfl
        · rw [hcall, Bool.not_true, Bool.and_false]
      simp only [hgoes, hbegin, Bool.false_eq_true, if_false, true_implies]
      rcases readFrame s.input with ⟨_ | p, input⟩
      · dsimp only
        rw [finishImport_closed]
        simp
      · exact (putTurn_closed calls s _ p input).symm
    · rw [not_or, Bool.not_eq_true, Bool.not_eq_true] at hbegin
      obtain ⟨htxn, hcall⟩ := hbegin
      have hnone : s.txn = none := Option.not_isSome_iff_eq_none.mp (by simp [htxn])
      simp [hnone, hcall]

theorem importLoop_closed {calls : Nat → ImportCalls} {fuel : Nat}
    {s : ImportState} {ended : Except ImportError Int × ImportState}
    (hended : importLoop calls fuel s = some ended) :
    ended.2.txn = none ↔ CallsHold calls fuel s := by
  induction fuel generalizing calls s with
  | zero => cases hended
  | succ fuel ih =>
      have hturn := turnHolds_iff (calls 0) s
      rw [importLoop] at hended
      rw [CallsHold]
      cases hnext : importTurn (calls 0) s with
      | again s' =>
          rw [hnext] at hended hturn
          rw [ih hended]
          exact (and_iff_right (hturn.mpr trivial)).symm
      | leave s' =>
          rw [hnext] at hended hturn
          rw [← Option.some.inj hended, and_true, hturn]
      | throw error s' =>
          rw [hnext] at hended hturn
          rw [← Option.some.inj hended, and_true, hturn]

/-- An import settles its transactions exactly if no put fails in it and no
callback throws. -/
theorem settled_iff {calls : Nat → ImportCalls} {fuel : Nat}
    {stored : Database} {input : InputStream Byte}
    {ended : Except ImportError Int × ImportState}
    (hended : stored.importStream calls fuel input = some ended) :
    Settled stored (stored.importStreamLog calls fuel input) ended ↔
      StreamCallsHold calls fuel stored input := by
  have htracks := tracks_importStream hended
  have hclosed : ended.2.txn = none ↔
      StreamCallsHold calls fuel stored input := importLoop_closed hended
  rw [← hclosed, Settled, and_iff_left htracks.batches, htracks.running,
    Option.toList_eq_nil_iff]

/-- Without a put that fails and a callback that throws, every turn holds. -/
theorem callsHold_of_forall {calls : Nat → ImportCalls}
    (hput : ∀ turn, (calls turn).put = true)
    (hcallback : ∀ turn, (calls turn).callback = true) (fuel : Nat)
    (s : ImportState) : CallsHold calls fuel s := by
  induction fuel generalizing calls s with
  | zero => trivial
  | succ fuel ih =>
      refine ⟨?_, ?_⟩
      · unfold TurnHolds
        split
        · exact fun _ => hcallback 0
        · intro _
          split
          · exact hcallback 0
          · exact ⟨hput 0, fun _ => hcallback 0⟩
      · split
        · exact ih (fun turn => hput (turn + 1)) (fun turn =>
            hcallback (turn + 1)) _
        · trivial

/-- A file with two records. -/
def twoRecords : InputStream Byte :=
  InputStream.opened (dumpStream
    [(⟨Vector.replicate 20 1⟩, Record.zero.report 10 10),
      (⟨Vector.replicate 20 2⟩, Record.zero.report 20 20)])

/-- One record is stored and two are imported: where the last commit fails,
the import is settled and leaves the one; where the second put fails, it is
not settled. -/
theorem settled_iff_twoRecords :
    let stored : Database := (∅ : Database).insert ⟨Vector.replicate 20 3⟩
      (Record.zero.report 5 5)
    let commitFails : Nat → ImportCalls := fun _ =>
      { ImportCalls.succeed with commit := false }
    let secondPutFails : Nat → ImportCalls := fun turn =>
      { ImportCalls.succeed with put := turn ≠ 1 }
    (∃ ended, stored.importStream commitFails 3 twoRecords = some ended ∧
      ended.1.toOption = none ∧ ended.2.stored.entries = stored.entries ∧
      Settled stored (stored.importStreamLog commitFails 3 twoRecords)
        ended) ∧
    ∃ ended, stored.importStream secondPutFails 3 twoRecords = some ended ∧
      ¬ Settled stored (stored.importStreamLog secondPutFails 3 twoRecords)
        ended ∧
      ¬ StreamCallsHold secondPutFails 3 stored twoRecords := by
  intro stored commitFails secondPutFails
  have hcommit : (stored.importStream commitFails 3 twoRecords).any
      (fun ended => ended.1.toOption = none ∧
        ended.2.stored.entries = stored.entries) = true := by
    decide +kernel
  have hput : (stored.importStream secondPutFails 3 twoRecords).any
      (fun ended => ended.2.txn.isSome) = true := by
    decide +kernel
  obtain ⟨ended, hended, hstored⟩ := (Option.any_eq_true _ _).mp hcommit
  obtain ⟨open_, hopen, htxn⟩ := (Option.any_eq_true _ _).mp hput
  have hunsettled : ¬ Settled stored
      (stored.importStreamLog secondPutFails 3 twoRecords) open_ := by
    rintro ⟨hnone, -⟩
    rw [(tracks_importStream hopen).running, Option.toList_eq_nil_iff] at hnone
    rw [hnone] at htxn
    cases htxn
  obtain ⟨hfails, hsame⟩ := of_decide_eq_true hstored
  refine ⟨⟨ended, hended, hfails, hsame, ?_⟩, open_, hopen, hunsettled, ?_⟩
  · exact (settled_iff hended).mpr
      (callsHold_of_forall (fun _ => rfl) (fun _ => rfl) _ _)
  · exact fun hholds => hunsettled ((settled_iff hopen).mpr hholds)

/-- A file with one record, which cannot be put. -/
theorem not_settled :
    ¬ ∀ (calls : Nat → ImportCalls) (fuel : Nat) (stored : Database)
      (input : InputStream Byte)
      (ended : Except ImportError Int × ImportState),
        stored.importStream calls fuel input = some ended →
          Settled stored (stored.importStreamLog calls fuel input) ended := by
  intro h
  have hends : (Database.importStream
      (fun _ => { ImportCalls.succeed with put := false }) 1 ∅
      (InputStream.opened (dumpStream [(⟨Vector.replicate 20 1⟩, .zero)]))).any
        (fun ended => ended.2.txn.isSome) = true := by decide +kernel
  obtain ⟨ended, hended, htxn⟩ := (Option.any_eq_true _ _).mp hends
  have hsettled := (h _ _ _ _ ended hended).1
  rw [(tracks_importStream hended).running, Option.toList_eq_nil_iff]
    at hsettled
  rw [hsettled] at htxn
  cases htxn

/-! The ends of the stream, and of its source. -/

/-- A record that is one of the frames of a stream. -/
def IsFrame (stream : List Byte) (p : Hash × Record) : Prop :=
  ∃ front rest, stream = front ++ recordFraming.encode p ++ rest ∧
    recordFraming.size ∣ front.length

/-- What a decompressor makes of a download: the bytes it gets out of it, and
whether it throws behind them. -/
abbrev Decompressor := List Byte → List Byte × Bool

def Decompressor.opened (gunzip : Decompressor) (data : List Byte) :
    InputStream Byte :=
  { rest := (gunzip data).1, corrupt := (gunzip data).2, eof := false
    failed := false }

/-- Both imports of a download end, whatever their calls do, and put no
record but those of the frames behind the header. -/
def ImportsFrames (gunzip : Decompressor) (data : List Byte) : Prop :=
  ∀ (stored : Database) (calls : Nat → ImportCalls),
    (∃ fuel ended,
      stored.importStream calls fuel (gunzip.opened data) = some ended) ∧
    (∃ fuel ended,
      stored.importFile gunzip.opened calls fuel (some data) = some ended) ∧
    ∀ fuel p ok,
      .put p ok ∈ stored.importStreamLog calls fuel (gunzip.opened data) →
        IsFrame ((gunzip data).1.drop 4) p

theorem readFrame_encode (p : Hash × Record) (rest : List Byte) :
    readFrame (InputStream.opened (recordFraming.encode p ++ rest)) =
      (some p, InputStream.opened rest) := by
  have hsplit : recordFraming.encode p ++ rest =
      p.1.bytes ++ (p.2.bytes ++ rest) := List.append_assoc _ _ _
  rw [readFrame, hsplit, InputStream.read_opened_append p.1.length_bytes]
  dsimp only
  rw [InputStream.read_opened_append p.2.length_bytes, Hash.ofBytes_bytes,
    Record.ofBytes_bytes]
  rfl

theorem readFrame_short {units : List Byte} (h : units.length < 52) :
    (readFrame (InputStream.opened units)).1 = none := by
  rw [readFrame]
  by_cases hhash : units.length < 20
  · rw [InputStream.read_opened_short hhash]
    rfl
  · have hfront : (units.take 20).length = 20 := by
      rw [List.length_take]
      omega
    have hread : (InputStream.opened (units.take 20 ++ units.drop 20)).read 20 =
        (units.take 20, InputStream.opened (units.drop 20)) :=
      InputStream.read_opened_append hfront
    rw [List.take_append_drop] at hread
    have hrest : (units.drop 20).length < 32 := by
      rw [List.length_drop]
      omega
    rw [hread]
    dsimp only
    rw [InputStream.read_opened_short hrest]
    rfl

/-- A frame is read if there is one. -/
theorem readFrame_opened {units : List Byte} {p : Hash × Record}
    {input : InputStream Byte}
    (h : readFrame (InputStream.opened units) = (some p, input)) :
    ∃ rest, units = recordFraming.encode p ++ rest ∧
      input = InputStream.opened rest := by
  by_cases hshort : units.length < 52
  · have hnone := readFrame_short hshort
    rw [h] at hnone
    cases hnone
  · have hsplit : units =
        recordFraming.encode (recordFraming.decode (units.take 52)) ++
          units.drop 52 := by
      rw [recordFraming.encode_decode, List.take_append_drop]
      rw [List.length_take]
      exact Nat.min_eq_left (Nat.le_of_not_lt hshort)
    rw [hsplit, readFrame_encode] at h
    simp only [Prod.mk.injEq, Option.some.injEq] at h
    obtain ⟨rfl, rfl⟩ := h
    exact ⟨_, hsplit, rfl⟩

theorem putTurn_again {calls : ImportCalls} {s s' : ImportState} {txn : Dump}
    {p : Hash × Record} {input : InputStream Byte}
    (h : putTurn calls s txn p input = .again s') : s'.input = input := by
  rw [putTurn] at h
  split_ifs at h
  · cases h
    rfl
  · cases h
    rfl

/-- A turn that is not the last one has read a frame. -/
theorem readFrame_of_again {calls : ImportCalls} {s s' : ImportState}
    (hnext : importTurn calls s = .again s') :
    s.input.eof = false ∧ ∃ p, readFrame s.input = (some p, s'.input) := by
  rw [importTurn_eq] at hnext
  split_ifs at hnext with heof
  rcases hframe : readFrame s.input with ⟨_ | p, input⟩
  · rw [hframe] at hnext
    cases hnext
  · rw [hframe] at hnext
    exact ⟨by simpa using heof, p, by rw [putTurn_again hnext]⟩

theorem eq_of_mem_putLog {calls : ImportCalls} {s : ImportState}
    {p q : Hash × Record} {ok : Bool} (h : .put p ok ∈ putLog calls s q) :
    p = q := by
  rw [putLog] at h
  split_ifs at h
  · simp only [List.mem_singleton, StoreCall.put.injEq] at h
    exact h.1
  · simp only [List.mem_cons, StoreCall.put.injEq, reduceCtorEq,
      List.not_mem_nil, or_false] at h
    exact h.1
  · simp only [List.mem_singleton, StoreCall.put.injEq] at h
    exact h.1

/-- What is put is what has been read. -/
theorem readFrame_of_put {calls : ImportCalls} {s : ImportState}
    {p : Hash × Record} {ok : Bool} (hput : .put p ok ∈ turnLog calls s) :
    s.input.eof = false ∧ (readFrame s.input).1 = some p := by
  rw [turnLog] at hput
  by_cases heof : s.input.eof = true
  · rw [if_pos heof] at hput
    cases hput
  · rw [if_neg heof] at hput
    refine ⟨by simpa using heof, ?_⟩
    split at hput
    · simp at hput
    · rcases List.mem_append.mp hput with hbegun | hput
      · split at hbegun
        · simp at hbegun
        · cases hbegun
      · rcases hframe : readFrame s.input with ⟨_ | q, input⟩
        · rw [hframe] at hput
          cases hput
        · rw [hframe] at hput
          rw [eq_of_mem_putLog hput]

theorem finishLog_no_put {calls : ImportCalls} {s : ImportState}
    {p : Hash × Record} {ok : Bool} : .put p ok ∉ finishLog calls s := by
  rw [finishLog]
  split
  · simp
  · simp

/-- An input that has come to its end, or is sound up to it. -/
def SoundInput (input : InputStream Byte) : Prop :=
  input.eof = true ∨ ∃ units, input = InputStream.opened units

theorem SoundInput.again {calls : ImportCalls} {s s' : ImportState}
    (h : SoundInput s.input) (hnext : importTurn calls s = .again s') :
    ∃ p rest, s.input = InputStream.opened (recordFraming.encode p ++ rest) ∧
      readFrame s.input = (some p, s'.input) ∧
      s'.input = InputStream.opened rest := by
  obtain ⟨heof, p, hframe⟩ := readFrame_of_again hnext
  rcases h with hend | ⟨units, hunits⟩
  · rw [heof] at hend
    cases hend
  · rw [hunits] at hframe
    obtain ⟨rest, rfl, hrest⟩ := readFrame_opened hframe
    refine ⟨p, rest, hunits, ?_, hrest⟩
    rw [hunits, hframe]

/-- Every turn but the last one takes a frame off the stream. -/
theorem importLoop_ends {calls : Nat → ImportCalls} {fuel : Nat}
    {s : ImportState} (h : SoundInput s.input)
    (hfuel : s.input.rest.length < fuel) :
    ∃ ended, importLoop calls fuel s = some ended := by
  induction fuel generalizing calls s with
  | zero => omega
  | succ fuel ih =>
      rw [importLoop]
      cases hnext : importTurn (calls 0) s with
      | again s' =>
          obtain ⟨p, rest, hinput, -, hrest⟩ := h.again hnext
          apply ih (Or.inr ⟨rest, hrest⟩)
          have hsize := recordFraming.length_encode p
          have hpos := recordFraming.size_pos
          rw [hinput] at hfuel
          rw [hrest]
          simp only [InputStream.opened, List.length_append] at hfuel ⊢
          omega
      | leave s' => exact ⟨_, rfl⟩
      | throw error s' => exact ⟨_, rfl⟩

/-- The loop puts frames only, of a stream that it has read `front` of. -/
theorem isFrame_of_loop {stream front : List Byte} {calls : Nat → ImportCalls}
    {fuel : Nat} {s : ImportState}
    (h : s.input.eof = true ∨
      ∃ units, s.input = InputStream.opened units ∧ stream = front ++ units)
    (hfront : recordFraming.size ∣ front.length) {p : Hash × Record}
    {ok : Bool} (hput : .put p ok ∈ importLog calls fuel s) :
    IsFrame stream p := by
  have hsound : SoundInput s.input :=
    h.imp_right fun ⟨units, hunits, _⟩ => ⟨units, hunits⟩
  induction fuel generalizing calls s front with
  | zero => cases hput
  | succ fuel ih =>
      rw [importLog] at hput
      rcases List.mem_append.mp hput with hturn | hlater
      · obtain ⟨heof, hframe⟩ := readFrame_of_put hturn
        rcases h with hend | ⟨units, hunits, hstream⟩
        · rw [heof] at hend
          cases hend
        · rw [hunits] at hframe
          obtain ⟨rest, hrest, -⟩ := readFrame_opened (Prod.ext hframe rfl)
          exact ⟨front, rest, by rw [hstream, hrest, List.append_assoc], hfront⟩
      · cases hnext : importTurn (calls 0) s with
        | again s' =>
            rw [hnext] at hlater
            obtain ⟨q, rest, hinput, -, hrest⟩ := hsound.again hnext
            rcases h with hend | ⟨units, hunits, hstream⟩
            · rw [hinput] at hend
              cases hend
            · have hsame : units = recordFraming.encode q ++ rest :=
                congrArg InputStream.rest (hunits.symm.trans hinput)
              have hlonger : recordFraming.size ∣
                  (front ++ recordFraming.encode q).length := by
                rw [List.length_append, recordFraming.length_encode]
                exact Nat.dvd_add_self_right.mpr hfront
              have hsplit : stream =
                  (front ++ recordFraming.encode q) ++ rest := by
                rw [hstream, hsame, List.append_assoc]
              exact ih (Or.inr ⟨rest, hrest, hsplit⟩) hlonger hlater
                (Or.inr ⟨rest, hrest⟩)
        | leave s' =>
            rw [hnext] at hlater
            exact absurd hlater finishLog_no_put
        | throw error s' =>
            rw [hnext] at hlater
            cases hlater

/-- After the header. -/
theorem soundInput_header (units : List Byte) :
    ((InputStream.opened units).read 4).2.eof = true ∨
      ((InputStream.opened units).read 4).2 =
        InputStream.opened (units.drop 4) := by
  by_cases hshort : units.length < 4
  · rw [InputStream.read_opened_short hshort]
    exact Or.inl rfl
  · right
    have hfront : (units.take 4).length = 4 := by
      rw [List.length_take]
      omega
    have hread : (InputStream.opened (units.take 4 ++ units.drop 4)).read 4 =
        (units.take 4, InputStream.opened (units.drop 4)) :=
      InputStream.read_opened_append hfront
    rw [List.take_append_drop] at hread
    rw [hread]

/-- A stream whose source fails never comes to its end. -/
theorem read_corrupt {input : InputStream Byte} (hcorrupt : input.corrupt = true)
    (heof : input.eof = false) (n : Nat) :
    (input.read n).2.corrupt = true ∧ (input.read n).2.eof = false := by
  rw [InputStream.read]
  split_ifs
  · exact ⟨hcorrupt, heof⟩
  · exact ⟨hcorrupt, heof⟩
  · exact ⟨hcorrupt, by rw [hcorrupt]; rfl⟩

theorem importLoop_corrupt {s : ImportState} (hcorrupt : s.input.corrupt = true)
    (heof : s.input.eof = false) (fuel : Nat) :
    importLoop (fun _ => .succeed) fuel s = none := by
  induction fuel generalizing s with
  | zero => rfl
  | succ fuel ih =>
      obtain ⟨hcorrupt', heof'⟩ := read_corrupt hcorrupt heof 20
      obtain ⟨hcorrupt'', heof''⟩ := read_corrupt hcorrupt' heof' 32
      have hframe : ∃ p, readFrame s.input =
          (some p, ((s.input.read 20).2.read 32).2) := by
        rw [readFrame]
        dsimp only
        rw [heof', heof'']
        exact ⟨_, rfl⟩
      obtain ⟨p, hframe⟩ := hframe
      have hturn : ∃ s', importTurn .succeed s = .again s' ∧
          s'.input = ((s.input.read 20).2.read 32).2 := by
        rw [importTurn_eq, hframe, heof]
        simp only [ImportCalls.succeed, putTurn]
        by_cases hbatch : (incrementInt s.n).tmod importBatchSize = 0
        · simp [hbatch]
        · simp [hbatch]
      obtain ⟨s', hnext, hinput⟩ := hturn
      rw [importLoop, hnext]
      apply ih
      · rw [hinput, hcorrupt'']
      · rw [hinput, heof'']

/-- A download is imported whole, or up to an exception, and nothing else is,
exactly if the decompressor does not throw on it. -/
theorem importsFrames_iff (gunzip : Decompressor) (data : List Byte) :
    ImportsFrames gunzip data ↔ (gunzip data).2 = false := by
  constructor
  · intro h
    obtain ⟨⟨fuel, ended, hended⟩, -, -⟩ := h ∅ fun _ => .succeed
    rw [← Bool.not_eq_true]
    intro hcorrupt
    obtain ⟨hcorrupt', heof'⟩ :=
      read_corrupt (show (gunzip.opened data).corrupt = true from hcorrupt) rfl 4
    rw [Database.importStream] at hended
    dsimp only at hended
    rw [importLoop_corrupt hcorrupt' heof'] at hended
    cases hended
  · intro hcorrupt stored calls
    have hopened : gunzip.opened data = InputStream.opened (gunzip data).1 := by
      rw [Decompressor.opened, hcorrupt]
      rfl
    have hheader := soundInput_header (gunzip data).1
    have hends : ∀ calls : Nat → ImportCalls, ∃ fuel ended,
        stored.importStream calls fuel (gunzip.opened data) = some ended := by
      intro calls
      have hsound : SoundInput ((gunzip.opened data).read 4).2 := by
        rw [hopened]
        exact hheader.imp_right fun h => ⟨_, h⟩
      refine ⟨((gunzip.opened data).read 4).2.rest.length + 1, ?_⟩
      rw [Database.importStream]
      exact importLoop_ends hsound (Nat.lt_succ_self _)
    refine ⟨hends calls, ?_, ?_⟩
    · obtain ⟨fuel, ended, hended⟩ :=
        hends fun turn => { calls turn with callback := true }
      refine ⟨fuel, (ended.1.map fun n => (n % 2 ^ 64).toNat, ended.2), ?_⟩
      rw [Database.importFile]
      dsimp only
      rw [hended]
      rfl
    · intro fuel p ok hput
      rw [Database.importStreamLog, hopened] at hput
      have hfront : recordFraming.size ∣ ([] : List Byte).length :=
        Nat.dvd_zero _
      refine isFrame_of_loop ?_ hfront hput
      exact hheader.imp_right fun h => ⟨_, h, rfl⟩

/-- An answer that is no gzip file. -/
theorem not_importsFrames :
    ¬ ∀ (gunzip : Decompressor) (data : List Byte),
      ImportsFrames gunzip data := by
  intro h
  obtain ⟨⟨fuel, ended, hended⟩, -, -⟩ :=
    h (fun data => if data.take 2 = [0x1f#8, 0x8b#8] then (data, false) else ([], true))
      [60, 104, 116, 109, 108, 62] ∅ fun _ => .succeed
  rw [Database.importStream] at hended
  dsimp only at hended
  rw [importLoop_corrupt rfl rfl] at hended
  cases hended

/-- What an import that has ended has stored: the first of the records, and
all of them if it has returned. -/
def Commits (stored : Database) (records : Dump)
    (ended : Except ImportError Int × ImportState) : Prop :=
  ∃ beginning, beginning <+: records ∧
    ended.2.stored = stored.importDump beginning ∧
    ∀ n, ended.1 = .ok n → beginning = records

theorem commits_error (records : Dump) (error : ImportError)
    (s : ImportState) : Commits s.stored records (.error error, s) :=
  ⟨[], List.nil_prefix, rfl, fun n hn => by cases hn⟩

theorem Commits.append {stored : Database} {txn records : Dump}
    {ended : Except ImportError Int × ImportState}
    (h : Commits (stored.importDump txn) records ended) :
    Commits stored (txn ++ records) ended := by
  obtain ⟨beginning, hbeginning, hstored, hall⟩ := h
  refine ⟨txn ++ beginning, ?_, ?_, fun n hn => ?_⟩
  · exact (List.prefix_append_right_inj _).mpr hbeginning
  · rw [hstored, ← Database.importDump_append]
  · rw [hall n hn]

/-- A loop over whole frames and a part of one, whatever calls fail, commits
what the transaction had put and the records of the frames. -/
theorem importLoop_commits (records : Dump) {rest : List Byte}
    (hrest : rest.length < 52) {calls : Nat → ImportCalls} {fuel : Nat}
    {s : ImportState} {ended : Except ImportError Int × ImportState}
    (hinput : s.input =
      InputStream.opened (recordFraming.encodeAll records ++ rest))
    (hended : importLoop calls fuel s = some ended) :
    Commits s.stored (s.txn.getD [] ++ records) ended := by
  induction records generalizing s calls fuel with
  | nil =>
      cases fuel with
      | zero => cases hended
      | succ fuel =>
          obtain ⟨input, hread⟩ : ∃ input, readFrame s.input = (none, input) :=
            ⟨_, Prod.ext (hinput ▸ readFrame_short hrest) rfl⟩
          have heof : s.input.eof = false := by rw [hinput]; rfl
          rw [importLoop, importTurn_eq, hread, heof] at hended
          by_cases hbegin : (s.txn.isNone && !(calls 0).txnBegin) = true
          · simp only [hbegin, Bool.false_eq_true, ↓reduceIte] at hended
            exact Option.some.inj hended ▸ commits_error _ _ s
          · simp only [hbegin, Bool.false_eq_true, ↓reduceIte] at hended
            obtain rfl := Option.some.inj hended
            rw [finishImport, List.append_nil]
            dsimp only
            split_ifs
            · exact commits_error _ _ { s with txn := _, input }
            · exact commits_error _ _ { s with txn := _, input }
            · exact ⟨_, List.prefix_rfl, rfl, fun _ _ => rfl⟩
  | cons p records ih =>
      cases fuel with
      | zero => cases hended
      | succ fuel =>
          rw [Framing.encodeAll_cons, List.append_assoc] at hinput
          have hread : readFrame s.input = (some p, InputStream.opened
              (recordFraming.encodeAll records ++ rest)) := by
            rw [hinput]
            exact readFrame_encode p _
          have heof : s.input.eof = false := by rw [hinput]; rfl
          rw [importLoop, importTurn_eq, hread, heof] at hended
          rw [List.append_cons]
          by_cases hbegin : (s.txn.isNone && !(calls 0).txnBegin) = true
          · simp only [hbegin, Bool.false_eq_true, ↓reduceIte] at hended
            exact Option.some.inj hended ▸ commits_error _ _ s
          · simp only [hbegin, Bool.false_eq_true, ↓reduceIte] at hended
            rw [putTurn] at hended
            split_ifs at hended
            · exact Option.some.inj hended ▸ commits_error _ _
                { s with txn := _, input := _ }
            · exact Option.some.inj hended ▸ commits_error _ _
                { s with txn := _, n := _, input := _ }
            · exact Option.some.inj hended ▸ commits_error _ _
                { s with txn := _, n := _, input := _ }
            · exact (ih rfl hended).append
            · exact ih rfl hended

/-- An import of a stream that its source gets to the end of, whatever calls
fail. -/
theorem importStream_commits {units rest : List Byte} {records : Dump}
    (hframes : units.drop 4 = recordFraming.encodeAll records ++ rest)
    (hrest : rest.length < 52) {calls : Nat → ImportCalls} {fuel : Nat}
    {stored : Database} {ended : Except ImportError Int × ImportState}
    (hended : stored.importStream calls fuel (InputStream.opened units) =
      some ended) : Commits stored records ended := by
  rw [Database.importStream] at hended
  by_cases hshort : units.length < 4
  · have hnone : records = [] := by
      rw [List.drop_eq_nil_of_le (Nat.le_of_lt hshort), eq_comm,
        List.append_eq_nil_iff] at hframes
      exact recordFraming.encodeAll_eq_nil.mp hframes.1
    rw [InputStream.read_opened_short hshort] at hended
    cases fuel with
    | zero => cases hended
    | succ fuel =>
        obtain rfl := Option.some.inj hended
        exact ⟨[], List.nil_prefix, rfl, fun _ _ => hnone.symm⟩
  · have hgoesOn : ((InputStream.opened units).read 4).2.eof = false := by
      simp [InputStream.read, InputStream.opened, Nat.le_of_not_lt hshort]
    have hheader := (soundInput_header units).resolve_left
      (Bool.eq_false_iff.mp hgoesOn)
    rw [hframes] at hheader
    exact importLoop_commits records hrest hheader hended

/-- An import of an exported file, whatever calls fail, commits its first
records. -/
theorem importStream_beginning {records : Dump} {calls : Nat → ImportCalls}
    {fuel : Nat} {stored : Database}
    {ended : Except ImportError Int × ImportState}
    (hended : stored.importStream calls fuel
      (InputStream.opened (dumpStream records)) = some ended) :
    ∃ beginning, beginning <+: records ∧
      ended.2.stored = stored.importDump beginning := by
  have hframes : (dumpStream records).drop 4 =
      recordFraming.encodeAll records ++ [] := by
    rw [List.append_nil]
    exact List.drop_left' rfl
  obtain ⟨beginning, hbeginning, hstored, -⟩ :=
    importStream_commits hframes (by decide) hended
  exact ⟨beginning, hbeginning, hstored⟩

end BohunoPyzord
