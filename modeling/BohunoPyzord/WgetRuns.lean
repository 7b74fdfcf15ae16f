/-
What an HTTP client does in a run.  It has one operation under way or has come
to one end, which is what the response that has arrived comes to when it is
read in one go; it writes to no endpoint before the connection is up and reads
from none before the request is written.
-/
import BohunoPyzord.WgetClient

universe u

namespace BohunoPyzord

open LineStream

namespace HttpClient

/-! `readResponse` from each of its reads on. -/

def afterHeaders (c : HttpClient) (chunks : List (Chunk Char)) : HttpOutcome :=
  let c := chunks.foldl handleReadContent c
  .success c.status_code_ c.headers_ c.data_

def readsHeaders (c : HttpClient) (chunks : List (Chunk Char)) : HttpOutcome :=
  match readUntil "\r\n\r\n".toList c.response_ chunks with
  | none => .failure
  | some (response_, chunks) =>
      match { c with response_ }.handleReadHeaders with
      | none => .thrown
      | some c => c.afterHeaders chunks

def readsStatusLine (c : HttpClient) (chunks : List (Chunk Char)) :
    HttpOutcome :=
  match readUntil "\r\n".toList c.response_ chunks with
  | none => .failure
  | some (response_, chunks) =>
      match { c with response_ }.handleReadStatusLine with
      | none => .failure
      | some c => c.readsHeaders chunks

variable {c : HttpClient}

theorem readsStatusLine_cons (h : ¬ "\r\n".toList <:+: c.response_)
    (chunk : Chunk Char) (rest : List (Chunk Char)) :
    c.readsStatusLine (chunk :: rest) =
      { c with response_ := c.response_ ++ chunk.units }.readsStatusLine
        rest := by
  rw [readsStatusLine, readUntil, if_neg h]
  rfl

theorem readsHeaders_cons (h : ¬ "\r\n\r\n".toList <:+: c.response_)
    (chunk : Chunk Char) (rest : List (Chunk Char)) :
    c.readsHeaders (chunk :: rest) =
      { c with response_ := c.response_ ++ chunk.units }.readsHeaders rest := by
  rw [readsHeaders, readUntil, if_neg h]
  rfl

/-- A delimiter in the buffer ends the read at once. -/
theorem readUntil_of_infix {delimiter buffer : Text}
    (h : delimiter <:+: buffer) (chunks : List (Chunk Char)) :
    readUntil delimiter buffer chunks = some (buffer, chunks) := by
  cases chunks with
  | nil => exact if_pos h
  | cons chunk chunks => exact if_pos h

theorem readUntil_nil {delimiter buffer : Text}
    (h : ¬ delimiter <:+: buffer) : readUntil delimiter buffer [] = none :=
  if_neg h

theorem readsStatusLine_of_infix (h : "\r\n".toList <:+: c.response_)
    (rest : List (Chunk Char)) :
    c.readsStatusLine rest = match c.handleReadStatusLine with
      | none => .failure
      | some c => c.readsHeaders rest := by
  rw [readsStatusLine, readUntil_of_infix h]

theorem readsHeaders_of_infix (h : "\r\n\r\n".toList <:+: c.response_)
    (rest : List (Chunk Char)) :
    c.readsHeaders rest = match c.handleReadHeaders with
      | none => .thrown
      | some c => c.afterHeaders rest := by
  rw [readsHeaders, readUntil_of_infix h]

/-! What the content length is taken from. -/

/-- The header that was entered last is found under its name. -/
theorem find?_enter (headers : List (Text × Text)) (key name value : Text) :
    (headers.filter (·.1 ≠ name) ++ [(name, value)]).find? (·.1 = key) =
      if name = key then some (name, value)
      else headers.find? (·.1 = key) := by
  split_ifs with hname
  · have hnone : (headers.filter (·.1 ≠ name)).find? (·.1 = key) = none := by
      rw [List.find?_eq_none]
      intro entry hentry
      simpa [hname] using (List.mem_filter.mp hentry).2
    rw [List.find?_append, hnone]
    simp [hname]
  · have hsame : (headers.filter (·.1 ≠ name)).find? (·.1 = key) =
        headers.find? (·.1 = key) := by
      rw [List.find?_filter]
      congr 1
      funext entry
      by_cases hkey : entry.1 = key
      · simp [hkey, Ne.symm hname]
      · simp [hkey]
    rw [List.find?_append, hsame]
    simp [hname]

/-- The length that the headers declare, or none. -/
def declaredLength (headers : List (Text × Text)) : Nat :=
  ((headers.find? (·.1 = "Content-Length".toList)).bind
    fun entry => lexicalCastSize entry.2).getD 0

def Declares (c : HttpClient) : Prop :=
  c.content_length_ = declaredLength c.headers_

theorem Declares.readHeader {c' : HttpClient} {header : Text}
    (hc : c.Declares) (h : c.readHeader header = some c') : c'.Declares := by
  unfold HttpClient.readHeader at h
  split at h
  · rename_i name value hmatch
    simp only [Option.bind_eq_bind, Option.pure_def] at h
    split_ifs at h with hname
    · obtain ⟨n, hn, hc'⟩ := Option.bind_eq_some_iff.mp h
      obtain rfl := Option.some.inj hc'
      rw [Declares, declaredLength, find?_enter, if_pos hname,
        Option.bind_some, hn]
      rfl
    · obtain rfl := Option.some.inj h
      rw [Declares, declaredLength, find?_enter, if_neg hname]
      exact hc
  · obtain rfl := Option.some.inj h
    exact hc

theorem Declares.readHeaders {c' : HttpClient} {line text : Text}
    (hc : c.Declares) (h : c.readHeaders line text = some c') :
    c'.Declares := by
  induction text generalizing c line with
  | nil =>
      rw [HttpClient.readHeaders] at h
      split_ifs at h
      · obtain rfl := Option.some.inj h
        exact hc
      · obtain ⟨mid, hmid, rfl⟩ := Option.map_eq_some_iff.mp h
        have hdeclares := hc.readHeader hmid
        exact hdeclares
  | cons ch text ih =>
      rw [HttpClient.readHeaders] at h
      split_ifs at h
      · obtain rfl := Option.some.inj h
        exact hc
      · obtain ⟨mid, hmid, hrest⟩ := Option.bind_eq_some_iff.mp h
        exact ih (hc.readHeader hmid) hrest
      · exact ih hc h

theorem Declares.handleReadHeaders {c' : HttpClient} (hc : c.Declares)
    (h : c.handleReadHeaders = some c') : c'.Declares := by
  obtain ⟨mid, hmid, rfl⟩ := Option.map_eq_some_iff.mp h
  have hdeclares := hc.readHeaders hmid
  exact hdeclares

theorem Declares.handleReadStatusLine {c' : HttpClient} (hc : c.Declares)
    (h : c.handleReadStatusLine = some c') : c'.Declares := by
  unfold HttpClient.handleReadStatusLine at h
  obtain ⟨⟨code, rest⟩, -, h⟩ := Option.bind_eq_some_iff.mp h
  dsimp only at h
  split_ifs at h
  obtain rfl := Option.some.inj h
  exact hc

end HttpClient

namespace WgetClient

open HttpClient

variable {E : Type u} {request : Text} {s s' : WgetClient E}
  {operation : WgetOperation E}

/-- Nothing has been read. -/
def Unread (s : WgetClient E) : Prop :=
  s.response = .waiting ∧ s.arrived = [] ∧ s.reports = []

/-- The connection is up, and secure if it is to be. -/
def Ready (s : WgetClient E) : Prop :=
  s.connected = true ∧ s.secured = s.secure

/-- The response is to be read on by these reads. -/
def Resumes (s : WgetClient E)
    (reads : HttpClient → List (Chunk Char) → HttpOutcome) : Prop :=
  s.Ready ∧ s.request_ = [] ∧
    ∀ rest, readResponse (s.arrived ++ rest) = reads s.response rest

/-- How far the client is when it waits for an operation. -/
def At (s : WgetClient E) : WgetOperation E → Prop
  | .resolve => s.Unread ∧ s.written = [] ∧ s.tried = [] ∧ s.endpoints = [] ∧
      s.secured = false
  | .connect endpoint_iterator => s.Unread ∧ s.written = [] ∧
      s.tried ++ endpoint_iterator = s.endpoints ∧ s.secured = false
  | .handshake => s.Unread ∧ s.written = [] ∧ s.connected = true ∧
      s.secure = true
  | .writeRequest => s.Unread ∧ s.Ready
  | .readStatusLine => s.Resumes readsStatusLine ∧ s.reports = []
  | .readHeaders => s.Resumes readsHeaders ∧ s.reports = []
  | .readContent => s.Resumes afterHeaders

/-- What has arrived when the client calls back. -/
def Told (s : WgetClient E) : WgetCallback → Prop
  | .success status headers data =>
      readResponse s.arrived = .success status headers data ∧
        s.response.headers_ = headers ∧ s.response.data_ = data
  | .failure (some .other) => True
  | .failure _ => readResponse s.arrived = .failure

/-- What holds whatever the client waits for. -/
structure Core (request : Text) (s : WgetClient E) : Prop where
  written : s.written ++ s.request_ = request
  ready : s.written ≠ [] → s.Ready
  unread : s.arrived ≠ [] → s.request_ = []
  tried : s.tried <+: s.endpoints
  declares : s.response.Declares
  reports : (s.reports.map Prod.snd).Pairwise (· < ·)
  reported : ∀ report ∈ s.reports, report.1 = s.response.content_length_ ∧
    report.2 ≤ s.response.data_.length

structure Orderly (request : Text) (s : WgetClient E) : Prop extends
    Core request s where
  once : s.pending.length + s.callbacks.length + s.thrown.toNat = 1
  stage : ∀ operation ∈ s.pending, s.At operation
  told : ∀ callback ∈ s.callbacks, s.Told callback
  threw : s.thrown = true → readResponse s.arrived = .thrown
  gaveUp : s.callbacks ≠ [] → s.connected = false → s.tried = s.endpoints

/-- The operation that was waited for is taken off. -/
structure Idle (s : WgetClient E) : Prop where
  pending : s.pending = []
  callbacks : s.callbacks = []
  thrown : s.thrown = false

theorem Core.async (hcore : s.Core request) (hidle : s.Idle)
    (hat : s.At operation) : (s.async operation).Orderly request where
  toCore := ⟨hcore.written, hcore.ready, hcore.unread, hcore.tried,
    hcore.declares, hcore.reports, hcore.reported⟩
  once := by simp [WgetClient.async, hidle.pending, hidle.callbacks, hidle.thrown]
  stage := by
    intro other hother
    rw [WgetClient.async, hidle.pending] at hother
    obtain rfl := List.mem_singleton.mp hother
    cases other <;> exact hat
  told := by simp [WgetClient.async, hidle.callbacks]
  threw := by simp [WgetClient.async, hidle.thrown]
  gaveUp := by simp [WgetClient.async, hidle.callbacks]

theorem Core.callBack (hcore : s.Core request) (hidle : s.Idle)
    {callback : WgetCallback} (htold : s.Told callback)
    (hgave : s.connected = false → s.tried = s.endpoints) :
    (s.callBack callback).Orderly request where
  toCore := ⟨hcore.written, hcore.ready, hcore.unread, hcore.tried,
    hcore.declares, hcore.reports, hcore.reported⟩
  once := by
    simp [WgetClient.callBack, hidle.pending, hidle.callbacks, hidle.thrown]
  stage := by simp [WgetClient.callBack, hidle.pending]
  told := by
    intro other hother
    rw [WgetClient.callBack, hidle.callbacks] at hother
    obtain rfl := List.mem_singleton.mp hother
    exact htold
  threw := by simp [WgetClient.callBack, hidle.thrown]
  gaveUp := fun _ => hgave

theorem Unread.told_failure (hunread : s.Unread)
    (error : Option WgetError) : s.Told (.failure error) := by
  have hnothing : readResponse s.arrived = .failure := by
    rw [hunread.2.1]
    rfl
  unfold Told
  split
  · contradiction
  · trivial
  · exact hnothing

/-- A read that is cut short. -/
theorem Resumes.told_failure
    {reads : HttpClient → List (Chunk Char) → HttpOutcome}
    (hresumes : s.Resumes reads) (hcut : reads s.response [] = .failure)
    (error : Option WgetError) : s.Told (.failure error) := by
  have hfailure : readResponse s.arrived = .failure := by
    rw [← List.append_nil s.arrived, hresumes.2.2, hcut]
  unfold Told
  split
  · contradiction
  · trivial
  · exact hfailure

/-- What arrives moves on from the reads to come. -/
theorem Resumes.arrive {reads : HttpClient → List (Chunk Char) → HttpOutcome}
    (hresumes : s.Resumes reads) (chunk : Chunk Char)
    (hcons : ∀ rest, reads s.response (chunk :: rest) =
      reads (s.arrive chunk).response rest) :
    (s.arrive chunk).Resumes reads := by
  obtain ⟨hready, hsent, hreads⟩ := hresumes
  refine ⟨hready, hsent, fun rest => ?_⟩
  rw [← hcons, ← hreads]
  exact congrArg readResponse (List.append_assoc _ _ _)

theorem Core.arrive (hcore : s.Core request) (hsent : s.request_ = [])
    (hreports : s.reports = []) (chunk : Chunk Char) :
    (s.arrive chunk).Core request where
  written := hcore.written
  ready := hcore.ready
  unread := fun _ => hsent
  tried := hcore.tried
  declares := hcore.declares
  reports := hcore.reports
  reported := by
    intro report hreport
    rw [show (s.arrive chunk).reports = [] from hreports] at hreport
    cases hreport

/-- The next endpoint is tried. -/
theorem Core.asyncConnect {endpoint : E} {rest : List E}
    (hcore : s.Core request) (hidle : s.Idle) (hunread : s.Unread)
    (hwritten : s.written = []) (hsecured : s.secured = false)
    (htried : s.tried ++ endpoint :: rest = s.endpoints) :
    (s.asyncConnect endpoint rest).Orderly request := by
  have hnext : s.tried ++ [endpoint] ++ rest = s.endpoints := by
    rw [List.append_assoc]
    exact htried
  refine Core.async
    ⟨hcore.written, hcore.ready, hcore.unread, ⟨rest, hnext⟩, hcore.declares,
      hcore.reports, hcore.reported⟩
    ⟨hidle.pending, hidle.callbacks, hidle.thrown⟩
    ⟨hunread, hwritten, hnext, hsecured⟩

theorem orderly_handleResolve (hcore : s.Core request) (hidle : s.Idle)
    (hat : s.At .resolve) (result : Except WgetError (E × List E)) :
    (s.handleResolve result).Orderly request := by
  obtain ⟨hunread, hwritten, htried, hendpoints, hsecured⟩ := hat
  cases result with
  | error error =>
      exact hcore.callBack hidle (hunread.told_failure _)
        fun _ => htried.trans hendpoints.symm
  | ok found =>
      refine Core.asyncConnect
        ⟨hcore.written, hcore.ready, hcore.unread, ?_, hcore.declares,
          hcore.reports, hcore.reported⟩
        ⟨hidle.pending, hidle.callbacks, hidle.thrown⟩ hunread hwritten
        hsecured ?_
      · rw [show ({ s with endpoints := found.1 :: found.2 } :
          WgetClient E).tried = [] from htried]
        exact List.nil_prefix
      · exact congrArg (· ++ found.1 :: found.2) htried

theorem orderly_handleConnect {endpoint_iterator : List E}
    (hcore : s.Core request) (hidle : s.Idle)
    (hat : s.At (.connect endpoint_iterator)) (error : Option WgetError) :
    (s.handleConnect error endpoint_iterator).Orderly request := by
  obtain ⟨hunread, hwritten, htried, hsecured⟩ := hat
  cases error with
  | none =>
      refine Core.async
        ⟨hcore.written, fun hne => absurd hwritten hne, hcore.unread, hcore.tried,
          hcore.declares, hcore.reports, hcore.reported⟩
        ⟨hidle.pending, hidle.callbacks, hidle.thrown⟩ ?_
      split_ifs with hsecure
      · exact ⟨hunread, hwritten, rfl, hsecure⟩
      · exact ⟨hunread, rfl, hsecured.trans (Bool.not_eq_true _ ▸ hsecure).symm⟩
  | some error =>
      cases endpoint_iterator with
      | nil =>
          rw [List.append_nil] at htried
          exact hcore.callBack hidle (hunread.told_failure _) fun _ => htried
      | cons endpoint rest =>
          exact hcore.asyncConnect hidle hunread hwritten hsecured htried

theorem orderly_handleHandshake (hcore : s.Core request) (hidle : s.Idle)
    (hat : s.At .handshake) (error : Option WgetError) :
    (s.handleHandshake error).Orderly request := by
  obtain ⟨hunread, hwritten, hconnected, hsecure⟩ := hat
  cases error with
  | none =>
      exact Core.async
        ⟨hcore.written, fun hne => absurd hwritten hne, hcore.unread,
          hcore.tried, hcore.declares, hcore.reports, hcore.reported⟩
        ⟨hidle.pending, hidle.callbacks, hidle.thrown⟩
        ⟨hunread, hconnected, hsecure.symm⟩
  | some error =>
      exact hcore.callBack hidle (hunread.told_failure _) fun hdown =>
        Bool.noConfusion (hdown.symm.trans hconnected)

theorem orderly_write (hcore : s.Core request) (hidle : s.Idle)
    (hat : s.At .writeRequest) (n : Nat) :
    ((s.write n).async .writeRequest).Orderly request := by
  obtain ⟨hunread, hready⟩ := hat
  refine Core.async
    ⟨?_, fun _ => hready, fun hne => absurd hunread.2.1 hne, hcore.tried,
      hcore.declares, hcore.reports, hcore.reported⟩
    ⟨hidle.pending, hidle.callbacks, hidle.thrown⟩ ⟨hunread, hready⟩
  rw [WgetClient.write, List.append_assoc, List.take_append_drop]
  exact hcore.written

theorem Ready.connected_ne (hready : s.Ready) {p : Prop}
    (hdown : s.connected = false) : p :=
  Bool.noConfusion (hdown.symm.trans hready.1)

theorem orderly_handleWriteRequest (hcore : s.Core request) (hidle : s.Idle)
    (hat : s.At .writeRequest) (error : Option WgetError)
    (hends : error = none ↔ s.Ends .writeRequest) :
    (s.handleWriteRequest error).Orderly request := by
  obtain ⟨hunread, hready⟩ := hat
  cases error with
  | none =>
      refine hcore.async hidle ⟨⟨hready, hends.mp rfl, fun rest => ?_⟩,
        hunread.2.2⟩
      rw [hunread.2.1, hunread.1]
      rfl
  | some error =>
      exact hcore.callBack hidle (hunread.told_failure _) hready.connected_ne

theorem orderly_handleReadStatusLine (hcore : s.Core request) (hidle : s.Idle)
    (hat : s.At .readStatusLine) (error : Option WgetError)
    (hends : error = none ↔ s.Ends .readStatusLine) :
    (s.handleReadStatusLine error).Orderly request := by
  obtain ⟨hresumes, hreports⟩ := hat
  cases error with
  | some error =>
      have hmore : ¬ "\r\n".toList <:+: s.response.response_ :=
        fun h => by cases hends.mpr h
      refine hcore.callBack hidle (hresumes.told_failure ?_ _)
        hresumes.1.connected_ne
      rw [readsStatusLine, readUntil_nil hmore]
  | none =>
      have hreads := readsStatusLine_of_infix (hends.mp rfl)
      rw [handleReadStatusLine]
      cases hline : s.response.handleReadStatusLine with
      | none =>
          rw [hline] at hreads
          exact hcore.callBack hidle (hresumes.told_failure (hreads []) _)
            hresumes.1.connected_ne
      | some response =>
          rw [hline] at hreads
          refine Core.async
            ⟨hcore.written, hcore.ready, hcore.unread, hcore.tried,
              hcore.declares.handleReadStatusLine hline, hcore.reports, ?_⟩
            ⟨hidle.pending, hidle.callbacks, hidle.thrown⟩
            ⟨⟨hresumes.1, hresumes.2.1, fun rest => ?_⟩, hreports⟩
          · intro report hreport
            rw [show ({ s with response } : WgetClient E).reports = []
              from hreports] at hreport
            cases hreport
          · exact (hresumes.2.2 rest).trans (hreads rest)

/-- A report is in order if it says more than those before it. -/
theorem Core.progress {content_length read : Nat} (hcore : s.Core request)
    (hlength : content_length = s.response.content_length_)
    (hread : read ≤ s.response.data_.length)
    (hmore : ∀ report ∈ s.reports, report.2 < read) :
    (s.progress content_length read).Core request := by
  unfold WgetClient.progress
  split_ifs
  · refine ⟨hcore.written, hcore.ready, hcore.unread, hcore.tried,
      hcore.declares, ?_, ?_⟩
    · rw [List.map_append, List.pairwise_append]
      refine ⟨hcore.reports, List.pairwise_singleton _ _, ?_⟩
      intro first hfirst second hsecond
      obtain ⟨report, hreport, rfl⟩ := List.mem_map.mp hfirst
      rw [List.mem_singleton.mp hsecond]
      exact hmore report hreport
    · intro report hreport
      rcases List.mem_append.mp hreport with hold | hnew
      · exact hcore.reported report hold
      · rw [List.mem_singleton.mp hnew]
        exact ⟨hlength, hread⟩
  · exact hcore

theorem Idle.progress (hidle : s.Idle) (content_length read : Nat) :
    (s.progress content_length read).Idle := by
  unfold WgetClient.progress
  split_ifs
  · exact ⟨hidle.pending, hidle.callbacks, hidle.thrown⟩
  · exact hidle

theorem Resumes.progress {reads : HttpClient → List (Chunk Char) → HttpOutcome}
    (hresumes : s.Resumes reads) (content_length read : Nat) :
    (s.progress content_length read).Resumes reads := by
  unfold WgetClient.progress
  split_ifs
  · exact hresumes
  · exact hresumes

theorem orderly_handleReadHeaders (hcore : s.Core request) (hidle : s.Idle)
    (hat : s.At .readHeaders) (error : Option WgetError)
    (hends : error = none ↔ s.Ends .readHeaders) :
    (s.handleReadHeaders error).Orderly request := by
  obtain ⟨hresumes, hreports⟩ := hat
  cases error with
  | some error =>
      have hmore : ¬ "\r\n\r\n".toList <:+: s.response.response_ :=
        fun h => by cases hends.mpr h
      refine hcore.callBack hidle (hresumes.told_failure ?_ _)
        hresumes.1.connected_ne
      rw [readsHeaders, readUntil_nil hmore]
  | none =>
      have hreads := readsHeaders_of_infix (hends.mp rfl)
      rw [handleReadHeaders]
      cases hblock : s.response.handleReadHeaders with
      | none =>
          rw [hblock] at hreads
          have hthrown := (hresumes.2.2 []).trans (hreads [])
          rw [List.append_nil] at hthrown
          refine ⟨⟨hcore.written, hcore.ready, hcore.unread, hcore.tried,
            hcore.declares, hcore.reports, hcore.reported⟩, ?_, ?_, ?_,
            fun _ => hthrown, fun _ hdown => hresumes.1.connected_ne hdown⟩
          · simp [hidle.pending, hidle.callbacks]
          · simp [hidle.pending]
          · simp [hidle.callbacks]
      | some response =>
          rw [hblock] at hreads
          have hnone : ∀ report ∈ ({ s with response } :
              WgetClient E).reports, False := by
            intro report hreport
            rw [show ({ s with response } : WgetClient E).reports = []
              from hreports] at hreport
            cases hreport
          have hcore' : Core request { s with response } :=
            ⟨hcore.written, hcore.ready, hcore.unread, hcore.tried,
              hcore.declares.handleReadHeaders hblock, hcore.reports,
              fun report hreport => (hnone report hreport).elim⟩
          have hresumes' : Resumes { s with response } afterHeaders :=
            ⟨hresumes.1, hresumes.2.1,
              fun rest => (hresumes.2.2 rest).trans (hreads rest)⟩
          have hidle' : Idle { s with response } :=
            ⟨hidle.pending, hidle.callbacks, hidle.thrown⟩
          exact (hcore'.progress rfl (Nat.zero_le _) fun report hreport =>
            (hnone report hreport).elim).async (hidle'.progress _ _)
              (hresumes'.progress _ _)

theorem orderly_handleReadContent (hcore : s.Core request) (hidle : s.Idle)
    (hat : s.At .readContent) (result : Except WgetError (Chunk Char)) :
    (s.handleReadContent result).Orderly request := by
  have hresumes : s.Resumes afterHeaders := hat
  have htold := hresumes.2.2 []
  rw [List.append_nil] at htold
  cases result with
  | error error =>
      cases error with
      | eof =>
          exact hcore.callBack hidle ⟨htold, rfl, rfl⟩
            hresumes.1.connected_ne
      | other => exact hcore.callBack hidle trivial hresumes.1.connected_ne
  | ok chunk =>
      have hgrows : s.response.data_.length <
          (s.response.handleReadContent chunk).data_.length := by
        have hchunk := List.length_pos_of_ne_nil chunk.nonempty
        simp only [HttpClient.handleReadContent, takeContent, List.length_append]
        omega
      have hcore' : Core request { s with
          response := s.response.handleReadContent chunk
          arrived := s.arrived ++ [chunk] } :=
        ⟨hcore.written, hcore.ready, fun _ => hresumes.2.1, hcore.tried,
          hcore.declares, hcore.reports, fun report hreport =>
            ⟨(hcore.reported report hreport).1,
              (hcore.reported report hreport).2.trans hgrows.le⟩⟩
      have hresumes' : Resumes { s with
          response := s.response.handleReadContent chunk
          arrived := s.arrived ++ [chunk] } afterHeaders := by
        refine ⟨hresumes.1, hresumes.2.1, fun rest => ?_⟩
        have hnext := hresumes.2.2 (chunk :: rest)
        rw [List.append_cons] at hnext
        exact hnext
      have hidle' : Idle { s with
          response := s.response.handleReadContent chunk
          arrived := s.arrived ++ [chunk] } :=
        ⟨hidle.pending, hidle.callbacks, hidle.thrown⟩
      exact (hcore'.progress rfl le_rfl fun report hreport =>
        (hcore.reported report hreport).2.trans_lt hgrows).async
          (hidle'.progress _ _) (hresumes'.progress _ _)

theorem orderly_handled (hcore : s.Core request) (hidle : s.Idle)
    (hat : s.At operation) (h : s.Handled operation s') :
    s'.Orderly request := by
  cases h with
  | resolve result => exact orderly_handleResolve hcore hidle hat result
  | connect error rest => exact orderly_handleConnect hcore hidle hat error
  | handshake error => exact orderly_handleHandshake hcore hidle hat error
  | write n pos le => exact orderly_write hcore hidle hat n
  | writeRequest error ends =>
      exact orderly_handleWriteRequest hcore hidle hat error ends
  | arriveStatusLine chunk more =>
      obtain ⟨hresumes, hreports⟩ := hat
      exact (hcore.arrive hresumes.2.1 hreports chunk).async
        ⟨hidle.pending, hidle.callbacks, hidle.thrown⟩
        ⟨hresumes.arrive chunk (readsStatusLine_cons more chunk), hreports⟩
  | readStatusLine error ends =>
      exact orderly_handleReadStatusLine hcore hidle hat error ends
  | arriveHeaders chunk more =>
      obtain ⟨hresumes, hreports⟩ := hat
      exact (hcore.arrive hresumes.2.1 hreports chunk).async
        ⟨hidle.pending, hidle.callbacks, hidle.thrown⟩
        ⟨hresumes.arrive chunk (readsHeaders_cons more chunk), hreports⟩
  | readHeaders error ends =>
      exact orderly_handleReadHeaders hcore hidle hat error ends
  | readContent result => exact orderly_handleReadContent hcore hidle hat result

/-- A step takes the one operation off that there is. -/
theorem orderly_step {event : WgetEvent E} (ho : s.Orderly request)
    (hstep : s.step event = some s') : s'.Orderly request := by
  obtain ⟨op, hop, hhandle⟩ := Option.bind_eq_some_iff.mp hstep
  obtain ⟨hi, hget⟩ := List.getElem?_eq_some_iff.mp hop
  have honce := ho.once
  have hpending : s.pending.length = 1 := by omega
  have hcallbacks : s.callbacks = [] := by
    rw [← List.length_eq_zero_iff]
    omega
  have hthrown : s.thrown = false := by
    cases hthrown : s.thrown with
    | false => rfl
    | true =>
        rw [hthrown, Bool.toNat_true] at honce
        omega
  have herased : s.pending.eraseIdx (place event) = [] := by
    rw [← List.length_eq_zero_iff, List.length_eraseIdx_of_lt hi, hpending]
  have hat := ho.stage op (hget ▸ List.getElem_mem hi)
  let taken : WgetClient E :=
    { s with pending := s.pending.eraseIdx (place event) }
  have hcore : taken.Core request :=
    ⟨ho.written, ho.ready, ho.unread, ho.tried, ho.declares, ho.reports,
      ho.reported⟩
  have htaken : taken.At op := by cases op <;> exact hat
  exact orderly_handled hcore ⟨herased, hcallbacks, hthrown⟩ htaken
    (handled_of_handle hhandle)

theorem orderly_start (secure progress_callback_ : Bool) (request : Text) :
    (start (E := E) secure progress_callback_ request).Orderly request := by
  refine Core.async ⟨rfl, fun hne => absurd rfl hne, fun hne => absurd rfl hne,
    List.prefix_rfl, ?_, List.Pairwise.nil, fun report hreport => ?_⟩
    ⟨rfl, rfl, rfl⟩ ⟨⟨rfl, rfl, rfl⟩, rfl, rfl, rfl, rfl⟩
  · rfl
  · cases hreport

theorem always_of_orderly {P : WgetClient E → Prop}
    (secure progress_callback_ : Bool) (request : Text)
    (hsafe : ∀ s : WgetClient E, s.Orderly request → P s)
    (events : List (WgetEvent E)) :
    (wgetSystem secure progress_callback_ request).Always P events := by
  apply StepSystem.always_of_invariant _ (I := Orderly request)
  · exact orderly_start secure progress_callback_ request
  · exact fun ho _ hstep => orderly_step ho hstep
  · exact hsafe

/-- The client waits for one operation, or has come to one end: it has called
back once or an exception has left it.  A success, a failure at the end of the
stream or over the status line, and the exception are each what the response
that has arrived comes to when it is read in one go. -/
structure EndsOnce (s : WgetClient E) : Prop where
  once : s.pending.length + s.callbacks.length + s.thrown.toNat = 1
  success : ∀ status headers data,
    .success status headers data ∈ s.callbacks →
      readResponse s.arrived = .success status headers data
  failure : ∀ error, .failure error ∈ s.callbacks → error ≠ some .other →
    readResponse s.arrived = .failure
  thrown : s.thrown = true → readResponse s.arrived = .thrown

theorem always_endsOnce (secure progress_callback_ : Bool) (request : Text)
    (events : List (WgetEvent E)) :
    (wgetSystem secure progress_callback_ request).Always EndsOnce events := by
  refine always_of_orderly secure progress_callback_ request ?_ events
  intro s ho
  refine ⟨ho.once, fun status headers data hmem => (ho.told _ hmem).1, ?_,
    ho.threw⟩
  intro error hmem hother
  have htold := ho.told _ hmem
  cases error with
  | none => exact htold
  | some error =>
      cases error with
      | eof => exact htold
      | other => exact absurd rfl hother

/-- The endpoints are tried in turn, and all of them before the client gives
up on a connection.  The request is written in order, from when the connection
is up, and secure for an `sclient`; nothing is read before all of it is. -/
structure SendsInTurn (request : Text) (s : WgetClient E) : Prop where
  tried : s.tried <+: s.endpoints
  gaveUp : s.callbacks ≠ [] → s.connected = false → s.tried = s.endpoints
  written : s.written <+: request
  ready : s.written ≠ [] → s.connected = true ∧ s.secured = s.secure
  read : s.arrived ≠ [] → s.written = request

theorem always_sendsInTurn (secure progress_callback_ : Bool) (request : Text)
    (events : List (WgetEvent E)) :
    (wgetSystem secure progress_callback_ request).Always
      (SendsInTurn request) events := by
  refine always_of_orderly secure progress_callback_ request ?_ events
  intro s ho
  refine ⟨ho.tried, ho.gaveUp, ⟨s.request_, ho.written⟩, ho.ready, ?_⟩
  intro hne
  have hwritten := ho.written
  rwa [ho.unread hne, List.append_nil] at hwritten

/-- The progress that is reported grows from report to report, and stays
within the data of a success; the length that goes with it is what the headers
of the success declare. -/
structure ReportsProgress (s : WgetClient E) : Prop where
  grows : (s.reports.map Prod.snd).Pairwise (· < ·)
  within : ∀ status headers data,
    .success status headers data ∈ s.callbacks → ∀ report ∈ s.reports,
      report.1 = declaredLength headers ∧ report.2 ≤ data.length

theorem always_reportsProgress (secure progress_callback_ : Bool)
    (request : Text) (events : List (WgetEvent E)) :
    (wgetSystem secure progress_callback_ request).Always
      ReportsProgress events := by
  refine always_of_orderly secure progress_callback_ request ?_ events
  intro s ho
  refine ⟨ho.reports, fun status headers data hmem report hreport => ?_⟩
  obtain ⟨-, hheaders, hdata⟩ := ho.told _ hmem
  obtain ⟨hlength, hread⟩ := ho.reported report hreport
  rw [← hheaders, ← hdata]
  exact ⟨hlength.trans ho.declares, hread⟩

end WgetClient

end BohunoPyzord
