/-
One TCP client socket and one deadline timer of an asynchronous I/O service,
seen from the program that starts operations on them.  Operations are started
by the program and completed by the service in any order, each once; closing
the socket dooms what is outstanding on it.
-/
import Mathlib.Data.List.InsertIdx
import Mathlib.Tactic.Common

universe u

/-- The state of a client socket.  An `asyncConnect` opens a closed socket. -/
inductive SocketState where
  | closed
  | connecting
  | established
deriving DecidableEq, Repr

/-- An outstanding write: the bytes its buffer refers to, and whether the
socket it was started on is still the open one. -/
structure PendingWrite (U : Type u) where
  data : U
  live : Bool
deriving DecidableEq, Repr

/-- What is outstanding on the socket and the timer.  A connect or a read is
represented by its `live` flag; `armed` counts waits that are pending on the
timer, `cancelled` those whose wait was cancelled and whose handler has still
to run. -/
structure AsyncLink (U : Type u) where
  socket : SocketState
  connects : List Bool
  reads : List Bool
  writes : List (PendingWrite U)
  armed : Nat
  cancelled : Nat
deriving DecidableEq, Repr

namespace AsyncLink

variable {U : Type u}

/-- A fresh socket and timer. -/
def idle : AsyncLink U :=
  { socket := .closed, connects := [], reads := [], writes := [],
    armed := 0, cancelled := 0 }

/-- Start a connect, opening the socket if it is closed. -/
def asyncConnect (l : AsyncLink U) : AsyncLink U :=
  { l with
    socket := if l.socket = .closed then .connecting else l.socket
    connects := l.connects ++ [true] }

/-- Start a read.  On a closed socket it can only fail. -/
def asyncRead (l : AsyncLink U) : AsyncLink U :=
  { l with reads := l.reads ++ [decide (l.socket ≠ .closed)] }

/-- Start a write of `data`.  On a closed socket it can only fail; on a socket
that is still connecting it waits for the connection. -/
def asyncWrite (l : AsyncLink U) (data : U) : AsyncLink U :=
  { l with writes := l.writes ++ [⟨data, decide (l.socket ≠ .closed)⟩] }

/-- Close the socket: every outstanding operation will complete with an
error. -/
def close (l : AsyncLink U) : AsyncLink U :=
  { l with
    socket := .closed
    connects := l.connects.map fun _ => false
    reads := l.reads.map fun _ => false
    writes := l.writes.map fun w => { w with live := false } }

/-- Set the expiry time.  Pending waits are cancelled, their handlers run. -/
def expiresFromNow (l : AsyncLink U) : AsyncLink U :=
  { l with armed := 0, cancelled := l.cancelled + l.armed }

/-- Wait for the timer. -/
def asyncWait (l : AsyncLink U) : AsyncLink U :=
  { l with armed := l.armed + 1 }

/-- Complete the `i`-th outstanding connect.  Only a live one can succeed. -/
def completeConnect (l : AsyncLink U) (i : Nat) (error : Bool) :
    Option (AsyncLink U) :=
  match l.connects[i]? with
  | none => none
  | some live =>
      if error = false ∧ live = false then none
      else some { l with
        connects := l.connects.eraseIdx i
        socket := if error then l.socket else .established }

/-- Complete the `i`-th outstanding read.  It succeeds only over the
connection it was started on. -/
def completeRead (l : AsyncLink U) (i : Nat) (error : Bool) :
    Option (AsyncLink U) :=
  match l.reads[i]? with
  | none => none
  | some live =>
      if error = false ∧ (live = false ∨ l.socket ≠ .established) then none
      else some { l with reads := l.reads.eraseIdx i }

/-- Complete the `i`-th outstanding write and hand back what it wrote. -/
def completeWrite (l : AsyncLink U) (i : Nat) (error : Bool) :
    Option (U × AsyncLink U) :=
  match l.writes[i]? with
  | none => none
  | some w =>
      if error = false ∧ (w.live = false ∨ l.socket ≠ .established) then none
      else some (w.data, { l with writes := l.writes.eraseIdx i })

/-- The timer expires. -/
def expire (l : AsyncLink U) : Option (AsyncLink U) :=
  if l.armed = 0 then none else some { l with armed := l.armed - 1 }

/-- The handler of a cancelled wait is run. -/
def runCancelled (l : AsyncLink U) : Option (AsyncLink U) :=
  if l.cancelled = 0 then none
  else some { l with cancelled := l.cancelled - 1 }

/-- What the outstanding writes are writing. -/
def writing (l : AsyncLink U) : List U :=
  l.writes.map PendingWrite.data

/-- How many of a connect attempt, an armed timer wait and an established
connection there are. -/
def attempts (l : AsyncLink U) : Nat :=
  l.connects.length + l.armed + if l.socket = .established then 1 else 0

@[simp] theorem writing_close (l : AsyncLink U) :
    l.close.writing = l.writing := by
  simp [close, writing]

@[simp] theorem writing_asyncWrite (l : AsyncLink U) (data : U) :
    (l.asyncWrite data).writing = l.writing ++ [data] := by
  simp [asyncWrite, writing]

@[simp] theorem writing_asyncRead (l : AsyncLink U) :
    l.asyncRead.writing = l.writing := rfl

@[simp] theorem writing_asyncConnect (l : AsyncLink U) :
    l.asyncConnect.writing = l.writing := rfl

@[simp] theorem writing_expiresFromNow (l : AsyncLink U) :
    l.expiresFromNow.writing = l.writing := rfl

@[simp] theorem writing_asyncWait (l : AsyncLink U) :
    l.asyncWait.writing = l.writing := rfl

/-! Operations other than a connect leave the number of attempts alone;
closing the socket and waiting to connect again leaves the attempts that were
under way and adds the wait. -/

@[simp] theorem attempts_asyncWrite (l : AsyncLink U) (data : U) :
    (l.asyncWrite data).attempts = l.attempts := rfl

@[simp] theorem attempts_asyncRead (l : AsyncLink U) :
    l.asyncRead.attempts = l.attempts := rfl

@[simp] theorem cancelled_asyncWrite (l : AsyncLink U) (data : U) :
    (l.asyncWrite data).cancelled = l.cancelled := rfl

@[simp] theorem cancelled_asyncRead (l : AsyncLink U) :
    l.asyncRead.cancelled = l.cancelled := rfl

theorem attempts_asyncConnect (l : AsyncLink U) :
    l.asyncConnect.attempts = l.attempts + 1 := by
  unfold asyncConnect attempts
  cases l.socket <;> simp <;> omega

theorem attempts_retry (l : AsyncLink U) :
    l.close.expiresFromNow.asyncWait.attempts = l.connects.length + 1 := by
  simp [close, expiresFromNow, asyncWait, attempts]

theorem cancelled_retry (l : AsyncLink U) :
    l.close.expiresFromNow.asyncWait.cancelled = l.cancelled + l.armed := rfl

/-! The completions say exactly what they change. -/

theorem completeConnect_eq_some {l l' : AsyncLink U} {i : Nat} {error : Bool}
    (h : l.completeConnect i error = some l') :
    i < l.connects.length ∧ l' = { l with
      connects := l.connects.eraseIdx i
      socket := if error then l.socket else .established } := by
  unfold completeConnect at h
  split at h
  · cases h
  · rename_i live hlive
    obtain ⟨hi, -⟩ := List.getElem?_eq_some_iff.mp hlive
    split at h
    · cases h
    · exact ⟨hi, (Option.some.inj h).symm⟩

theorem completeRead_eq_some {l l' : AsyncLink U} {i : Nat} {error : Bool}
    (h : l.completeRead i error = some l') :
    (error = false → l.socket = .established) ∧
      l' = { l with reads := l.reads.eraseIdx i } := by
  unfold completeRead at h
  split at h
  · cases h
  · split at h
    · cases h
    · rename_i hok
      push Not at hok
      exact ⟨fun ht => (hok ht).2, (Option.some.inj h).symm⟩

theorem completeWrite_eq_some {l l' : AsyncLink U} {i : Nat} {error : Bool}
    {data : U} (h : l.completeWrite i error = some (data, l')) :
    ∃ live, l.writes[i]? = some ⟨data, live⟩ ∧
      (error = false → l.socket = .established) ∧
      l' = { l with writes := l.writes.eraseIdx i } := by
  unfold completeWrite at h
  split at h
  · cases h
  · rename_i w hw
    split at h
    · cases h
    · rename_i hok
      push Not at hok
      obtain ⟨rfl, rfl⟩ := Prod.mk.inj (Option.some.inj h)
      exact ⟨w.live, hw, fun ht => (hok ht).2, rfl⟩

/-- A completed write leaves the others to be written. -/
theorem writing_completeWrite {l l' : AsyncLink U} {i : Nat} {error : Bool}
    {data : U} (h : l.completeWrite i error = some (data, l')) :
    l.writing[i]? = some data ∧ l'.writing = l.writing.eraseIdx i := by
  obtain ⟨live, hget, -, rfl⟩ := completeWrite_eq_some h
  exact ⟨by simp [writing, hget], by simp [writing, List.eraseIdx_map]⟩

theorem expire_eq_some {l l' : AsyncLink U} (h : l.expire = some l') :
    0 < l.armed ∧ l' = { l with armed := l.armed - 1 } := by
  unfold expire at h
  split at h
  · cases h
  · rename_i hpos
    exact ⟨Nat.pos_of_ne_zero hpos, (Option.some.inj h).symm⟩

theorem runCancelled_eq_some {l l' : AsyncLink U}
    (h : l.runCancelled = some l') :
    0 < l.cancelled ∧ l' = { l with cancelled := l.cancelled - 1 } := by
  unfold runCancelled at h
  split at h
  · cases h
  · rename_i hpos
    exact ⟨Nat.pos_of_ne_zero hpos, (Option.some.inj h).symm⟩

/-- A connect that completes was an attempt; if it was the only one, its
success is the only one after it. -/
theorem attempts_completeConnect {l l' : AsyncLink U} {i : Nat}
    {error : Bool} (honly : l.attempts ≤ 1)
    (h : l.completeConnect i error = some l') :
    l'.connects = [] ∧ l'.armed = 0 ∧ l'.cancelled = l.cancelled ∧
      (error = false → l'.attempts = 1) := by
  obtain ⟨hi, rfl⟩ := completeConnect_eq_some h
  unfold attempts at honly
  have hlength : l.connects.length = 1 := by omega
  have harmed : l.armed = 0 := by omega
  have hnone : l.connects.eraseIdx i = [] := by
    apply List.eq_nil_of_length_eq_zero
    rw [List.length_eraseIdx_of_lt hi, hlength]
  refine ⟨hnone, harmed, rfl, ?_⟩
  rintro rfl
  simp [attempts, hnone, harmed]

theorem attempts_completeRead {l l' : AsyncLink U} {i : Nat} {error : Bool}
    (h : l.completeRead i error = some l') :
    l'.attempts = l.attempts ∧ l'.cancelled = l.cancelled ∧
      l'.connects = l.connects ∧ l'.armed = l.armed := by
  obtain ⟨-, rfl⟩ := completeRead_eq_some h
  exact ⟨rfl, rfl, rfl, rfl⟩

theorem attempts_completeWrite {l l' : AsyncLink U} {i : Nat} {error : Bool}
    {data : U} (h : l.completeWrite i error = some (data, l')) :
    l'.attempts = l.attempts ∧ l'.cancelled = l.cancelled ∧
      l'.connects = l.connects ∧ l'.armed = l.armed := by
  obtain ⟨-, -, -, rfl⟩ := completeWrite_eq_some h
  exact ⟨rfl, rfl, rfl, rfl⟩

theorem attempts_expire {l l' : AsyncLink U} (h : l.expire = some l') :
    l'.attempts + 1 = l.attempts ∧ l'.cancelled = l.cancelled := by
  obtain ⟨hpos, rfl⟩ := expire_eq_some h
  unfold attempts
  exact ⟨by dsimp only; omega, rfl⟩

/-! Only the completion of a write changes what is being written. -/

theorem writing_completeConnect {l l' : AsyncLink U} {i : Nat} {error : Bool}
    (h : l.completeConnect i error = some l') : l'.writing = l.writing := by
  obtain ⟨-, rfl⟩ := completeConnect_eq_some h
  rfl

theorem writing_completeRead {l l' : AsyncLink U} {i : Nat} {error : Bool}
    (h : l.completeRead i error = some l') : l'.writing = l.writing := by
  obtain ⟨-, rfl⟩ := completeRead_eq_some h
  rfl

theorem writing_expire {l l' : AsyncLink U} (h : l.expire = some l') :
    l'.writing = l.writing := by
  obtain ⟨-, rfl⟩ := expire_eq_some h
  rfl

theorem writing_runCancelled {l l' : AsyncLink U}
    (h : l.runCancelled = some l') : l'.writing = l.writing := by
  obtain ⟨-, rfl⟩ := runCancelled_eq_some h
  rfl

/-- The outstanding connects and writes can succeed: the socket has not been
closed since they were started. -/
structure Live (l : AsyncLink U) : Prop where
  connects : ∀ live ∈ l.connects, live = true
  writes : ∀ write ∈ l.writes, write.live = true

variable {l l' : AsyncLink U}

theorem Live.asyncConnect (h : l.Live) : l.asyncConnect.Live where
  connects live hlive := by
    rcases List.mem_append.mp hlive with hold | hnew
    · exact h.connects live hold
    · exact List.mem_singleton.mp hnew
  writes := h.writes

theorem Live.asyncWrite (h : l.Live) (hopen : l.socket ≠ .closed) (data : U) :
    (l.asyncWrite data).Live where
  connects := h.connects
  writes write hwrite := by
    rcases List.mem_append.mp hwrite with hold | hnew
    · exact h.writes write hold
    · obtain rfl := List.mem_singleton.mp hnew
      exact decide_eq_true hopen

theorem Live.completeConnect (h : l.Live) {i : Nat} {error : Bool}
    (hlink : l.completeConnect i error = some l') : l'.Live := by
  obtain ⟨-, rfl⟩ := completeConnect_eq_some hlink
  exact ⟨fun live hlive => h.connects live (List.mem_of_mem_eraseIdx hlive),
    h.writes⟩

theorem Live.completeWrite (h : l.Live) {i : Nat} {error : Bool} {data : U}
    (hlink : l.completeWrite i error = some (data, l')) : l'.Live := by
  obtain ⟨-, -, -, rfl⟩ := completeWrite_eq_some hlink
  exact ⟨h.connects, fun write hwrite =>
    h.writes write (List.mem_of_mem_eraseIdx hwrite)⟩

/-- A socket is closed when nothing is outstanding on it. -/
theorem live_retry (hconnects : l.connects = []) (hwriting : l.writing = []) :
    l.close.expiresFromNow.asyncWait.Live where
  connects live hlive := by
    change live ∈ l.connects.map fun _ => false at hlive
    rw [hconnects] at hlive
    cases hlive
  writes write hwrite := by
    change write ∈ l.writes.map fun w => { w with live := false } at hwrite
    rw [List.map_eq_nil_iff.mp hwriting] at hwrite
    cases hwrite

theorem Live.exists_completeConnect (h : l.Live)
    (hone : l.connects.length = 1) (error : Bool) :
    ∃ l', l.completeConnect 0 error = some l' := by
  obtain ⟨live, hconnects⟩ := List.length_eq_one_iff.mp hone
  have hlive : live = true :=
    h.connects live (hconnects ▸ List.mem_singleton_self live)
  simp [AsyncLink.completeConnect, hconnects, hlive]

theorem Live.exists_completeWrite (h : l.Live) {data : U}
    (hone : l.writing = [data]) (hsocket : l.socket = .established)
    (error : Bool) : ∃ l', l.completeWrite 0 error = some (data, l') := by
  obtain ⟨write, hwrites, rfl⟩ := List.map_eq_singleton_iff.mp hone
  have hlive : write.live = true :=
    h.writes write (hwrites ▸ List.mem_singleton_self write)
  simp [AsyncLink.completeWrite, hwrites, hlive, hsocket]

theorem exists_expire (harmed : l.armed ≠ 0) : ∃ l', l.expire = some l' :=
  ⟨_, if_neg harmed⟩

end AsyncLink
