/-
One datagram socket of an asynchronous I/O service, together with the memory
that a program hands to all its operations: a receive writes the buffer and
the sender when it completes, a send reads the buffer at some moment after it
was started.  Closing the socket overtakes what is outstanding.
-/
import Mathlib.Data.List.Perm.Basic
import Mathlib.Tactic.Common

universe u v

/-- A receive whose handler has not run yet.  `outcome` is what it came to,
once it has completed: the sender and the units that it stored, or `none` for
an error. -/
structure PendingReceive (E : Type u) (B : Type v) where
  overtaken : Bool
  outcome : Option (Option (E × List B))
deriving DecidableEq, Repr

/-- What the receive has stored. -/
def PendingReceive.arrived {E : Type u} {B : Type v}
    (r : PendingReceive E B) : Option (E × List B) :=
  r.outcome.join

/-- A send.  `reply` is what the buffer held when it was started, `read` what
was read of it and sent; while it is `live` it may still be read. -/
structure DatagramSend (E : Type u) (B : Type v) where
  destination : E
  reply : List B
  read : Option (List B)
  live : Bool
deriving DecidableEq, Repr

/-- `sends` are outstanding, `sent` completed without an error. -/
structure DatagramSocket (E : Type u) (B : Type v) where
  isOpen : Bool
  buffer : List B
  sender : E
  receives : List (PendingReceive E B)
  sends : List (DatagramSend E B)
  sent : List (DatagramSend E B)
deriving DecidableEq, Repr

namespace DatagramSocket

variable {E : Type u} {B : Type v}

/-- A fresh socket and the memory next to it. -/
def closed (buffer : List B) (sender : E) : DatagramSocket E B :=
  { isOpen := false, buffer, sender, receives := [], sends := [],
    sent := [] }

def openSocket (s : DatagramSocket E B) : DatagramSocket E B :=
  { s with isOpen := true }

/-- Close the socket: receives that have not completed do so with an error, and
sends that have not been read never are. -/
def close (s : DatagramSocket E B) : DatagramSocket E B :=
  { s with
    isOpen := false
    receives := s.receives.map fun r =>
      { overtaken := true, outcome := some (r.outcome.getD none) }
    sends := s.sends.map fun send => { send with live := false } }

/-- Start a receive.  On a closed socket it completes with an error. -/
def asyncReceiveFrom (s : DatagramSocket E B) : DatagramSocket E B :=
  { s with receives := s.receives ++
      [{ overtaken := false
         outcome := if s.isOpen then none else some none }] }

/-- Start a send of the first units of the buffer to the sender. -/
def asyncSendTo (s : DatagramSocket E B) (length : Nat) :
    DatagramSocket E B :=
  { s with sends := s.sends ++
      [{ destination := s.sender, reply := s.buffer.take length, read := none
         live := s.isOpen }] }

/-- A datagram arrives and completes the `i`-th receive. -/
def deliver (s : DatagramSocket E B) (i : Nat) (sender : E)
    (datagram : List B) : Option (DatagramSocket E B) :=
  match s.receives[i]? with
  | some ⟨overtaken, none⟩ =>
      let units := datagram.take s.buffer.length
      some { s with
        buffer := units ++ s.buffer.drop units.length
        sender
        receives := s.receives.set i
          ⟨overtaken, some (some (sender, units))⟩ }
  | _ => none

/-- The `i`-th receive completes with an error. -/
def fail (s : DatagramSocket E B) (i : Nat) : Option (DatagramSocket E B) :=
  match s.receives[i]? with
  | some ⟨overtaken, none⟩ =>
      some { s with receives := s.receives.set i ⟨overtaken, some none⟩ }
  | _ => none

/-- The handler of the `i`-th receive is run with its outcome, of which it is
told the number of units. -/
def takeReceive (s : DatagramSocket E B) (i : Nat) :
    Option (Option Nat × DatagramSocket E B) :=
  match s.receives[i]? with
  | some ⟨_, some outcome⟩ =>
      some (outcome.map fun arrived => arrived.2.length,
        { s with receives := s.receives.eraseIdx i })
  | _ => none

/-- The `j`-th send reads the buffer. -/
def readSend (s : DatagramSocket E B) (j : Nat) :
    Option (DatagramSocket E B) :=
  match s.sends[j]? with
  | some ⟨destination, reply, none, true⟩ =>
      let units := s.buffer.take reply.length
      some { s with
        sends := s.sends.set j ⟨destination, reply, some units, true⟩ }
  | _ => none

/-- The `j`-th send completes: without an error only if it has been read. -/
def completeSend (s : DatagramSocket E B) (j : Nat) (error : Bool) :
    Option (DatagramSocket E B) :=
  match s.sends[j]? with
  | some send =>
      if error = false ∧ send.read = none then none
      else some { s with
        sends := s.sends.eraseIdx j
        sent := if error then s.sent else s.sent ++ [send] }
  | none => none

/-- Some send has yet to read the buffer. -/
def Unread (s : DatagramSocket E B) : Prop :=
  ∃ send ∈ s.sends, send.live = true ∧ send.read = none

/-- Some receive has stored what its handler has yet to look at. -/
def Unhandled (s : DatagramSocket E B) : Prop :=
  ∃ r ∈ s.receives, r.arrived.isSome = true

/-- What the receives have stored is still there for their handlers. -/
def Kept (s : DatagramSocket E B) : Prop :=
  ∀ r ∈ s.receives, ∀ arrived ∈ r.arrived,
    s.sender = arrived.1 ∧ s.buffer.take arrived.2.length = arrived.2

/-- How many receives are outstanding that no close has overtaken. -/
def standing (s : DatagramSocket E B) : Nat :=
  s.receives.countP fun r => !r.overtaken

instance (s : DatagramSocket E B) : Decidable s.Unread :=
  inferInstanceAs (Decidable (∃ send ∈ s.sends, _))

instance (s : DatagramSocket E B) : Decidable s.Unhandled :=
  inferInstanceAs (Decidable (∃ r ∈ s.receives, _))

/-- What was received is still there.  Every send that has been read was read
while the buffer still held what it held when the send was started, and those
that may yet be read still will. -/
structure Intact (s : DatagramSocket E B) : Prop where
  kept : s.Kept
  read : ∀ send ∈ s.sends ++ s.sent, ∀ units, send.read = some units →
    units = send.reply
  unread : ∀ send ∈ s.sends, send.live = true → send.read = none →
    s.buffer.take send.reply.length = send.reply

/-! What the completions say. -/

theorem deliver_eq_some {s s' : DatagramSocket E B} {i : Nat} {sender : E}
    {datagram : List B} (h : s.deliver i sender datagram = some s') :
    ∃ r, s.receives[i]? = some r ∧ s' = { s with
      buffer := datagram.take s.buffer.length ++
        s.buffer.drop (datagram.take s.buffer.length).length
      sender
      receives := s.receives.set i ⟨r.overtaken,
        some (some (sender, datagram.take s.buffer.length))⟩ } := by
  unfold deliver at h
  split at h
  · rename_i overtaken hr
    exact ⟨_, hr, (Option.some.inj h).symm⟩
  · cases h

theorem fail_eq_some {s s' : DatagramSocket E B} {i : Nat}
    (h : s.fail i = some s') :
    ∃ r, s.receives[i]? = some r ∧ s' = { s with
      receives := s.receives.set i ⟨r.overtaken, some none⟩ } := by
  unfold fail at h
  split at h
  · rename_i overtaken hr
    exact ⟨_, hr, (Option.some.inj h).symm⟩
  · cases h

theorem takeReceive_eq_some {s s' : DatagramSocket E B} {i : Nat}
    {outcome : Option Nat} (h : s.takeReceive i = some (outcome, s')) :
    ∃ r, s.receives[i]? = some r ∧
      outcome = r.arrived.map (fun arrived => arrived.2.length) ∧
      s' = { s with receives := s.receives.eraseIdx i } := by
  unfold takeReceive at h
  split at h
  · rename_i overtaken outcome' hr
    obtain ⟨rfl, rfl⟩ := Prod.mk.inj (Option.some.inj h)
    exact ⟨_, hr, rfl, rfl⟩
  · cases h

theorem readSend_eq_some {s s' : DatagramSocket E B} {j : Nat}
    (h : s.readSend j = some s') :
    ∃ send, s.sends[j]? = some send ∧ send.live = true ∧
      send.read = none ∧ s' = { s with
        sends := s.sends.set j { send with
          read := some (s.buffer.take send.reply.length) } } := by
  unfold readSend at h
  split at h
  · rename_i destination reply hsend
    exact ⟨_, hsend, rfl, rfl, (Option.some.inj h).symm⟩
  · cases h

theorem completeSend_eq_some {s s' : DatagramSocket E B} {j : Nat}
    {error : Bool} (h : s.completeSend j error = some s') :
    ∃ send, s.sends[j]? = some send ∧ s' = { s with
      sends := s.sends.eraseIdx j
      sent := if error then s.sent else s.sent ++ [send] } := by
  unfold completeSend at h
  split at h
  · rename_i send hsend
    split at h
    · cases h
    · exact ⟨send, hsend, (Option.some.inj h).symm⟩
  · cases h

/-! Receives that no close has overtaken. -/

@[simp] theorem standing_close (s : DatagramSocket E B) :
    s.close.standing = 0 := by
  simp [standing, close]

@[simp] theorem standing_asyncReceiveFrom (s : DatagramSocket E B) :
    s.asyncReceiveFrom.standing = s.standing + 1 := by
  simp [standing, asyncReceiveFrom]

theorem standing_set {s : DatagramSocket E B} {i : Nat}
    {r : PendingReceive E B} (hr : s.receives[i]? = some r)
    (outcome : Option (Option (E × List B))) :
    (s.receives.set i ⟨r.overtaken, outcome⟩).countP (fun r => !r.overtaken) =
      s.standing := by
  obtain ⟨hi, hget⟩ := List.getElem?_eq_some_iff.mp hr
  have hsame : (s.receives.set i ⟨r.overtaken, outcome⟩).map
      PendingReceive.overtaken = s.receives.map PendingReceive.overtaken := by
    rw [List.map_set, ← hget, ← List.getElem_map PendingReceive.overtaken
      (h := by simpa using hi)]
    exact List.set_getElem_self _
  have hcount := congrArg (List.countP (! ·)) hsame
  rwa [List.countP_map, List.countP_map] at hcount

theorem standing_deliver {s s' : DatagramSocket E B} {i : Nat} {sender : E}
    {datagram : List B} (h : s.deliver i sender datagram = some s') :
    s'.standing = s.standing := by
  obtain ⟨r, hr, rfl⟩ := deliver_eq_some h
  exact standing_set hr _

theorem standing_fail {s s' : DatagramSocket E B} {i : Nat}
    (h : s.fail i = some s') : s'.standing = s.standing := by
  obtain ⟨r, hr, rfl⟩ := fail_eq_some h
  exact standing_set hr _

theorem standing_takeReceive {s s' : DatagramSocket E B} {i : Nat}
    {outcome : Option Nat} (h : s.takeReceive i = some (outcome, s')) :
    ∃ r, s.receives[i]? = some r ∧
      s.standing = s'.standing + if r.overtaken then 0 else 1 := by
  obtain ⟨r, hr, -, rfl⟩ := takeReceive_eq_some h
  obtain ⟨hi, hget⟩ := List.getElem?_eq_some_iff.mp hr
  refine ⟨r, hr, ?_⟩
  have hperm := (List.getElem_cons_eraseIdx_perm hi).countP_eq
    fun r => !r.overtaken
  rw [List.countP_cons, hget] at hperm
  rw [standing, ← hperm]
  cases r.overtaken <;> rfl

/-! What was received stays where it is as long as nothing is stored over
it. -/

namespace Kept

/-- Whatever leaves the memory alone and receives nothing. -/
theorem frame {s s' : DatagramSocket E B} (h : s.Kept)
    (hbuffer : s'.buffer = s.buffer) (hsender : s'.sender = s.sender)
    (hreceives : ∀ r' ∈ s'.receives, ∀ arrived ∈ r'.arrived,
      ∃ r ∈ s.receives, arrived ∈ r.arrived) : s'.Kept := by
  intro r' hr' arrived harrived
  obtain ⟨r, hr, hwas⟩ := hreceives r' hr' arrived harrived
  rw [hbuffer, hsender]
  exact h r hr arrived hwas

theorem of_not_unhandled {s : DatagramSocket E B} (h : ¬ s.Unhandled) :
    s.Kept := by
  intro r hr arrived harrived
  exact absurd ⟨r, hr, Option.isSome_of_mem harrived⟩ h

theorem close {s : DatagramSocket E B} (h : s.Kept) : s.close.Kept := by
  refine h.frame rfl rfl fun r' hr' arrived harrived => ?_
  obtain ⟨r, hr, rfl⟩ := List.mem_map.mp hr'
  refine ⟨r, hr, ?_⟩
  cases hout : r.outcome with
  | none => simp [PendingReceive.arrived, hout] at harrived
  | some outcome => simpa [PendingReceive.arrived, hout] using harrived

theorem openSocket {s : DatagramSocket E B} (h : s.Kept) :
    s.openSocket.Kept := h

theorem asyncReceiveFrom {s : DatagramSocket E B} (h : s.Kept) :
    s.asyncReceiveFrom.Kept := by
  refine h.frame rfl rfl fun r' hr' arrived harrived => ?_
  rcases List.mem_append.mp hr' with hold | hnew
  · exact ⟨r', hold, harrived⟩
  · rw [List.mem_singleton.mp hnew] at harrived
    cases hopen : s.isOpen <;> simp [PendingReceive.arrived, hopen] at harrived

theorem fail {s s' : DatagramSocket E B} {i : Nat} (h : s.Kept)
    (hstep : s.fail i = some s') : s'.Kept := by
  obtain ⟨r, -, rfl⟩ := fail_eq_some hstep
  refine h.frame rfl rfl fun r' hr' arrived harrived => ?_
  rcases List.mem_or_eq_of_mem_set hr' with hold | rfl
  · exact ⟨r', hold, harrived⟩
  · cases harrived

theorem takeReceive {s s' : DatagramSocket E B} {i : Nat}
    {outcome : Option Nat} (h : s.Kept)
    (hstep : s.takeReceive i = some (outcome, s')) : s'.Kept := by
  obtain ⟨r, -, -, rfl⟩ := takeReceive_eq_some hstep
  exact h.frame rfl rfl fun r' hr' arrived harrived =>
    ⟨r', List.mem_of_mem_eraseIdx hr', harrived⟩

/-- A datagram that arrives is there, if nothing else that arrived waits. -/
theorem deliver {s s' : DatagramSocket E B} {i : Nat} {sender : E}
    {datagram : List B} (h : ¬ s.Unhandled)
    (hstep : s.deliver i sender datagram = some s') : s'.Kept := by
  obtain ⟨r, -, rfl⟩ := deliver_eq_some hstep
  intro r' hr' arrived harrived
  rcases List.mem_or_eq_of_mem_set hr' with hold | rfl
  · exact absurd ⟨r', hold, Option.isSome_of_mem harrived⟩ h
  · obtain rfl := Option.some.inj harrived
    exact ⟨rfl, List.take_left⟩

end Kept

/-! What keeps the sends intact. -/

namespace Intact

theorem closed (buffer : List B) (sender : E) :
    (DatagramSocket.closed buffer sender).Intact where
  kept r h := by cases h
  read send h := by cases h
  unread send h := by cases h

/-- Whatever leaves the buffer and the sends alone. -/
theorem frame {s s' : DatagramSocket E B} (h : s.Intact) (hkept : s'.Kept)
    (hbuffer : s'.buffer = s.buffer) (hsends : s'.sends = s.sends)
    (hsent : s'.sent = s.sent) : s'.Intact where
  kept := hkept
  read := by rw [hsends, hsent]; exact h.read
  unread := by rw [hsends, hbuffer]; exact h.unread

/-- Writing the buffer when every send has read it. -/
theorem write {s s' : DatagramSocket E B} (h : s.Intact) (hkept : s'.Kept)
    (hread : ¬ s.Unread) (hsends : s'.sends = s.sends)
    (hsent : s'.sent = s.sent) : s'.Intact where
  kept := hkept
  read := by rw [hsends, hsent]; exact h.read
  unread := by
    rw [hsends]
    intro send hsend hlive hnone
    exact absurd ⟨send, hsend, hlive, hnone⟩ hread

theorem close {s : DatagramSocket E B} (h : s.Intact) : s.close.Intact where
  kept := h.kept.close
  read send hsend units hunits := by
    rcases List.mem_append.mp hsend with hpending | hsent
    · obtain ⟨old, hold, rfl⟩ := List.mem_map.mp hpending
      exact h.read old (List.mem_append_left _ hold) units hunits
    · exact h.read send (List.mem_append_right _ hsent) units hunits
  unread send hsend hlive _ := by
    obtain ⟨old, -, rfl⟩ := List.mem_map.mp hsend
    cases hlive

theorem asyncSendTo {s : DatagramSocket E B} (h : s.Intact) (length : Nat) :
    (s.asyncSendTo length).Intact where
  kept := h.kept.frame rfl rfl fun r hr arrived harrived =>
    ⟨r, hr, harrived⟩
  read send hsend units hunits := by
    rcases List.mem_append.mp hsend with hpending | hsent
    · rcases List.mem_append.mp hpending with hold | hnew
      · exact h.read send (List.mem_append_left _ hold) units hunits
      · rw [List.mem_singleton.mp hnew] at hunits
        cases hunits
    · exact h.read send (List.mem_append_right _ hsent) units hunits
  unread send hsend hlive hnone := by
    rcases List.mem_append.mp hsend with hold | hnew
    · exact h.unread send hold hlive hnone
    · rw [List.mem_singleton.mp hnew]
      change s.buffer.take (s.buffer.take length).length =
        s.buffer.take length
      rw [List.length_take, ← List.take_take, List.take_length]

theorem readSend {s s' : DatagramSocket E B} {j : Nat} (h : s.Intact)
    (hstep : s.readSend j = some s') : s'.Intact := by
  obtain ⟨send, hsend, hlive, hnone, rfl⟩ := readSend_eq_some hstep
  have hmem := List.mem_of_getElem? hsend
  refine ⟨h.kept.frame rfl rfl fun r hr arrived harrived =>
    ⟨r, hr, harrived⟩, ?_, ?_⟩
  · intro other hother units hunits
    rcases List.mem_append.mp hother with hpending | hsent
    · rcases List.mem_or_eq_of_mem_set hpending with hold | rfl
      · exact h.read other (List.mem_append_left _ hold) units hunits
      · rw [← Option.some.inj hunits]
        exact h.unread send hmem hlive hnone
    · exact h.read other (List.mem_append_right _ hsent) units hunits
  · intro other hother hlive' hnone'
    rcases List.mem_or_eq_of_mem_set hother with hold | rfl
    · exact h.unread other hold hlive' hnone'
    · cases hnone'

theorem completeSend {s s' : DatagramSocket E B} {j : Nat} {error : Bool}
    (h : s.Intact) (hstep : s.completeSend j error = some s') :
    s'.Intact := by
  obtain ⟨send, hsend, rfl⟩ := completeSend_eq_some hstep
  have hmem := List.mem_of_getElem? hsend
  refine ⟨h.kept.frame rfl rfl fun r hr arrived harrived =>
    ⟨r, hr, harrived⟩, ?_, ?_⟩
  · intro other hother
    apply h.read
    rcases List.mem_append.mp hother with hpending | hsent
    · exact List.mem_append_left _ (List.mem_of_mem_eraseIdx hpending)
    · cases error with
      | true => exact List.mem_append_right _ hsent
      | false =>
          rcases List.mem_append.mp hsent with hold | hnew
          · exact List.mem_append_right _ hold
          · rw [List.mem_singleton.mp hnew]
            exact List.mem_append_left _ hmem
  · intro other hother
    exact h.unread other (List.mem_of_mem_eraseIdx hother)

end Intact

/-! Whose datagrams have come in. -/

section Heard

variable {socket : DatagramSocket E B} {senders : List E}

/-- The sender next to the socket is that of a datagram, if one has come. -/
def Heard (socket : DatagramSocket E B) (senders : List E) : Prop :=
  socket.sender ∈ senders ∨ ∀ r ∈ socket.receives, r.arrived = none

theorem Heard.of_receives {socket' : DatagramSocket E B}
    (h : socket.Heard senders) (hsender : socket'.sender = socket.sender)
    (hreceives : ∀ r ∈ socket'.receives, r ∈ socket.receives ∨
      r.arrived = none) : socket'.Heard senders := by
  rcases h with hmem | hnone
  · exact Or.inl (hsender ▸ hmem)
  · refine Or.inr fun r hr => ?_
    rcases hreceives r hr with hold | hempty
    · exact hnone r hold
    · exact hempty

theorem Heard.close (h : socket.Heard senders) :
    socket.close.Heard senders := by
  rcases h with hmem | hnone
  · exact Or.inl hmem
  · refine Or.inr fun r hr => ?_
    obtain ⟨old, hold, rfl⟩ := List.mem_map.mp hr
    have harrived := hnone old hold
    rw [PendingReceive.arrived] at harrived ⊢
    cases houtcome : old.outcome with
    | none => rfl
    | some outcome =>
        rw [houtcome] at harrived
        exact harrived

theorem Heard.asyncReceiveFrom (h : socket.Heard senders) :
    socket.asyncReceiveFrom.Heard senders := by
  refine h.of_receives rfl fun r hr => ?_
  rcases List.mem_append.mp hr with hold | hnew
  · exact Or.inl hold
  · rw [List.mem_singleton.mp hnew]
    right
    unfold PendingReceive.arrived
    split_ifs <;> rfl

/-- A datagram that comes in brings its sender. -/
theorem heard_deliver {socket' : DatagramSocket E B} {i : Nat} {sender : E}
    {datagram : List B}
    (h : socket.deliver i sender datagram = some socket') :
    socket'.Heard (senders ++ [sender]) := by
  unfold deliver at h
  split at h
  · obtain rfl := Option.some.inj h
    exact Or.inl (List.mem_append_right _ List.mem_cons_self)
  · cases h

theorem Heard.fail {socket' : DatagramSocket E B} {i : Nat}
    (h : socket.Heard senders) (hfail : socket.fail i = some socket') :
    socket'.Heard senders := by
  unfold DatagramSocket.fail at hfail
  split at hfail
  · obtain rfl := Option.some.inj hfail
    refine h.of_receives rfl fun r hr => ?_
    rcases List.mem_or_eq_of_mem_set hr with hold | rfl
    · exact Or.inl hold
    · exact Or.inr rfl
  · cases hfail

/-- A receive that has stored something was a datagram's. -/
theorem Heard.takeReceive {socket' : DatagramSocket E B} {i : Nat}
    {outcome : Option Nat} (h : socket.Heard senders)
    (htake : socket.takeReceive i = some (outcome, socket')) :
    socket'.Heard senders ∧
      (outcome.isSome = true → socket'.sender ∈ senders) := by
  unfold DatagramSocket.takeReceive at htake
  split at htake
  · rename_i overtaken arrived hreceive
    obtain ⟨rfl, rfl⟩ := Prod.mk.inj (Option.some.inj htake)
    constructor
    · exact h.of_receives rfl fun r hr => Or.inl (List.mem_of_mem_eraseIdx hr)
    · intro hsome
      refine h.resolve_right fun hnone => ?_
      have harrived := hnone _ (List.mem_of_getElem? hreceive)
      change arrived = none at harrived
      rw [harrived] at hsome
      cases hsome
  · cases htake

theorem Heard.readSend {socket' : DatagramSocket E B} {j : Nat}
    (h : socket.Heard senders) (hread : socket.readSend j = some socket') :
    socket'.Heard senders := by
  unfold DatagramSocket.readSend at hread
  split at hread
  · obtain rfl := Option.some.inj hread
    exact h
  · cases hread

theorem Heard.completeSend {socket' : DatagramSocket E B} {j : Nat}
    {error : Bool} (h : socket.Heard senders)
    (hstep : socket.completeSend j error = some socket') :
    socket'.Heard senders := by
  obtain ⟨send, hsend, rfl⟩ := completeSend_eq_some hstep
  exact h

end Heard

section Stored

/-- How many receives have stored what their handlers have yet to look at. -/
def stored (s : DatagramSocket E B) : Nat :=
  s.receives.countP fun r => r.arrived.isSome

variable {s s' : DatagramSocket E B} {i : Nat}

theorem stored_close : s.close.stored = s.stored := by
  have harrived : ∀ r : PendingReceive E B, PendingReceive.arrived
      ⟨true, some (r.outcome.getD none)⟩ = r.arrived := by
    rintro ⟨overtaken, outcome⟩
    cases outcome <;> rfl
  rw [stored, close, List.countP_map]
  simp only [Function.comp_def, harrived]
  rfl

theorem stored_asyncReceiveFrom : s.asyncReceiveFrom.stored = s.stored := by
  unfold stored asyncReceiveFrom
  split_ifs <;> simp [PendingReceive.arrived]

theorem stored_deliver {sender : E} {datagram : List B}
    (h : s.deliver i sender datagram = some s') :
    s'.stored ≤ s.stored + 1 := by
  obtain ⟨r, hr, rfl⟩ := deliver_eq_some h
  obtain ⟨hi, -⟩ := List.getElem?_eq_some_iff.mp hr
  rw [stored, List.countP_set hi, stored]
  split_ifs <;> omega

theorem stored_fail (h : s.fail i = some s') : s'.stored ≤ s.stored := by
  obtain ⟨r, hr, rfl⟩ := fail_eq_some h
  obtain ⟨hi, -⟩ := List.getElem?_eq_some_iff.mp hr
  rw [stored, List.countP_set hi, stored]
  simp [PendingReceive.arrived]

/-- The handler of a receive is told of what it has stored, once. -/
theorem stored_takeReceive {outcome : Option Nat}
    (h : s.takeReceive i = some (outcome, s')) :
    s.stored = s'.stored + if outcome.isSome then 1 else 0 := by
  obtain ⟨r, hr, rfl, rfl⟩ := takeReceive_eq_some h
  obtain ⟨hi, hget⟩ := List.getElem?_eq_some_iff.mp hr
  have hperm := (List.getElem_cons_eraseIdx_perm hi).countP_eq
    fun r => r.arrived.isSome
  rw [List.countP_cons, hget] at hperm
  rw [stored, ← hperm, Option.isSome_map]
  rfl

end Stored

end DatagramSocket
