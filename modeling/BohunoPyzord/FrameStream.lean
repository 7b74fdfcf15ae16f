/-
Frames of one fixed size over a stream that may break.  The sender hands the
units of a frame over a few at a time and is told when all of a frame is out;
the receiver collects units until a frame is complete.  What is in flight when
the stream breaks is lost, and neither side can tell how much that is.
-/
import Mathlib.Data.List.Infix
import Mathlib.Tactic.Common

universe u v

/-- A representation of values by units in which every `size` units stand for
exactly one value. -/
structure Framing (A : Type u) (B : Type v) where
  size : Nat
  encode : A → List B
  decode : List B → A
  size_pos : 0 < size
  length_encode : ∀ a, (encode a).length = size
  decode_encode : ∀ a, decode (encode a) = a
  encode_decode : ∀ bs, bs.length = size → encode (decode bs) = bs

namespace Framing

variable {A : Type u} {B : Type v} (F : Framing A B)

/-- The frames of some values, one after another. -/
def encodeAll (as : List A) : List B := as.flatMap F.encode

@[simp] theorem encodeAll_nil : F.encodeAll [] = [] := rfl

@[simp] theorem encodeAll_cons (a : A) (as : List A) :
    F.encodeAll (a :: as) = F.encode a ++ F.encodeAll as := rfl

@[simp] theorem encodeAll_append (first second : List A) :
    F.encodeAll (first ++ second) =
      F.encodeAll first ++ F.encodeAll second :=
  List.flatMap_append

theorem encodeAll_eq_nil {as : List A} : F.encodeAll as = [] ↔ as = [] := by
  constructor
  · intro h
    cases as with
    | nil => rfl
    | cons a as =>
        rw [encodeAll_cons, List.append_eq_nil_iff] at h
        have hlength := F.length_encode a
        rw [h.1] at hlength
        exact absurd hlength F.size_pos.ne
  · rintro rfl
    rfl

/-- A stream is whole frames and less than one more. -/
theorem exists_encodeAll (bs : List B) :
    ∃ as rest, bs = F.encodeAll as ++ rest ∧ rest.length < F.size := by
  by_cases hshort : bs.length < F.size
  · exact ⟨[], bs, rfl, hshort⟩
  · have hpos := F.size_pos
    obtain ⟨as, rest, hsplit, hrest⟩ := exists_encodeAll (bs.drop F.size)
    refine ⟨F.decode (bs.take F.size) :: as, rest, ?_, hrest⟩
    have hfirst : F.encode (F.decode (bs.take F.size)) = bs.take F.size := by
      apply F.encode_decode
      rw [List.length_take]
      exact Nat.min_eq_left (Nat.le_of_not_lt hshort)
    rw [encodeAll_cons, hfirst, List.append_assoc, ← hsplit,
      List.take_append_drop]
termination_by bs.length
decreasing_by
  rw [List.length_drop]
  omega

theorem encode_injective {a b : A} (h : F.encode a = F.encode b) : a = b := by
  rw [← F.decode_encode a, h, F.decode_encode]

/-- Whole frames at the front of a stream of frames are the first of these,
as long as what follows the stream is no whole frame. -/
theorem prefix_of_encodeAll_prefix {as bs : List A} {rest : List B}
    (hrest : rest.length < F.size)
    (h : F.encodeAll as <+: F.encodeAll bs ++ rest) : as <+: bs := by
  induction as generalizing bs with
  | nil => exact List.nil_prefix
  | cons a as ih =>
      have ha := F.length_encode a
      cases bs with
      | nil =>
          have hlength := h.length_le
          simp only [encodeAll_cons, encodeAll_nil, List.nil_append,
            List.length_append] at hlength
          omega
      | cons b bs =>
          have hb := F.length_encode b
          rw [encodeAll_cons, encodeAll_cons, List.append_assoc] at h
          obtain ⟨after, hafter⟩ := h
          rw [List.append_assoc] at hafter
          obtain ⟨hhead, htail⟩ := List.append_inj hafter (ha.trans hb.symm)
          exact List.cons_prefix_cons.mpr
            ⟨F.encode_injective hhead, ih ⟨after, htail⟩⟩

/-- Two values in one frame, one behind the other. -/
def pair {A' : Type u} (G : Framing A' B) : Framing (A × A') B where
  size := F.size + G.size
  encode p := F.encode p.1 ++ G.encode p.2
  decode bs := (F.decode (bs.take F.size), G.decode (bs.drop F.size))
  size_pos := Nat.add_pos_left F.size_pos _
  length_encode p := by
    rw [List.length_append, F.length_encode, G.length_encode]
  decode_encode p := by
    rw [List.take_left' (F.length_encode p.1),
      List.drop_left' (F.length_encode p.1), F.decode_encode, G.decode_encode]
  encode_decode bs h := by
    rw [F.encode_decode _ (by rw [List.length_take]; omega),
      G.encode_decode _ (by rw [List.length_drop]; omega),
      List.take_append_drop]

end Framing

/-- A stream with its history.  `sent` are the frames that the sender was told
to be out, `received` those that the receiver has taken; `buffer` is what the
receiver has collected of the next one. -/
structure FrameStream (A : Type u) (B : Type v) where
  sent : List A
  received : List A
  buffer : List B
  inFlight : List B
  lost : List B
  broken : Bool
deriving DecidableEq, Repr

namespace FrameStream

variable {A : Type u} {B : Type v}

def fresh : FrameStream A B :=
  { sent := [], received := [], buffer := [], inFlight := [], lost := [],
    broken := false }

/-- Hand over units.  A broken stream takes them and loses them. -/
def transfer (s : FrameStream A B) (units : List B) : FrameStream A B :=
  if s.broken then { s with lost := s.lost ++ units }
  else { s with inFlight := s.inFlight ++ units }

@[simp] theorem sent_transfer (s : FrameStream A B) (units : List B) :
    (s.transfer units).sent = s.sent := by
  unfold transfer
  split <;> rfl

@[simp] theorem broken_transfer (s : FrameStream A B) (units : List B) :
    (s.transfer units).broken = s.broken := by
  unfold transfer
  split <;> rfl

/-- The sender is told that a frame is out. -/
def report (s : FrameStream A B) (a : A) : FrameStream A B :=
  { s with sent := s.sent ++ [a] }

/-- The receiver collects the next `n` units. -/
def read (s : FrameStream A B) (n : Nat) : FrameStream A B :=
  { s with
    buffer := s.buffer ++ s.inFlight.take n
    inFlight := s.inFlight.drop n }

/-- The receiver takes the frame it has collected. -/
def receive (F : Framing A B) (s : FrameStream A B) : FrameStream A B :=
  { s with received := s.received ++ [F.decode s.buffer], buffer := [] }

def breakOff (s : FrameStream A B) : FrameStream A B :=
  { s with inFlight := [], lost := s.inFlight ++ s.lost, broken := true }

/-- The stream carries the reported frames followed by `part`, in order. -/
structure Carries (F : Framing A B) (part : List B)
    (s : FrameStream A B) : Prop where
  stream : F.encodeAll s.received ++ s.buffer ++ s.inFlight ++ s.lost =
    F.encodeAll s.sent ++ part
  whole : s.broken = false → s.lost = []

/-- What was sent and not received is on its way. -/
def OnItsWay (F : Framing A B) (s : FrameStream A B) : Prop :=
  F.encodeAll (s.sent.drop s.received.length) <+: s.buffer ++ s.inFlight

namespace Carries

variable {F : Framing A B} {part : List B} {s : FrameStream A B}

theorem fresh : Carries F [] (FrameStream.fresh : FrameStream A B) where
  stream := rfl
  whole _ := rfl

theorem transfer (h : s.Carries F part) (units : List B) :
    (s.transfer units).Carries F (part ++ units) := by
  unfold FrameStream.transfer
  split
  · rename_i hbroken
    refine ⟨?_, fun hwhole => absurd (hbroken.symm.trans hwhole) (by simp)⟩
    simp only [← List.append_assoc, h.stream]
  · rename_i hwhole
    have hlost := h.whole (by simpa using hwhole)
    have hstream := h.stream
    rw [hlost, List.append_nil] at hstream
    refine ⟨?_, fun _ => hlost⟩
    simp only [hlost, List.append_nil, ← List.append_assoc, hstream]

theorem report {a : A} (h : s.Carries F (F.encode a)) :
    (s.report a).Carries F [] where
  stream := by simpa [FrameStream.report] using h.stream
  whole := h.whole

theorem read (h : s.Carries F part) (n : Nat) :
    (s.read n).Carries F part where
  stream := by simpa [FrameStream.read] using h.stream
  whole := h.whole

theorem receive (h : s.Carries F part) (hfull : s.buffer.length = F.size) :
    (s.receive F).Carries F part where
  stream := by
    have hframe := F.encode_decode s.buffer hfull
    simpa [FrameStream.receive, hframe] using h.stream
  whole := h.whole

theorem breakOff (h : s.Carries F part) : s.breakOff.Carries F part where
  stream := by simpa [FrameStream.breakOff] using h.stream
  whole hwhole := by cases hwhole

/-- With less than a frame handed over beyond the reported ones, the receiver
has taken the first of these. -/
theorem received_prefix (h : s.Carries F part)
    (hpart : part.length < F.size) : s.received <+: s.sent := by
  refine F.prefix_of_encodeAll_prefix hpart
    ⟨s.buffer ++ s.inFlight ++ s.lost, ?_⟩
  simpa using h.stream

/-- With a whole frame handed over, the receiver may have taken that too. -/
theorem received_prefix_concat {a : A} (h : s.Carries F (F.encode a)) :
    s.received <+: s.sent ++ [a] :=
  h.report.received_prefix F.size_pos

/-- On an unbroken stream everything reported is received or on its way. -/
theorem onItsWay (h : s.Carries F part) (hwhole : s.broken = false)
    (hreceived : s.received <+: s.sent ∨ s.sent <+: s.received) :
    s.OnItsWay F := by
  unfold OnItsWay
  rcases hreceived with ⟨rest, hrest⟩ | hall
  · have hstream := h.stream
    rw [h.whole hwhole, List.append_nil, ← hrest, F.encodeAll_append,
      List.append_assoc, List.append_assoc] at hstream
    rw [← hrest, List.drop_left, List.append_cancel_left hstream]
    exact List.prefix_append _ _
  · rw [List.drop_eq_nil_of_le hall.length_le]
    exact List.nil_prefix

end Carries

end FrameStream
