/-
A text in lines that arrives in chunks.  It is read until a delimiter has come,
which may leave more of it in the buffer; what follows the first blank line of
a text does not depend on how it arrived.
-/
import Mathlib.Data.List.Infix
import Mathlib.Tactic.Common

universe u

namespace LineStream

variable {B : Type u}

/-- What one read brings. -/
structure Chunk (B : Type u) where
  units : List B
  nonempty : units ≠ []

/-- What the reads bring together. -/
def joined (chunks : List (Chunk B)) : List B := chunks.flatMap Chunk.units

@[simp] theorem joined_nil : joined ([] : List (Chunk B)) = [] := rfl

@[simp] theorem joined_cons (chunk : Chunk B) (chunks : List (Chunk B)) :
    joined (chunk :: chunks) = chunk.units ++ joined chunks := rfl

section ReadUntil

variable [DecidableEq B] {delimiter : List B}

/-- Read into a buffer until it holds the delimiter: the buffer, and the reads
to come.  `none` is the end of the stream. -/
def readUntil (delimiter buffer : List B) :
    List (Chunk B) → Option (List B × List (Chunk B))
  | [] => if delimiter <:+: buffer then some (buffer, []) else none
  | chunk :: chunks =>
      if delimiter <:+: buffer then some (buffer, chunk :: chunks)
      else readUntil delimiter (buffer ++ chunk.units) chunks

/-- Nothing is lost or made up, and the delimiter has come. -/
theorem readUntil_spec {buffer buffer' : List B}
    {chunks chunks' : List (Chunk B)}
    (h : readUntil delimiter buffer chunks = some (buffer', chunks')) :
    buffer' ++ joined chunks' = buffer ++ joined chunks ∧
      delimiter <:+: buffer' := by
  induction chunks generalizing buffer with
  | nil =>
      rw [readUntil] at h
      split_ifs at h with hfound
      cases h
      exact ⟨rfl, hfound⟩
  | cons chunk chunks ih =>
      rw [readUntil] at h
      split_ifs at h with hfound
      · cases h
        exact ⟨rfl, hfound⟩
      · obtain ⟨hjoined, hdelimiter⟩ := ih h
        rw [joined_cons, ← List.append_assoc]
        exact ⟨hjoined, hdelimiter⟩

/-- A delimiter in the stream is found, however the stream arrives. -/
theorem exists_readUntil {buffer : List B} {chunks : List (Chunk B)}
    (h : delimiter <:+: buffer ++ joined chunks) :
    ∃ buffer' chunks',
      readUntil delimiter buffer chunks = some (buffer', chunks') := by
  induction chunks generalizing buffer with
  | nil =>
      rw [joined_nil, List.append_nil] at h
      exact ⟨buffer, [], if_pos h⟩
  | cons chunk chunks ih =>
      rw [readUntil]
      split_ifs
      · exact ⟨_, _, rfl⟩
      · rw [joined_cons, ← List.append_assoc] at h
        exact ih h

end ReadUntil

/-- One read of at most `wanted` units: what it gives, and the reads to come.
`none` is the end of the stream. -/
def readSome (wanted : Nat) :
    List (Chunk B) → Option (List B × List (Chunk B))
  | [] => none
  | chunk :: chunks =>
      if h : chunk.units.drop wanted = [] then some (chunk.units, chunks)
      else some (chunk.units.take wanted, ⟨chunk.units.drop wanted, h⟩ :: chunks)

/-- A read of something gives something, no more than it was to, and leaves
the rest. -/
theorem exists_readSome {wanted : Nat} (hwanted : 0 < wanted)
    (chunk : Chunk B) (chunks : List (Chunk B)) :
    ∃ units rest, readSome wanted (chunk :: chunks) = some (units, rest) ∧
      units ++ joined rest = joined (chunk :: chunks) ∧ units ≠ [] ∧
        units.length ≤ wanted := by
  rw [readSome]
  split_ifs with hdrop
  · exact ⟨_, _, rfl, rfl, chunk.nonempty, List.drop_eq_nil_iff.mp hdrop⟩
  · refine ⟨_, _, rfl, ?_, ?_, List.length_take_le wanted chunk.units⟩
    · rw [joined_cons, joined_cons, ← List.append_assoc,
        List.take_append_drop]
    · rw [Ne, List.take_eq_nil_iff, not_or]
      exact ⟨hwanted.ne', chunk.nonempty⟩

section Lines

variable (lf : B) (blank : List B)

/-- `rest` is what follows the first blank line of a text. -/
def After (text rest : List B) : Prop :=
  ∃ lines : List (List B),
    text = lines.flatMap (· ++ [lf]) ++ (blank ++ lf :: rest) ∧
      ∀ line ∈ lines, lf ∉ line ∧ line ≠ blank

variable {lf blank}

/-- A text breaks at its first line feed in one way. -/
theorem append_cons_inj_of_not_mem {line line' text text' : List B}
    (hline : lf ∉ line) (hline' : lf ∉ line')
    (h : line ++ lf :: text = line' ++ lf :: text') :
    line = line' ∧ text = text' := by
  induction line generalizing line' with
  | nil =>
      cases line' with
      | nil => exact ⟨rfl, (List.cons.inj h).2⟩
      | cons b line' =>
          exact absurd ((List.cons.inj h).1 ▸ List.mem_cons_self) hline'
  | cons b line ih =>
      cases line' with
      | nil => exact absurd ((List.cons.inj h).1 ▸ List.mem_cons_self) hline
      | cons b' line' =>
          obtain ⟨rfl, htail⟩ := List.cons.inj h
          obtain ⟨rfl, rfl⟩ := ih
            (fun hmem => hline (List.mem_cons_of_mem b hmem))
            (fun hmem => hline' (List.mem_cons_of_mem b hmem)) htail
          exact ⟨rfl, rfl⟩

/-- The first line of a text is the blank one, or what follows the blank line
does so in the other lines. -/
theorem after_line_iff (hblank : lf ∉ blank) {line text rest : List B}
    (hline : lf ∉ line) :
    After lf blank (line ++ lf :: text) rest ↔
      (line = blank ∧ text = rest) ∨
        (line ≠ blank ∧ After lf blank text rest) := by
  constructor
  · rintro ⟨lines, htext, hlines⟩
    cases lines with
    | nil =>
        obtain ⟨rfl, rfl⟩ := append_cons_inj_of_not_mem hline hblank htext
        exact Or.inl ⟨rfl, rfl⟩
    | cons first lines =>
        obtain ⟨hfirst, hothers⟩ := List.forall_mem_cons.mp hlines
        simp only [List.flatMap_cons, List.append_assoc,
          List.singleton_append] at htext
        obtain ⟨rfl, rfl⟩ := append_cons_inj_of_not_mem hline hfirst.1 htext
        exact Or.inr ⟨hfirst.2, lines, rfl, hothers⟩
  · rintro (⟨rfl, rfl⟩ | ⟨hne, lines, rfl, hlines⟩)
    · exact ⟨[], rfl, fun line hmem => absurd hmem List.not_mem_nil⟩
    · refine ⟨line :: lines, by simp, ?_⟩
      exact List.forall_mem_cons.mpr ⟨⟨hline, hne⟩, hlines⟩

/-- There is only one such rest. -/
theorem After.unique (hblank : lf ∉ blank) {text rest rest' : List B}
    (h : After lf blank text rest) (h' : After lf blank text rest') :
    rest = rest' := by
  obtain ⟨lines, rfl, hlines⟩ := h
  induction lines with
  | nil =>
      rcases (after_line_iff hblank hblank).mp h' with ⟨-, hrest⟩ | ⟨hne, -⟩
      · exact hrest
      · exact absurd rfl hne
  | cons line lines ih =>
      obtain ⟨hline, hothers⟩ := List.forall_mem_cons.mp hlines
      simp only [List.flatMap_cons, List.append_assoc,
        List.singleton_append] at h' ih
      rcases (after_line_iff hblank hline.1).mp h' with
        ⟨hsame, -⟩ | ⟨-, htail⟩
      · exact absurd hsame hline.2
      · exact ih hothers htail

/-- What comes later is part of the rest. -/
theorem After.append {text rest : List B} (h : After lf blank text rest)
    (more : List B) : After lf blank (text ++ more) (rest ++ more) := by
  obtain ⟨lines, rfl, hlines⟩ := h
  exact ⟨lines, by simp, hlines⟩

/-- A text without a line feed has no blank line. -/
theorem not_after_of_not_mem {line rest : List B} (hline : lf ∉ line) :
    ¬ After lf blank line rest := by
  rintro ⟨lines, rfl, -⟩
  exact hline (by simp)

/-- A blank line that is not the first line has something after it. -/
theorem exists_after (hblank : lf ∉ blank) (pre post : List B) :
    ∃ rest, After lf blank (pre ++ lf :: (blank ++ lf :: post)) rest := by
  have along : ∀ (pre line : List B), lf ∉ line →
      ∃ rest, After lf blank
        (line ++ (pre ++ lf :: (blank ++ lf :: post))) rest := by
    intro pre
    induction pre with
    | nil =>
        intro line hline
        by_cases hsame : line = blank
        · exact ⟨_, (after_line_iff hblank hline).mpr (Or.inl ⟨hsame, rfl⟩)⟩
        · refine ⟨post, (after_line_iff hblank hline).mpr
            (Or.inr ⟨hsame, ?_⟩)⟩
          exact (after_line_iff hblank hblank).mpr (Or.inl ⟨rfl, rfl⟩)
    | cons b pre ih =>
        intro line hline
        by_cases hb : b = lf
        · subst hb
          by_cases hsame : line = blank
          · exact ⟨_, (after_line_iff hblank hline).mpr
              (Or.inl ⟨hsame, rfl⟩)⟩
          · obtain ⟨rest, hrest⟩ := ih [] List.not_mem_nil
            exact ⟨rest, (after_line_iff hblank hline).mpr
              (Or.inr ⟨hsame, hrest⟩)⟩
        · have hmore : lf ∉ line ++ [b] := by
            rw [List.mem_append, List.mem_singleton]
            exact not_or.mpr ⟨hline, Ne.symm hb⟩
          obtain ⟨rest, hrest⟩ := ih (line ++ [b]) hmore
          rw [List.append_assoc] at hrest
          exact ⟨rest, hrest⟩
  exact along pre [] List.not_mem_nil

end Lines

end LineStream
