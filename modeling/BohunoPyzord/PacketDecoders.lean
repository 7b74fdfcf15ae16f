/-
The other decoder of datagrams, the constructor of `packet` from a buffer.  It
takes names of word characters only, where `packet::parse` takes any without
white space.
-/
import BohunoPyzord.PacketCodec
import BohunoPyzord.UdpServer

namespace BohunoPyzord

namespace Packet

/-- `\w` in the C locale. -/
def isWord (c : Char) : Bool := c.isAlphanum || c = '_'

/-- `^(\w+):\s+(.*)$` on the rest of a line after the first characters of the
name. -/
def matchWord (name : Text) : Text → Option (Text × Text)
  | [] => none
  | c :: rest =>
      if isWord c then matchWord (name ++ [c]) rest
      else if name ≠ [] ∧ c = ':' ∧ (rest.head?.map isSpace).getD false then
        some (name, rest.dropWhile isSpace)
      else none

/-- One line of the buffer. -/
def addWordLine (p : Packet) (line : Text) : Packet :=
  match matchWord [] line with
  | some (name, value) => p.set name value
  | none => p

/-- The constructor. -/
def ofBuffer (buffer : Text) : Packet :=
  (lines buffer).foldl addWordLine empty

/-- What a line is matched with goes into the packet. -/
def addMatch (p : Packet) : Option (Text × Text) → Packet
  | some (name, value) => p.set name value
  | none => p

theorem ofBuffer_eq (buffer : Text) :
    ofBuffer buffer =
      ((lines buffer).map (matchWord [])).foldl addMatch empty := by
  rw [List.foldl_map]
  rfl

theorem parse_fst_eq (buffer : Text) :
    (parse buffer).1 =
      ((lines buffer).map (matchAttribute [])).foldl addMatch empty := by
  rw [parse_fst, List.foldl_map]
  rfl

theorem has_iff {p : Packet} {name : Text} :
    p.has name ↔ ∃ entry ∈ p.attributes_, entry.1 = name := by
  rw [has, List.any_eq_true]
  simp only [decide_eq_true_eq]

theorem has_set {p : Packet} {name value other : Text} :
    (p.set name value).has other ↔ other = name ∨ p.has other := by
  rw [has_iff, has_iff]
  constructor
  · rintro ⟨entry, hentry, rfl⟩
    rcases mem_set.mp hentry with rfl | ⟨hold, -⟩
    · exact Or.inl rfl
    · exact Or.inr ⟨entry, hold, rfl⟩
  · intro h
    by_cases hsame : other = name
    · exact ⟨(name, value), mem_set.mpr (Or.inl rfl), hsame.symm⟩
    · obtain ⟨entry, hentry, rfl⟩ := h.resolve_left hsame
      exact ⟨entry, mem_set.mpr (Or.inr ⟨hentry, hsame⟩), rfl⟩

/-- A name is in the packet if it was there before or some line has it. -/
theorem has_foldl_addMatch {name : Text} {found : List (Option (Text × Text))}
    {p : Packet} :
    (found.foldl addMatch p).has name ↔
      p.has name ∨ ∃ value, some (name, value) ∈ found := by
  induction found generalizing p with
  | nil => simp
  | cons entry found ih =>
      rw [List.foldl_cons, ih]
      cases entry with
      | none => simp [addMatch]
      | some entry =>
          obtain ⟨name', value'⟩ := entry
          rw [addMatch, has_set]
          simp only [List.mem_cons, Option.some.injEq, Prod.mk.injEq]
          constructor
          · rintro ((rfl | hold) | ⟨value, hlater⟩)
            · exact Or.inr ⟨value', Or.inl ⟨rfl, rfl⟩⟩
            · exact Or.inl hold
            · exact Or.inr ⟨value, Or.inr hlater⟩
          · rintro (hold | ⟨value, ⟨rfl, rfl⟩ | hlater⟩)
            · exact Or.inl (Or.inr hold)
            · exact Or.inl (Or.inl rfl)
            · exact Or.inr ⟨value, hlater⟩

/-- The name only grows. -/
theorem prefix_of_matchAttribute {read line : Text} {entry : Text × Text}
    (h : matchAttribute read line = some entry) : read <+: entry.1 := by
  induction line generalizing read with
  | nil => cases h
  | cons c rest ih =>
      rw [matchAttribute] at h
      split_ifs at h with hend hspace
      · cases h
        exact List.prefix_refl read
      · exact (List.prefix_append read [c]).trans (ih h)

theorem isWord_solid {c : Char} (h : isWord c = true) :
    isSpace c = false ∧ c ≠ ':' := by
  constructor
  · apply Bool.eq_false_of_not_eq_true
    intro hspace
    simp only [isSpace, Bool.or_eq_true, decide_eq_true_eq] at hspace
    rcases hspace with ((((rfl | rfl) | rfl) | rfl) | rfl) | rfl <;>
      exact absurd h (by decide)
  · rintro rfl
    exact absurd h (by decide)

/-- The constructor finds what `parse` finds, where the name is a word. -/
theorem matchWord_eq (read line : Text) (hread : read.all isWord = true) :
    matchWord read line =
      (matchAttribute read line).filter fun entry => entry.1.all isWord := by
  induction line generalizing read with
  | nil => rfl
  | cons c rest ih =>
      rw [matchWord, matchAttribute]
      by_cases hword : isWord c = true
      · obtain ⟨hspace, hcolon⟩ := isWord_solid hword
        have hgoeson : ¬ (read ≠ [] ∧ c = ':' ∧
            (rest.head?.map isSpace).getD false) := fun h => hcolon h.2.1
        rw [if_pos hword, if_neg hgoeson, hspace, if_neg Bool.false_ne_true]
        exact ih (read ++ [c]) (by simp [hread, hword])
      · rw [if_neg hword]
        by_cases hend : read ≠ [] ∧ c = ':' ∧
            (rest.head?.map isSpace).getD false
        · rw [if_pos hend, if_pos hend, Option.filter_some, if_pos hread]
        · rw [if_neg hend, if_neg hend]
          split_ifs with hspace
          · rfl
          · symm
            rw [Option.filter_eq_none_iff]
            intro entry hentry hall
            have hc := (prefix_of_matchAttribute hentry).subset
              (List.mem_append_right read List.mem_cons_self)
            exact hword (List.all_eq_true.mp hall c hc)

/-- `line` gives a value to `name`, for `parse`. -/
structure Names (line name : Text) : Prop where
  ne_nil : name ≠ []
  solid : ∀ c ∈ name, isSpace c = false
  ends : ∃ space rest, line = name ++ ':' :: space :: rest ∧
    isSpace space = true

theorem Names.exists_match {line name : Text} (h : Names line name) :
    ∃ value, matchAttribute [] line = some (name, value) := by
  obtain ⟨space, rest, rfl, hspace⟩ := h.ends
  exact ⟨_, matchAttribute_named [] name rest h.ne_nil h.solid hspace⟩

/-- What follows the characters that were read completes the name. -/
theorem exists_split_of_matchAttribute {read line : Text} {entry : Text × Text}
    (h : matchAttribute read line = some entry) :
    ∃ more space rest, entry.1 = read ++ more ∧ entry.1 ≠ [] ∧
      (∀ c ∈ more, isSpace c = false) ∧
      line = more ++ ':' :: space :: rest ∧ isSpace space = true := by
  induction line generalizing read with
  | nil => cases h
  | cons c rest ih =>
      rw [matchAttribute] at h
      split_ifs at h with hend hspace
      · cases h
        obtain ⟨hne, rfl, hnext⟩ := hend
        cases rest with
        | nil => cases hnext
        | cons space rest =>
            exact ⟨[], space, rest, (List.append_nil read).symm, hne,
              fun c hc => absurd hc List.not_mem_nil, rfl, hnext⟩
      · obtain ⟨more, space, rest', hname, hne, hsolid, rfl, hspace'⟩ := ih h
        refine ⟨c :: more, space, rest', ?_, hne, ?_, rfl, hspace'⟩
        · rw [hname, List.append_assoc, List.singleton_append]
        · exact List.forall_mem_cons.mpr
            ⟨Bool.eq_false_of_not_eq_true hspace, hsolid⟩

theorem names_of_match {line : Text} {entry : Text × Text}
    (h : matchAttribute [] line = some entry) : Names line entry.1 := by
  obtain ⟨more, space, rest, hname, hne, hsolid, hline, hspace⟩ :=
    exists_split_of_matchAttribute h
  rw [List.nil_append] at hname
  subst hname
  exact ⟨hne, hsolid, space, rest, hline, hspace⟩

theorem ofBuffer_eq_parse_iff (buffer : Text) :
    ofBuffer buffer = (parse buffer).1 ↔
      ∀ line ∈ lines buffer, ∀ entry,
        matchAttribute [] line = some entry → entry.1.all isWord = true := by
  rw [ofBuffer_eq, parse_fst_eq]
  constructor
  · intro h line hline entry hmatch
    have hhas : (((lines buffer).map (matchAttribute [])).foldl addMatch
        empty).has entry.1 :=
      has_foldl_addMatch.mpr
        (Or.inr ⟨entry.2, hmatch ▸ List.mem_map_of_mem hline⟩)
    rw [← h, has_foldl_addMatch] at hhas
    rcases hhas with hempty | ⟨value, hfound⟩
    · exact absurd hempty Bool.false_ne_true
    · obtain ⟨other, -, hother⟩ := List.mem_map.mp hfound
      rw [matchWord_eq [] other rfl, Option.filter_eq_some_iff] at hother
      exact hother.2
  · intro h
    have hsame : (lines buffer).map (matchWord []) =
        (lines buffer).map (matchAttribute []) := by
      apply List.map_congr_left
      intro line hline
      rw [matchWord_eq [] line rfl]
      cases hmatch : matchAttribute [] line with
      | none => rfl
      | some entry =>
          rw [Option.filter_some, if_pos (h line hline entry hmatch)]
    rw [hsame]

/-- The constructor reads from a buffer what `parse` reads if and only if all
names in it are words. -/
theorem ofBuffer_eq_iff (buffer : Text) :
    ofBuffer buffer = (parse buffer).1 ↔
      ∀ line ∈ lines buffer, ∀ name, Names line name →
        ∀ c ∈ name, isWord c = true := by
  rw [ofBuffer_eq_parse_iff]
  apply forall₂_congr
  intro line _
  constructor
  · intro h name hname
    obtain ⟨value, hmatch⟩ := hname.exists_match
    exact List.all_eq_true.mp (h (name, value) hmatch)
  · exact fun h entry hmatch =>
      List.all_eq_true.mpr (h entry.1 (names_of_match hmatch))

/-- The reply to a check. -/
theorem ofBuffer_ne_parse :
    let req := (parse "Op: check\nPV: 2.0\nThread: 7\nTime: 1\n".toList).1
    let buffer := ((okReply req).setCounts 0 0).text
    ofBuffer buffer ≠ (parse buffer).1 ∧
      (parse buffer).1.get "WL-Count".toList = "0".toList ∧
        (ofBuffer buffer).has "WL-Count".toList = false := by
  decide +kernel

/-- What `archive` wrote is read back by the constructor if and only if all
names are words. -/
theorem ofBuffer_text_iff {p : Packet} (h : p.WellFormed) :
    ofBuffer p.text = p ↔
      ∀ entry ∈ p.attributes_, ∀ c ∈ entry.1, isWord c = true := by
  have hiff := ofBuffer_eq_parse_iff p.text
  rw [parse_text h, text_eq, lines_flatMap h, List.forall_mem_map] at hiff
  rw [text_eq, hiff]
  apply forall₂_congr
  intro entry hentry
  have hmatch := matchAttribute_line (h entry hentry)
  constructor
  · exact fun hall => List.all_eq_true.mp (hall entry hmatch)
  · intro hword other hother
    rw [hmatch] at hother
    cases hother
    exact List.all_eq_true.mpr hword

end Packet

end BohunoPyzord
