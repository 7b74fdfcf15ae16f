/-
What `packet::parse` reads back from what `packet::archive` wrote.  Each
attribute is one line, the first colon with white space behind it ends the
name, and the attributes come in the order of their names.
-/
import BohunoPyzord.Packet
import Mathlib.Data.List.Sort
import Mathlib.Data.List.TakeWhile

namespace BohunoPyzord

namespace Packet

/-- An attribute that survives the way through a datagram. -/
structure Plain (entry : Text × Text) : Prop where
  named : entry.1 ≠ []
  nameSolid : ∀ c ∈ entry.1, isSpace c = false ∧ c ≠ '\x00'
  valueInLine : ∀ c ∈ entry.2, c ≠ '\r' ∧ c ≠ '\n' ∧ c ≠ '\x00'
  valueTrimmed : ∀ c ∈ entry.2.head?, isSpace c = false

instance (entry : Text × Text) : Decidable (Plain entry) :=
  decidable_of_iff (entry.1 ≠ [] ∧
    (∀ c ∈ entry.1, isSpace c = false ∧ c ≠ '\x00') ∧
    (∀ c ∈ entry.2, c ≠ '\r' ∧ c ≠ '\n' ∧ c ≠ '\x00') ∧
    ∀ c ∈ entry.2.head?, isSpace c = false)
    ⟨fun h => ⟨h.1, h.2.1, h.2.2.1, h.2.2.2⟩,
      fun h => ⟨h.named, h.nameSolid, h.valueInLine, h.valueTrimmed⟩⟩

/-- All attributes are such. -/
def WellFormed (p : Packet) : Prop := ∀ entry ∈ p.attributes_, Plain entry

/-- The line that `archive` writes for an attribute. -/
def line (entry : Text × Text) : Text := entry.1 ++ ": ".toList ++ entry.2

theorem text_eq (p : Packet) :
    p.text = p.attributes_.flatMap fun entry => line entry ++ ['\n'] := rfl

theorem line_ne_nil (entry : Text × Text) : line entry ≠ [] := by
  simp [line]

theorem not_break_of_solid {c : Char} (h : isSpace c = false) :
    c ≠ '\r' ∧ c ≠ '\n' := by
  constructor
  · rintro rfl
    revert h
    decide
  · rintro rfl
    revert h
    decide

theorem Plain.inLine {entry : Text × Text} (h : Plain entry) :
    ∀ c ∈ line entry, c ≠ '\r' ∧ c ≠ '\n' ∧ c ≠ '\x00' := by
  intro c hc
  simp only [line, List.mem_append] at hc
  rcases hc with (hname | hcolon) | hvalue
  · obtain ⟨hsolid, hnul⟩ := h.nameSolid c hname
    obtain ⟨hreturn, hfeed⟩ := not_break_of_solid hsolid
    exact ⟨hreturn, hfeed, hnul⟩
  · have hpair : c = ':' ∨ c = ' ' := by simpa using hcolon
    rcases hpair with rfl | rfl <;> decide
  · exact h.valueInLine c hvalue

/-- The first line of a text. -/
theorem lines_cons {first rest : Text} (hne : first ≠ [])
    (h : ∀ c ∈ first, c ≠ '\r' ∧ c ≠ '\n') :
    lines (first ++ '\n' :: rest) = first :: lines rest := by
  have hsplit : (first ++ '\n' :: rest).splitOnP
      (fun c => c = '\r' || c = '\n') = first :: rest.splitOnP _ :=
    List.splitOnP_append_cons_of_forall_mem
      (fun c hc => by simp [h c hc]) '\n' (by decide) rest
  rw [lines, hsplit, List.filter_cons_of_pos (by simpa using hne), lines]

/-- The lines of a text written line by line. -/
theorem lines_flatMap {entries : List (Text × Text)}
    (h : ∀ entry ∈ entries, Plain entry) :
    lines (entries.flatMap fun entry => line entry ++ ['\n']) =
      entries.map line := by
  induction entries with
  | nil => rfl
  | cons entry entries ih =>
      have hentry := h entry List.mem_cons_self
      rw [List.flatMap_cons, List.append_assoc, List.singleton_append,
        lines_cons (line_ne_nil entry) fun c hc =>
          ⟨(hentry.inLine c hc).1, (hentry.inLine c hc).2.1⟩,
        ih fun other hother => h other (List.mem_cons_of_mem entry hother),
        List.map_cons]

/-- The name goes on to a colon with white space behind it: one inside the name
has none. -/
theorem matchAttribute_named (read name rest : Text) {space : Char}
    (hname : read ++ name ≠ []) (hsolid : ∀ c ∈ name, isSpace c = false)
    (hspace : isSpace space = true) :
    matchAttribute read (name ++ ':' :: space :: rest) =
      some (read ++ name, rest.dropWhile isSpace) := by
  induction name generalizing read with
  | nil =>
      rw [List.append_nil] at hname
      simp [matchAttribute, hname, hspace]
  | cons c name ih =>
      have hc := hsolid c List.mem_cons_self
      have hnext : ((name ++ ':' :: space :: rest).head?.map isSpace).getD
          false = false := by
        cases name with
        | nil =>
            have hcolon : isSpace ':' = false := by decide
            simpa using hcolon
        | cons d name => simpa using hsolid d (by simp)
      have hgoeson : ¬ (read ≠ [] ∧ c = ':' ∧
          ((name ++ ':' :: space :: rest).head?.map isSpace).getD false) := by
        rw [hnext]
        exact fun h => Bool.false_ne_true h.2.2
      rw [List.cons_append, matchAttribute, if_neg hgoeson, hc]
      have hrest := ih (read ++ [c]) (by simp)
        fun d hd => hsolid d (List.mem_cons_of_mem c hd)
      simpa using hrest

/-- A line that `archive` wrote. -/
theorem matchAttribute_line {entry : Text × Text} (h : Plain entry) :
    matchAttribute [] (line entry) = some entry := by
  have hmatch := matchAttribute_named [] entry.1 entry.2 h.named
    (fun c hc => (h.nameSolid c hc).1) (by decide : isSpace ' ' = true)
  have htrim : entry.2.dropWhile isSpace = entry.2 := by
    cases hvalue : entry.2 with
    | nil => rfl
    | cons c value =>
        have hc := h.valueTrimmed c (by rw [hvalue]; rfl)
        rw [List.dropWhile_cons_of_neg (by simp [hc])]
  rw [htrim] at hmatch
  rw [line, List.append_assoc]
  exact hmatch

theorem addLine_line {entry : Text × Text} (h : Plain entry) (p : Packet) :
    addLine p (line entry) = p.set entry.1 entry.2 := by
  rw [addLine, matchAttribute_line h]

/-- A name behind all others is added at the end. -/
theorem assign_of_lt {name value : Text} {entries : List (Text × Text)}
    (h : ∀ entry ∈ entries, entry.1 < name) :
    assign name value entries = entries ++ [(name, value)] := by
  induction entries with
  | nil => rfl
  | cons entry entries ih =>
      have hlt := h entry List.mem_cons_self
      rw [assign, if_neg (lt_asymm hlt), if_neg hlt.ne',
        ih fun other hother => h other (List.mem_cons_of_mem entry hother)]
      rfl

/-- The lines of attributes in the order of their names add these behind the
attributes read before them. -/
theorem foldl_addLine {entries : List (Text × Text)}
    (h : ∀ entry ∈ entries, Plain entry) (p : Packet)
    (hsorted : (p.attributes_ ++ entries).Pairwise fun x y => x.1 < y.1) :
    ((entries.map line).foldl addLine p).attributes_ =
      p.attributes_ ++ entries := by
  induction entries generalizing p with
  | nil => exact (List.append_nil _).symm
  | cons entry entries ih =>
      have hlast : (p.set entry.1 entry.2).attributes_ =
          p.attributes_ ++ [entry] :=
        assign_of_lt fun other hother =>
          (List.pairwise_append.mp hsorted).2.2 other hother entry
            List.mem_cons_self
      rw [List.map_cons, List.foldl_cons, addLine_line (h entry
          List.mem_cons_self)]
      have hrest := ih
        (fun other hother => h other (List.mem_cons_of_mem entry hother))
        (p.set entry.1 entry.2) (by rw [hlast]; simpa using hsorted)
      rw [hrest, hlast, List.append_assoc, List.singleton_append]

/-- A value as `parse` reads it: part of a line, without the white space in
front of it. -/
def ReadValue (value : Text) : Prop :=
  (∀ c ∈ value, c ≠ '\r' ∧ c ≠ '\n') ∧ ∀ c ∈ value.head?, isSpace c = false

theorem not_break_of_mem_splitOnP {s part : Text} {p : Char → Bool}
    (hpart : part ∈ s.splitOnP p) : ∀ c ∈ part, p c = false := by
  induction s generalizing part with
  | nil =>
      rw [List.splitOnP_nil, List.mem_singleton] at hpart
      simp [hpart]
  | cons d s ih =>
      rw [List.splitOnP_cons_eq_if_modifyHead] at hpart
      split_ifs at hpart with hd
      · rcases List.mem_cons.mp hpart with rfl | hlater
        · simp
        · exact ih hlater
      · cases hs : s.splitOnP p with
        | nil => exact absurd hs (List.splitOnP_ne_nil p s)
        | cons first rest =>
            rw [hs] at ih hpart
            rcases List.mem_cons.mp hpart with rfl | hlater
            · intro c hc
              rcases List.mem_cons.mp hc with rfl | hc
              · exact Bool.eq_false_of_not_eq_true hd
              · exact ih List.mem_cons_self c hc
            · exact ih (List.mem_cons_of_mem first hlater)

theorem not_break_of_mem_lines {s line : Text} (hline : line ∈ lines s) :
    ∀ c ∈ line, c ≠ '\r' ∧ c ≠ '\n' := by
  intro c hc
  have hbreak := not_break_of_mem_splitOnP (List.mem_filter.mp hline).1 c hc
  simpa using hbreak

theorem readValue_dropWhile {rest : Text}
    (h : ∀ c ∈ rest, c ≠ '\r' ∧ c ≠ '\n') :
    ReadValue (rest.dropWhile isSpace) := by
  constructor
  · intro c hc
    exact h c ((List.dropWhile_sublist isSpace).subset hc)
  · intro c hc
    have hhead := List.head?_dropWhile_not isSpace rest
    rw [Option.mem_def.mp hc] at hhead
    simpa using hhead

theorem matchAttribute_readValue {read line : Text} {entry : Text × Text}
    (h : ∀ c ∈ line, c ≠ '\r' ∧ c ≠ '\n')
    (hmatch : matchAttribute read line = some entry) :
    ReadValue entry.2 := by
  induction line generalizing read with
  | nil => cases hmatch
  | cons c rest ih =>
      have hrest : ∀ d ∈ rest, d ≠ '\r' ∧ d ≠ '\n' :=
        fun d hd => h d (List.mem_cons_of_mem c hd)
      rw [matchAttribute] at hmatch
      split_ifs at hmatch with hend hspace
      · rw [← Option.some.inj hmatch]
        exact readValue_dropWhile hrest
      · exact ih hrest hmatch

theorem mem_assign {name value : Text} {entries : List (Text × Text)}
    (hsorted : entries.Pairwise fun x y => x.1 < y.1) {entry : Text × Text} :
    entry ∈ assign name value entries ↔
      entry = (name, value) ∨ (entry ∈ entries ∧ entry.1 ≠ name) := by
  induction entries with
  | nil => simp [assign]
  | cons first rest ih =>
      obtain ⟨hfirst, hrest⟩ := List.pairwise_cons.mp hsorted
      rw [assign]
      split_ifs with hbefore hsame
      · have hother : ∀ other ∈ first :: rest, other.1 ≠ name := by
          intro other hother
          rcases List.mem_cons.mp hother with rfl | hlater
          · exact hbefore.ne'
          · exact (hbefore.trans (hfirst other hlater)).ne'
        rw [List.mem_cons]
        exact or_congr_right ⟨fun h => ⟨h, hother entry h⟩, And.left⟩
      · have hother : ∀ other ∈ rest, other.1 ≠ name :=
          fun other hlater => hsame ▸ (hfirst other hlater).ne'
        rw [List.mem_cons, List.mem_cons]
        apply or_congr_right
        constructor
        · exact fun h => ⟨Or.inr h, hother entry h⟩
        · rintro ⟨rfl | hlater, hne⟩
          · exact absurd hsame.symm hne
          · exact hlater
      · rw [List.mem_cons, ih hrest, List.mem_cons]
        constructor
        · rintro (rfl | hnew | ⟨hlater, hne⟩)
          · exact Or.inr ⟨Or.inl rfl, Ne.symm hsame⟩
          · exact Or.inl hnew
          · exact Or.inr ⟨Or.inr hlater, hne⟩
        · rintro (hnew | ⟨rfl | hlater, hne⟩)
          · exact Or.inr (Or.inl hnew)
          · exact Or.inl rfl
          · exact Or.inr (Or.inr ⟨hlater, hne⟩)

theorem mem_set {p : Packet} {name value : Text} {entry : Text × Text} :
    entry ∈ (p.set name value).attributes_ ↔
      entry = (name, value) ∨ (entry ∈ p.attributes_ ∧ entry.1 ≠ name) :=
  mem_assign p.sorted

/-- Packets with the same attributes are the same. -/
theorem eq_of_mem_iff {p q : Packet}
    (h : ∀ entry, entry ∈ p.attributes_ ↔ entry ∈ q.attributes_) : p = q := by
  have hirrefl : Std.Irrefl fun x y : Text × Text => x.1 < y.1 :=
    ⟨fun x => lt_irrefl x.1⟩
  have hantisymm : Std.Antisymm fun x y : Text × Text => x.1 < y.1 :=
    ⟨fun x y hxy hyx => absurd hyx (lt_asymm hxy)⟩
  have hlist := p.sorted.eq_of_mem_iff q.sorted h
  rw [← Packet.mk.injEq] at hlist
  exact hlist

/-- The last value that is set is kept. -/
theorem set_set (p : Packet) (name value value' : Text) :
    (p.set name value).set name value' = p.set name value' := by
  apply eq_of_mem_iff
  intro entry
  rw [mem_set, mem_set, mem_set]
  apply or_congr_right
  constructor
  · rintro ⟨rfl | hold, hne⟩
    · exact absurd rfl hne
    · exact hold
  · exact fun h => ⟨Or.inr h, h.2⟩

/-- Values under different names are set in any order. -/
theorem set_comm (p : Packet) {name name' : Text} (hne : name ≠ name')
    (value value' : Text) :
    (p.set name value).set name' value' =
      (p.set name' value').set name value := by
  apply eq_of_mem_iff
  intro entry
  rw [mem_set, mem_set, mem_set, mem_set]
  constructor
  · rintro (rfl | ⟨rfl | ⟨hold, hother⟩, hother'⟩)
    · exact Or.inr ⟨Or.inl rfl, hne.symm⟩
    · exact Or.inl rfl
    · exact Or.inr ⟨Or.inr ⟨hold, hother'⟩, hother⟩
  · rintro (rfl | ⟨rfl | ⟨hold, hother'⟩, hother⟩)
    · exact Or.inr ⟨Or.inl rfl, hne⟩
    · exact Or.inl rfl
    · exact Or.inr ⟨Or.inr ⟨hold, hother⟩, hother'⟩

theorem foldl_addLine_readValue {read : List Text} {p : Packet}
    (hread : ∀ line ∈ read, ∀ c ∈ line, c ≠ '\r' ∧ c ≠ '\n')
    (h : ∀ entry ∈ p.attributes_, ReadValue entry.2) :
    ∀ entry ∈ (read.foldl addLine p).attributes_, ReadValue entry.2 := by
  induction read generalizing p with
  | nil => exact h
  | cons line read ih =>
      apply ih fun other hother =>
        hread other (List.mem_cons_of_mem line hother)
      intro entry hentry
      rw [addLine] at hentry
      cases hmatch : matchAttribute [] line with
      | none => exact h entry (by simpa only [hmatch] using hentry)
      | some found =>
          rw [hmatch] at hentry
          rcases mem_set.mp hentry with rfl | ⟨hold, -⟩
          · exact matchAttribute_readValue (hread line List.mem_cons_self)
              hmatch
          · exact h entry hold

/-- What `parse` reads, accepted or not. -/
theorem parse_fst (buffer : Text) :
    (parse buffer).1 = (lines buffer).foldl addLine empty := by
  rw [parse]
  split_ifs <;> rfl

theorem parse_readValue (buffer : Text) :
    ∀ entry ∈ (parse buffer).1.attributes_, ReadValue entry.2 := by
  rw [parse_fst]
  apply foldl_addLine_readValue fun line => not_break_of_mem_lines
  simp [empty]

theorem get_readValue {p : Packet}
    (h : ∀ entry ∈ p.attributes_, ReadValue entry.2) (name : Text) :
    ReadValue (p.get name) := by
  rw [get]
  cases hfind : p.attributes_.find? fun entry => entry.1 = name with
  | none => simp [ReadValue]
  | some entry => exact h entry (List.mem_of_find?_eq_some hfind)

/-- A packet is read back from its lines. -/
theorem parse_text {p : Packet} (h : p.WellFormed) : (parse p.text).1 = p := by
  rw [parse_fst, text_eq, lines_flatMap h]
  have hread := foldl_addLine h empty p.sorted
  rw [← Packet.mk.injEq] at hread
  exact hread

theorem not_nul_of_mem_text {p : Packet} (h : p.WellFormed) :
    ∀ c ∈ p.text, c ≠ '\x00' := by
  intro c hc
  rw [text_eq, List.mem_flatMap] at hc
  obtain ⟨entry, hentry, hc⟩ := hc
  rcases List.mem_append.mp hc with hline | hfeed
  · exact ((h entry hentry).inLine c hline).2.2
  · rw [List.mem_singleton.mp hfeed]
    decide

/-- What `strncpy` copies of a text that fits. -/
theorem take_strncpy {s : Text} {size : Nat} (hfits : s.length ≤ size) :
    (strncpy s size).take s.length =
      s.takeWhile (· ≠ '\x00') ++
        List.replicate (s.length - (s.takeWhile (· ≠ '\x00')).length)
          '\x00' := by
  have hle : (s.takeWhile (· ≠ '\x00')).length ≤ s.length :=
    (List.takeWhile_prefix _).length_le
  rw [strncpy, List.take_of_length_le (hle.trans hfits), List.take_append,
    List.take_of_length_le hle, List.take_replicate]
  congr 2
  omega

theorem take_strncpy_eq {s : Text} {size : Nat} (hfits : s.length ≤ size)
    (hnul : ∀ c ∈ s, c ≠ '\x00') : (strncpy s size).take s.length = s := by
  have hall : s.takeWhile (· ≠ '\x00') = s :=
    List.takeWhile_eq_self_iff.mpr fun c hc => decide_eq_true (hnul c hc)
  rw [take_strncpy hfits, hall, Nat.sub_self]
  exact List.append_nil s

/-- The copy of a text with a NUL in it ends with a NUL. -/
theorem not_nul_of_take_strncpy_eq {s : Text} {size : Nat}
    (hfits : s.length ≤ size) (hlast : s.getLast? ≠ some '\x00')
    (h : (strncpy s size).take s.length = s) : ∀ c ∈ s, c ≠ '\x00' := by
  intro c hc hnul
  rw [take_strncpy hfits] at h
  have hshort : (s.takeWhile (· ≠ '\x00')).length < s.length := by
    have hle : (s.takeWhile (· ≠ '\x00')).length ≤ s.length :=
      (List.takeWhile_prefix _).length_le
    apply lt_of_le_of_ne hle
    intro heq
    have hall := List.takeWhile_eq_self_iff.mp
      ((List.takeWhile_prefix _).eq_of_length heq) c hc
    exact of_decide_eq_true hall hnul
  have hfill : s.length - (s.takeWhile (· ≠ '\x00')).length ≠ 0 := by omega
  rw [← h, List.getLast?_append, List.getLast?_replicate, if_neg hfill]
    at hlast
  exact hlast rfl

/-- A packet comes back from the bytes that `archive` made of it. -/
theorem parse_archive {p : Packet} (h : p.WellFormed) {bufferSize : Nat}
    (hfits : p.text.length ≤ bufferSize) :
    (parse ((p.archive bufferSize).1.take (p.archive bufferSize).2)).1 = p := by
  rw [archive, take_strncpy_eq hfits (not_nul_of_mem_text h), parse_text h]

/-- Colons in a name and at its end, and an empty value. -/
theorem parse_archive_colons :
    let p : Packet := ⟨[("A::B:".toList, []), ("C".toList, "x: y ".toList)],
      by decide⟩
    (∀ entry ∈ p.attributes_, Plain entry) ∧
      (parse ((p.archive 8192).1.take (p.archive 8192).2)).1 = p := by
  have hplain : ∀ entry ∈ [("A::B:".toList, ([] : Text)),
      ("C".toList, "x: y ".toList)], Plain entry := by
    intro entry hentry
    rcases List.mem_cons.mp hentry with rfl | hsecond
    · exact ⟨by decide, by decide, by decide, by decide⟩
    · rw [List.mem_singleton.mp hsecond]
      exact ⟨by decide, by decide, by decide, by decide⟩
  exact ⟨hplain, parse_archive (p := ⟨_, by decide⟩) hplain (by decide)⟩

end Packet

end BohunoPyzord
