/-
The text protocol of the clients: a packet is a map of attributes, read from
the lines of a datagram and written back line by line in the order of their
names.
-/
import BohunoPyzord.Signature
import Mathlib.Data.Char
import Mathlib.Data.List.Lex

namespace BohunoPyzord

/-- A `std::string`, or the memory of a `char` array. -/
abbrev Text := List Char

/-- What holds of every character of a text is decided by looking at these,
not at all characters. -/
instance (priority := 2000) Text.decidableForallMem (text : Text)
    (p : Char → Prop) [DecidablePred p] : Decidable (∀ c ∈ text, p c) :=
  List.decidableBAll p text

/-- The same for one character at most. -/
instance (priority := 2000) Text.decidableForallMemOption (c? : Option Char)
    (p : Char → Prop) [DecidablePred p] : Decidable (∀ c ∈ c?, p c) :=
  Option.decidableForallMem c?

/-- `std::map<std::string,std::string>`: sorted by name, one value a name. -/
structure Packet where
  attributes_ : List (Text × Text)
  sorted : attributes_.Pairwise fun p q => p.1 < q.1
deriving DecidableEq

namespace Packet

def empty : Packet := ⟨[], List.Pairwise.nil⟩

/-- Assign to the entry of a name, which is added if there is none. -/
def assign (name value : Text) : List (Text × Text) → List (Text × Text)
  | [] => [(name, value)]
  | entry :: rest =>
      if name < entry.1 then (name, value) :: entry :: rest
      else if name = entry.1 then (name, value) :: rest
      else entry :: assign name value rest

theorem fst_of_mem_assign {name value : Text} {entries : List (Text × Text)}
    {p : Text × Text} (h : p ∈ assign name value entries) :
    p.1 = name ∨ p ∈ entries := by
  induction entries with
  | nil =>
      rw [List.mem_singleton.mp h]
      exact Or.inl rfl
  | cons entry rest ih =>
      rw [assign] at h
      split_ifs at h with hbefore hsame
      · rcases List.mem_cons.mp h with rfl | hold
        · exact Or.inl rfl
        · exact Or.inr hold
      · rcases List.mem_cons.mp h with rfl | hold
        · exact Or.inl rfl
        · exact Or.inr (List.mem_cons_of_mem entry hold)
      · rcases List.mem_cons.mp h with rfl | hlater
        · exact Or.inr List.mem_cons_self
        · exact (ih hlater).imp_right (List.mem_cons_of_mem entry)

theorem sorted_assign (name value : Text) {entries : List (Text × Text)}
    (h : entries.Pairwise fun p q => p.1 < q.1) :
    (assign name value entries).Pairwise fun p q => p.1 < q.1 := by
  induction entries with
  | nil => exact List.pairwise_singleton _ _
  | cons entry rest ih =>
      obtain ⟨hfirst, hrest⟩ := List.pairwise_cons.mp h
      rw [assign]
      split_ifs with hbefore hsame
      · refine List.pairwise_cons.mpr ⟨fun p hp => ?_, h⟩
        rcases List.mem_cons.mp hp with rfl | hlater
        · exact hbefore
        · exact lt_trans hbefore (hfirst p hlater)
      · refine List.pairwise_cons.mpr ⟨fun p hp => ?_, hrest⟩
        exact hsame ▸ hfirst p hp
      · refine List.pairwise_cons.mpr ⟨fun p hp => ?_, ih hrest⟩
        rcases fst_of_mem_assign hp with hname | hlater
        · rw [hname]
          exact lt_of_le_of_ne (not_lt.mp hbefore) (Ne.symm hsame)
        · exact hfirst p hlater

def set (p : Packet) (name value : Text) : Packet :=
  ⟨assign name value p.attributes_, sorted_assign name value p.sorted⟩

def has (p : Packet) (name : Text) : Bool :=
  p.attributes_.any fun entry => entry.1 = name

/-- The value under a name, or the empty value that `operator[]` makes up. -/
def get (p : Packet) (name : Text) : Text :=
  ((p.attributes_.find? fun entry => entry.1 = name).map Prod.snd).getD []

theorem find?_assign (name value other : Text) (entries : List (Text × Text)) :
    (assign name value entries).find? (fun entry => entry.1 = other) =
      if other = name then some (name, value)
      else entries.find? fun entry => entry.1 = other := by
  induction entries with
  | nil =>
      by_cases hother : other = name
      · simp [assign, hother]
      · simp [assign, hother, Ne.symm hother]
  | cons entry rest ih =>
      rw [assign]
      by_cases hother : other = name
      · subst hother
        rw [if_pos rfl] at ih ⊢
        split_ifs with hbefore hsame
        · simp
        · simp
        · rw [List.find?_cons_of_neg (by simpa using Ne.symm hsame), ih]
      · rw [if_neg hother] at ih ⊢
        split_ifs with hbefore hsame
        · rw [List.find?_cons_of_neg (by simpa using Ne.symm hother)]
        · rw [List.find?_cons_of_neg (by simpa using Ne.symm hother),
            List.find?_cons_of_neg (by simpa [← hsame] using Ne.symm hother)]
        · rw [List.find?_cons, List.find?_cons, ih]

theorem get_set (p : Packet) (name value other : Text) :
    (p.set name value).get other =
      if other = name then value else p.get other := by
  rw [get, set, find?_assign, apply_ite (Option.map Prod.snd),
    apply_ite (Option.getD · []), get]
  rfl

/-- `char_separator("\r\n")`: the runs of other characters. -/
def lines (s : Text) : List Text :=
  (s.splitOnP fun c => c = '\r' || c = '\n').filter (· ≠ [])

/-- `^(\S+?):\s+(.*)$` on the rest of a line after the first characters of the
name: the name ends at the first colon that white space follows. -/
def matchAttribute (name : Text) : Text → Option (Text × Text)
  | [] => none
  | c :: rest =>
      if name ≠ [] ∧ c = ':' ∧ (rest.head?.map isSpace).getD false then
        some (name, rest.dropWhile isSpace)
      else if isSpace c then none
      else matchAttribute (name ++ [c]) rest

/-- One line of a datagram. -/
def addLine (p : Packet) (line : Text) : Packet :=
  match matchAttribute [] line with
  | some (name, value) => p.set name value
  | none => p

/-- The operations whose digest has to be checked. -/
def needsDigest (op : Text) : Bool :=
  op = "check".toList || op = "report".toList || op = "whitelist".toList

/-- `isxdigit` in the C locale. -/
def isXDigit (c : Char) : Bool := (hexValue? c).isSome

/-- `packet::parse` into an empty packet: the packet, and whether it is
well-formed. -/
def parse (buffer : Text) : Packet × Bool :=
  let p := (lines buffer).foldl addLine empty
  if !p.has "PV".toList || !p.has "Op".toList || !p.has "Time".toList ||
      !p.has "Thread".toList then
    (p, false)
  else if needsDigest (p.get "Op".toList) then
    if !p.has "Op-Digest".toList then (p, false)
    else
      let digest := p.get "Op-Digest".toList
      (p, decide (digest.length = 40) && digest.all isXDigit)
  else (p, true)

/-- `strncpy`: up to the first NUL, filled up with NULs. -/
def strncpy (s : Text) (size : Nat) : Text :=
  let copied := (s.takeWhile (· ≠ '\x00')).take size
  copied ++ List.replicate (size - copied.length) '\x00'

/-- What `archive` serializes. -/
def text (p : Packet) : Text :=
  p.attributes_.flatMap fun entry =>
    entry.1 ++ ": ".toList ++ entry.2 ++ "\n".toList

/-- `archive` into a buffer of the given size: the buffer and the length. -/
def archive (p : Packet) (bufferSize : Nat) : Text × Nat :=
  (strncpy p.text bufferSize, p.text.length)

end Packet

end BohunoPyzord
