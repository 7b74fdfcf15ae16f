/-
The constructors of `license` for any key.  The decoder takes a `char`, which
is signed, for an index of its table; `base64::decode` masks it.
-/
import BohunoPyzord.Base64Reads

namespace BohunoPyzord

/-- What there is at a path. -/
inductive PathContent where
  | missing
  | unreadable
  | file (content : List Byte)
deriving DecidableEq, Repr

/-- What `license` is constructed from. -/
inductive LicenseInput where
  | path (path : String) (content : PathContent)
  | license (license : List Byte)
deriving DecidableEq, Repr

/-- The key that is parsed, or what is thrown before. -/
def License.key : LicenseInput → Except String (List Byte)
  | .path path .missing =>
      .error ("Cannot load license; file does not exist: " ++ path)
  | .path _ .unreadable => .error "Cannot open license file for reading"
  | .path _ (.file content) => .ok (License.extract content)
  | .license license => .ok license

/-- What `license::parse` throws. -/
def License.failedToParse : String := "Invalid license key; failed to parse"

namespace Base64Decoder

/-- An index that `base64_decoder_table` has. -/
def InTable (index : Int) : Prop :=
  0 ≤ index ∧ index < base64_decoder_table.length

instance (index : Int) : Decidable (InTable index) :=
  inferInstanceAs (Decidable (_ ∧ _))

/-- The indices that `read` looks up, `(int) buffer_[0]` to
`(int) buffer_[3]` with each fourth character. -/
def lookups (s : Base64Decoder) : List Byte → List Int
  | [] => []
  | c :: buffer =>
      (if s.buffer_.length + 1 = 4 then (s.buffer_ ++ [c]).map BitVec.toInt
        else []) ++ lookups (read.step s c).1 buffer

end Base64Decoder

/-- A constructor: while `decode` copies, and how it has ended.  `strayed`
stands for a lookup that is not in the table. -/
inductive LicenseRun where
  | copying (s : LicenseStream)
  | obtained (l : License)
  | threw (what : String)
  | strayed (index : Int)

inductive LicenseEvent where
  | call (call : FilterCall)
  | parse
deriving DecidableEq, Repr

/-- Not a call that throws because it is for less than three bytes. -/
def LicenseEvent.HasRoom : LicenseEvent → Prop
  | .call (.read n _) => 3 ≤ n
  | _ => True

namespace LicenseRun

def start (input : LicenseInput) : LicenseRun :=
  match License.key input with
  | .ok license => .copying (.ofLicense license)
  | .error what => .threw what

/-- A call moves some characters; `decode` returns when all have been. -/
def step : LicenseRun → LicenseEvent → Option LicenseRun
  | .copying s, .call (.read n k) =>
      if n < 3 then some (.threw Base64Decoder.bufferTooSmall)
      else if 0 < k ∧ k ≤ n / 3 * 4 ∧ k ≤ s.rest.length then
        match (s.first.lookups (s.rest.take k)).find?
            (fun index => ¬ Base64Decoder.InTable index) with
        | some index => some (.strayed index)
        | none => (s.step (.read n k)).map .copying
      else none
  | .copying s, .call (.filter m) =>
      if 0 < m ∧ m ≤ s.buffer.length then
        (s.step (.filter m)).map .copying
      else none
  | .copying s, .parse =>
      if s.rest = [] ∧ s.buffer = [] then
        match License.parse s.output with
        | some l => some (.obtained l)
        | none => some (.threw License.failedToParse)
      else none
  | _, _ => none

end LicenseRun

def constructing (input : LicenseInput) :
    StepSystem LicenseRun LicenseEvent where
  init := .start input
  step := LicenseRun.step

/-- However the filters are called, every lookup is in the table, and the
constructor comes to its end with the three components or throws. -/
structure ObtainsOrThrows (input : LicenseInput) : Prop where
  inTable : ∀ events, (constructing input).Always
    (fun s => ∀ index, s ≠ .strayed index) events
  goesOn : ∀ events, (constructing input).Always (fun s =>
    (∃ l, s = .obtained l) ∨ (∃ what, s = .threw what) ∨
      ∃ event s', event.HasRoom ∧
        (constructing input).step s event = some s') events
  ends : ∃ bound, ∀ events s, (constructing input).run events = some s →
    events.length ≤ bound

/-- The characters that groups of four are made of are not negative. -/
def InTableKey (license : List Byte) : Prop :=
  ∀ c ∈ license.take (license.length / 4 * 4), c.toNat < 128

instance (license : List Byte) : Decidable (InTableKey license) :=
  inferInstanceAs (Decidable (∀ c ∈ _, _))

/-! What is looked up. -/

namespace Base64Decoder

theorem inTable_toInt_iff (c : Byte) : InTable c.toInt ↔ c.toNat < 128 := by
  have hlength : base64_decoder_table.length = 256 := by decide +kernel
  have hbyte : c.toNat < 256 := c.isLt
  rw [InTable, hlength, BitVec.toInt_eq_toNat_cond]
  split <;> omega

/-- In the table, it is the entry that the decoder goes on with. -/
theorem value_eq_of_inTable {c : Byte} (h : InTable c.toInt) :
    value c = base64_decoder_table.getD c.toInt.toNat 0 := by
  have hbyte := (inTable_toInt_iff c).mp h
  rw [value, BitVec.toInt_eq_toNat_cond, if_pos (by omega), Int.toNat_natCast]

theorem lookups_append (s : Base64Decoder) (first second : List Byte) :
    lookups s (first ++ second) =
      lookups s first ++ lookups (read.run s first).1 second := by
  induction first generalizing s with
  | nil => rfl
  | cons c first ih =>
      rw [List.cons_append, lookups, ih, lookups, List.append_assoc]
      rfl

/-- An index is looked up with the first characters of a text, or after
them. -/
theorem mem_lookups_iff (s : Base64Decoder) (text : List Byte) (k : Nat)
    (index : Int) :
    index ∈ lookups s text ↔ index ∈ lookups s (text.take k) ∨
      index ∈ lookups (read.run s (text.take k)).1 (text.drop k) := by
  rw [← List.mem_append, ← lookups_append, List.take_append_drop]

/-- They are the characters of the groups that become complete. -/
theorem lookups_eq (s : Base64Decoder) (buffer : List Byte) :
    lookups s buffer =
      ((s.buffer_ ++ buffer).take
        ((s.buffer_ ++ buffer).length / 4 * 4)).map BitVec.toInt := by
  induction buffer generalizing s with
  | nil =>
      rw [List.append_nil, Nat.div_eq_of_lt s.incomplete]
      rfl
  | cons c buffer ih =>
      rw [lookups, ih, List.append_cons s.buffer_ c buffer]
      by_cases hfour : s.buffer_.length + 1 = 4
      · rw [if_pos hfour, (read_step_fourth hfour c).1, List.nil_append,
          ← List.map_append]
        have hgroup : (s.buffer_ ++ [c]).length = 4 := by
          rw [List.length_append, List.length_singleton, hfour]
        have hcount : (s.buffer_ ++ [c] ++ buffer).length / 4 * 4 =
            (s.buffer_ ++ [c]).length + buffer.length / 4 * 4 := by
          rw [List.length_append, hgroup]
          omega
        rw [hcount, List.take_length_add_append]
      · rw [if_neg hfour, (read_step_waiting hfour c).1, List.nil_append]

theorem lookups_reset (license : List Byte) :
    (∀ index ∈ lookups reset license, InTable index) ↔ InTableKey license := by
  have hreset : lookups reset license =
      (license.take (license.length / 4 * 4)).map BitVec.toInt :=
    lookups_eq reset license
  rw [hreset, List.forall_mem_map, InTableKey]
  exact forall₂_congr fun c _ => inTable_toInt_iff c

end Base64Decoder

namespace LicenseRun

/-- What the characters that are left will look up is in the table. -/
def StaysInTable : LicenseRun → Prop
  | .copying s =>
      ∀ index ∈ s.first.lookups s.rest, Base64Decoder.InTable index
  | .strayed _ => False
  | _ => True

/-- How many more events there can be. -/
def rank : LicenseRun → Nat
  | .copying s =>
      1 + s.rest.length + s.buffer.length +
        3 * ((s.first.buffer_.length + s.rest.length) / 4)
  | _ => 0

/-- The state after a call of `read`, or of `filter`. -/
abbrev moved (s : LicenseStream) (chunk : Chunk) : LicenseStream :=
  Pipeline.step Base64Decoder.read Arcfour.encrypt s chunk

/-- What an event can do. -/
theorem step_cases {r r' : LicenseRun} {event : LicenseEvent}
    (h : r.step event = some r') :
    ∃ s, r = .copying s ∧
      ((∃ k, 0 < k ∧ k ≤ s.rest.length ∧ r' = .copying (moved s (.fill k))) ∨
        (∃ m, 0 < m ∧ m ≤ s.buffer.length ∧
          r' = .copying (moved s (.drain m))) ∨
        (∃ index ∈ s.first.lookups s.rest, ¬ Base64Decoder.InTable index ∧
          r' = .strayed index) ∨
        (∃ l, r' = .obtained l) ∨ ∃ what, r' = .threw what) := by
  cases r with
  | copying s =>
      refine ⟨s, rfl, ?_⟩
      cases event with
      | call call =>
          cases call with
          | read n k =>
              rw [step] at h
              split_ifs at h with hsmall hmoves
              · exact .inr (.inr (.inr (.inr ⟨_, (Option.some.inj h).symm⟩)))
              · obtain ⟨hpos, hfits, hrest⟩ := hmoves
                cases hfind : (s.first.lookups (s.rest.take k)).find?
                    (fun index => ¬ Base64Decoder.InTable index) with
                | some index =>
                    rw [hfind] at h
                    have hmem := (s.first.mem_lookups_iff s.rest k index).mpr
                      (.inl (List.mem_of_find?_eq_some hfind))
                    have hout := List.find?_some hfind
                    exact .inr (.inr (.inl ⟨index, hmem,
                      of_decide_eq_true hout, (Option.some.inj h).symm⟩))
                | none =>
                    rw [hfind] at h
                    have hread : s.step (.read n k) =
                        some (moved s (.fill k)) :=
                      if_pos ⟨Nat.le_of_not_lt hsmall, hfits⟩
                    rw [hread] at h
                    exact .inl ⟨k, hpos, hrest, (Option.some.inj h).symm⟩
          | filter m =>
              rw [step] at h
              split_ifs at h with hmoves
              exact .inr (.inl ⟨m, hmoves.1, hmoves.2,
                (Option.some.inj h).symm⟩)
      | parse =>
          rw [step] at h
          split_ifs at h with hfinished
          cases hparse : License.parse s.output with
          | some l =>
              rw [hparse] at h
              exact .inr (.inr (.inr (.inl ⟨l, (Option.some.inj h).symm⟩)))
          | none =>
              rw [hparse] at h
              exact .inr (.inr (.inr (.inr ⟨_, (Option.some.inj h).symm⟩)))
  | obtained l => cases h
  | threw what => cases h
  | strayed index => cases h

theorem staysInTable_step {r r' : LicenseRun} {event : LicenseEvent}
    (hr : r.StaysInTable) (h : r.step event = some r') :
    r'.StaysInTable := by
  obtain ⟨s, rfl, ⟨k, -, -, rfl⟩ | ⟨m, -, -, rfl⟩ | ⟨index, hmem, hout, -⟩ |
    ⟨l, rfl⟩ | ⟨what, rfl⟩⟩ := step_cases h
  · intro index hmem
    exact hr index ((s.first.mem_lookups_iff s.rest k index).mpr (.inr hmem))
  · exact hr
  · exact absurd (hr index hmem) hout
  · trivial
  · trivial

/-- A character that is read writes less than a byte of the output. -/
theorem rank_step {r r' : LicenseRun} {event : LicenseEvent}
    (h : r.step event = some r') : r'.rank < r.rank := by
  obtain ⟨s, rfl, ⟨k, hpos, hrest, rfl⟩ | ⟨m, hpos, hbuffer, rfl⟩ |
    ⟨index, -, -, rfl⟩ | ⟨l, rfl⟩ | ⟨what, rfl⟩⟩ := step_cases h
  · obtain ⟨groups, hchars, hbytes⟩ :=
      Base64Decoder.exists_groups s.first (s.rest.take k)
    rw [List.length_take, Nat.min_eq_left hrest] at hchars
    simp only [rank, moved, Pipeline.step, List.length_append,
      List.length_drop]
    omega
  · simp only [rank, moved, Pipeline.step, List.length_drop]
    omega
  · simp only [rank]
    omega
  · simp only [rank]
    omega
  · simp only [rank]
    omega

/-- While it copies, there is something to move or the end has come. -/
theorem exists_step (s : LicenseStream) :
    ∃ event r', event.HasRoom ∧ (copying s).step event = some r' := by
  by_cases hrest : s.rest = []
  · by_cases hbuffer : s.buffer = []
    · cases hparse : License.parse s.output with
      | some l =>
          refine ⟨.parse, .obtained l, trivial, ?_⟩
          rw [step, if_pos ⟨hrest, hbuffer⟩, hparse]
      | none =>
          refine ⟨.parse, .threw License.failedToParse, trivial, ?_⟩
          rw [step, if_pos ⟨hrest, hbuffer⟩, hparse]
    · refine ⟨.call (.filter 1), .copying (moved s (.drain 1)), trivial, ?_⟩
      have hlength := List.length_pos_iff.mpr hbuffer
      rw [step, if_pos ⟨Nat.one_pos, hlength⟩]
      rfl
  · have hlength := List.length_pos_iff.mpr hrest
    cases hfind : (s.first.lookups (s.rest.take 1)).find?
        (fun index => ¬ Base64Decoder.InTable index) with
    | some index =>
        refine ⟨.call (.read 3 1), .strayed index, Nat.le_refl 3, ?_⟩
        rw [step, if_neg (by decide), if_pos ⟨Nat.one_pos, by decide, hlength⟩,
          hfind]
    | none =>
        refine ⟨.call (.read 3 1), .copying (moved s (.fill 1)),
          Nat.le_refl 3, ?_⟩
        rw [step, if_neg (by decide), if_pos ⟨Nat.one_pos, by decide, hlength⟩,
          hfind]
        rfl

theorem goesOn {r : LicenseRun} (hr : r.StaysInTable) :
    (∃ l, r = .obtained l) ∨ (∃ what, r = .threw what) ∨
      ∃ event r', event.HasRoom ∧ r.step event = some r' := by
  cases r with
  | copying s => exact .inr (.inr (exists_step s))
  | obtained l => exact .inl ⟨l, rfl⟩
  | threw what => exact .inr (.inl ⟨what, rfl⟩)
  | strayed index => exact hr.elim

/-- One call that reads the whole of another key leaves the table. -/
theorem exists_strayed {license : List Byte} (h : ¬ InTableKey license) :
    ∃ event index,
      (copying (.ofLicense license)).step event = some (.strayed index) := by
  rw [← Base64Decoder.lookups_reset] at h
  simp only [not_forall] at h
  obtain ⟨out, hmem, hout⟩ := h
  have hpos : 0 < license.length := by
    rw [List.length_pos_iff]
    rintro rfl
    cases hmem
  have hfirst : (LicenseStream.ofLicense license).first = .reset := rfl
  have htake : (LicenseStream.ofLicense license).rest.take license.length =
      license := List.take_length
  cases hfind : (Base64Decoder.reset.lookups license).find?
      (fun index => ¬ Base64Decoder.InTable index) with
  | none =>
      have hin := List.find?_eq_none.mp hfind out hmem
      exact absurd (decide_eq_true hout) hin
  | some index =>
      refine ⟨.call (.read (3 * license.length) license.length), index, ?_⟩
      rw [step, if_neg (by omega), if_pos ⟨hpos, by omega, Nat.le_refl _⟩,
        hfirst, htake, hfind]

theorem init_of_key {input : LicenseInput} {license : List Byte}
    (hkey : License.key input = .ok license) :
    (constructing input).init = .copying (.ofLicense license) := by
  rw [constructing, start, hkey]

theorem staysInTable_init {input : LicenseInput}
    (h : ∀ license, License.key input = .ok license → InTableKey license) :
    (constructing input).init.StaysInTable := by
  cases hkey : License.key input with
  | ok license =>
      rw [init_of_key hkey]
      exact (Base64Decoder.lookups_reset license).mpr (h license hkey)
  | error what =>
      rw [constructing, start, hkey]
      trivial

end LicenseRun

/-- A constructor of `license` makes lookups in the table only, and obtains
its components or throws, exactly if no character of a complete group of the
key is over 127. -/
theorem obtainsOrThrows_iff (input : LicenseInput) :
    ObtainsOrThrows input ↔
      ∀ license, License.key input = .ok license → InTableKey license := by
  constructor
  · intro h license hkey
    by_contra hout
    obtain ⟨event, index, hstep⟩ := LicenseRun.exists_strayed hout
    have halways := h.inTable [event]
    rw [StepSystem.Always, LicenseRun.init_of_key hkey] at halways
    exact halways.2 _ hstep index rfl
  · intro h
    have hinit := LicenseRun.staysInTable_init h
    have hstep : (constructing input).Preserves LicenseRun.StaysInTable
        fun _ _ => True :=
      fun hr _ hevent => LicenseRun.staysInTable_step hr hevent
    refine ⟨?_, ?_, (constructing input).init.rank, ?_⟩
    · apply StepSystem.always_of_invariant _ hinit hstep
      rintro r hr index rfl
      exact hr
    · exact StepSystem.always_of_invariant _ hinit hstep
        fun r hr => LicenseRun.goesOn hr
    · intro events r hrun
      exact Nat.le_of_add_right_le
        (StepSystem.length_add_rank_le _ LicenseRun.rank_step hrun)

/-- A key of four bytes that are 128. -/
theorem not_obtainsOrThrows : ¬ ∀ input, ObtainsOrThrows input := by
  intro h
  have halways := (h (.license (List.replicate 4 128))).inTable
    [.call (.read 3 4)]
  exact halways.2 (.strayed (-128)) rfl (-128) rfl

end BohunoPyzord
