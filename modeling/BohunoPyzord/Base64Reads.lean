/-
`base64_decoder::read` call by call.  Its source brings the text in parts of
whatever size, and a call may be for any number of bytes from three on; up to
three characters wait in the decoder between two calls.
-/
import BohunoPyzord.License
import BohunoPyzord.LineStream

namespace BohunoPyzord

namespace Base64Decoder

/-- What `read` throws. -/
def bufferTooSmall : String :=
  "buffer too small, need at least 3 bytes to decode base64"

/-- `read` for `n` bytes: what it writes, or `none` for -1, and what the
source has still to bring. -/
def readCall (s : Base64Decoder) (source : List (LineStream.Chunk Byte))
    (n : Nat) :
    Except String
      (Option (List Byte) × Base64Decoder × List (LineStream.Chunk Byte)) :=
  if n < 3 then .error bufferTooSmall
  else
    match LineStream.readSome (n / 3 * 4) source with
    | none => .ok (none, s, source)
    | some (buffer, source) =>
        let (s, written) := read.run s buffer
        .ok (some written, s, source)

/-- Calls one after another. -/
def readCalls (s : Base64Decoder) (source : List (LineStream.Chunk Byte)) :
    List Nat → Except String (List (Option (List Byte)))
  | [] => .ok []
  | n :: sizes => do
      let (written, s, source) ← s.readCall source n
      let later ← readCalls s source sizes
      .ok (written :: later)

/-- The calls that have written put together. -/
def concatenated (results : List (Option (List Byte))) : List Byte :=
  results.flatMap fun written => written.getD []

theorem concatenated_some_cons (written : List Byte)
    (results : List (Option (List Byte))) :
    concatenated (some written :: results) =
      written ++ concatenated results := rfl

theorem length_decodeGroup_le (buffer_ : List Byte) :
    (decodeGroup buffer_).length ≤ 3 := by
  rw [decodeGroup, List.length_take]
  exact Nat.min_le_right _ 3

theorem read_step_fourth {s : Base64Decoder} (h : s.buffer_.length + 1 = 4)
    (c : Byte) :
    (read.step s c).1.buffer_ = [] ∧
      (read.step s c).2 = decodeGroup (s.buffer_ ++ [c]) := by
  have hstep : read.step s c = (reset, decodeGroup (s.buffer_ ++ [c])) :=
    dif_pos h
  rw [hstep]
  exact ⟨rfl, rfl⟩

theorem read_step_waiting {s : Base64Decoder} (h : s.buffer_.length + 1 ≠ 4)
    (c : Byte) :
    (read.step s c).1.buffer_ = s.buffer_ ++ [c] ∧
      (read.step s c).2 = [] := by
  simp only [read, dif_neg h, and_self]

/-- Every four characters, with those that were waiting, write three bytes or
less. -/
theorem exists_groups (s : Base64Decoder) (buffer : List Byte) :
    ∃ groups, 4 * groups + (read.run s buffer).1.buffer_.length =
        s.buffer_.length + buffer.length ∧
      (read.run s buffer).2.length ≤ 3 * groups := by
  induction buffer generalizing s with
  | nil => exact ⟨0, by simp, by simp⟩
  | cons c buffer ih =>
      obtain ⟨groups, hchars, hbytes⟩ := ih (read.step s c).1
      simp only [Transducer.run_cons, List.length_append, List.length_cons]
      by_cases hfour : s.buffer_.length + 1 = 4
      · obtain ⟨hbuffer, hwritten⟩ := read_step_fourth hfour c
        have hgroup := length_decodeGroup_le (s.buffer_ ++ [c])
        rw [hbuffer, List.length_nil] at hchars
        refine ⟨groups + 1, by omega, ?_⟩
        rw [hwritten]
        omega
      · obtain ⟨hbuffer, hwritten⟩ := read_step_waiting hfour c
        rw [hbuffer, List.length_append, List.length_singleton] at hchars
        refine ⟨groups, by omega, ?_⟩
        rw [hwritten, List.length_nil]
        omega

/-- The characters of one call make no more bytes than it is for. -/
theorem length_run_le (s : Base64Decoder) {buffer : List Byte} {n : Nat}
    (h : buffer.length ≤ n / 3 * 4) :
    (read.run s buffer).2.length ≤ n := by
  obtain ⟨groups, hchars, hbytes⟩ := exists_groups s buffer
  have hwaiting := s.incomplete
  omega

/-- At the end of the source a call returns -1. -/
theorem readCall_nil (s : Base64Decoder) {n : Nat} (hn : 3 ≤ n) :
    s.readCall [] n = .ok (none, s, []) :=
  if_neg (Nat.not_lt.mpr hn)

/-- Before it, a call decodes some characters. -/
theorem exists_readCall (s : Base64Decoder) (chunk : LineStream.Chunk Byte)
    (chunks : List (LineStream.Chunk Byte)) {n : Nat} (hn : 3 ≤ n) :
    ∃ buffer source, s.readCall (chunk :: chunks) n =
        .ok (some (read.run s buffer).2, (read.run s buffer).1, source) ∧
      buffer ++ LineStream.joined source =
        LineStream.joined (chunk :: chunks) ∧
      buffer ≠ [] ∧ (read.run s buffer).2.length ≤ n := by
  obtain ⟨buffer, source, hread, hjoined, hne, hlength⟩ :=
    LineStream.exists_readSome (by omega : 0 < n / 3 * 4) chunk chunks
  refine ⟨buffer, source, ?_, hjoined, hne, length_run_le s hlength⟩
  rw [readCall, if_neg (Nat.not_lt.mpr hn), hread]

/-- `results` are what calls of these sizes return from a decoder in a state
`s`, before a `text`. -/
structure Reads (s : Base64Decoder) (text : List Byte) (sizes : List Nat)
    (results : List (Option (List Byte))) : Prop where
  fits : List.Forall₂ (fun n written => (written.getD []).length ≤ n)
    sizes results
  decoded : ∃ before after, text = before ++ after ∧
    concatenated results = (read.run s before).2 ∧
      (none ∈ results → after = [])
  ends : text.length < sizes.length → none ∈ results

theorem reads_of_readCalls {sizes : List Nat} (hsizes : ∀ n ∈ sizes, 3 ≤ n)
    (s : Base64Decoder) (source : List (LineStream.Chunk Byte)) :
    ∃ results, readCalls s source sizes = .ok results ∧
      Reads s (LineStream.joined source) sizes results := by
  induction sizes generalizing s source with
  | nil =>
      refine ⟨[], rfl, .nil, ⟨[], _, rfl, rfl, ?_⟩, ?_⟩
      · exact fun hnone => absurd hnone List.not_mem_nil
      · exact fun hlength => absurd hlength (Nat.not_lt_zero _)
  | cons n sizes ih =>
      obtain ⟨hn, hsizes⟩ := List.forall_mem_cons.mp hsizes
      cases source with
      | nil =>
          obtain ⟨results, hcalls, hreads⟩ := ih hsizes s []
          refine ⟨none :: results, ?_, .cons (Nat.zero_le n) hreads.fits,
            ?_, fun _ => List.mem_cons_self⟩
          · rw [readCalls, readCall_nil s hn]
            simp only [hcalls, bind, Except.bind]
          · obtain ⟨before, after, htext, hdecoded, -⟩ := hreads.decoded
            have hnil := List.append_eq_nil_iff.mp htext.symm
            exact ⟨before, after, htext, hdecoded, fun _ => hnil.2⟩
      | cons chunk chunks =>
          obtain ⟨buffer, source, hcall, hjoined, hne, hlength⟩ :=
            exists_readCall s chunk chunks hn
          obtain ⟨results, hcalls, hreads⟩ :=
            ih hsizes (read.run s buffer).1 source
          refine ⟨some (read.run s buffer).2 :: results, ?_,
            .cons hlength hreads.fits, ?_, ?_⟩
          · rw [readCalls, hcall]
            simp only [hcalls, bind, Except.bind]
          · obtain ⟨before, after, htext, hdecoded, hend⟩ := hreads.decoded
            refine ⟨buffer ++ before, after, ?_, ?_, fun hnone => ?_⟩
            · rw [← hjoined, htext, List.append_assoc]
            · rw [concatenated_some_cons, hdecoded, Transducer.run_append]
            · rcases List.mem_cons.mp hnone with heq | hnone
              · cases heq
              · exact hend hnone
          · intro hmore
            refine List.mem_cons_of_mem _ (hreads.ends ?_)
            have hpos := List.length_pos_iff.mpr hne
            rw [← hjoined, List.length_append, List.length_cons] at hmore
            omega

end Base64Decoder

/-- However the text of `bytes` comes and whatever the calls are for, none of
them fails or writes more than it is for; together they write a part of
`bytes`, all of it when one has returned -1, and one does if there are more
calls than characters. -/
theorem base64_decoder_read (bytes : List Byte)
    (source : List (LineStream.Chunk Byte))
    (hsource : LineStream.joined source = Base64.encode bytes)
    (sizes : List Nat) (hsizes : ∀ n ∈ sizes, 3 ≤ n) :
    ∃ results, Base64Decoder.readCalls .reset source sizes = .ok results ∧
      List.Forall₂ (fun n written => (written.getD []).length ≤ n)
        sizes results ∧
      Base64Decoder.concatenated results <+: bytes ∧
      (none ∈ results → Base64Decoder.concatenated results = bytes) ∧
      ((Base64.encode bytes).length < sizes.length → none ∈ results) := by
  obtain ⟨results, hcalls, hreads⟩ :=
    Base64Decoder.reads_of_readCalls hsizes .reset source
  rw [hsource] at hreads
  obtain ⟨before, after, htext, hdecoded, hend⟩ := hreads.decoded
  have hbytes := Base64Decoder.read_encode bytes
  rw [htext, Transducer.run_append, ← hdecoded] at hbytes
  refine ⟨results, hcalls, hreads.fits, ⟨_, hbytes⟩, fun hnone => ?_,
    hreads.ends⟩
  rw [hend hnone, Transducer.run_nil, List.append_nil] at hbytes
  exact hbytes

/-- Five characters and then three. -/
theorem base64_decoder_read_pair :
    ∃ results, Base64Decoder.readCalls .reset
        [⟨literal "c3Rlc", by decide⟩, ⟨literal "A==", by decide⟩] [7, 3, 3] =
          .ok results ∧
      List.Forall₂ (fun n written => (written.getD []).length ≤ n)
        [7, 3, 3] results ∧
      Base64Decoder.concatenated results <+: literal "step" ∧
      (none ∈ results →
        Base64Decoder.concatenated results = literal "step") ∧
      ((Base64.encode (literal "step")).length < [7, 3, 3].length →
        none ∈ results) :=
  base64_decoder_read (literal "step")
    [⟨literal "c3Rlc", by decide⟩, ⟨literal "A==", by decide⟩]
    (by decide +kernel) [7, 3, 3] (by decide)

end BohunoPyzord
