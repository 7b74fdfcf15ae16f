/-
`arcfour_filter` call by call.  However the text is split between calls and
whatever room they have, what has come out is what `generate-license.py` makes
of the text that has gone in, and a fresh filter turns it back.
-/
import BohunoPyzord.License

namespace BohunoPyzord

namespace Arcfour

/-- `filter`, for what a source holds and the room of a destination: what is
written, and what is left of the source. -/
def filter (s : Arcfour) (src : List Byte) (room : Nat) :
    Arcfour × List Byte × List Byte :=
  match src, room with
  | c :: src, room + 1 =>
      let (s, first) := encrypt.step s c
      let (s, written, left) := filter s src room
      (s, first ++ written, left)
  | src, _ => (s, [], src)

/-- A call moves as many characters as the smaller of the two sizes. -/
theorem filter_eq (s : Arcfour) (src : List Byte) (room : Nat) :
    s.filter src room =
      ((encrypt.run s (src.take room)).1, (encrypt.run s (src.take room)).2,
        src.drop room) := by
  induction src generalizing s room with
  | nil =>
      rw [List.take_nil, List.drop_nil]
      cases room <;> rfl
  | cons c src ih =>
      cases room with
      | zero => rfl
      | succ room =>
          simp only [filter, ih, List.take_succ_cons, Transducer.run_cons,
            List.drop_succ_cons]

/-- Every byte value is in the array once. -/
def EachByteOnce (state_ : List Byte) : Prop := ∀ b, state_.count b = 1

theorem eachByteOnce_ofRc4 {s : Rc4} (h : Function.Bijective s.perm) :
    EachByteOnce (ofRc4 s).state_ := count_table h

/-- The constructor only exchanges entries. -/
theorem eachByteOnce_foldl_mix (key : List Byte) {n : Nat} (hn : n ≤ 256) :
    EachByteOnce ((List.range n).foldl (mix key) identity).state_ := by
  have hturns : (List.range n).foldl (mix key) identity =
      ofRc4 ((List.range n).foldl (Rc4.mix key) ⟨id, 0, 0⟩) := by
    apply List.foldl_rel (r := fun t s => t = ofRc4 s) identity_eq
    intro i hi t s ht
    rw [ht]
    exact mix_ofRc4 key s
      (List.mem_range.mpr ((List.mem_range.mp hi).trans_le hn))
  rw [hturns]
  exact eachByteOnce_ofRc4 (Rc4.foldl_mix_bijective key (List.range n))

/-- What the filter and the script make of a text from their fresh states. -/
theorem run_new (key text : List Byte) :
    encrypt.run (new key) text =
      (ofRc4 (Rc4.keystream.cipher.run (Rc4.schedule key) text).1,
        (WikipediaARC4.crypt.run (WikipediaARC4.new.init key) text).2) := by
  rw [new_eq, WikipediaARC4.init_eq,
    Rc4.keystream.cipher.run_of_step encrypt_ofRc4,
    Rc4.keystream.cipher.run_of_step WikipediaARC4.crypt_ofRc4]

theorem eachByteOnce_run (key text : List Byte) :
    EachByteOnce (encrypt.run (new key) text).1.state_ := by
  rw [run_new]
  exact eachByteOnce_ofRc4
    (Rc4.run_bijective (Rc4.schedule_bijective key) text)

/-- What the script has encrypted is decrypted by the script. -/
theorem crypt_crypt (key text : List Byte) :
    (WikipediaARC4.crypt.run (WikipediaARC4.new.init key)
      (WikipediaARC4.crypt.run (WikipediaARC4.new.init key) text).2).2 =
        text := by
  rw [WikipediaARC4.init_eq,
    Rc4.keystream.cipher.run_of_step WikipediaARC4.crypt_ofRc4,
    Rc4.keystream.cipher.run_of_step WikipediaARC4.crypt_ofRc4]
  exact Keystream.crypt_crypt Rc4.keystream (Rc4.schedule key) text

/-- The script makes a beginning of its result of a beginning of the text. -/
theorem crypt_take (key text : List Byte) (n : Nat) :
    (WikipediaARC4.crypt.run (WikipediaARC4.new.init key) (text.take n)).2 =
      (WikipediaARC4.crypt.run (WikipediaARC4.new.init key) text).2.take n :=
  WikipediaARC4.crypt.run_take (fun _ _ => rfl) _ _ _

end Arcfour

/-- A filter in use: what has not gone in, and what has come out. -/
structure ArcfourRun where
  impl : Arcfour
  rest : List Byte
  output : List Byte

/-- The sizes of the source and of the destination of one call. -/
structure ArcfourCall where
  source : Nat
  room : Nat
deriving DecidableEq, Repr

/-- How much a call moves if there is as much left. -/
def ArcfourCall.moves (call : ArcfourCall) : Nat := min call.source call.room

namespace ArcfourRun

def start (key message : List Byte) : ArcfourRun :=
  { impl := .new key, rest := message, output := [] }

def step (s : ArcfourRun) (call : ArcfourCall) : ArcfourRun :=
  let (impl, written, left) := s.impl.filter (s.rest.take call.source) call.room
  { impl, rest := left ++ s.rest.drop call.source
    output := s.output ++ written }

/-- The first `n` characters have gone in, and what has come out is what came
of them. -/
structure HasRead (key message : List Byte) (n : Nat) (s : ArcfourRun) :
    Prop where
  rest_eq : s.rest = message.drop n
  run_eq : Arcfour.encrypt.run (.new key) (message.take n) =
    (s.impl, s.output)

/-- A call takes the smaller of the two sizes off what is left. -/
theorem step_eq (s : ArcfourRun) (call : ArcfourCall) :
    s.step call =
      { impl := (Arcfour.encrypt.run s.impl (s.rest.take call.moves)).1
        rest := s.rest.drop call.moves
        output := s.output ++
          (Arcfour.encrypt.run s.impl (s.rest.take call.moves)).2 } := by
  have hmoved : (s.rest.take call.source).take call.room =
      s.rest.take call.moves := by
    rw [List.take_take, Nat.min_comm, ArcfourCall.moves]
  have hleft : (s.rest.take call.source).drop call.room ++
      s.rest.drop call.source = s.rest.drop call.moves := by
    refine @List.append_cancel_left _ (s.rest.take call.moves) _ _ ?_
    rw [List.take_append_drop, ← hmoved, ← List.append_assoc,
      List.take_append_drop, List.take_append_drop]
  rw [step, Arcfour.filter_eq]
  dsimp only
  rw [hmoved, hleft]

theorem hasRead_step {key message : List Byte} {n : Nat} {s : ArcfourRun}
    (h : HasRead key message n s) (call : ArcfourCall) :
    HasRead key message (n + call.moves) (s.step call) where
  rest_eq := by rw [step_eq, h.rest_eq, List.drop_drop]
  run_eq := by
    rw [step_eq, List.take_add, Transducer.run_append, h.run_eq, ← h.rest_eq]

/-- Together the calls move the sum of what each moves, or the whole. -/
theorem hasRead_foldl (key message : List Byte) (calls : List ArcfourCall) :
    HasRead key message (calls.map ArcfourCall.moves).sum
      (calls.foldl step (start key message)) := by
  have along : ∀ n s, HasRead key message n s →
      HasRead key message (n + (calls.map ArcfourCall.moves).sum)
        (calls.foldl step s) := by
    induction calls with
    | nil => exact fun n s h => h
    | cons call calls ih =>
        intro n s h
        have hrest := ih _ _ (hasRead_step h call)
        rwa [Nat.add_assoc] at hrest
  have hstart : HasRead key message 0 (start key message) := ⟨rfl, rfl⟩
  simpa using along 0 _ hstart

theorem HasRead.output_eq {key message : List Byte} {n : Nat}
    {s : ArcfourRun} (h : HasRead key message n s) :
    s.output = (WikipediaARC4.crypt.run (WikipediaARC4.new.init key)
      (message.take n)).2 := by
  have houtput : (Arcfour.encrypt.run (.new key) (message.take n)).2 =
      s.output :=
    congrArg Prod.snd h.run_eq
  rw [← houtput, Arcfour.run_new]

end ArcfourRun

/-- The calls move the smaller of their sizes until nothing is left, and what
has come out is what the script makes of what was moved; the array of the
filter has every byte value once at all times; and a fresh filter with the
same key makes the message of these bytes again. -/
theorem arcfour_eq_wikipedia (key message : List Byte)
    (calls : List ArcfourCall) :
    let s := calls.foldl ArcfourRun.step (.start key message)
    let read := message.take (calls.map ArcfourCall.moves).sum
    (∀ n ≤ 256, Arcfour.EachByteOnce
        ((List.range n).foldl (Arcfour.mix key) .identity).state_) ∧
      Arcfour.EachByteOnce s.impl.state_ ∧
      message = read ++ s.rest ∧
      s.output =
        (WikipediaARC4.crypt.run (WikipediaARC4.new.init key) read).2 ∧
      ∀ calls' : List ArcfourCall,
        (calls'.foldl ArcfourRun.step (.start key s.output)).output =
          read.take (calls'.map ArcfourCall.moves).sum := by
  intro s read
  have hread := ArcfourRun.hasRead_foldl key message calls
  refine ⟨fun n hn => Arcfour.eachByteOnce_foldl_mix key hn, ?_, ?_,
    hread.output_eq, ?_⟩
  · have himpl : (Arcfour.encrypt.run (.new key) read).1 = s.impl :=
      congrArg Prod.fst hread.run_eq
    rw [← himpl]
    exact Arcfour.eachByteOnce_run key read
  · change message = _ ++ (calls.foldl ArcfourRun.step _).rest
    rw [hread.rest_eq, List.take_append_drop]
  · intro calls'
    have hback :
        (WikipediaARC4.crypt.run (WikipediaARC4.new.init key) s.output).2 =
          read := by
      rw [hread.output_eq, Arcfour.crypt_crypt]
    rw [(ArcfourRun.hasRead_foldl key s.output calls').output_eq,
      Arcfour.crypt_take, hback]

/-- Nine characters in five calls, one of which has no room. -/
def arcfourCalls : List ArcfourCall := [⟨2, 1⟩, ⟨4, 0⟩, ⟨3, 9⟩, ⟨9, 2⟩, ⟨9, 9⟩]

theorem arcfour_eq_wikipedia_plaintext :
    let s := arcfourCalls.foldl ArcfourRun.step
      (.start (literal "Key") (literal "Plaintext"))
    s.output = [0xbb, 0xf3, 0x16, 0xe8, 0xd9, 0x40, 0xaf, 0x0a, 0xd3] ∧
      (arcfourCalls.foldl ArcfourRun.step
        (.start (literal "Key") s.output)).output = literal "Plaintext" := by
  obtain ⟨-, -, -, houtput, hback⟩ := arcfour_eq_wikipedia (literal "Key")
    (literal "Plaintext") arcfourCalls
  refine ⟨houtput.trans ?_, (hback arcfourCalls).trans ?_⟩
  · decide +kernel
  · decide +kernel

end BohunoPyzord
