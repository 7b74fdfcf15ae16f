/-
Stream ciphers: a keystream that is exclusive-ored with the text, as a
transducer that undoes itself.  RC4 as a permutation of the bytes with two
indices, and the arrays of 256 entries that programs keep such a permutation
in.
-/
import BohunoPyzord.Transducer
import Mathlib.Data.List.Nodup
import Mathlib.Logic.Equiv.Basic

universe u

/-- The next state and the next word of the keystream. -/
structure Keystream (S : Type u) (w : Nat) where
  next : S → S × BitVec w

namespace Keystream

variable {S : Type u} {w : Nat} (K : Keystream S w)

def cipher : Transducer S (BitVec w) (BitVec w) where
  step s c := ((K.next s).1, [c ^^^ (K.next s).2])

/-- What is crypted twice from the same state is the text again. -/
theorem crypt_crypt (s : S) (text : List (BitVec w)) :
    (K.cipher.run s (K.cipher.run s text).2).2 = text := by
  induction text generalizing s with
  | nil => rfl
  | cons c text ih =>
      have hundone : c ^^^ (K.next s).2 ^^^ (K.next s).2 = c := by
        rw [BitVec.xor_assoc, BitVec.xor_self, BitVec.xor_zero]
      rw [Transducer.run_cons]
      change (c ^^^ (K.next s).2 ^^^ (K.next s).2) ::
        (K.cipher.run (K.next s).1 (K.cipher.run (K.next s).1 text).2).2 = _
      rw [ih, hundone]

end Keystream

/-- A permutation of the bytes and two indices into it. -/
structure Rc4 where
  perm : BitVec 8 → BitVec 8
  x : BitVec 8
  y : BitVec 8

namespace Rc4

/-- One exchange of the key schedule, the `i`-th. -/
def mix (key : List (BitVec 8)) (s : Rc4) (i : Nat) : Rc4 :=
  let x := key.getD (i % key.length) 0 + s.perm (BitVec.ofNat 8 i) + s.x
  { s with perm := s.perm ∘ Equiv.swap (BitVec.ofNat 8 i) x, x }

def schedule (key : List (BitVec 8)) : Rc4 :=
  { (List.range 256).foldl (mix key) ⟨id, 0, 0⟩ with x := 0 }

def next (s : Rc4) : Rc4 × BitVec 8 :=
  let x := s.x + 1
  let y := s.perm x + s.y
  let perm := s.perm ∘ Equiv.swap x y
  (⟨perm, x, y⟩, perm (perm x + perm y))

def keystream : Keystream Rc4 8 := ⟨next⟩

/-- A program whose turns are those of the schedule, on states of its own,
comes to the state of the schedule. -/
theorem foldl_mix {S : Type u} {ofRc4 : Rc4 → S} {turn : S → Nat → S}
    {key : List (BitVec 8)}
    (h : ∀ s, ∀ i ∈ List.range 256, turn (ofRc4 s) i = ofRc4 (mix key s i)) :
    (List.range 256).foldl turn (ofRc4 ⟨id, 0, 0⟩) =
      ofRc4 ((List.range 256).foldl (mix key) ⟨id, 0, 0⟩) := by
  apply List.foldl_rel (r := fun t s => t = ofRc4 s) rfl
  intro i hi t s ht
  rw [ht]
  exact h s i hi

/-- Exchanges leave a permutation. -/
theorem mix_bijective {s : Rc4} (h : Function.Bijective s.perm)
    (key : List (BitVec 8)) (i : Nat) :
    Function.Bijective (mix key s i).perm :=
  h.comp (Equiv.swap _ _).bijective

theorem foldl_mix_bijective (key : List (BitVec 8)) (turns : List Nat) :
    Function.Bijective (turns.foldl (mix key) ⟨id, 0, 0⟩).perm := by
  have along : ∀ s : Rc4, Function.Bijective s.perm →
      Function.Bijective (turns.foldl (mix key) s).perm := by
    induction turns with
    | nil => exact fun s h => h
    | cons i turns ih => exact fun s h => ih _ (mix_bijective h key i)
  exact along _ Function.bijective_id

theorem schedule_bijective (key : List (BitVec 8)) :
    Function.Bijective (schedule key).perm := by
  rw [schedule]
  generalize List.range 256 = turns
  exact foldl_mix_bijective key turns

theorem run_bijective {s : Rc4} (h : Function.Bijective s.perm)
    (text : List (BitVec 8)) :
    Function.Bijective (keystream.cipher.run s text).1.perm := by
  induction text generalizing s with
  | nil => exact h
  | cons c text ih => exact ih (h.comp (Equiv.swap _ _).bijective)

end Rc4

section Table

variable {α : Type u}

/-- A function of the bytes as an array. -/
def table (f : BitVec 8 → α) : List α :=
  (List.range 256).map fun i => f (BitVec.ofNat 8 i)

@[simp] theorem length_table (f : BitVec 8 → α) : (table f).length = 256 := by
  simp [table]

theorem getElem?_table (f : BitVec 8 → α) (i : BitVec 8) :
    (table f)[i.toNat]? = some (f i) := by
  have hlt : i.toNat < 256 := i.isLt
  rw [table, List.getElem?_map, List.getElem?_range hlt, Option.map_some,
    BitVec.ofNat_toNat, BitVec.setWidth_eq]

@[simp] theorem getD_table (f : BitVec 8 → α) (i : BitVec 8) (d : α) :
    (table f).getD i.toNat d = f i := by
  rw [List.getD_eq_getElem?_getD, getElem?_table, Option.getD_some]

/-- The array of a permutation has every byte once. -/
theorem count_table {f : BitVec 8 → BitVec 8} (h : Function.Bijective f)
    (b : BitVec 8) : (table f).count b = 1 := by
  apply List.count_eq_one_of_mem
  · apply List.nodup_range.map_on
    intro i hi j hj hsame
    have hword := congrArg BitVec.toNat (h.injective hsame)
    rwa [BitVec.toNat_ofNat, BitVec.toNat_ofNat,
      Nat.mod_eq_of_lt (List.mem_range.mp hi),
      Nat.mod_eq_of_lt (List.mem_range.mp hj)] at hword
  · obtain ⟨i, rfl⟩ := h.surjective b
    exact List.mem_of_getElem? (getElem?_table f i)

variable [Inhabited α]

/-- Exchange two entries. -/
def swapAt (l : List α) (i j : Nat) : List α :=
  (l.set i (l.getD j default)).set j (l.getD i default)

theorem swapAt_table (f : BitVec 8 → α) (i j : BitVec 8) :
    swapAt (table f) i.toNat j.toNat = table (f ∘ Equiv.swap i j) := by
  apply List.ext_getElem?
  intro n
  rw [swapAt, getD_table, getD_table]
  rcases Nat.lt_or_ge n 256 with hn | hn
  · obtain ⟨k, rfl⟩ : ∃ k : BitVec 8, k.toNat = n :=
      ⟨BitVec.ofNat 8 n, by rw [BitVec.toNat_ofNat, Nat.mod_eq_of_lt hn]⟩
    rw [getElem?_table, List.getElem?_set, List.getElem?_set,
      getElem?_table, Function.comp_apply, Equiv.swap_apply_def]
    have hlt : ∀ b : BitVec 8, b.toNat < 256 := fun b => b.isLt
    simp only [List.length_set, length_table, BitVec.toNat_inj, hlt,
      if_true, eq_comm (a := k)]
    by_cases hj : j = k
    · subst hj
      by_cases hi : i = j
      · rw [if_pos rfl, if_pos hi, hi]
      · rw [if_pos rfl, if_neg hi, if_pos rfl]
    · rw [if_neg hj]
      by_cases hi : i = k
      · rw [if_pos hi, if_pos hi]
      · rw [if_neg hi, if_neg hi, if_neg hj]
  · rw [List.getElem?_eq_none (by simpa using hn),
      List.getElem?_eq_none (by simpa using hn)]

end Table
