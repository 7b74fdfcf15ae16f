/-
Range scans over a list that is ordered by a key: skip what lies below a lower
bound, stop at the first entry above an upper one.
-/
import Mathlib.Data.List.Basic
import Mathlib.Order.Basic
import Mathlib.Order.Lattice
import Mathlib.Tactic.Common

universe u v

namespace OrderedScan

variable {A : Type u} {T : Type v} [LinearOrder T] (key : A → T)

/-- No entry has a smaller key than one before it. -/
def Ordered (entries : List A) : Prop :=
  entries.Pairwise fun a b => key a ≤ key b

/-- The entries from the first one on whose key reaches `min`. -/
def startingAt (min : T) (entries : List A) : List A :=
  entries.dropWhile fun a => key a < min

/-- The entries up to the first one whose key exceeds `max`. -/
def upTo (max : T) (entries : List A) : List A :=
  entries.takeWhile fun a => key a ≤ max

variable {key} {entries : List A}

theorem Ordered.startingAt (h : Ordered key entries) (min : T) :
    Ordered key (OrderedScan.startingAt key min entries) :=
  List.Pairwise.sublist (List.dropWhile_sublist _) h

/-- The last entry of an ordered list has the greatest key. -/
theorem Ordered.le_getLast (h : Ordered key entries) {a : A}
    (ha : a ∈ entries) :
    ∃ last, entries.getLast? = some last ∧ key a ≤ key last := by
  rcases List.eq_nil_or_concat entries with rfl | ⟨front, last, rfl⟩
  · cases ha
  · rw [List.concat_eq_append] at h ha ⊢
    refine ⟨last, List.getLast?_concat, ?_⟩
    rcases List.mem_append.mp ha with hfront | hlast
    · exact (List.pairwise_append.mp h).2.2 a hfront last List.mem_cons_self
    · rw [List.mem_singleton.mp hlast]

/-- On an ordered list, a test that smaller keys pass too is passed up to some
entry and by no later one. -/
theorem Ordered.takeWhile_eq_filter (h : Ordered key entries) {test : A → Bool}
    (htest : ∀ a b, key a ≤ key b → test b = true → test a = true) :
    entries.takeWhile test = entries.filter test := by
  induction entries with
  | nil => rfl
  | cons a entries ih =>
      obtain ⟨hle, hrest⟩ := List.pairwise_cons.mp h
      by_cases hpass : test a = true
      · rw [List.takeWhile_cons_of_pos hpass, List.filter_cons_of_pos hpass,
          ih hrest]
      · rw [List.takeWhile_cons_of_neg hpass, List.filter_cons_of_neg hpass]
        symm
        apply List.filter_eq_nil_iff.mpr
        intro b hb hlater
        exact hpass (htest a b (hle b hb) hlater)

theorem Ordered.dropWhile_eq_filter (h : Ordered key entries) {test : A → Bool}
    (htest : ∀ a b, key a ≤ key b → test b = true → test a = true) :
    entries.dropWhile test = entries.filter fun a => !test a := by
  induction entries with
  | nil => rfl
  | cons a entries ih =>
      obtain ⟨hle, hrest⟩ := List.pairwise_cons.mp h
      by_cases hpass : test a = true
      · rw [List.dropWhile_cons_of_pos hpass,
          List.filter_cons_of_neg (by simpa using hpass), ih hrest]
      · rw [List.dropWhile_cons_of_neg hpass]
        symm
        apply List.filter_eq_self.mpr
        intro b hb
        rw [Bool.not_eq_true', ← Bool.not_eq_true]
        intro hlater
        rcases List.mem_cons.mp hb with rfl | hb
        · exact hpass hlater
        · exact hpass (htest a b (hle b hb) hlater)

theorem Ordered.startingAt_eq_filter (h : Ordered key entries) (min : T) :
    OrderedScan.startingAt key min entries =
      entries.filter fun a => min ≤ key a := by
  rw [OrderedScan.startingAt, h.dropWhile_eq_filter]
  · simp only [← decide_not, not_lt]
  · intro a b hle hb
    exact decide_eq_true (hle.trans_lt (of_decide_eq_true hb))

/-- On an ordered list nothing below the bound is left. -/
theorem mem_startingAt (h : Ordered key entries) {min : T} {a : A} :
    a ∈ startingAt key min entries ↔ a ∈ entries ∧ min ≤ key a := by
  rw [h.startingAt_eq_filter, List.mem_filter, decide_eq_true_eq]

/-- On an ordered list nothing that passes is cut off by a test that smaller
keys pass too. -/
theorem Ordered.mem_takeWhile (h : Ordered key entries) {test : A → Bool}
    (htest : ∀ a b, key a ≤ key b → test b = true → test a = true) {a : A} :
    a ∈ entries.takeWhile test ↔ a ∈ entries ∧ test a = true := by
  rw [h.takeWhile_eq_filter htest, List.mem_filter]

/-- On an ordered list nothing within the bound is cut off. -/
theorem mem_upTo (h : Ordered key entries) {max : T} {a : A} :
    a ∈ upTo key max entries ↔ a ∈ entries ∧ key a ≤ max := by
  rw [upTo, h.mem_takeWhile, decide_eq_true_eq]
  exact fun a b hle hb => decide_eq_true (hle.trans (of_decide_eq_true hb))

/-- An entry with a smaller key than one of the first is one of the first. -/
theorem Ordered.mem_take (h : Ordered key entries) {n : Nat} {a b : A}
    (hb : b ∈ entries.take n) (ha : a ∈ entries) (hlt : key a < key b) :
    a ∈ entries.take n := by
  unfold Ordered at h
  rw [← List.take_append_drop n entries] at h ha
  rcases List.mem_append.mp ha with hfirst | hlater
  · exact hfirst
  · have hle := (List.pairwise_append.mp h).2.2 b hb a hlater
    exact absurd hlt (not_lt.mpr hle)

section Selection

variable (key) (p : A → Bool)

/-- The entries before the first one whose key reaches `max`. -/
def below (max : T) (entries : List A) : List A :=
  entries.takeWhile fun a => key a < max

/-- The first `n` entries below `max` that pass a test. -/
def select (max : T) (n : Nat) (entries : List A) : List A :=
  ((below key max entries).filter p).take n

variable {key p} {max : T} {n : Nat}

theorem below_cons_of_lt {a : A} (h : key a < max) :
    below key max (a :: entries) = a :: below key max entries :=
  List.takeWhile_cons_of_pos (decide_eq_true h)

theorem below_cons_of_le {a : A} (h : max ≤ key a) :
    below key max (a :: entries) = [] :=
  List.takeWhile_cons_of_neg (by simpa using h)

@[simp] theorem select_nil : select key p max n [] = [] := by
  rw [select, below, List.takeWhile_nil, List.filter_nil, List.take_nil]

@[simp] theorem select_zero : select key p max 0 entries = [] :=
  List.take_zero

theorem select_cons_of_le {a : A} (h : max ≤ key a) :
    select key p max n (a :: entries) = [] := by
  rw [select, below_cons_of_le h, List.filter_nil, List.take_nil]

theorem select_cons_of_neg {a : A} (h : key a < max) (htest : p a = false) :
    select key p max n (a :: entries) = select key p max n entries := by
  rw [select, below_cons_of_lt h, List.filter_cons_of_neg (by simp [htest]),
    select]

theorem select_cons_of_pos {a : A} (h : key a < max) (htest : p a = true) :
    select key p max (n + 1) (a :: entries) =
      a :: select key p max n entries := by
  rw [select, below_cons_of_lt h, List.filter_cons_of_pos htest,
    List.take_succ_cons, select]

theorem below_eq_filter (h : Ordered key entries) :
    below key max entries = entries.filter fun a => key a < max := by
  apply h.takeWhile_eq_filter
  intro a b hle hb
  exact decide_eq_true (hle.trans_lt (of_decide_eq_true hb))

theorem mem_below (h : Ordered key entries) {a : A} :
    a ∈ below key max entries ↔ a ∈ entries ∧ key a < max := by
  rw [below_eq_filter h, List.mem_filter, decide_eq_true_eq]

/-- What is selected from some key on are the first of all entries between
the bounds that pass the test. -/
theorem select_startingAt (h : Ordered key entries) {min : T} :
    select key p max n (startingAt key min entries) =
      (entries.filter fun a =>
        p a && decide (key a < max) && decide (min ≤ key a)).take n := by
  rw [select, below_eq_filter (h.startingAt min), h.startingAt_eq_filter,
    List.filter_filter, List.filter_filter]

theorem select_sublist : (select key p max n entries).Sublist entries :=
  (List.take_sublist _ _).trans
    (List.filter_sublist.trans (List.takeWhile_sublist _))

theorem mem_select (h : Ordered key entries) {a : A}
    (ha : a ∈ select key p max n entries) : p a = true ∧ key a < max := by
  obtain ⟨hbelow, htest⟩ := List.mem_filter.mp (List.mem_of_mem_take ha)
  exact ⟨htest, ((mem_below h).mp hbelow).2⟩

/-- Nothing is selected where nothing that passes the test lies below. -/
theorem select_eq_nil_iff (h : Ordered key entries) (hn : 0 < n) :
    select key p max n entries = [] ↔
      ∀ a ∈ entries, p a = true → max ≤ key a := by
  rw [select, List.take_eq_nil_iff, or_iff_right (Nat.ne_of_gt hn),
    List.filter_eq_nil_iff]
  constructor
  · intro hnone a ha htest
    by_contra hmax
    exact hnone a ((mem_below h).mpr ⟨ha, not_le.mp hmax⟩) htest
  · intro hmax a ha htest
    obtain ⟨hmem, hlt⟩ := (mem_below h).mp ha
    exact absurd (hmax a hmem htest) (not_le.mpr hlt)

/-- An entry that passes the test and has a smaller key than a selected one is
selected, even if only the first entries are looked at. -/
theorem mem_select_of_lt (h : Ordered key entries) {m : Nat} {a b : A}
    (hb : b ∈ select key p max n (entries.take m)) (ha : a ∈ entries)
    (htest : p a = true) (hlt : key a < key b) :
    a ∈ select key p max n (entries.take m) := by
  have hseen : a ∈ entries.take m :=
    h.mem_take (select_sublist.subset hb) ha hlt
  have hfirst : Ordered key (entries.take m) :=
    List.Pairwise.sublist (List.take_sublist _ _) h
  have hbelow : a ∈ below key max (entries.take m) :=
    (mem_below hfirst).mpr ⟨hseen, hlt.trans (mem_select hfirst hb).2⟩
  have hordered : Ordered key ((below key max (entries.take m)).filter p) :=
    List.Pairwise.sublist
      (List.filter_sublist.trans (List.takeWhile_sublist _)) hfirst
  exact hordered.mem_take hb (List.mem_filter.mpr ⟨hbelow, htest⟩) hlt

end Selection

end OrderedScan
