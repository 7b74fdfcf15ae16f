/-
Executable step systems: a partial step function over labelled actions, the
runs it has, and the rules that carry a fact about one step to every state of
a run.  Nondeterminism lives in the labels, so a concrete run is evaluated and
a general one is proved about with the same definition.
-/
import Mathlib.Data.List.Infix
import Mathlib.Tactic.Common

universe u v w x

/-- An initial state and a step function; `none` says that the action is not
enabled in the state. -/
structure StepSystem (S : Type u) (A : Type v) where
  init : S
  step : S → A → Option S

namespace StepSystem

variable {S : Type u} {A : Type v} (M : StepSystem S A)

/-- The state a list of actions leads to, if each of them is enabled. -/
def runFrom (s : S) : List A → Option S
  | [] => some s
  | a :: acts => (M.step s a).bind fun s' => runFrom s' acts

/-- A run from the initial state. -/
def run (acts : List A) : Option S :=
  M.runFrom M.init acts

/-- `P` holds in `s` and in every state the actions lead through. -/
def AlwaysFrom (P : S → Prop) (s : S) : List A → Prop
  | [] => P s
  | a :: acts => P s ∧ ∀ s' ∈ M.step s a, AlwaysFrom P s' acts

/-- `P` holds in every state of the run from the initial state. -/
def Always (P : S → Prop) (acts : List A) : Prop :=
  M.AlwaysFrom P M.init acts

/-- Every action the run takes meets `C` in the state it is taken in. -/
def EachFrom (C : S → A → Prop) (s : S) : List A → Prop
  | [] => True
  | a :: acts => ∀ s' ∈ M.step s a, C s a ∧ EachFrom C s' acts

/-- Every action of the run from the initial state meets `C`. -/
def Each (C : S → A → Prop) (acts : List A) : Prop :=
  M.EachFrom C M.init acts

/-- `I` survives every enabled action that meets `C`. -/
def Preserves (I : S → Prop) (C : S → A → Prop) : Prop :=
  ∀ {s s' : S} {a : A}, I s → C s a → M.step s a = some s' → I s'

@[simp] theorem runFrom_nil (s : S) : M.runFrom s [] = some s := rfl

theorem runFrom_cons (s : S) (a : A) (acts : List A) :
    M.runFrom s (a :: acts) =
      (M.step s a).bind fun s' => M.runFrom s' acts := rfl

theorem runFrom_append (s : S) (first second : List A) :
    M.runFrom s (first ++ second) =
      (M.runFrom s first).bind fun s' => M.runFrom s' second := by
  induction first generalizing s with
  | nil => simp
  | cons a acts ih =>
      rw [List.cons_append, runFrom_cons, runFrom_cons, Option.bind_assoc]
      exact congrArg _ (funext fun s' => ih s')

theorem runFrom_singleton (s : S) (a : A) :
    M.runFrom s [a] = M.step s a := by
  simp [runFrom_cons]

theorem eachFrom_singleton {C : S → A → Prop} {s : S} {a : A}
    (h : C s a) : M.EachFrom C s [a] :=
  fun _ _ => ⟨h, trivial⟩

theorem eachFrom_true (s : S) (acts : List A) :
    M.EachFrom (fun _ _ => True) s acts := by
  induction acts generalizing s with
  | nil => trivial
  | cons a acts ih => exact fun s' _ => ⟨trivial, ih s'⟩

/-- Whether a concrete run meets a guard can be evaluated. -/
instance decidableEachFrom {C : S → A → Prop} [∀ s a, Decidable (C s a)] :
    ∀ (s : S) (acts : List A), Decidable (M.EachFrom C s acts)
  | _, [] => isTrue trivial
  | s, a :: acts =>
      match h : M.step s a with
      | none => isTrue fun s' hs' => by
          rw [h] at hs'
          cases hs'
      | some mid =>
          have := decidableEachFrom (C := C) mid acts
          decidable_of_iff (C s a ∧ M.EachFrom C mid acts) ⟨fun hmid s' hs' => by
            rw [h] at hs'
            exact Option.some.inj hs' ▸ hmid, fun heach => heach mid h⟩

instance decidableEach {C : S → A → Prop} [∀ s a, Decidable (C s a)]
    (acts : List A) : Decidable (M.Each C acts) :=
  M.decidableEachFrom M.init acts

theorem AlwaysFrom.head {P : S → Prop} {s : S} {acts : List A}
    (h : M.AlwaysFrom P s acts) : P s := by
  cases acts with
  | nil => exact h
  | cons a acts => exact h.1

/-- The recursive reading of `Always` is the one over prefixes: every prefix
that runs ends in a state with the property. -/
theorem alwaysFrom_iff {P : S → Prop} {s : S} {acts : List A} :
    M.AlwaysFrom P s acts ↔
      ∀ pre s', pre <+: acts → M.runFrom s pre = some s' → P s' := by
  induction acts generalizing s with
  | nil =>
      constructor
      · intro h pre s' hpre hrun
        rw [List.prefix_nil.mp hpre] at hrun
        exact Option.some.inj hrun ▸ h
      · intro h
        exact h [] s (List.nil_prefix) rfl
  | cons a acts ih =>
      constructor
      · rintro ⟨hhead, htail⟩ pre s' hpre hrun
        cases pre with
        | nil => exact Option.some.inj hrun ▸ hhead
        | cons b pre =>
            obtain ⟨rfl, htailPre⟩ := List.cons_prefix_cons.mp hpre
            rw [runFrom_cons] at hrun
            obtain ⟨mid, hmid, hrest⟩ := Option.bind_eq_some_iff.mp hrun
            exact ih.mp (htail mid hmid) pre s' htailPre hrest
      · intro h
        refine ⟨h [] s List.nil_prefix rfl, fun mid hmid => ?_⟩
        apply ih.mpr
        intro pre s' hpre hrun
        apply h (a :: pre) s'
        · exact List.cons_prefix_cons.mpr ⟨rfl, hpre⟩
        · rw [runFrom_cons, hmid]
          exact hrun

theorem eachFrom_append {C : S → A → Prop} {s : S} {first second : List A} :
    M.EachFrom C s (first ++ second) ↔
      M.EachFrom C s first ∧
        ∀ s', M.runFrom s first = some s' → M.EachFrom C s' second := by
  induction first generalizing s with
  | nil =>
      constructor
      · intro h
        exact ⟨trivial, fun s' hs' => Option.some.inj hs' ▸ h⟩
      · rintro ⟨-, h⟩
        exact h s rfl
  | cons a acts ih =>
      constructor
      · intro h
        refine ⟨fun mid hmid => ⟨(h mid hmid).1, (ih.mp (h mid hmid).2).1⟩, ?_⟩
        intro s' hrun
        rw [runFrom_cons] at hrun
        obtain ⟨mid, hmid, hrest⟩ := Option.bind_eq_some_iff.mp hrun
        exact (ih.mp (h mid hmid).2).2 s' hrest
      · rintro ⟨hfirst, hsecond⟩ mid hmid
        refine ⟨(hfirst mid hmid).1, ih.mpr ⟨(hfirst mid hmid).2, ?_⟩⟩
        intro s' hrest
        apply hsecond s'
        rw [runFrom_cons, hmid]
        exact hrest

theorem AlwaysFrom.after {P : S → Prop} {s s' : S} {first second : List A}
    (h : M.AlwaysFrom P s (first ++ second))
    (hrun : M.runFrom s first = some s') : M.AlwaysFrom P s' second := by
  induction first generalizing s with
  | nil => exact Option.some.inj hrun ▸ h
  | cons a acts ih =>
      rw [runFrom_cons] at hrun
      obtain ⟨mid, hmid, hrest⟩ := Option.bind_eq_some_iff.mp hrun
      exact ih (h.2 mid hmid) hrest

/-- An unguarded invariant holds in the state every run ends in. -/
theorem run_invariant {I : S → Prop} (hinit : I M.init)
    (hstep : M.Preserves I fun _ _ => True) {acts : List A} {s : S}
    (hrun : M.run acts = some s) : I s := by
  have along : ∀ (acts : List A) (s₀ : S), I s₀ →
      M.runFrom s₀ acts = some s → I s := by
    intro acts
    induction acts with
    | nil =>
        intro s₀ h₀ hs
        exact Option.some.inj hs ▸ h₀
    | cons a acts ih =>
        intro s₀ h₀ hs
        rw [runFrom_cons] at hs
        obtain ⟨mid, hmid, hrest⟩ := Option.bind_eq_some_iff.mp hs
        exact ih mid (hstep h₀ trivial hmid) hrest
  exact along acts M.init hinit hrun

/-- A run all of whose actions meet the guard stays inside the property. -/
theorem alwaysFrom_of_eachFrom {I P : S → Prop} {C : S → A → Prop}
    (hstep : M.Preserves I C) (hsafe : ∀ s, I s → P s)
    {s : S} {acts : List A} (hs : I s) (heach : M.EachFrom C s acts) :
    M.AlwaysFrom P s acts := by
  induction acts generalizing s with
  | nil => exact hsafe s hs
  | cons a acts ih =>
      refine ⟨hsafe s hs, fun s' hs' => ?_⟩
      obtain ⟨hguard, hrest⟩ := heach s' hs'
      exact ih (hstep hs hguard hs') hrest

/-- If every enabled action that breaks the guard leaves the property at
once, a run inside the property has met the guard at every action. -/
theorem eachFrom_of_alwaysFrom {I P : S → Prop} {C : S → A → Prop}
    (hstep : M.Preserves I C)
    (hbreak : ∀ {s s' : S} {a : A}, I s → M.step s a = some s' →
      ¬ C s a → ¬ P s')
    {s : S} {acts : List A} (hs : I s) (halways : M.AlwaysFrom P s acts) :
    M.EachFrom C s acts := by
  induction acts generalizing s with
  | nil => trivial
  | cons a acts ih =>
      intro s' hs'
      have htail := halways.2 s' hs'
      have hguard : C s a := by
        by_contra hnot
        exact hbreak hs hs' hnot htail.head
      exact ⟨hguard, ih (hstep hs hguard hs') htail⟩

/-- The exactness rule: when the guard preserves an invariant inside the
property and every breach of it leaves the property, the runs inside the
property are exactly the runs that meet the guard. -/
theorem always_iff_each {I P : S → Prop} {C : S → A → Prop}
    (hinit : I M.init) (hstep : M.Preserves I C) (hsafe : ∀ s, I s → P s)
    (hbreak : ∀ {s s' : S} {a : A}, I s → M.step s a = some s' →
      ¬ C s a → ¬ P s') (acts : List A) :
    M.Always P acts ↔ M.Each C acts :=
  ⟨M.eachFrom_of_alwaysFrom hstep hbreak hinit,
    M.alwaysFrom_of_eachFrom hstep hsafe hinit⟩

/-- Guards that agree on the steps out of an invariant hold of the same
runs. -/
theorem each_congr {I : S → Prop} {C D : S → A → Prop} (hinit : I M.init)
    (hstep : M.Preserves I fun _ _ => True)
    (hiff : ∀ {s s' : S} {a : A}, I s → M.step s a = some s' →
      (C s a ↔ D s a)) (acts : List A) :
    M.Each C acts ↔ M.Each D acts := by
  have along : ∀ (acts : List A) (s : S), I s →
      (M.EachFrom C s acts ↔ M.EachFrom D s acts) := by
    intro acts
    induction acts with
    | nil => exact fun s _ => Iff.rfl
    | cons a acts ih =>
        intro s hs
        refine forall_congr' fun s' => forall_congr' fun hs' => ?_
        exact and_congr (hiff hs hs') (ih s' (hstep hs trivial hs'))
  exact along acts M.init hinit

/-- The state a guarded run ends in satisfies the invariant. -/
theorem runFrom_invariant_of_each {I : S → Prop} {C : S → A → Prop}
    (hstep : M.Preserves I C) {s s' : S} {acts : List A} (hs : I s)
    (heach : M.EachFrom C s acts) (hrun : M.runFrom s acts = some s') :
    I s' := by
  have halways := M.alwaysFrom_of_eachFrom hstep (fun _ h => h) hs heach
  exact M.alwaysFrom_iff.mp halways acts s' List.prefix_rfl hrun

theorem always_of_invariant {I P : S → Prop} (hinit : I M.init)
    (hstep : M.Preserves I fun _ _ => True) (hsafe : ∀ s, I s → P s)
    (acts : List A) : M.Always P acts := by
  refine M.alwaysFrom_iff.mpr fun pre s' _ hrun => hsafe s' ?_
  exact M.run_invariant hinit hstep hrun

/-- Where every step lowers a rank, a run is no longer than the rank it starts
with. -/
theorem length_add_rank_le {rank : S → Nat}
    (hlowers : ∀ {s s' : S} {a : A}, M.step s a = some s' → rank s' < rank s)
    {s s' : S} {acts : List A} (hrun : M.runFrom s acts = some s') :
    acts.length + rank s' ≤ rank s := by
  induction acts generalizing s with
  | nil =>
      obtain rfl := Option.some.inj hrun
      rw [List.length_nil, Nat.zero_add]
  | cons a acts ih =>
      rw [runFrom_cons] at hrun
      obtain ⟨mid, hmid, hrest⟩ := Option.bind_eq_some_iff.mp hrun
      have hlower := hlowers hmid
      have hlength := ih hrest
      rw [List.length_cons]
      omega

/-- `M` simulates its abstraction in `N`: out of a state satisfying `I`, a
step that meets `C` is matched by the run of its labels between the
abstractions of its ends, and each of these meets `D`. -/
def Simulates {T : Type w} {B : Type x} (N : StepSystem T B) (abs : S → T)
    (label : A → List B) (I : S → Prop) (C : S → A → Prop)
    (D : T → B → Prop) : Prop :=
  ∀ {s s' : S} {a : A}, I s → C s a → M.step s a = some s' →
    N.runFrom (abs s) (label a) = some (abs s') ∧
      N.EachFrom D (abs s) (label a)

/-- A step that is matched by one step. -/
theorem matched_by_step {D : S → A → Prop} {s s' : S} {a : A}
    (hstep : M.step s a = some s') (h : D s a) :
    M.runFrom s [a] = some s' ∧ M.EachFrom D s [a] :=
  ⟨(M.runFrom_singleton s a).trans hstep, M.eachFrom_singleton h⟩

/-- A step that is matched by none. -/
theorem matched_by_none {D : S → A → Prop} {s s' : S} (h : s' = s) :
    M.runFrom s [] = some s' ∧ M.EachFrom D s [] :=
  ⟨congrArg some h.symm, trivial⟩

section Simulation

variable {M} {T : Type w} {B : Type x} {N : StepSystem T B} {abs : S → T}
  {label : A → List B} {I : S → Prop} {C : S → A → Prop} {D : T → B → Prop}

/-- An invariant of the abstract system is one of the simulating system. -/
theorem Simulates.preserves (hsim : M.Simulates N abs label I C D)
    (hI : M.Preserves I C) {J : T → Prop} (hJ : N.Preserves J D) :
    M.Preserves (fun s => I s ∧ J (abs s)) C := by
  rintro s s' a ⟨hIs, hJs⟩ hguard hstep
  obtain ⟨hrun, heach⟩ := hsim hIs hguard hstep
  exact ⟨hI hIs hguard hstep,
    N.runFrom_invariant_of_each hJ hJs heach hrun⟩

/-- Every guarded run is matched by the guarded run of its labels. -/
theorem Simulates.runFrom (hsim : M.Simulates N abs label I C D)
    (hI : M.Preserves I C) {s s' : S} {acts : List A} (hs : I s)
    (heach : M.EachFrom C s acts) (hrun : M.runFrom s acts = some s') :
    N.runFrom (abs s) (acts.flatMap label) = some (abs s') ∧
      N.EachFrom D (abs s) (acts.flatMap label) := by
  induction acts generalizing s with
  | nil =>
      obtain rfl := Option.some.inj hrun
      exact ⟨rfl, trivial⟩
  | cons a acts ih =>
      rw [runFrom_cons] at hrun
      obtain ⟨mid, hmid, hrest⟩ := Option.bind_eq_some_iff.mp hrun
      obtain ⟨hguard, heachRest⟩ := heach mid hmid
      obtain ⟨hlabels, hD⟩ := hsim hs hguard hmid
      obtain ⟨hlabelsRest, hDRest⟩ := ih (hI hs hguard hmid) heachRest hrest
      rw [List.flatMap_cons, runFrom_append, hlabels]
      refine ⟨hlabelsRest, N.eachFrom_append.mpr ⟨hD, fun t ht => ?_⟩⟩
      have hsame : abs mid = t := Option.some.inj (hlabels.symm.trans ht)
      exact hsame ▸ hDRest

/-- The same for runs from the initial states. -/
theorem Simulates.run (hsim : M.Simulates N abs label I C D)
    (hI : M.Preserves I C) (hinit : I M.init) (habs : abs M.init = N.init)
    {acts : List A} {s : S} (heach : M.Each C acts)
    (hrun : M.run acts = some s) :
    N.run (acts.flatMap label) = some (abs s) ∧
      N.Each D (acts.flatMap label) := by
  have hmatch := hsim.runFrom hI hinit heach hrun
  rwa [habs] at hmatch

end Simulation

/-- Some run leads from the state to one with the property. -/
def Reaches (P : S → Prop) (s : S) : Prop :=
  ∃ acts s', M.runFrom s acts = some s' ∧ P s'

theorem reaches_self {P : S → Prop} {s : S} (h : P s) : M.Reaches P s :=
  ⟨[], s, rfl, h⟩

theorem reaches_of_step {P : S → Prop} {s s' : S} (a : A)
    (hstep : M.step s a = some s') (h : P s') : M.Reaches P s :=
  ⟨[a], s', (M.runFrom_singleton s a).trans hstep, h⟩

/-- What is reached if the invariant leaves a step towards it wherever it is
not reached yet, each with fewer left to take. -/
theorem reaches_of_progress {I P : S → Prop} (rank : S → Nat)
    (hprogress : ∀ s, I s → P s ∨
      ∃ a s', M.step s a = some s' ∧ I s' ∧ rank s' < rank s)
    {s : S} (hs : I s) : M.Reaches (fun s' => I s' ∧ P s') s := by
  induction hrank : rank s using Nat.strong_induction_on generalizing s with
  | h n ih =>
      rcases hprogress s hs with hdone | ⟨a, s', hstep, hs', hless⟩
      · exact M.reaches_self ⟨hs, hdone⟩
      · obtain ⟨acts, t, hrun, ht⟩ := ih (rank s') (hrank ▸ hless) hs' rfl
        refine ⟨a :: acts, t, ?_, ht⟩
        rw [runFrom_cons, hstep]
        exact hrun

/-- `N` keeps up with `M`: between states that `R` relates, every step of `M`
is matched by some run of `N`. -/
def FollowedBy {T : Type w} {B : Type x} (N : StepSystem T B)
    (R : S → T → Prop) : Prop :=
  ∀ {s s' : S} {t : T} {a : A}, R s t → M.step s a = some s' →
    N.Reaches (R s') t

section Following

variable {M} {T : Type w} {B : Type x} {N : StepSystem T B} {R : S → T → Prop}

theorem FollowedBy.runFrom (h : M.FollowedBy N R) {s s' : S} {t : T}
    {acts : List A} (hR : R s t) (hrun : M.runFrom s acts = some s') :
    N.Reaches (R s') t := by
  induction acts generalizing s t with
  | nil =>
      obtain rfl := Option.some.inj hrun
      exact N.reaches_self hR
  | cons a acts ih =>
      rw [runFrom_cons] at hrun
      obtain ⟨mid, hmid, hrest⟩ := Option.bind_eq_some_iff.mp hrun
      obtain ⟨first, t₁, hfirst, hR₁⟩ := h hR hmid
      obtain ⟨second, t₂, hsecond, hR₂⟩ := ih hR₁ hrest
      refine ⟨first ++ second, t₂, ?_, hR₂⟩
      rw [runFrom_append, hfirst]
      exact hsecond

/-- Every run leads to a state that is related to one of a run of `N`. -/
theorem FollowedBy.run (h : M.FollowedBy N R) (hinit : R M.init N.init)
    {acts : List A} {s : S} (hrun : M.run acts = some s) :
    N.Reaches (R s) N.init :=
  h.runFrom hinit hrun

end Following

end StepSystem
