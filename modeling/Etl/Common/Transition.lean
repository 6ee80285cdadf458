import Mathlib.Data.List.Induction

/-! # Transition systems

A machine has initial states and a partial step function on labelled events; whatever is
nondeterministic in a system is part of the label. Runs may be restricted to steps that meet
a guard on the state before the step and the event. The one induction over runs is done
here: an invariant that holds initially and is kept by every guarded step holds in every
state such runs reach.
-/

/-- A labelled transition system with a partial step function. -/
structure Machine (S L : Type*) where
  init : S → Prop
  next : S → L → Option S

namespace Machine

variable {S L : Type*} (m : Machine S L)

/-- The states reached by runs whose steps all meet the guard. -/
inductive ReachableUnder (guard : S → L → Prop) : S → Prop
  | init {s : S} : m.init s → ReachableUnder guard s
  | step {s s' : S} {l : L} : ReachableUnder guard s → guard s l → m.next s l = some s' →
      ReachableUnder guard s'

/-- The states reached by arbitrary runs. -/
def Reachable : S → Prop := m.ReachableUnder fun _ _ => True

/-- Executes a list of events. -/
def run : S → List L → Option S
  | s, [] => some s
  | s, l :: ls => (m.next s l).bind fun s' => run s' ls

variable {m}

/-- The invariant rule for guarded runs. -/
theorem ReachableUnder.invariant {guard : S → L → Prop} {I : S → Prop}
    (hinit : ∀ s, m.init s → I s)
    (hstep : ∀ s l s', I s → guard s l → m.next s l = some s' → I s') {s : S}
    (h : m.ReachableUnder guard s) : I s := by
  induction h with
  | init h => exact hinit _ h
  | step _ hguard hnext ih => exact hstep _ _ _ ih hguard hnext

/-- The invariant rule for arbitrary runs. -/
theorem Reachable.invariant {I : S → Prop} (hinit : ∀ s, m.init s → I s)
    (hstep : ∀ s l s', I s → m.next s l = some s' → I s') {s : S} (h : m.Reachable s) : I s :=
  ReachableUnder.invariant hinit (fun s l s' hI _ hnext => hstep s l s' hI hnext) h

/-- Executing events from a reachable state reaches a reachable state. -/
theorem Reachable.run {s s' : S} (h : m.Reachable s) (ls : List L) (hrun : m.run s ls = some s') :
    m.Reachable s' := by
  induction ls generalizing s with
  | nil => exact Option.some.inj hrun ▸ h
  | cons l ls ih =>
    obtain ⟨s₁, hnext, hrest⟩ := Option.bind_eq_some_iff.mp hrun
    exact ih (ReachableUnder.step h trivial hnext) hrest

/-- The machine that takes only steps that meet the guard. -/
def restrict (m : Machine S L) (guard : S → L → Prop) [∀ s l, Decidable (guard s l)] :
    Machine S L where
  init := m.init
  next s l := if guard s l then m.next s l else none

/-- Executing events of the restricted machine is a guarded run. -/
theorem ReachableUnder.run {guard : S → L → Prop} [∀ s l, Decidable (guard s l)] {s s' : S}
    (h : m.ReachableUnder guard s) (ls : List L)
    (hrun : (m.restrict guard).run s ls = some s') : m.ReachableUnder guard s' := by
  induction ls generalizing s with
  | nil => exact Option.some.inj hrun ▸ h
  | cons l ls ih =>
    obtain ⟨s₁, hnext, hrest⟩ := Option.bind_eq_some_iff.mp hrun
    simp only [restrict] at hnext
    split_ifs at hnext with hguard
    exact ih (.step h hguard hnext) hrest

/-- The restricted machine takes no other steps. -/
theorem run_of_restrict {guard : S → L → Prop} [∀ s l, Decidable (guard s l)] {s s' : S}
    {ls : List L} (hrun : (m.restrict guard).run s ls = some s') : m.run s ls = some s' := by
  induction ls generalizing s with
  | nil => exact hrun
  | cons l ls ih =>
    obtain ⟨s₁, hnext, hrest⟩ := Option.bind_eq_some_iff.mp hrun
    simp only [restrict] at hnext
    split_ifs at hnext with hguard
    exact Option.bind_eq_some_iff.mpr ⟨s₁, hnext, ih hrest⟩

theorem run_append (s : S) (ls ls' : List L) :
    m.run s (ls ++ ls') = (m.run s ls).bind (m.run · ls') := by
  induction ls generalizing s with
  | nil => rfl
  | cons l ls ih =>
    simp only [List.cons_append, Machine.run, Option.bind_assoc]
    exact Option.bind_congr fun s' _ => ih s'

theorem run_concat (s : S) (ls : List L) (l : L) :
    m.run s (ls ++ [l]) = (m.run s ls).bind (m.next · l) := by
  rw [run_append]
  exact Option.bind_congr fun s' _ => Option.bind_fun_some (m.next s' l)

/-- The invariant rule for executions, with an invariant that knows the events so far. -/
theorem run_invariant {I : List L → S → Prop} {s₀ : S} (hnil : I [] s₀)
    (hsnoc : ∀ ls s l s', I ls s → m.next s l = some s' → I (ls ++ [l]) s') {ls : List L} {s : S}
    (hrun : m.run s₀ ls = some s) : I ls s := by
  induction ls using List.reverseRecOn generalizing s with
  | nil => exact Option.some.inj hrun ▸ hnil
  | append_singleton ls l ih =>
    rw [run_concat] at hrun
    obtain ⟨s₁, hprev, hnext⟩ := Option.bind_eq_some_iff.mp hrun
    exact hsnoc ls s₁ l s (ih hprev) hnext

end Machine
