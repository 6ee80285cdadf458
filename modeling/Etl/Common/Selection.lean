import Mathlib.Data.Multiset.Bind
import Mathlib.Algebra.Order.BigOperators.Group.Multiset

/-! # Splitting a multiset by selectors

Several selectors each pick the elements they accept from one multiset. Together they return
every element as often as it has selectors: the result is the multiset itself when every element
has one selector, and when no element has two, counting the result already tells whether every
element has one.
-/

namespace Multiset

variable {α β : Type*} (selectors : Multiset β) (accepts : β → α → Bool)

/-- What the selectors return of a multiset. -/
def select (xs : Multiset α) : Multiset α := selectors.bind fun p => xs.filter (accepts p ·)

@[simp]
theorem select_zero : select selectors accepts (0 : Multiset α) = 0 := by
  simp [select]

theorem select_cons (x : α) (xs : Multiset α) :
    select selectors accepts (x ::ₘ xs) =
      replicate (selectors.countP (accepts · x)) x + select selectors accepts xs := by
  have hx : (selectors.bind fun p => if accepts p x then ({x} : Multiset α) else 0) =
      replicate (selectors.countP (accepts · x)) x := by
    induction selectors using Multiset.induction_on with
    | empty => simp
    | cons p ps ih =>
      rw [cons_bind, ih, countP_cons]
      split_ifs with hp
      · rw [Nat.add_comm, replicate_add, replicate_one]
      · rw [zero_add, Nat.add_zero]
  simp [select, filter_cons, hx]

variable {selectors accepts} {xs : Multiset α} {γ : Type*}

theorem select_eq_self (hone : ∀ x ∈ xs, selectors.countP (accepts · x) = 1) :
    select selectors accepts xs = xs := by
  induction xs using Multiset.induction_on with
  | empty => exact select_zero _ _
  | cons x xs ih =>
    rw [select_cons, hone x (mem_cons_self x xs), ih fun y hy => hone y (mem_cons_of_mem hy),
      replicate_one, singleton_add]

theorem card_select_le (hle : ∀ x ∈ xs, selectors.countP (accepts · x) ≤ 1) :
    (select selectors accepts xs).card ≤ xs.card := by
  induction xs using Multiset.induction_on with
  | empty => simp
  | cons x xs ih =>
    rw [select_cons, card_add, card_replicate, card_cons]
    have hx := hle x (mem_cons_self x xs)
    have hxs := ih fun y hy => hle y (mem_cons_of_mem hy)
    omega

/-- Selectors that accept no element twice and return as many elements as there are accept
every element. -/
theorem countP_eq_one_of_card_select (hle : ∀ x ∈ xs, selectors.countP (accepts · x) ≤ 1)
    (hcard : (select selectors accepts xs).card = xs.card) {x : α} (hx : x ∈ xs) :
    selectors.countP (accepts · x) = 1 := by
  obtain ⟨xs, rfl⟩ := exists_cons_of_mem hx
  have hrest : (select selectors accepts xs).card ≤ xs.card :=
    card_select_le fun y hy => hle y (mem_cons_of_mem hy)
  have hfirst := hle x hx
  rw [select_cons, card_add, card_replicate, card_cons] at hcard
  omega

/-- Under any image, selectors that accept no element twice return the whole multiset exactly
when they accept every element. -/
theorem map_select_eq_map_iff (f : α → γ) (hle : ∀ x ∈ xs, selectors.countP (accepts · x) ≤ 1) :
    (select selectors accepts xs).map f = xs.map f ↔
      ∀ x ∈ xs, selectors.countP (accepts · x) = 1 := by
  constructor
  · intro heq x hx
    have hcard := congrArg card heq
    rw [card_map, card_map] at hcard
    exact countP_eq_one_of_card_select hle hcard hx
  · intro hone
    rw [select_eq_self hone]

/-- Under any image, a filter keeps the whole multiset exactly when it accepts every element. -/
theorem map_filter_eq_map_iff (f : α → γ) (p : α → Prop) [DecidablePred p] :
    (xs.filter p).map f = xs.map f ↔ ∀ x ∈ xs, p x := by
  constructor
  · intro heq
    have hcard := congrArg card heq
    rw [card_map, card_map] at hcard
    exact filter_eq_self.mp (eq_of_le_of_card_le (filter_le p xs) hcard.ge)
  · intro hall
    rw [filter_eq_self.mpr hall]

end Multiset
