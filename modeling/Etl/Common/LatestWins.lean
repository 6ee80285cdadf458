import Mathlib.Data.List.Induction
import Mathlib.Data.List.Pairwise
import Mathlib.Order.Lattice

/-! # Logs in which the latest write wins

A log is a list of writes to keys, each with a version and a value or a deletion. What is visible
under a key is what the write with the greatest version says; of equal versions the later write
counts. Read in order of their versions, the writes are updates of a map
(`visible_eq_foldl_update`). A log that agrees on equal versions shows the same when any of its
writes are delivered again, in any order (`visible_append_of_subset`).
-/

/-- A write: a value under a key, or the deletion of the key. -/
structure Write (κ ν β : Type*) where
  key : κ
  version : ν
  value : Option β
  deriving DecidableEq, Repr

namespace Write

open List

variable {κ ν β : Type*} [DecidableEq κ] [LinearOrder ν]

/-- Keeps the better of two writes to a key. -/
def better (k : κ) (best : Option (Write κ ν β)) (write : Write κ ν β) : Option (Write κ ν β) :=
  if write.key = k ∧ ∀ w ∈ best, w.version ≤ write.version then some write else best

/-- The write that counts for a key. -/
def winner (log : List (Write κ ν β)) (k : κ) : Option (Write κ ν β) := log.foldl (better k) none

/-- What is visible under a key. -/
def visible (log : List (Write κ ν β)) (k : κ) : Option β := (winner log k).bind value

/-- The map after a write. -/
def update (map : κ → Option β) (write : Write κ ν β) : κ → Option β :=
  Function.update map write.key write.value

/-! ## The write that counts -/

variable {log again : List (Write κ ν β)} {w : Write κ ν β} {k : κ}

theorem winner_concat (log : List (Write κ ν β)) (w : Write κ ν β) (k : κ) :
    winner (log ++ [w]) k = better k (winner log k) w := by
  rw [winner, foldl_append]
  rfl

/-- No write counts when there is none to the key. -/
theorem winner_eq_none_iff : winner log k = none ↔ ∀ w ∈ log, w.key ≠ k := by
  induction log using List.reverseRecOn with
  | nil => simp [winner]
  | append_singleton log last ih =>
    rw [winner_concat, better]
    constructor
    · intro hnone w hw hkey
      split_ifs at hnone with hbetter
      have hlog := ih.mp hnone
      obtain hw | hw := mem_append.mp hw
      · exact hlog w hw hkey
      · obtain rfl := mem_singleton.mp hw
        exact hbetter ⟨hkey, by simp [hnone]⟩
    · intro hlog
      rw [if_neg fun hbetter => hlog last (by simp) hbetter.1]
      exact ih.mpr fun w hw => hlog w (mem_append_left _ hw)

/-- The write that counts is a write to the key, and none to the key has a greater version. -/
theorem winner_spec (hw : winner log k = some w) :
    w ∈ log ∧ w.key = k ∧ ∀ v ∈ log, v.key = k → v.version ≤ w.version := by
  induction log using List.reverseRecOn generalizing w with
  | nil => cases hw
  | append_singleton log last ih =>
    rw [winner_concat, better] at hw
    split_ifs at hw with hbetter
    · -- The last write beats what counted before it.
      cases hw
      refine ⟨by simp, hbetter.1, fun v hv hkey => ?_⟩
      obtain hv | hv := mem_append.mp hv
      · cases hwinner : winner log k with
        | none => exact absurd hkey (winner_eq_none_iff.mp hwinner v hv)
        | some best => exact le_trans ((ih hwinner).2.2 v hv hkey) (hbetter.2 best hwinner)
      · rw [mem_singleton.mp hv]
    · obtain ⟨hmem, hkey, hmax⟩ := ih hw
      refine ⟨mem_append_left _ hmem, hkey, fun v hv hvkey => ?_⟩
      obtain hv | hv := mem_append.mp hv
      · exact hmax v hv hvkey
      · obtain rfl := mem_singleton.mp hv
        by_contra hlt
        refine hbetter ⟨hvkey, fun best hbest => ?_⟩
        rw [hw] at hbest
        cases hbest
        exact le_of_lt (not_le.mp hlt)

/-! ## Writes in order of their versions -/

theorem visible_concat (hlatest : ∀ v ∈ log, v.version ≤ w.version) :
    visible (log ++ [w]) = update (visible log) w := by
  funext k
  rw [visible, winner_concat, better, update]
  by_cases hkey : w.key = k
  · subst hkey
    rw [if_pos ⟨rfl, fun best hbest => hlatest best (winner_spec hbest).1⟩, Function.update_self]
    rfl
  · rw [if_neg fun h => hkey h.1, Function.update_of_ne (Ne.symm hkey)]
    rfl

/-- Writes in order of their versions update what is visible one after the other. -/
theorem visible_eq_foldl_update (hsorted : log.Pairwise fun v w => v.version ≤ w.version) :
    visible log = log.foldl update fun _ => none := by
  induction log using List.reverseRecOn with
  | nil => rfl
  | append_singleton log last ih =>
    obtain ⟨hlog, -, hlast⟩ := pairwise_append.mp hsorted
    rw [visible_concat fun v hv => hlast v hv last mem_cons_self, ih hlog, foldl_append]
    rfl

/-! ## Repeated writes -/

/-- Writes of the same version to a key say the same. -/
def Agrees (log : List (Write κ ν β)) : Prop :=
  ∀ v ∈ log, ∀ w ∈ log, v.key = w.key → v.version = w.version → v.value = w.value

omit [DecidableEq κ] in
/-- A log agrees when its versions increase, except between different keys. -/
theorem agrees_of_pairwise
    (hlog : log.Pairwise fun v w => v.key = w.key → v.version < w.version) : Agrees log := by
  have hagrees : log.Pairwise fun v w =>
      v.key = w.key → v.version = w.version → v.value = w.value := by
    refine hlog.imp fun h hkey hversion => ?_
    exact absurd hversion (ne_of_lt (h hkey))
  have hsymm : Std.Symm fun v w : Write κ ν β =>
      v.key = w.key → v.version = w.version → v.value = w.value :=
    ⟨fun _ _ h hkey hversion => (h hkey.symm hversion.symm).symm⟩
  intro v hv w hw
  exact List.Pairwise.forall_of_forall (fun _ _ _ _ => rfl) hagrees hv hw

theorem visible_eq_of_mem_iff (hagrees : Agrees log) (hmem : ∀ w, w ∈ again ↔ w ∈ log) :
    visible again = visible log := by
  funext k
  rw [visible, visible]
  cases hagain : winner again k with
  | none =>
    have hnone : winner log k = none :=
      winner_eq_none_iff.mpr fun w hw => winner_eq_none_iff.mp hagain w ((hmem w).mpr hw)
    rw [hnone]
  | some v =>
    obtain ⟨hv, hvkey, hvmax⟩ := winner_spec hagain
    cases hlog : winner log k with
    | none => exact absurd hvkey (winner_eq_none_iff.mp hlog v ((hmem v).mp hv))
    | some w =>
      obtain ⟨hw, hwkey, hwmax⟩ := winner_spec hlog
      have hversion : v.version = w.version :=
        le_antisymm (hwmax v ((hmem v).mp hv) hvkey) (hvmax w ((hmem w).mpr hw) hwkey)
      exact hagrees v ((hmem v).mp hv) w hw (hvkey.trans hwkey.symm) hversion

/-- Delivering writes again changes nothing. -/
theorem visible_append_of_subset (hagrees : Agrees log) (hagain : again ⊆ log) :
    visible (log ++ again) = visible log := by
  refine visible_eq_of_mem_iff hagrees fun w => ?_
  rw [mem_append]
  exact or_iff_left_of_imp fun hw => hagain hw

end Write
