import Etl.Destinations.BigQuery.TableId
import Mathlib.Data.List.Infix
import Mathlib.Data.Nat.Digits.Defs

/-! # The names of replication slots

The apply worker and each table-sync worker of a pipeline have a replication slot that is named
after them, with the identifiers in decimal. Names are within the limit of Postgres and are parsed
back to their slots; the `LIKE` pattern for a pipeline matches the names of its table-sync slots and
no others (`slot_names`).

Reference: `etl-postgres/src/replication/slots.rs` (`EtlReplicationSlot`).
-/

namespace Etl

open List BigQuery

def MAX_SLOT_NAME_LENGTH : ℕ := 63

def APPLY_WORKER_PREFIX : String := "supabase_etl_apply"

def TABLE_SYNC_WORKER_PREFIX : String := "supabase_etl_table_sync"

inductive EtlReplicationSlotError where
  | invalidSlotNameLength (name : String)
  | invalidSlotName (name : String)

inductive EtlReplicationSlot where
  | apply (pipelineId : UInt64)
  | tableSync (pipelineId : UInt64) (tableId : UInt32)

namespace EtlReplicationSlot

def slotName : EtlReplicationSlot → String
  | apply pipelineId => APPLY_WORKER_PREFIX ++ "_" ++ pipelineId.toNat.repr
  | tableSync pipelineId tableId =>
    TABLE_SYNC_WORKER_PREFIX ++ "_" ++ pipelineId.toNat.repr ++ "_" ++ tableId.toNat.repr

/-- The name of a slot, if it is short enough; it has a byte for each character. -/
def tryIntoString (slot : EtlReplicationSlot) : Except EtlReplicationSlotError String :=
  if slot.slotName.length > MAX_SLOT_NAME_LENGTH then
    .error (.invalidSlotNameLength slot.slotName)
  else .ok slot.slotName

def parseU32 (chars : List Char) : Option UInt32 :=
  ((parseU64 chars).toOption.filter (·.toNat < 2 ^ 32)).map UInt64.toUInt32

/-- Parses the name of a slot. -/
def tryFrom (slotName : String) : Except EtlReplicationSlotError EtlReplicationSlot :=
  let slot : Option EtlReplicationSlot :=
    match isPrefixOf? APPLY_WORKER_PREFIX.toList slotName.toList with
    | some ('_' :: rest) => (parseU64 rest).toOption.map apply
    | some _ => none
    | none => do
      let '_' :: rest ← isPrefixOf? TABLE_SYNC_WORKER_PREFIX.toList slotName.toList | none
      let (pipelineId, tableId) ← splitLastUnderscore rest
      return tableSync (← (parseU64 pipelineId).toOption) (← parseU32 tableId)
  slot.elim (.error (.invalidSlotName slotName)) .ok

def tablePrefix (pipelineId : UInt64) : String :=
  TABLE_SYNC_WORKER_PREFIX ++ "_" ++ pipelineId.toNat.repr ++ "_"

def tableSyncPrefix (pipelineId : UInt64) : Except EtlReplicationSlotError String :=
  if (tablePrefix pipelineId).length ≥ MAX_SLOT_NAME_LENGTH then
    .error (.invalidSlotNameLength (tablePrefix pipelineId))
  else .ok (tablePrefix pipelineId)

end EtlReplicationSlot

def tableSyncLikePattern (pipelineId : UInt64) : Except EtlReplicationSlotError (List Char) := do
  let tablePrefix ← EtlReplicationSlot.tableSyncPrefix pipelineId
  return (tablePrefix.toList.flatMap fun c => if c = '_' then ['\\', '_'] else [c]) ++ ['%']

/-- Whether a text matches a pattern of `LIKE` with the backslash as escape. -/
def like : List Char → List Char → Bool
  | [], text => text.isEmpty
  | '%' :: pattern, text => text.tails.any (like pattern)
  | '\\' :: c :: pattern, d :: text => c = d && like pattern text
  | '_' :: pattern, _ :: text => like pattern text
  | c :: pattern, d :: text => c = d && like pattern text
  | _ :: _, [] => false

/-- An escaped text matches what it starts. -/
theorem like_escaped_iff {literal text : List Char}
    (hplain : ∀ c ∈ literal, c ≠ '%' ∧ c ≠ '\\') :
    like ((literal.flatMap fun c => if c = '_' then ['\\', '_'] else [c]) ++ ['%']) text = true ↔
      literal <+: text := by
  induction literal generalizing text with
  | nil => simp [like]
  | cons c literal ih =>
    obtain ⟨⟨hpercent, hescape⟩, hplain⟩ := forall_mem_cons.mp hplain
    rw [flatMap_cons]
    cases text with
    | nil => split_ifs <;> simp [like]
    | cons d text =>
      rw [cons_prefix_cons, ← ih hplain]
      split_ifs with hc <;> simp [like, hescape, hc]

namespace EtlReplicationSlot

theorem toList_slotName_tableSync (pipelineId : UInt64) (tableId : UInt32) :
    (tableSync pipelineId tableId).slotName.toList = TABLE_SYNC_WORKER_PREFIX.toList ++
      '_' :: (Nat.toDigits 10 pipelineId.toNat ++ '_' :: Nat.toDigits 10 tableId.toNat) := by
  simp [slotName]

theorem parseU32_toDigits (number : UInt32) :
    parseU32 (Nat.toDigits 10 number.toNat) = some number := by
  have h := parseU64_toDigits number.toUInt64
  rw [UInt32.toNat_toUInt64] at h
  simp [parseU32, h, Except.toOption, number.toNat_lt]

theorem tryFrom_slotName (slot : EtlReplicationSlot) : tryFrom slot.slotName = .ok slot := by
  cases slot with
  | apply pipelineId =>
    have hname : (apply pipelineId).slotName.toList =
        APPLY_WORKER_PREFIX.toList ++ '_' :: Nat.toDigits 10 pipelineId.toNat := by
      simp [slotName]
    simp only [tryFrom, isPrefixOf?_eq_some_iff_append_eq.mpr hname.symm, parseU64_toDigits]
    rfl
  | tableSync pipelineId tableId =>
    have hname := toList_slotName_tableSync pipelineId tableId
    have hother : isPrefixOf? APPLY_WORKER_PREFIX.toList
        (tableSync pipelineId tableId).slotName.toList = none := by
      rw [hname]
      rfl
    simp only [tryFrom, hother, isPrefixOf?_eq_some_iff_append_eq.mpr hname.symm,
      Option.bind_eq_bind, Option.bind_some, parseU64_toDigits, parseU32_toDigits,
      splitLastUnderscore_append Nat.underscore_not_in_toDigits]
    rfl

theorem toList_tablePrefix (pipelineId : UInt64) : (tablePrefix pipelineId).toList =
    TABLE_SYNC_WORKER_PREFIX.toList ++ '_' :: (Nat.toDigits 10 pipelineId.toNat ++ ['_']) := by
  simp [tablePrefix]

/-- Names and prefixes are short: the identifiers have at most 20 and 10 digits. -/
theorem lengths (pipelineId : UInt64) (tableId : UInt32) :
    (apply pipelineId).slotName.length ≤ 63 ∧ (tableSync pipelineId tableId).slotName.length ≤ 63 ∧
      (tablePrefix pipelineId).length < MAX_SLOT_NAME_LENGTH := by
  have hid := Nat.repr_length _ 20 (by decide) (pipelineId.toNat_lt.trans (by decide))
  have htable := Nat.repr_length _ 10 (by decide) (tableId.toNat_lt.trans (by decide))
  simp only [slotName, tablePrefix, MAX_SLOT_NAME_LENGTH, String.length_append,
    show APPLY_WORKER_PREFIX.length = 18 from rfl, show TABLE_SYNC_WORKER_PREFIX.length = 23 from rfl,
    show "_".length = 1 from rfl]
  omega

theorem length_slotName_le (slot : EtlReplicationSlot) :
    slot.slotName.length ≤ MAX_SLOT_NAME_LENGTH := by
  cases slot with
  | apply pipelineId => exact (lengths pipelineId 0).1
  | tableSync pipelineId tableId => exact (lengths pipelineId tableId).2.1

/-- A name starts with the prefix of a pipeline exactly for the table-sync slots of the pipeline. -/
theorem tablePrefix_prefix_iff (slot : EtlReplicationSlot) (pipelineId : UInt64) :
    (tablePrefix pipelineId).toList <+: slot.slotName.toList ↔
      ∃ tableId, slot = tableSync pipelineId tableId := by
  rw [toList_tablePrefix]
  cases slot with
  | apply other =>
    refine iff_of_false ?_ (by simp)
    rintro ⟨rest, hrest⟩
    simp [slotName, TABLE_SYNC_WORKER_PREFIX, APPLY_WORKER_PREFIX] at hrest
  | tableSync other tableId =>
    rw [toList_slotName_tableSync, prefix_append_right_inj, cons_prefix_cons]
    constructor
    · rintro ⟨-, rest, hrest⟩
      rw [append_assoc] at hrest
      have hdigits := ((append_cons_inj_of_notMem Nat.underscore_not_in_toDigits
        Nat.underscore_not_in_toDigits).mp hrest.symm).1
      have hid := congrArg (Nat.ofDigitChars 10 · 0) hdigits
      simp only [Nat.ofDigitChars_ten_toDigits] at hid
      exact ⟨tableId, by rw [UInt64.toNat_inj.mp hid]⟩
    · rintro ⟨_, heq⟩
      cases heq
      exact ⟨rfl, _, append_assoc ..⟩

/-- Every slot has a name that is short enough and is parsed back to it, no other slot has the name,
and the pattern of a pipeline matches it exactly for the table-sync slots of the pipeline. -/
theorem slot_names (slot : EtlReplicationSlot) :
    ∃ name, slot.tryIntoString = .ok name ∧ name.length ≤ MAX_SLOT_NAME_LENGTH ∧
      tryFrom name = .ok slot ∧ (∀ other, other.tryIntoString = .ok name → other = slot) ∧
      ∀ pipelineId, ∃ pattern, tableSyncLikePattern pipelineId = .ok pattern ∧
        (like pattern name.toList = true ↔ ∃ tableId, slot = tableSync pipelineId tableId) := by
  have hname (slot : EtlReplicationSlot) : slot.tryIntoString = .ok slot.slotName :=
    if_neg slot.length_slotName_le.not_gt
  refine ⟨_, hname slot, slot.length_slotName_le, slot.tryFrom_slotName, fun other hother => ?_,
    fun pipelineId => ?_⟩
  · have hparsed := other.tryFrom_slotName
    rw [Except.ok.inj ((hname other).symm.trans hother), slot.tryFrom_slotName] at hparsed
    exact (Except.ok.inj hparsed).symm
  · rw [tableSyncLikePattern, tableSyncPrefix, if_neg (lengths pipelineId 0).2.2.not_ge]
    refine ⟨_, rfl, (like_escaped_iff fun c hc => ?_).trans
      (slot.tablePrefix_prefix_iff pipelineId)⟩
    rw [toList_tablePrefix, mem_append, mem_cons, mem_append, mem_singleton] at hc
    obtain hc | rfl | hc | rfl := hc
    · revert c
      simp [TABLE_SYNC_WORKER_PREFIX]
    · decide
    · have hdigit := Nat.isDigit_of_mem_toDigits (by decide) (by decide) hc
      constructor <;> rintro rfl <;> simp at hdigit
    · decide

end EtlReplicationSlot

end Etl
