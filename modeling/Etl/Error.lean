import Mathlib.Data.Nat.Notation

/-! # Errors

The error value every fallible function of the pipeline returns: a kind used for
classification, a static description and an optional detail. Source error chains and
backtraces are diagnostics that no modelled function reads.

Reference: `etl/src/error.rs`.
-/

namespace Etl

open List

/-- Classification of an error, by functional area and failure mode. -/
inductive ErrorKind where
  -- connection
  | sourceConnectionFailed | destinationConnectionFailed
  -- query and execution
  | sourceQueryFailed | destinationQueryFailed | destinationAtomicBatchRetryable
  | sourceLockTimeout | destinationTimeout | sourceOperationCanceled
  -- schema
  | sourceSchemaError | missingTableSchema | corruptedTableSchema | destinationTableNameInvalid
  | destinationNamespaceAlreadyExists | destinationTableAlreadyExists
  | destinationNamespaceMissing | destinationTableMissing
  -- data and transformation
  | conversionError | invalidData | validationError
  | nullValuesNotSupportedInArrayInDestination | unsupportedValueInDestination
  -- configuration and limits
  | configError | sourceConfigurationLimitExceeded
  -- IO and serialization
  | ioError | sourceIoError | destinationIoError | serializationError | deserializationError
  -- security and authentication
  | encryptionError | sourceAuthenticationError | destinationAuthenticationError
  | permissionDenied
  -- state and workflow
  | invalidState | applyWorkerPanic | applyWorkerCancelled | tableSyncWorkerPanic
  | tableSyncWorkerCancelled | stateRollbackError
  -- replication
  | replicationSlotNotFound | replicationSlotAlreadyExists | replicationSlotNotCreated
  | replicationSlotInvalidated | replicationSlotDeletionTimeout | sourceSnapshotTooOld
  | sourceDatabaseInRecovery | sourceDatabaseShutdown
  -- general
  | sourceError | destinationError | unknown
  deriving DecidableEq, Repr

/-- A single error with its kind, description and optional detail. -/
structure EtlError where
  kind : ErrorKind
  description : String
  detail : Option String := none
  deriving DecidableEq, Repr

/-- The result type of fallible pipeline functions. -/
abbrev EtlResult (α : Type) : Type := Except EtlError α

/-- Stops with an error that has no detail. -/
def bail {α : Type} (kind : ErrorKind) (description : String) : EtlResult α :=
  .error { kind, description }

/-- Stops with an error that has a detail. -/
def bailWith {α : Type} (kind : ErrorKind) (description detail : String) : EtlResult α :=
  .error { kind, description, detail := some detail }

variable {α β : Type} {kind : ErrorKind} {g : α → β} {x : EtlResult α} {b : β}

theorem bind_eq_ok_iff {f : α → EtlResult β} :
    (x >>= f) = .ok b ↔ ∃ a, x = .ok a ∧ f a = .ok b := by
  cases x with
  | error e | ok a => simp [bind, Except.bind]

theorem map_eq_ok_iff {f : α → β} :
    f <$> x = .ok b ↔ ∃ a, x = .ok a ∧ f a = b := by
  cases x with
  | error e | ok a => simp [Functor.map, Except.map]

theorem ok_bind {ε α β : Type} (a : α) (f : α → Except ε β) : (Except.ok a >>= f) = f a := rfl

@[simp]
theorem bail_ne_ok {α : Type} {description : String} {a : α} :
    bail kind description ≠ .ok a := by
  simp [bail]

@[simp]
theorem bailWith_ne_ok {α : Type} {description detail : String} {a : α} :
    bailWith kind description detail ≠ .ok a := by
  simp [bailWith]

theorem mapM_eq_ok {f : α → EtlResult β} {xs : List α} (hf : ∀ x ∈ xs, f x = .ok (g x)) :
    xs.mapM f = .ok (xs.map g) := by
  induction xs with
  | nil => rfl
  | cons x xs ih =>
    rw [mapM_cons, hf x mem_cons_self, ih fun y hy => hf y (mem_cons_of_mem x hy)]
    rfl

/-- The invariant rule for a fold that may fail. -/
theorem foldlM_invariant {f : β → α → EtlResult β} {P : β → Prop} {b' : β}
    (hstep : ∀ b x b', P b → f b x = .ok b' → P b') {xs : List α} (hb : P b)
    (h : xs.foldlM f b = .ok b') : P b' := by
  induction xs generalizing b with
  | nil => exact Except.ok.inj h ▸ hb
  | cons x xs ih =>
    obtain ⟨b₁, hx, hrest⟩ := bind_eq_ok_iff.mp h
    exact ih (hstep b x b₁ hb hx) hrest

theorem exists_mapM_eq_ok_iff {f : α → EtlResult β} {xs : List α} :
    (∃ ys, xs.mapM f = .ok ys) ↔ ∀ x ∈ xs, ∃ y, f x = .ok y := by
  induction xs with
  | nil => exact ⟨fun _ => by simp, fun _ => ⟨[], rfl⟩⟩
  | cons x xs ih =>
    rw [forall_mem_cons, ← ih]
    constructor
    · rintro ⟨ys, hys⟩
      rw [mapM_cons] at hys
      obtain ⟨y, hy, hrest⟩ := bind_eq_ok_iff.mp hys
      obtain ⟨rest, hrest, -⟩ := bind_eq_ok_iff.mp hrest
      exact ⟨⟨y, hy⟩, rest, hrest⟩
    · rintro ⟨⟨y, hy⟩, rest, hrest⟩
      refine ⟨y :: rest, ?_⟩
      rw [mapM_cons, hy, hrest]
      rfl

/-- Sequencing over a list returns what it returns with other steps that are known to agree. -/
theorem mapM_eq_ok_of_imp {f g : α → EtlResult β} {xs : List α} {ys : List β}
    (hfg : ∀ x ∈ xs, ∀ y, f x = .ok y → g x = .ok y) (hys : xs.mapM f = .ok ys) :
    xs.mapM g = .ok ys := by
  induction xs generalizing ys with
  | nil => exact hys
  | cons x xs ih =>
    rw [mapM_cons] at hys ⊢
    obtain ⟨y, hy, hys⟩ := bind_eq_ok_iff.mp hys
    obtain ⟨rest, hrest, hys⟩ := bind_eq_ok_iff.mp hys
    rw [hfg x mem_cons_self y hy, ok_bind,
      ih (fun x' hx' => hfg x' (mem_cons_of_mem x hx')) hrest, ok_bind, hys]

/-- What holds of the results of sequencing over a list, when it is known for every step that
succeeds. -/
theorem map_eq_map_of_mapM_eq_ok {α β γ : Type} {f : α → EtlResult β} {g : α → γ} {h : β → γ}
    {xs : List α} {ys : List β} (hf : ∀ x ∈ xs, ∀ y, f x = .ok y → h y = g x)
    (hys : xs.mapM f = .ok ys) : ys.map h = xs.map g := by
  induction xs generalizing ys with
  | nil =>
    cases hys
    rfl
  | cons x xs ih =>
    rw [mapM_cons] at hys
    obtain ⟨y, hy, hys⟩ := bind_eq_ok_iff.mp hys
    obtain ⟨rest, hrest, hys⟩ := bind_eq_ok_iff.mp hys
    cases hys
    rw [map_cons, map_cons, hf x mem_cons_self y hy,
      ih (fun x' hx' => hf x' (mem_cons_of_mem x hx')) hrest]

/-- What sequencing over a list returns, when it is known for every step that succeeds. -/
theorem eq_map_of_mapM_eq_ok {f : α → EtlResult β} {xs : List α} {ys : List β}
    (hf : ∀ x ∈ xs, ∀ y, f x = .ok y → y = g x) (hys : xs.mapM f = .ok ys) :
    ys = xs.map g := by
  rw [← map_eq_map_of_mapM_eq_ok (h := id) hf hys, map_id]

end Etl
