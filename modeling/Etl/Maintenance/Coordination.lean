import Mathlib.Data.Int.Notation
import Mathlib.Data.Nat.Notation
import Mathlib.Data.Option.Basic
import Mathlib.Tactic.SplitIfs

/-! # Maintenance coordination

The state through which the replicator and an external maintenance job coordinate, and the two
stores that keep it: the status of a Kubernetes resource, which is changed by merge patches, and a row
of a Postgres table. Timestamps are numbers; that they are printed and parsed back is left out, and so
are calls that fail.

The replicator asks for operations by writing a request. The Postgres store adds the operations to
those already requested. The Kubernetes store replaces them, so the two stores agree as long as every
request that is written contains the one before it (`stores_agree_iff`).

Reference: `etl-maintenance/src/coordination.rs` (`request_operations`) and
`coordination/kubernetes.rs`.
-/

namespace Etl.Maintenance

structure ExternalMaintenanceOperations where
  inlineFlush : Bool := false
  mergeAdjacentFiles : Bool := false
  rewriteDataFiles : Bool := false
  expireSnapshots : Bool := false
  cleanupOldFiles : Bool := false
  deriving DecidableEq, Repr

namespace ExternalMaintenanceOperations

/-- Whether all requested operations are among these. -/
def covers (operations requested : ExternalMaintenanceOperations) : Bool :=
  (!requested.inlineFlush || operations.inlineFlush) &&
    (!requested.mergeAdjacentFiles || operations.mergeAdjacentFiles) &&
    (!requested.rewriteDataFiles || operations.rewriteDataFiles) &&
    (!requested.expireSnapshots || operations.expireSnapshots) &&
    (!requested.cleanupOldFiles || operations.cleanupOldFiles)

def merge (operations requested : ExternalMaintenanceOperations) :
    ExternalMaintenanceOperations where
  inlineFlush := operations.inlineFlush || requested.inlineFlush
  mergeAdjacentFiles := operations.mergeAdjacentFiles || requested.mergeAdjacentFiles
  rewriteDataFiles := operations.rewriteDataFiles || requested.rewriteDataFiles
  expireSnapshots := operations.expireSnapshots || requested.expireSnapshots
  cleanupOldFiles := operations.cleanupOldFiles || requested.cleanupOldFiles

/-- A set covers another when the union adds nothing to it. -/
theorem covers_iff_merge_eq (operations requested : ExternalMaintenanceOperations) :
    operations.covers requested = true ↔ requested.merge operations = operations := by
  have himp : ∀ a b : Bool, (!a || b) = true ↔ (a || b) = b := by decide
  cases operations
  simp [covers, merge, himp, and_assoc]

end ExternalMaintenanceOperations

structure ExternalMaintenanceOperationRequest where
  operations : ExternalMaintenanceOperations
  inlineFlushMinInlinedBytes : Option ℕ
  rewriteDataFilesMinActiveDataFiles : Option ℤ
  requestedAt : ℤ
  deriving DecidableEq, Repr

/-- A maintenance run. -/
structure ExternalMaintenanceRun where
  runId : String
  startedAt : Option ℤ
  deriving DecidableEq, Repr

/-- The part of the coordination state that requests look at. -/
structure ExternalMaintenanceState where
  present : Bool := false
  activeRun : Option ExternalMaintenanceRun := none
  operationRequest : Option ExternalMaintenanceOperationRequest := none
  deriving DecidableEq, Repr

def ExternalMaintenanceState.operations (state : ExternalMaintenanceState) :
    ExternalMaintenanceOperations :=
  (state.operationRequest.map (·.operations)).getD {}

/-- What became of a request. -/
inductive ExternalMaintenanceRequestOutcome where
  | created | alreadyCovered | rejectedActiveRun | missingState
  deriving DecidableEq, Repr

/-- What becomes of a request in a state. -/
def ExternalMaintenanceState.outcome (state : ExternalMaintenanceState)
    (request : ExternalMaintenanceOperationRequest) : ExternalMaintenanceRequestOutcome :=
  if !state.present then .missingState
  else if state.activeRun.isSome then .rejectedActiveRun
  else if state.operationRequest.any fun existing =>
      existing.operations.covers request.operations then
    .alreadyCovered
  else .created

/-! ## Kubernetes -/

namespace Kubernetes

/-- The fields of a run in the status of the resource, as far as they have the right type. -/
structure ActiveRunFields where
  runId : Option String
  startedAt : Option ℤ
  deriving DecidableEq, Repr

/-- The fields of a request in the status of the resource, as far as they have the right type. -/
structure OperationRequestFields where
  inlineFlush : Option Bool := none
  mergeAdjacentFiles : Option Bool := none
  rewriteDataFiles : Option Bool := none
  expireSnapshots : Option Bool := none
  cleanupOldFiles : Option Bool := none
  inlineFlushMinInlinedBytes : Option ℕ := none
  rewriteDataFilesMinActiveDataFiles : Option ℤ := none
  requestedAt : Option ℤ := none
  deriving DecidableEq, Repr

/-- The status of the resource. -/
structure ResourceStatus where
  activeRun : Option ActiveRunFields
  operationRequests : Option OperationRequestFields
  deriving DecidableEq, Repr

def activeRun (status : ResourceStatus) : Option ExternalMaintenanceRun := do
  let activeRun ← status.activeRun
  return ⟨← activeRun.runId, activeRun.startedAt⟩

/-- The request in the status; one without a time does not count. -/
def operationRequest (status : ResourceStatus) : Option ExternalMaintenanceOperationRequest := do
  let requests ← status.operationRequests
  return {
    operations := {
      inlineFlush := requests.inlineFlush.getD false
      mergeAdjacentFiles := requests.mergeAdjacentFiles.getD false
      rewriteDataFiles := requests.rewriteDataFiles.getD false
      expireSnapshots := requests.expireSnapshots.getD false
      cleanupOldFiles := requests.cleanupOldFiles.getD false }
    inlineFlushMinInlinedBytes := requests.inlineFlushMinInlinedBytes
    rewriteDataFilesMinActiveDataFiles := requests.rewriteDataFilesMinActiveDataFiles
    requestedAt := ← requests.requestedAt }

/-- The state of the resource, or of a missing one. -/
def loadState : Option ResourceStatus → ExternalMaintenanceState
  | none => {}
  | some status =>
    { present := true
      activeRun := activeRun status
      operationRequest := operationRequest status }

/-- A merge patch of a field: an absent key keeps the field, null removes it. -/
def patchField {α : Type} (field : Option α) : Option (Option α) → Option α
  | none => field
  | some value => value

/-- A merge patch of the fields of a request. -/
structure OperationRequestPatch where
  inlineFlush : Option (Option Bool) := none
  mergeAdjacentFiles : Option (Option Bool) := none
  rewriteDataFiles : Option (Option Bool) := none
  expireSnapshots : Option (Option Bool) := none
  cleanupOldFiles : Option (Option Bool) := none
  inlineFlushMinInlinedBytes : Option (Option ℕ) := none
  rewriteDataFilesMinActiveDataFiles : Option (Option ℤ) := none
  requestedAt : Option (Option ℤ) := none

def OperationRequestFields.mergePatch (fields : OperationRequestFields)
    (patch : OperationRequestPatch) : OperationRequestFields where
  inlineFlush := patchField fields.inlineFlush patch.inlineFlush
  mergeAdjacentFiles := patchField fields.mergeAdjacentFiles patch.mergeAdjacentFiles
  rewriteDataFiles := patchField fields.rewriteDataFiles patch.rewriteDataFiles
  expireSnapshots := patchField fields.expireSnapshots patch.expireSnapshots
  cleanupOldFiles := patchField fields.cleanupOldFiles patch.cleanupOldFiles
  inlineFlushMinInlinedBytes :=
    patchField fields.inlineFlushMinInlinedBytes patch.inlineFlushMinInlinedBytes
  rewriteDataFilesMinActiveDataFiles :=
    patchField fields.rewriteDataFilesMinActiveDataFiles patch.rewriteDataFilesMinActiveDataFiles
  requestedAt := patchField fields.requestedAt patch.requestedAt

def patchStatus (status : ResourceStatus) (patch : OperationRequestPatch) : ResourceStatus :=
  { status with
    operationRequests := some ((status.operationRequests.getD {}).mergePatch patch) }

/-- Asks for operations. -/
def requestOperations (resource : Option ResourceStatus)
    (request : ExternalMaintenanceOperationRequest) :
    ExternalMaintenanceRequestOutcome × Option ResourceStatus :=
  let state := loadState resource
  if !state.present then (.missingState, resource)
  else if state.activeRun.isSome then (.rejectedActiveRun, resource)
  else if state.operationRequest.any fun existing =>
      existing.operations.covers request.operations then
    (.alreadyCovered, resource)
  else
    let patch : OperationRequestPatch := {
      inlineFlush := some (some request.operations.inlineFlush)
      mergeAdjacentFiles := some (some request.operations.mergeAdjacentFiles)
      rewriteDataFiles := some (some request.operations.rewriteDataFiles)
      expireSnapshots := some (some request.operations.expireSnapshots)
      cleanupOldFiles := some (some request.operations.cleanupOldFiles)
      inlineFlushMinInlinedBytes := some request.inlineFlushMinInlinedBytes
      rewriteDataFilesMinActiveDataFiles := some request.rewriteDataFilesMinActiveDataFiles
      requestedAt := some (some request.requestedAt) }
    (.created, resource.map (patchStatus · patch))

/-- A request that is written replaces the one before it. -/
theorem requestOperations_spec (resource : Option ResourceStatus)
    (request : ExternalMaintenanceOperationRequest) :
    (requestOperations resource request).1 = (loadState resource).outcome request ∧
      loadState (requestOperations resource request).2 =
        if (loadState resource).outcome request = .created then
          { loadState resource with operationRequest := some request }
        else loadState resource := by
  cases resource with
  | none => exact ⟨rfl, rfl⟩
  | some status =>
    have hpresent : (loadState (some status)).present = true := rfl
    rw [requestOperations, ExternalMaintenanceState.outcome]
    by_cases hactive : (loadState (some status)).activeRun.isSome = true
    · simp [hpresent, hactive]
    · by_cases hcovered : ((loadState (some status)).operationRequest.any fun existing =>
          existing.operations.covers request.operations) = true
      · simp [hpresent, hactive, hcovered]
      · simp only [hpresent, hactive, hcovered, Bool.not_true, Bool.false_eq_true, if_false,
          true_and]
        rfl

end Kubernetes

/-! ## Postgres -/

namespace Postgres

/-- The row of the pipeline. -/
structure StateRow where
  activeRun : Option ExternalMaintenanceRun
  operationRequest : Option ExternalMaintenanceOperationRequest
  deriving DecidableEq, Repr

def loadState : Option StateRow → ExternalMaintenanceState
  | none => {}
  | some row =>
    { present := true
      activeRun := row.activeRun
      operationRequest := row.operationRequest }

/-- The request together with the one before it. -/
def mergedRequest (existing : Option ExternalMaintenanceOperationRequest)
    (request : ExternalMaintenanceOperationRequest) : ExternalMaintenanceOperationRequest :=
  match existing with
  | some existing =>
    { operations := existing.operations.merge request.operations
      inlineFlushMinInlinedBytes :=
        request.inlineFlushMinInlinedBytes.or existing.inlineFlushMinInlinedBytes
      rewriteDataFilesMinActiveDataFiles :=
        request.rewriteDataFilesMinActiveDataFiles.or existing.rewriteDataFilesMinActiveDataFiles
      requestedAt := request.requestedAt }
  | none => request

/-- Asks for operations, in a transaction that holds the row. -/
def requestOperations (row : Option StateRow) (request : ExternalMaintenanceOperationRequest) :
    ExternalMaintenanceRequestOutcome × Option StateRow :=
  match row with
  | none => (.missingState, none)
  | some state =>
    if state.activeRun.isSome then (.rejectedActiveRun, row)
    else if state.operationRequest.any fun existing =>
        existing.operations.covers request.operations then
      (.alreadyCovered, row)
    else
      (.created, some { state with
        operationRequest := some (mergedRequest state.operationRequest request) })

/-- A request that is written is added to the one before it. -/
theorem requestOperations_spec (row : Option StateRow)
    (request : ExternalMaintenanceOperationRequest) :
    (requestOperations row request).1 = (loadState row).outcome request ∧
      loadState (requestOperations row request).2 =
        if (loadState row).outcome request = .created then
          { loadState row with
            operationRequest := some (mergedRequest (loadState row).operationRequest request) }
        else loadState row := by
  cases row with
  | none => exact ⟨rfl, rfl⟩
  | some state =>
    rw [requestOperations, loadState, ExternalMaintenanceState.outcome]
    split_ifs <;> simp_all [loadState]

theorem operations_mergedRequest (state : ExternalMaintenanceState)
    (request : ExternalMaintenanceOperationRequest) :
    (mergedRequest state.operationRequest request).operations =
      state.operations.merge request.operations := by
  rw [ExternalMaintenanceState.operations]
  cases state.operationRequest with
  | none => rfl
  | some existing => rfl

end Postgres

/-! ## Sequences of requests -/

section Requests

variable {σ : Type} (loadState : σ → ExternalMaintenanceState)
  (requestOperations : σ → ExternalMaintenanceOperationRequest →
    ExternalMaintenanceRequestOutcome × σ)

def requestAll : σ → List ExternalMaintenanceOperationRequest →
    List ExternalMaintenanceRequestOutcome × σ
  | state, [] => ([], state)
  | state, request :: requests =>
    let (outcome, state) := requestOperations state request
    let (outcomes, state) := requestAll state requests
    (outcome :: outcomes, state)

/-- Every request that is written is added to the operations requested before. -/
def AddsOperations : σ → List ExternalMaintenanceOperationRequest → Prop
  | _, [] => True
  | state, request :: requests =>
    ((requestOperations state request).1 = .created →
      (loadState (requestOperations state request).2).operations =
        (loadState state).operations.merge request.operations) ∧
      AddsOperations (requestOperations state request).2 requests

end Requests

/-- The stores give the same outcomes and end with the same operations, and both add every request
that is written to the operations requested before. -/
structure StoresAgree (resource : Option Kubernetes.ResourceStatus) (row : Option Postgres.StateRow)
    (requests : List ExternalMaintenanceOperationRequest) : Prop where
  outcomes : (requestAll Kubernetes.requestOperations resource requests).1 =
    (requestAll Postgres.requestOperations row requests).1
  operations :
    (Kubernetes.loadState (requestAll Kubernetes.requestOperations resource requests).2).operations =
      (Postgres.loadState (requestAll Postgres.requestOperations row requests).2).operations
  kubernetes :
    AddsOperations Kubernetes.loadState Kubernetes.requestOperations resource requests
  postgres : AddsOperations Postgres.loadState Postgres.requestOperations row requests

/-- Every request that creates operations contains those requested before, and so is all that is
requested then. -/
def ContainEarlier : ExternalMaintenanceState → List ExternalMaintenanceOperationRequest → Prop
  | _, [] => True
  | state, request :: requests =>
    if state.outcome request = .created then
      request.operations.covers state.operations = true ∧
        ContainEarlier { state with operationRequest := some request } requests
    else ContainEarlier state requests

/-- The states show the same to a request. -/
structure SameView (a b : ExternalMaintenanceState) : Prop where
  present : a.present = b.present
  activeRun : a.activeRun.isSome = b.activeRun.isSome
  operations : a.operationRequest.map (·.operations) = b.operationRequest.map (·.operations)

namespace SameView

variable {a b : ExternalMaintenanceState}

theorem outcome_eq (hview : SameView a b) (request : ExternalMaintenanceOperationRequest) :
    a.outcome request = b.outcome request := by
  have hany : ∀ state : ExternalMaintenanceState,
      (state.operationRequest.any fun existing =>
          existing.operations.covers request.operations) =
        (state.operationRequest.map (·.operations)).any (·.covers request.operations) := by
    intro state
    cases state.operationRequest <;> rfl
  rw [ExternalMaintenanceState.outcome, ExternalMaintenanceState.outcome, hany, hany, hview.present,
    hview.activeRun, hview.operations]

theorem operations_eq (hview : SameView a b) : a.operations = b.operations := by
  rw [ExternalMaintenanceState.operations, ExternalMaintenanceState.operations, hview.operations]

/-- After a request that is written, the Kubernetes store shows the request. -/
theorem kubernetes {resource : Option Kubernetes.ResourceStatus} {state : ExternalMaintenanceState}
    {request : ExternalMaintenanceOperationRequest}
    (hview : SameView (Kubernetes.loadState resource) state)
    (hcreated : state.outcome request = .created) :
    SameView (Kubernetes.loadState (Kubernetes.requestOperations resource request).2)
      { state with operationRequest := some request } := by
  rw [(Kubernetes.requestOperations_spec resource request).2, hview.outcome_eq, if_pos hcreated]
  exact ⟨hview.present, hview.activeRun, rfl⟩

/-- After a request that is written, the Postgres store shows the request if it contains the
operations requested before. -/
theorem postgres {row : Option Postgres.StateRow} {state : ExternalMaintenanceState}
    {request : ExternalMaintenanceOperationRequest}
    (hview : SameView (Postgres.loadState row) state)
    (hcreated : state.outcome request = .created)
    (hcovers : request.operations.covers state.operations = true) :
    SameView (Postgres.loadState (Postgres.requestOperations row request).2)
      { state with operationRequest := some request } := by
  rw [(Postgres.requestOperations_spec row request).2, hview.outcome_eq, if_pos hcreated]
  refine ⟨hview.present, hview.activeRun, congrArg some ?_⟩
  dsimp only
  rw [Postgres.operations_mergedRequest, hview.operations_eq]
  exact (ExternalMaintenanceOperations.covers_iff_merge_eq _ _).mp hcovers

end SameView

/-- The Postgres store always adds what is requested. -/
theorem Postgres.addsOperations (row : Option Postgres.StateRow)
    (requests : List ExternalMaintenanceOperationRequest) :
    AddsOperations Postgres.loadState Postgres.requestOperations row requests := by
  induction requests generalizing row with
  | nil => trivial
  | cons request requests ih =>
    refine ⟨fun hcreated => ?_, ih _⟩
    obtain ⟨houtcome, hload⟩ := Postgres.requestOperations_spec row request
    rw [houtcome] at hcreated
    rw [hload, if_pos hcreated, ← Postgres.operations_mergedRequest]
    rfl

theorem storesAgree_iff_of_sameView {resource : Option Kubernetes.ResourceStatus}
    {row : Option Postgres.StateRow} {state : ExternalMaintenanceState}
    (hresource : SameView (Kubernetes.loadState resource) state)
    (hrow : SameView (Postgres.loadState row) state)
    (requests : List ExternalMaintenanceOperationRequest) :
    StoresAgree resource row requests ↔ ContainEarlier state requests := by
  induction requests generalizing resource row state with
  | nil =>
    have hoperations := hresource.operations_eq.trans hrow.operations_eq.symm
    exact ⟨fun _ => trivial, fun _ => ⟨rfl, hoperations, trivial, trivial⟩⟩
  | cons request requests ih =>
    obtain ⟨houtcome, hload⟩ := Kubernetes.requestOperations_spec resource request
    obtain ⟨houtcome', hload'⟩ := Postgres.requestOperations_spec row request
    rw [hresource.outcome_eq] at houtcome hload
    rw [hrow.outcome_eq] at houtcome' hload'
    have hsplit : StoresAgree resource row (request :: requests) ↔
        ((Kubernetes.requestOperations resource request).1 = .created →
          (Kubernetes.loadState (Kubernetes.requestOperations resource request).2).operations =
            (Kubernetes.loadState resource).operations.merge request.operations) ∧
        StoresAgree (Kubernetes.requestOperations resource request).2
          (Postgres.requestOperations row request).2 requests := by
      constructor
      · intro hagree
        exact ⟨hagree.kubernetes.1, (List.cons.inj hagree.outcomes).2, hagree.operations,
          hagree.kubernetes.2, hagree.postgres.2⟩
      · rintro ⟨hadds, hagree⟩
        exact ⟨congrArg₂ List.cons (houtcome.trans houtcome'.symm) hagree.outcomes,
          hagree.operations, ⟨hadds, hagree.kubernetes⟩, Postgres.addsOperations row _⟩
    rw [hsplit, ContainEarlier, houtcome]
    split_ifs with hcreated
    · -- what the Kubernetes store keeps of the earlier operations is what the request contains
      have hshown := hresource.kubernetes hcreated
      have hcovers : request.operations.covers state.operations = true ↔
          (Kubernetes.loadState (Kubernetes.requestOperations resource request).2).operations =
            (Kubernetes.loadState resource).operations.merge request.operations := by
        rw [ExternalMaintenanceOperations.covers_iff_merge_eq, hshown.operations_eq,
          hresource.operations_eq]
        exact eq_comm
      rw [hcovers, forall_prop_of_true hcreated]
      refine and_congr_right fun hadds => ih hshown ?_
      exact hrow.postgres hcreated (hcovers.mpr hadds)
    · rw [if_neg hcreated] at hload hload'
      rw [← hload] at hresource
      rw [← hload'] at hrow
      exact (and_iff_right fun hcreated' => absurd hcreated' hcreated).trans (ih hresource hrow)

/-- The stores agree on requests made in a state they both show exactly when every request that
creates operations contains those requested before. -/
theorem stores_agree_iff (resource : Option Kubernetes.ResourceStatus)
    (row : Option Postgres.StateRow)
    (hload : Kubernetes.loadState resource = Postgres.loadState row)
    (requests : List ExternalMaintenanceOperationRequest) :
    StoresAgree resource row requests ↔ ContainEarlier (Postgres.loadState row) requests :=
  storesAgree_iff_of_sameView (hload ▸ ⟨rfl, rfl, rfl⟩) ⟨rfl, rfl, rfl⟩ requests

/-! ## A request that is lost -/

/-- A request of the watcher with its default thresholds. -/
def requestAt (requestedAt : ℤ) (operations : ExternalMaintenanceOperations) :
    ExternalMaintenanceOperationRequest :=
  ⟨operations, some 10000000, some 40, requestedAt⟩

/-- A flush is requested, and then a flush and a rewrite. -/
theorem stores_agree_on_growing_requests :
    StoresAgree (some ⟨none, none⟩) (some ⟨none, none⟩)
      [requestAt 1 { inlineFlush := true },
        requestAt 2 { inlineFlush := true, rewriteDataFiles := true }] :=
  (stores_agree_iff (some ⟨none, none⟩) (some ⟨none, none⟩) rfl _).mpr
    ⟨by decide, by decide, trivial⟩

/-- A flush is requested, and then a rewrite: the Kubernetes store forgets the flush. -/
theorem kubernetes_forgets_earlier_request :
    (Kubernetes.loadState (requestAll Kubernetes.requestOperations (some ⟨none, none⟩)
        [requestAt 1 { inlineFlush := true }, requestAt 2 { rewriteDataFiles := true }]).2).operations =
        { rewriteDataFiles := true } ∧
      (Postgres.loadState (requestAll Postgres.requestOperations (some ⟨none, none⟩)
        [requestAt 1 { inlineFlush := true }, requestAt 2 { rewriteDataFiles := true }]).2).operations =
        { inlineFlush := true, rewriteDataFiles := true } ∧
      ¬ StoresAgree (some ⟨none, none⟩) (some ⟨none, none⟩)
        [requestAt 1 { inlineFlush := true }, requestAt 2 { rewriteDataFiles := true }] := by
  refine ⟨by decide, by decide, fun hagree => ?_⟩
  exact absurd hagree.operations (by decide)

end Etl.Maintenance
