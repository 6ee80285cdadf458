import Etl.Replication.Feed

/-! # Changes and their events

Which event carries a change of the log. A handler produces an event for a change of a table
exactly when the worker owns the table: if it does, the event carries the change, and an event
for a table is produced only if it does.

Reference: `etl/src/replication/apply.rs`.
-/

namespace Etl

open HandleMessageResult

variable {ρ : Type} {tableId : TableId}

/-! ## Changes in events -/

/-- Whether the body of an event carries the change to the table. -/
def WalChange.CarriedBy (tableId : TableId) (body : EventBody ρ) : WalChange ρ → Prop
  | .row kind relId image => relId = tableId ∧
      ∃ schema, body = .row kind schema image ∧ schema.tableSchema.id = tableId
  | .truncate relIds => tableId ∈ relIds ∧
      ∃ schemas, body = .truncate schemas ∧ ∃ schema ∈ schemas, schema.tableSchema.id = tableId

/-- Whether the body of an event carries a change to the table. -/
def EventBody.concerns (tableId : TableId) : EventBody ρ → Bool
  | .row _ schema _ => schema.tableSchema.id = tableId
  | .truncate schemas => schemas.any (·.tableSchema.id = tableId)
  | _ => false

theorem WalChange.CarriedBy.concerns {body : EventBody ρ} {change : WalChange ρ}
    (h : change.CarriedBy tableId body) : body.concerns tableId = true := by
  cases change with
  | row kind relId image =>
    obtain ⟨-, schema, rfl, hid⟩ := h
    simpa [EventBody.concerns] using hid
  | truncate relIds =>
    obtain ⟨-, schemas, rfl, schema, hmem, hid⟩ := h
    simp only [EventBody.concerns, List.any_eq_true, decide_eq_true_eq]
    exact ⟨schema, hmem, hid⟩

/-- Among the events there is one for the change to the table in the transaction. -/
def Writes (tableId : TableId) (events : List (Event ρ)) (commitLsn : PgLsn)
    (record : WalRecord ρ) : Prop :=
  ∃ e ∈ events, e.startLsn = record.lsn ∧ e.commitLsn = commitLsn ∧
    record.change.CarriedBy tableId e.body

theorem Writes.mono {events events' : List (Event ρ)} {commitLsn : PgLsn} {record : WalRecord ρ}
    (h : Writes tableId events commitLsn record) (hsubset : events ⊆ events') :
    Writes tableId events' commitLsn record := by
  obtain ⟨e, he, hcarried⟩ := h
  exact ⟨e, hsubset he, hcarried⟩

/-- The message of a change. -/
def WalChange.toMessage : WalChange ρ → LogicalReplicationMessage ρ
  | .row kind relId image => .row kind relId image
  | .truncate relIds => .truncate relIds

/-- The worker owns the table, as far as the answer can be given, and the schema of the table
is cached under its own id. -/
structure MessageAnswers.Owns (ans : MessageAnswers) (tableId : TableId) : Prop where
  owned : ∀ owned, ans.shouldApplyChanges tableId = .ok owned → owned = true
  schema_id : ∀ schema, ans.rowSchema tableId = .ok schema → schema.tableSchema.id = tableId

section Handlers

variable {ans : MessageAnswers} {tableId : TableId} {startLsn : PgLsn} {st st' : ApplyLoopState ρ}
  {result : HandleMessageResult ρ} {image : ρ} {kind : RowKind} {messageName : String}
  {relIds : List TableId} {schemas : List ReplicatedTableSchema} {e : Event ρ}

theorem handleRowMessage_carried (howns : ans.Owns tableId)
    (h : handleRowMessage messageName kind ans startLsn tableId image st = .ok (st', result)) :
    ∃ e, result.event = some e ∧ e.startLsn = startLsn ∧ st.remoteFinalLsn = some e.commitLsn ∧
      ∃ schema, e.body = .row kind schema image ∧ schema.tableSchema.id = tableId := by
  unfold handleRowMessage at h
  split at h
  · simp [noTransaction] at h
  next remoteFinalLsn hopen =>
    obtain ⟨owned, howned, h⟩ := bind_eq_ok_iff.mp h
    rw [if_pos (howns.owned owned howned)] at h
    obtain ⟨schema, hschema, h⟩ := bind_eq_ok_iff.mp h
    obtain ⟨-, -, h⟩ := bind_eq_ok_iff.mp h
    cases h
    exact ⟨_, rfl, rfl, hopen, schema, rfl, howns.schema_id schema hschema⟩

theorem mem_ownedTruncatedTables (howns : ans.Owns tableId) (hmem : tableId ∈ relIds)
    (h : ownedTruncatedTables ans relIds = .ok schemas) :
    ∃ schema ∈ schemas, schema.tableSchema.id = tableId := by
  induction relIds generalizing schemas with
  | nil => simp at hmem
  | cons relId relIds ih =>
    obtain ⟨owned, howned, h⟩ := bind_eq_ok_iff.mp h
    rcases List.mem_cons.mp hmem with rfl | hmem
    · rw [if_pos (howns.owned owned howned)] at h
      obtain ⟨schema, hschema, h⟩ := bind_eq_ok_iff.mp h
      obtain ⟨schemas', -, h⟩ := bind_eq_ok_iff.mp h
      cases h
      exact ⟨schema, by simp, howns.schema_id schema hschema⟩
    · split at h
      · obtain ⟨schema, -, h⟩ := bind_eq_ok_iff.mp h
        obtain ⟨schemas', hschemas, h⟩ := bind_eq_ok_iff.mp h
        cases h
        obtain ⟨schema', hmem', hid⟩ := ih hmem hschemas
        exact ⟨schema', List.mem_cons_of_mem _ hmem', hid⟩
      · exact ih hmem h

theorem handleTruncateMessage_carried (howns : ans.Owns tableId) (hmem : tableId ∈ relIds)
    (h : handleTruncateMessage ans startLsn relIds st = .ok (st', result)) :
    ∃ e, result.event = some e ∧ e.startLsn = startLsn ∧ st.remoteFinalLsn = some e.commitLsn ∧
      ∃ schemas, e.body = .truncate schemas ∧
        ∃ schema ∈ schemas, schema.tableSchema.id = tableId := by
  unfold handleTruncateMessage at h
  split at h
  · simp [noTransaction] at h
  next remoteFinalLsn hopen =>
    obtain ⟨schemas, hschemas, h⟩ := bind_eq_ok_iff.mp h
    obtain ⟨schema, hschema, hid⟩ := mem_ownedTruncatedTables howns hmem hschemas
    split at h
    next hempty =>
      rw [List.isEmpty_iff.mp hempty] at hschema
      simp at hschema
    · cases h
      exact ⟨_, rfl, rfl, hopen, schemas, rfl, schema, hschema, hid⟩

/-- Handling a change of a table the worker owns gives an event that carries it. -/
theorem handleLogicalReplicationMessage_carried (howns : ans.Owns tableId)
    {record : WalRecord ρ} (hconcerns : record.change.concerns tableId = true)
    (h : handleLogicalReplicationMessage ans record.lsn record.change.toMessage st
      = .ok (st', result)) :
    ∃ e, result.event = some e ∧ e.startLsn = record.lsn ∧
      st.remoteFinalLsn = some e.commitLsn ∧ record.change.CarriedBy tableId e.body := by
  obtain ⟨lsn, change⟩ := record
  cases change with
  | row kind relId image =>
    obtain rfl : relId = tableId := by simpa [WalChange.concerns] using hconcerns
    have hrow : ∃ e, result.event = some e ∧ e.startLsn = lsn ∧
        st.remoteFinalLsn = some e.commitLsn ∧
        ∃ schema, e.body = .row kind schema image ∧ schema.tableSchema.id = relId := by
      cases kind <;> exact handleRowMessage_carried howns h
    obtain ⟨e, hevent, hstart, hopen, hbody⟩ := hrow
    exact ⟨e, hevent, hstart, hopen, rfl, hbody⟩
  | truncate relIds =>
    have hmem : tableId ∈ relIds := by simpa [WalChange.concerns] using hconcerns
    obtain ⟨e, hevent, hstart, hopen, hbody⟩ := handleTruncateMessage_carried howns hmem h
    exact ⟨e, hevent, hstart, hopen, hmem, hbody⟩

/-! ## Events of owned tables -/

/-- The schemas cached for the tables are their own. -/
def MessageAnswers.Fits (ans : MessageAnswers) (relIds : List TableId) : Prop :=
  ∀ relId ∈ relIds, ∀ schema, ans.rowSchema relId = .ok schema → schema.tableSchema.id = relId

/-- The tables whose rows a message changes. -/
def LogicalReplicationMessage.relations : LogicalReplicationMessage ρ → List TableId
  | .row _ relId _ => [relId]
  | .truncate relIds => relIds
  | _ => []

theorem handleRowMessage_owned {relId : TableId} (hfits : ans.Fits [relId])
    (h : handleRowMessage messageName kind ans startLsn relId image st = .ok (st', result))
    (hevent : result.event = some e) (hconcerns : e.body.concerns tableId = true) :
    ans.shouldApplyChanges tableId = .ok true := by
  unfold handleRowMessage at h
  split at h
  · simp [noTransaction] at h
  · obtain ⟨owned, howned, h⟩ := bind_eq_ok_iff.mp h
    split at h
    next htrue =>
      obtain ⟨schema, hschema, h⟩ := bind_eq_ok_iff.mp h
      obtain ⟨-, -, h⟩ := bind_eq_ok_iff.mp h
      cases h
      cases hevent
      have hid := hfits relId (by simp) schema hschema
      have hconcerns' : schema.tableSchema.id = tableId := by
        simpa [EventBody.concerns] using hconcerns
      rw [← hconcerns', hid, howned, htrue]
    · cases h
      simp [noEvent] at hevent

theorem shouldApplyChanges_of_mem_ownedTruncatedTables (hfits : ans.Fits relIds)
    (h : ownedTruncatedTables ans relIds = .ok schemas) {schema : ReplicatedTableSchema}
    (hmem : schema ∈ schemas) : ans.shouldApplyChanges schema.tableSchema.id = .ok true := by
  induction relIds generalizing schemas with
  | nil =>
    cases h
    simp at hmem
  | cons relId relIds ih =>
    have ih := fun schemas => @ih schemas (fun relId' hrelId' => hfits relId' (List.mem_cons_of_mem _ hrelId'))
    obtain ⟨owned, howned, h⟩ := bind_eq_ok_iff.mp h
    split at h
    next htrue =>
      obtain ⟨first, hfirst, h⟩ := bind_eq_ok_iff.mp h
      obtain ⟨rest, hrest, h⟩ := bind_eq_ok_iff.mp h
      cases h
      rcases List.mem_cons.mp hmem with rfl | hmem
      · rw [hfits relId (by simp) schema hfirst, howned, htrue]
      · exact ih rest hrest hmem
    · exact ih schemas h hmem

theorem handleTruncateMessage_owned (hfits : ans.Fits relIds)
    (h : handleTruncateMessage ans startLsn relIds st = .ok (st', result))
    (hevent : result.event = some e) (hconcerns : e.body.concerns tableId = true) :
    ans.shouldApplyChanges tableId = .ok true := by
  unfold handleTruncateMessage at h
  split at h
  · simp [noTransaction] at h
  · obtain ⟨schemas, hschemas, h⟩ := bind_eq_ok_iff.mp h
    split at h
    · cases h
      simp [noEvent] at hevent
    · cases h
      cases hevent
      simp only [EventBody.concerns, List.any_eq_true, decide_eq_true_eq] at hconcerns
      obtain ⟨schema, hmem, rfl⟩ := hconcerns
      exact shouldApplyChanges_of_mem_ownedTruncatedTables hfits hschemas hmem

/-- An event for a table is produced only if the worker owns the table. -/
theorem handleLogicalReplicationMessage_owned {message : LogicalReplicationMessage ρ}
    (hfits : ans.Fits message.relations)
    (h : handleLogicalReplicationMessage ans startLsn message st = .ok (st', result))
    (hevent : result.event = some e) (hconcerns : e.body.concerns tableId = true) :
    ans.shouldApplyChanges tableId = .ok true := by
  cases message with
  | row kind relId image => cases kind <;> exact handleRowMessage_owned hfits h hevent hconcerns
  | truncate relIds => exact handleTruncateMessage_owned hfits h hevent hconcerns
  | begin finalLsn =>
    cases h
    cases hevent
    simp [EventBody.concerns] at hconcerns
  | commit commitLsn endLsn =>
    obtain ⟨st₁, -, h⟩ := bind_eq_ok_iff.mp h
    obtain ⟨exitIntent, -, h⟩ := bind_eq_ok_iff.mp h
    cases h
    cases hevent
    simp [EventBody.concerns] at hconcerns
  | relation relId columns =>
    simp only [handleLogicalReplicationMessage, handleRelationMessage] at h
    split at h
    · simp [noTransaction] at h
    · obtain ⟨owned, -, h⟩ := bind_eq_ok_iff.mp h
      split at h
      · obtain ⟨schema, -, h⟩ := bind_eq_ok_iff.mp h
        cases h
        cases hevent
        simp [EventBody.concerns] at hconcerns
      · cases h
        simp [noEvent] at hevent
  | message tag content =>
    obtain ⟨-, rfl⟩ := handleMessage_outcome h
    simp [noEvent] at hevent
  | origin | type =>
    cases h
    simp [noEvent] at hevent

end Handlers

end Etl
