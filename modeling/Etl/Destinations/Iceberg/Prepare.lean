import Etl.Common.Calls
import Etl.Common.Transition
import Etl.Destinations.Iceberg.Schema
import Etl.Destinations.ObjectNames
import Etl.State.DestinationMetadata

/-! # Preparing Iceberg tables

Before rows are written, the table is created if it is missing and its metadata are stored. What has
been created is remembered in memory, and then neither is done again. Tables are remembered by their
name alone: when each schema has a namespace of its own, two source tables with the same table name
share an entry, and the second is taken for created when the first is
(`prepareTableForStreaming_skips_creation`). The entry also says nothing about the columns.

`prepared_table_exists` says that a preparation that succeeds leaves the table in its namespace, with
the columns of the schema, and applied metadata, in every sequence of preparations, truncates, drops
and restarts in which one Iceberg table name belongs to one source table with one list of columns.

Reference: `etl-destinations/src/iceberg/core.rs` (`prepare_table_for_streaming`) and
`etl-destinations/src/iceberg/client.rs`.
-/

namespace Etl.Iceberg

open List
open Calls.Ensures

open DestinationTableMetadata (newApplying)

/-! ## The destination -/

/-- The catalog with its namespaces and the fields of its tables, the stored metadata, and what is
kept in memory. -/
structure Destination where
  namespaces : List String
  tables : String × String → Option (List NestedField)
  metadata : TableId → Option DestinationTableMetadata
  createdTables : List String
  createdNamespaces : List String

namespace Destination

def setTable (destination : Destination) (table : String × String)
    (fields : Option (List NestedField)) : Destination :=
  { destination with tables := Function.update destination.tables table fields }

def setMetadata (destination : Destination) (tableId : TableId)
    (metadata : DestinationTableMetadata) : Destination :=
  { destination with metadata := Function.update destination.metadata tableId metadata }

@[simp]
theorem setTable_tables (destination : Destination) (table : String × String)
    (fields : Option (List NestedField)) :
    (destination.setTable table fields).tables =
      Function.update destination.tables table fields := rfl

@[simp]
theorem setMetadata_metadata (destination : Destination) (tableId : TableId)
    (metadata : DestinationTableMetadata) :
    (destination.setMetadata tableId metadata).metadata =
      Function.update destination.metadata tableId (some metadata) := rfl

/-- A restart loses what is kept in memory. -/
def restart (destination : Destination) : Destination :=
  { destination with createdTables := [], createdNamespaces := [] }

end Destination

/-- What a catalog call that does not come through returns. -/
def catalogFailed : EtlError := ⟨.unknown, "An unexpected error occurred", none⟩

/-- Asks the catalog. -/
def ask {α : Type} (answer : Destination → α) : Calls EtlError Destination α := do
  .call catalogFailed .ok
  return answer (← .read)

def clientCreateNamespaceIfMissing (name : String) : Calls EtlError Destination Unit := do
  if !(← ask fun destination => destination.namespaces.contains name) then
    .call catalogFailed fun destination =>
      .ok { destination with namespaces := name :: destination.namespaces }

/-- Creates a table if it is missing; a table needs its namespace. A schema that the catalog's
library rejects is a call that does not come through. -/
def createTableIfMissing (table : String × String) (columnSchemas : List ColumnSchema) :
    Calls EtlError Destination Unit := do
  if !(← ask fun destination => (destination.tables table).isSome) then
    .call catalogFailed fun destination =>
      if destination.namespaces.contains table.1 then
        .ok (destination.setTable table (postgresToIcebergSchema columnSchemas))
      else .error ⟨.destinationNamespaceMissing, "Iceberg namespace missing", none⟩

def dropTableIfExists (table : String × String) : Calls EtlError Destination Bool := do
  if !(← ask fun destination => (destination.tables table).isSome) then return false
  .call catalogFailed fun destination => .ok (destination.setTable table none)
  return true

def storeDestinationTableMetadata (tableId : TableId) (metadata : DestinationTableMetadata) :
    Calls EtlError Destination Unit :=
  .call ⟨.sourceQueryFailed, "Destination table metadata storage failed",
      some "Failed to store destination table metadata in PostgreSQL"⟩
    fun destination => .ok (destination.setMetadata tableId metadata)

/-- Only a full row identity gives the old rows that deletes need. -/
def validateIcebergReplicaIdentity (schema : ReplicatedTableSchema) : EtlResult Unit :=
  let rejects (identityType : String) : EtlResult Unit :=
    bailWith .sourceSchemaError "Iceberg requires full replica identity"
      ("Table '" ++ schema.tableSchema.name.schema ++ "." ++ schema.tableSchema.name.name ++
        "' uses replica identity " ++ identityType ++ ", but Iceberg only supports source tables " ++
        "with FULL replica identity.")
  match schema.identityType with
  | .full => .ok ()
  | .primaryKey => rejects "PrimaryKey"
  | .alternativeKey => rejects "AlternativeKey"
  | .missing => rejects "Missing"

/-! ## Programs -/

section Programs

variable (casing : CaseMapping) (mode : DestinationNamespace)

/-- The namespace of a source table. -/
def tableNamespace (schema : ReplicatedTableSchema) : String :=
  mode.getOr (schemaToNamespace casing schema.tableSchema.name.schema)

/-- The name of a source table at Iceberg, without metadata. -/
def defaultTableName (schema : ReplicatedTableSchema) : EtlResult String :=
  tableNameToIcebergTableName schema.tableSchema.name mode.isSingle

def createNamespaceIfMissing (name : String) : Calls EtlError Destination String := do
  if (← .read).createdNamespaces.contains name then return name
  clientCreateNamespaceIfMissing name
  .update fun destination =>
    { destination with createdNamespaces := name :: destination.createdNamespaces }
  return name

def prepareTableForStreaming (schema : ReplicatedTableSchema) :
    Calls EtlError Destination (String × String) := do
  .ofExcept (validateIcebergReplicaIdentity schema)
  let icebergTableName ← .ofExcept (defaultTableName mode schema)
  let applied ← .ofExcept
    (getAppliedDestinationTableMetadata ((← .read).metadata schema.id))
  let icebergTableName := (applied.map (·.destinationTableId)).getD icebergTableName
  let namespaceName ← createNamespaceIfMissing (tableNamespace casing mode schema)
  if (← .read).createdTables.contains icebergTableName then
    return (namespaceName, icebergTableName)
  let metadata :=
    newApplying icebergTableName schema.tableSchema.snapshotId schema.replicationMask
  storeDestinationTableMetadata schema.id metadata
  createTableIfMissing (namespaceName, icebergTableName) (buildCdcColumnSchemas schema)
  storeDestinationTableMetadata schema.id metadata.toApplied
  .update fun destination =>
    { destination with createdTables := icebergTableName :: destination.createdTables }
  return (namespaceName, icebergTableName)

/-- Drops a table and forgets that it was created. -/
def dropAndForget (table : String × String) : Calls EtlError Destination Unit := do
  discard <| dropTableIfExists table
  .update fun destination =>
    { destination with createdTables := destination.createdTables.filter (· ≠ table.2) }

/-- Drops the table and creates it again. -/
def truncateTable (schema : ReplicatedTableSchema) : Calls EtlError Destination Unit := do
  match ← .ofExcept (getAppliedDestinationTableMetadata ((← .read).metadata schema.id)) with
  | none => return
  | some metadata =>
    dropAndForget (tableNamespace casing mode schema, metadata.destinationTableId)
    discard <| prepareTableForStreaming casing mode schema

/-- Drops the table before it is copied again. -/
def dropTableForCopyInner (schema : ReplicatedTableSchema) : Calls EtlError Destination Unit := do
  let icebergTableName ← .ofExcept (defaultTableName mode schema)
  let stored := (← .read).metadata schema.id
  let icebergTableName := (stored.map (·.destinationTableId)).getD icebergTableName
  dropAndForget (tableNamespace casing mode schema, icebergTableName)

end Programs

/-! ## Tables that have their names to themselves -/

def cdcFields (schema : ReplicatedTableSchema) : List NestedField :=
  postgresToIcebergSchema (buildCdcColumnSchemas schema)

/-- One Iceberg table name belongs to one source table, which has one name and one list of
fields. -/
def Apart (mode : DestinationNamespace) (schemas : List ReplicatedTableSchema) : Prop :=
  ∀ x ∈ schemas, ∀ y ∈ schemas,
    (x.id = y.id ∨
      ∃ name, defaultTableName mode x = .ok name ∧ defaultTableName mode y = .ok name) →
    x.id = y.id ∧ x.tableSchema.name = y.tableSchema.name ∧ cdcFields x = cdcFields y

section Sound

variable (casing : CaseMapping) (mode : DestinationNamespace)
  (schemas : List ReplicatedTableSchema)

/-- The table exists with the fields of the schema, and its metadata are applied. -/
def Destination.Serves (destination : Destination) (schema : ReplicatedTableSchema)
    (name : String) : Prop :=
  destination.tables (tableNamespace casing mode schema, name) = some (cdcFields schema) ∧
    ∃ metadata, destination.metadata schema.id = some metadata ∧ metadata.isApplied = true ∧
      metadata.destinationTableId = name

/-- The metadata and the tables are those of the source tables, and what is remembered as created
exists. -/
structure Destination.Sound (destination : Destination) : Prop where
  named : ∀ x ∈ schemas, ∀ metadata, destination.metadata x.id = some metadata →
    defaultTableName mode x = .ok metadata.destinationTableId
  found : ∀ x ∈ schemas, ∀ name, defaultTableName mode x = .ok name → ∀ fields,
    destination.tables (tableNamespace casing mode x, name) = some fields → fields = cdcFields x
  cached : ∀ x ∈ schemas, ∀ name, defaultTableName mode x = .ok name →
    name ∈ destination.createdTables → destination.Serves casing mode x name

variable {casing mode schemas} {s : Destination} {x : ReplicatedTableSchema} {name : String}

namespace Destination.Sound

theorem setMetadata (hs : s.Sound casing mode schemas) (hapart : Apart mode schemas)
    (hx : x ∈ schemas) (hname : defaultTableName mode x = .ok name)
    (hfresh : name ∉ s.createdTables) {metadata : DestinationTableMetadata}
    (hmetadata : metadata.destinationTableId = name) :
    (s.setMetadata x.id metadata).Sound casing mode schemas := by
  have hsame : ∀ y ∈ schemas, y.id = x.id → defaultTableName mode y = .ok name := by
    intro y hy hid
    obtain ⟨-, htable, -⟩ := hapart y hy x hx (.inl hid)
    rw [defaultTableName, htable]
    exact hname
  refine ⟨fun y hy stored hstored => ?_, hs.found, fun y hy name' hname' hcached => ?_⟩
  · by_cases hid : y.id = x.id
    · rw [setMetadata_metadata, hid, Function.update_self] at hstored
      rw [← Option.some.inj hstored, hmetadata]
      exact hsame y hy hid
    · rw [setMetadata_metadata, Function.update_of_ne hid] at hstored
      exact hs.named y hy stored hstored
  · have hid : y.id ≠ x.id := by
      intro hid
      cases (hsame y hy hid).symm.trans hname'
      exact hfresh hcached
    obtain ⟨htable, stored, hstored, happlied⟩ := hs.cached y hy name' hname' hcached
    exact ⟨htable, stored, by rwa [setMetadata_metadata, Function.update_of_ne hid], happlied⟩

theorem setTable (hs : s.Sound casing mode schemas) (hapart : Apart mode schemas) (hx : x ∈ schemas)
    (hname : defaultTableName mode x = .ok name) :
    (s.setTable (tableNamespace casing mode x, name) (cdcFields x)).Sound casing mode schemas := by
  have hsame : ∀ y ∈ schemas, ∀ name', defaultTableName mode y = .ok name' →
      (tableNamespace casing mode y, name') = (tableNamespace casing mode x, name) →
        cdcFields y = cdcFields x := by
    intro y hy name' hname' hkey
    obtain rfl := (Prod.mk.inj hkey).2
    exact (hapart y hy x hx (.inr ⟨name', hname', hname⟩)).2.2
  refine ⟨hs.named, fun y hy name' hname' fields hfields => ?_, fun y hy name' hname' hcached => ?_⟩
  · by_cases hkey : (tableNamespace casing mode y, name') = (tableNamespace casing mode x, name)
    · rw [setTable_tables, hkey, Function.update_self] at hfields
      rw [← Option.some.inj hfields, hsame y hy name' hname' hkey]
    · rw [setTable_tables, Function.update_of_ne hkey] at hfields
      exact hs.found y hy name' hname' fields hfields
  · obtain ⟨htable, hmetadata⟩ := hs.cached y hy name' hname' hcached
    refine ⟨?_, hmetadata⟩
    by_cases hkey : (tableNamespace casing mode y, name') = (tableNamespace casing mode x, name)
    · rw [setTable_tables, hkey, Function.update_self, hsame y hy name' hname' hkey]
    · rwa [setTable_tables, Function.update_of_ne hkey]

theorem remember (hs : s.Sound casing mode schemas) (hapart : Apart mode schemas) (hx : x ∈ schemas)
    (hname : defaultTableName mode x = .ok name) (hserves : s.Serves casing mode x name) :
    { s with createdTables := name :: s.createdTables }.Sound casing mode schemas := by
  refine ⟨hs.named, hs.found, fun y hy name' hname' hcached => ?_⟩
  obtain rfl | hcached := mem_cons.mp hcached
  · obtain ⟨hid, htable, hfields⟩ := hapart y hy x hx (.inr ⟨name', hname', hname⟩)
    obtain ⟨htables, hmetadata⟩ := hserves
    have hnamespace : tableNamespace casing mode y = tableNamespace casing mode x := by
      rw [tableNamespace, tableNamespace, htable]
    refine ⟨?_, by rw [hid]; exact hmetadata⟩
    rw [hnamespace, hfields]
    exact htables
  · exact hs.cached y hy name' hname' hcached

/-- Tables are forgotten. -/
theorem forget (hs : s.Sound casing mode schemas) (p : String → Bool) :
    { s with createdTables := s.createdTables.filter p }.Sound casing mode schemas :=
  ⟨hs.named, hs.found, fun y hy name' hname' hcached =>
    hs.cached y hy name' hname' (mem_of_mem_filter hcached)⟩

theorem dropAndForget (hs : s.Sound casing mode schemas) (table : String × String) :
    { s.setTable table none with
      createdTables := s.createdTables.filter (· ≠ table.2) }.Sound casing mode schemas := by
  refine ⟨hs.named, fun y hy name' hname' fields hfields => ?_, fun y hy name' hname' hcached => ?_⟩
  · by_cases hkey : (tableNamespace casing mode y, name') = table
    · simp [hkey] at hfields
    · simp only [Destination.setTable, Function.update_of_ne hkey] at hfields
      exact hs.found y hy name' hname' fields hfields
  · obtain ⟨hcached, hne⟩ := mem_filter.mp hcached
    have hkey : (tableNamespace casing mode y, name') ≠ table := by
      rintro rfl
      simp at hne
    obtain ⟨htable, hmetadata⟩ := hs.cached y hy name' hname' hcached
    refine ⟨?_, hmetadata⟩
    simpa [Function.update_of_ne hkey] using htable

end Destination.Sound

/-! ## What the programs ensure -/

open Calls (Ensures)

theorem ensures_ask {α : Type} {P E : Destination → Prop} (answer : Destination → α)
    (hE : ∀ state, P state → E state) :
    Ensures P (ask answer) (fun a state => a = answer state ∧ P state) E := by
  refine bind (Q := fun _ => P) (.call ?_ hE) fun _ => ?_
  · intro state next hstate hnext
    rwa [← Except.ok.inj hnext]
  · refine bind .read fun state => .pure ?_
    rintro _ ⟨rfl, hstate⟩
    exact ⟨rfl, hstate⟩

theorem ensures_createNamespaceIfMissing {P : Destination → Prop} (namespaceName : String)
    (hcatalog : ∀ state namespaces, P state → P { state with namespaces })
    (hmemory : ∀ state createdNamespaces, P state → P { state with createdNamespaces }) :
    Ensures P (createNamespaceIfMissing namespaceName)
      (fun result state => result = namespaceName ∧ P state) P := by
  refine bind .read fun state => .pre ?_ fun _ h => h.2
  split_ifs
  · exact .pure fun _ hs => ⟨rfl, hs⟩
  · refine bind (Q := fun _ => P) ?_ fun _ => ?_
    · refine bind (ensures_ask _ fun _ hs => hs) fun existed => .pre ?_ fun _ h => h.2
      split_ifs
      · refine .call (fun state next hs hnext => ?_) fun _ hs => hs
        rw [← Except.ok.inj hnext]
        exact hcatalog state _ hs
      · exact .pure fun _ hs => hs
    · exact bind (Q := fun _ => P) (.update fun state hs => hmemory state _ hs)
        fun _ => .pure fun _ hs => ⟨rfl, hs⟩

theorem ensures_createTableIfMissing (hapart : Apart mode schemas) (hx : x ∈ schemas)
    (hname : defaultTableName mode x = .ok name) {R : Destination → Prop}
    (hR : ∀ state table fields, R state → R (state.setTable table fields)) :
    Ensures (fun state => state.Sound casing mode schemas ∧ R state)
      (createTableIfMissing (tableNamespace casing mode x, name) (buildCdcColumnSchemas x))
      (fun _ state => state.tables (tableNamespace casing mode x, name) = some (cdcFields x) ∧
        state.Sound casing mode schemas ∧ R state)
      (fun state => state.Sound casing mode schemas) := by
  refine bind (ensures_ask _ fun _ h => h.1) fun existed => ?_
  cases existed with
  | true =>
    refine .pure ?_
    rintro state ⟨hexists, hs, hr⟩
    obtain ⟨fields, hfields⟩ := Option.isSome_iff_exists.mp hexists.symm
    exact ⟨by rw [hfields, hs.found x hx name hname fields hfields], hs, hr⟩
  | false =>
    rw [if_pos (by simp)]
    refine .call ?_ fun _ hstate => hstate.2.1
    rintro state next ⟨-, hs, hr⟩ hnext
    split_ifs at hnext
    rw [← Except.ok.inj hnext]
    exact ⟨by rw [Destination.setTable_tables, Function.update_self]; rfl,
      hs.setTable hapart hx hname, hR _ _ _ hr⟩

/-- Dropping a table keeps the others. -/
theorem ensures_dropAndForget (table : String × String) :
    Ensures (fun state => state.Sound casing mode schemas) (dropAndForget table)
      (fun _ state => state.Sound casing mode schemas)
      fun state => state.Sound casing mode schemas := by
  -- Between the drop and the update the table is still remembered.
  refine bind (Q := fun _ state => Destination.Sound casing mode schemas
    { state with createdTables := state.createdTables.filter (· ≠ table.2) }) ?_
      fun _ => .update fun _ hs => hs
  refine bind (Q := fun _ state => Destination.Sound casing mode schemas
    { state with createdTables := state.createdTables.filter (· ≠ table.2) }) ?_
      fun _ => .pure fun _ hs => hs
  refine bind (ensures_ask _ fun _ hs => hs) fun existed => .pre ?_ fun _ h => h.2
  split_ifs
  · exact .pure fun _ hs => hs.forget _
  · refine bind (Q := fun _ state => Destination.Sound casing mode schemas
      { state with createdTables := state.createdTables.filter (· ≠ table.2) })
        (.call (fun state next hs hnext => ?_) fun _ hs => hs) fun _ => .pure fun _ hs => hs
    rw [← Except.ok.inj hnext]
    exact hs.dropAndForget table

theorem ensures_prepareTableForStreaming (hapart : Apart mode schemas) (hx : x ∈ schemas) :
    Ensures (fun state => state.Sound casing mode schemas) (prepareTableForStreaming casing mode x)
      (fun table state => state.Sound casing mode schemas ∧
        ∃ name, defaultTableName mode x = .ok name ∧
          table = (tableNamespace casing mode x, name) ∧ state.Serves casing mode x name)
      fun state => state.Sound casing mode schemas := by
  refine bind (Q := fun _ state => state.Sound casing mode schemas)
    (.ofExcept (fun _ _ _ hs => hs) fun _ hs => hs) fun _ => ?_
  refine bind (Q := fun name state => defaultTableName mode x = .ok name ∧
    state.Sound casing mode schemas) (.ofExcept (fun _ hname _ hs => ⟨hname, hs⟩) fun _ hs => hs)
      fun name => of_fact (P := Destination.Sound casing mode schemas) fun hname => ?_
  refine bind .read fun read => ?_
  -- Metadata name the table as the source table does.
  refine bind (Q := fun applied state =>
    (applied.map AppliedDestinationTableMetadata.destinationTableId).getD name = name ∧
      state.Sound casing mode schemas) (.ofExcept ?_ fun _ h => h.2) fun applied =>
        of_fact (P := Destination.Sound casing mode schemas) fun hresolved => ?_
  · rintro applied happlied state ⟨rfl, hs⟩
    refine ⟨?_, hs⟩
    cases hstored : read.metadata x.id with
    | none =>
      rw [hstored] at happlied
      cases happlied
      rfl
    | some metadata =>
      rw [hstored] at happlied
      rw [metadata.destinationTableId_of_getApplied happlied]
      exact Except.ok.inj ((hs.named x hx metadata hstored).symm.trans hname)
  rw [hresolved]
  refine bind (ensures_createNamespaceIfMissing _
    (fun _ _ hs => ⟨hs.named, hs.found, hs.cached⟩)
      fun _ _ hs => ⟨hs.named, hs.found, hs.cached⟩) fun namespaceName => of_fact ?_
  rintro rfl
  refine bind .read fun memory => ?_
  split_ifs with hcached
  · refine .pure ?_
    rintro state ⟨rfl, hs⟩
    exact ⟨hs, name, hname, rfl, hs.cached x hx name hname (contains_iff_mem.mp hcached)⟩
  · have hfresh : name ∉ memory.createdTables := mt contains_iff_mem.mpr hcached
    refine bind (Q := fun _ state => state.Sound casing mode schemas ∧
      name ∉ state.createdTables) (.call ?_ fun _ h => h.2) fun _ => ?_
    · rintro state next ⟨rfl, hs⟩ hnext
      rw [← Except.ok.inj hnext]
      exact ⟨hs.setMetadata hapart hx hname hfresh rfl, hfresh⟩
    refine bind (ensures_createTableIfMissing hapart hx hname fun _ _ _ h => h) fun _ => ?_
    refine bind (Q := fun _ state => state.Sound casing mode schemas ∧
      state.Serves casing mode x name) (.call ?_ fun _ h => h.2.1) fun _ => ?_
    · rintro state next ⟨htable, hs, hfresh⟩ hnext
      rw [← Except.ok.inj hnext]
      exact ⟨hs.setMetadata hapart hx hname hfresh rfl, htable, _,
        by rw [Destination.setMetadata_metadata, Function.update_self], rfl, rfl⟩
    refine bind (Q := fun _ state => state.Sound casing mode schemas ∧
      state.Serves casing mode x name) (.update ?_) fun _ => .pure ?_
    · rintro state ⟨hs, hserves⟩
      exact ⟨hs.remember hapart hx hname hserves, hserves⟩
    · rintro state ⟨hs, hserves⟩
      exact ⟨hs, name, hname, rfl, hserves⟩

/-- A truncate that finds metadata leaves the table with its metadata. -/
theorem ensures_truncateTable (hapart : Apart mode schemas) (hx : x ∈ schemas) {stored : Bool} :
    Ensures (fun state => (state.metadata x.id).isSome = stored ∧
        state.Sound casing mode schemas) (truncateTable casing mode x)
      (fun _ state => state.Sound casing mode schemas ∧ (stored = true →
        ∃ name, defaultTableName mode x = .ok name ∧ state.Serves casing mode x name))
      (Destination.Sound casing mode schemas) := by
  refine bind .read fun read => ?_
  refine bind (Q := fun applied state => (applied = none → stored = false) ∧
    state.Sound casing mode schemas) (.ofExcept ?_ fun _ h => h.2.2) fun applied =>
      of_fact (P := Destination.Sound casing mode schemas) fun hnone => ?_
  · rintro applied happlied state ⟨rfl, hstored, hs⟩
    refine ⟨?_, hs⟩
    rintro rfl
    cases hmetadata : read.metadata x.id with
    | none => rw [← hstored, hmetadata, Option.isSome_none]
    | some metadata =>
      rw [hmetadata] at happlied
      cases metadata.destinationTableId_of_getApplied happlied
  cases applied with
  | none =>
    refine .pure fun _ hs => ⟨hs, ?_⟩
    rw [hnone rfl]
    exact nofun
  | some metadata =>
    refine bind (ensures_dropAndForget _) fun _ => ?_
    refine bind (ensures_prepareTableForStreaming hapart hx) fun table => .pure ?_
    rintro state ⟨hs, name, hname, -, hserves⟩
    exact ⟨hs, fun _ => ⟨name, hname, hserves⟩⟩

theorem ensures_dropTableForCopyInner :
    Ensures (Destination.Sound casing mode schemas) (dropTableForCopyInner casing mode x)
      (fun _ => Destination.Sound casing mode schemas) (Destination.Sound casing mode schemas) := by
  refine bind (Q := fun _ => Destination.Sound casing mode schemas)
    (.ofExcept (fun _ _ _ hs => hs) fun _ hs => hs) fun name => ?_
  exact bind .read fun read => (ensures_dropAndForget _).pre fun _ h => h.2

end Sound

/-! ## Runs -/

/-- What can happen, with the number of calls that come through. -/
inductive Input where
  | prepareTableForStreaming (schema : ReplicatedTableSchema) (remaining : Option ℕ)
  | truncateTable (schema : ReplicatedTableSchema) (remaining : Option ℕ)
  | dropTableForCopy (schema : ReplicatedTableSchema) (remaining : Option ℕ)
  | restart
  deriving DecidableEq, Repr

/-- Whether the operation is on one of the given source tables. -/
def Input.On (schemas : List ReplicatedTableSchema) : Input → Prop
  | .prepareTableForStreaming schema _ | .truncateTable schema _ | .dropTableForCopy schema _ =>
    schema ∈ schemas
  | .restart => True

instance (schemas : List ReplicatedTableSchema) : DecidablePred (Input.On schemas)
  | .prepareTableForStreaming _ _ | .truncateTable _ _ | .dropTableForCopy _ _ =>
    inferInstanceAs (Decidable (_ ∈ _))
  | .restart => inferInstanceAs (Decidable True)

section Runs

variable (casing : CaseMapping) (mode : DestinationNamespace)
  (schemas : List ReplicatedTableSchema)

def Destination.after (destination : Destination) : Input → Destination
  | .prepareTableForStreaming schema remaining =>
    Calls.endState ((Iceberg.prepareTableForStreaming casing mode schema).run
      ⟨destination, remaining⟩)
  | .truncateTable schema remaining =>
    Calls.endState ((Iceberg.truncateTable casing mode schema).run ⟨destination, remaining⟩)
  | .dropTableForCopy schema remaining =>
    Calls.endState ((dropTableForCopyInner casing mode schema).run ⟨destination, remaining⟩)
  | .restart => destination.restart

/-- The destination as a machine. It starts with nothing in memory, over a catalog and a store that
hold at most what belongs to the given source tables. -/
def icebergMachine : Machine Destination Input where
  init destination := destination.createdTables = [] ∧ destination.createdNamespaces = [] ∧
    destination.Sound casing mode schemas
  next destination input := some (destination.after casing mode input)

variable {casing mode schemas} {s : Destination}

theorem Destination.Sound.after (hs : s.Sound casing mode schemas) (hapart : Apart mode schemas)
    {input : Input} (hinput : input.On schemas) :
    (s.after casing mode input).Sound casing mode schemas := by
  cases input with
  | prepareTableForStreaming x remaining =>
    exact (ensures_prepareTableForStreaming hapart hinput).endState (s := ⟨s, remaining⟩) hs
      (fun _ _ h => h.1) fun _ h => h
  | truncateTable x remaining =>
    exact (ensures_truncateTable hapart hinput).endState (s := ⟨s, remaining⟩) ⟨rfl, hs⟩
      (fun _ _ h => h.1) fun _ h => h
  | dropTableForCopy x remaining =>
    exact ensures_dropTableForCopyInner.endState (s := ⟨s, remaining⟩) hs (fun _ _ h => h)
      fun _ h => h
  | restart => exact ⟨hs.named, hs.found, fun _ _ _ _ hcached => absurd hcached not_mem_nil⟩

/-- In every run over source tables that have their Iceberg names to themselves, a preparation that
succeeds, also the one in a truncate, leaves the table in its namespace with the fields of the
schema, and applied metadata. -/
theorem prepared_table_exists (hapart : Apart mode schemas)
    (hreach : (icebergMachine casing mode schemas).ReachableUnder
      (fun _ input => input.On schemas) s)
    {x : ReplicatedTableSchema} (hx : x ∈ schemas) (remaining : Option ℕ) :
    (∀ table t, (prepareTableForStreaming casing mode x).run ⟨s, remaining⟩ = .ok table t →
      t.state.tables table = some (cdcFields x) ∧ ∃ metadata,
        t.state.metadata x.id = some metadata ∧ metadata.isApplied = true ∧
          metadata.destinationTableId = table.2) ∧
    ∀ t, (truncateTable casing mode x).run ⟨s, remaining⟩ = .ok () t →
      (s.metadata x.id).isSome →
        ∃ name, defaultTableName mode x = .ok name ∧ t.state.Serves casing mode x name := by
  have hs : s.Sound casing mode schemas := by
    refine hreach.invariant (I := Destination.Sound casing mode schemas) ?_ ?_
    · rintro s ⟨-, -, hs⟩
      exact hs
    · intro s input s' hs hinput hnext
      rw [← Option.some.inj hnext]
      exact hs.after hapart hinput
  refine ⟨fun table t hrun => ?_, fun t hrun hstored => ?_⟩
  · obtain ⟨-, name, -, rfl, hserves⟩ :=
      (ensures_prepareTableForStreaming hapart hx).of_ok (s := ⟨s, remaining⟩) hs hrun
    exact hserves
  · have htruncate := (ensures_truncateTable hapart hx).of_ok (s := ⟨s, remaining⟩) ⟨hstored, hs⟩ hrun
    exact htruncate.2 rfl

end Runs

/-- A source table with one column and full row identity. -/
def usersTable (id : TableId) (schemaName : String) : ReplicatedTableSchema :=
  ⟨⟨id, ⟨schemaName, "users"⟩, [⟨"email", .text, -1, 1, none, true⟩], 0⟩, [true], [true]⟩

/-- An empty catalog and store. -/
def emptyDestination : Destination := ⟨[], fun _ => none, fun _ => none, [], []⟩

/-- Another source table, of two columns. -/
def ordersTable : ReplicatedTableSchema :=
  ⟨⟨2, ⟨"hr", "orders"⟩, [⟨"number", .int8, -1, 1, some 1, false⟩, ⟨"note", .text, -1, 2, none, true⟩],
    0⟩, [true, true], [true, true]⟩

theorem apart_users_orders : Apart .onePerSchema [usersTable 1 "sales", ordersTable] := by
  intro x hx y hy hsame
  simp only [mem_cons, not_mem_nil, or_false] at hx hy
  obtain rfl | rfl := hx <;> obtain rfl | rfl := hy
  · exact ⟨rfl, rfl, rfl⟩
  · obtain hid | ⟨name, husers, horders⟩ := hsame
    · exact absurd hid (by decide)
    · exact absurd (husers.trans horders.symm) (by decide)
  · obtain hid | ⟨name, horders, husers⟩ := hsame
    · exact absurd hid (by decide)
    · exact absurd (horders.trans husers.symm) (by decide)
  · exact ⟨rfl, rfl, rfl⟩

/-- The first preparation of the orders stops after two calls, and the users are truncated. At the
end the users are prepared once more, which the cache answers. -/
theorem prepared_table_exists_users :
    ∃ s, (icebergMachine .caseless .onePerSchema [usersTable 1 "sales", ordersTable]).run
        emptyDestination
        [.prepareTableForStreaming (usersTable 1 "sales") none,
          .prepareTableForStreaming ordersTable (some 2), .truncateTable (usersTable 1 "sales") none,
          .prepareTableForStreaming ordersTable none] = some s ∧
      s.createdTables = ["orders_changelog", "users_changelog"] ∧
      ∃ t, (prepareTableForStreaming .caseless .onePerSchema (usersTable 1 "sales")).run ⟨s, none⟩ =
          .ok ("sales", "users_changelog") t ∧
        t.state.tables ("sales", "users_changelog") = some (cdcFields (usersTable 1 "sales")) := by
  have hinit : (icebergMachine .caseless .onePerSchema
      [usersTable 1 "sales", ordersTable]).ReachableUnder
        (fun _ input => input.On [usersTable 1 "sales", ordersTable]) emptyDestination :=
    .init ⟨rfl, rfl, nofun, nofun, nofun⟩
  have hreach := hinit.run [.prepareTableForStreaming (usersTable 1 "sales") none,
    .prepareTableForStreaming ordersTable (some 2), .truncateTable (usersTable 1 "sales") none,
    .prepareTableForStreaming ordersTable none] rfl
  have hprepared := (prepared_table_exists apart_users_orders hreach mem_cons_self none).1
  exact ⟨_, rfl, rfl, _, rfl, (hprepared _ _ rfl).1⟩

/-- The same source table with a column more. -/
def widerUsersTable (id : TableId) (schemaName : String) : ReplicatedTableSchema :=
  ⟨⟨id, ⟨schemaName, "users"⟩, [⟨"email", .text, -1, 1, none, true⟩,
    ⟨"age", .int4, -1, 2, none, true⟩], 1⟩, [true, true], [true, true]⟩

/-- When each schema has a namespace of its own, the second of two source tables with the same table
name is taken for created: there is no such table, and no metadata. And a table is taken for created
when its columns have changed. -/
theorem prepareTableForStreaming_skips_creation :
    ∃ s, (icebergMachine .caseless .onePerSchema []).Reachable s ∧
      (∃ t, (prepareTableForStreaming .caseless .onePerSchema (usersTable 2 "hr")).run ⟨s, none⟩ =
          .ok ("hr", "users_changelog") t ∧
        t.state.tables ("hr", "users_changelog") = none ∧ t.state.metadata 2 = none) ∧
      ∃ t, (prepareTableForStreaming .caseless .onePerSchema (widerUsersTable 1 "sales")).run
          ⟨s, none⟩ = .ok ("sales", "users_changelog") t ∧
        t.state.tables ("sales", "users_changelog") = some (cdcFields (usersTable 1 "sales")) ∧
        cdcFields (usersTable 1 "sales") ≠ cdcFields (widerUsersTable 1 "sales") := by
  have hinit : (icebergMachine .caseless .onePerSchema []).Reachable emptyDestination :=
    .init ⟨rfl, rfl, nofun, nofun, nofun⟩
  have hprepare := hinit.run [.prepareTableForStreaming (usersTable 1 "sales") none] rfl
  exact ⟨_, hprepare, ⟨_, rfl, rfl, rfl⟩, _, rfl, rfl, by decide⟩

end Etl.Iceberg
