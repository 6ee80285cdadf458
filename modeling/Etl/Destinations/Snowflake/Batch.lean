import Etl.Types.Cell
import Etl.Types.Event

/-! # Snowflake row batches

Rows are serialized one by one and written to a streaming compressor. When the compressed output
comes near the limit of a request, the batch is wrapped up and the next one is started. The
serialized form of a row and the compressor are parameters.

Reference: `etl-destinations/src/snowflake/streaming/batch.rs` (`next_batch`, `push_row`).
-/

namespace Etl.Snowflake

inductive Error where
  | httpTransport (message : String)
  | httpStatus (status : ℕ) (body : String)
  | auth (message : String)
  | sql (statementHandle : Option String) (message : String)
  | snowpipe (statusCode : ℕ) (message : String)
  | channel (message : String)
  | encoding (message : String)
  | config (message : String)
  deriving DecidableEq, Repr

/-- The text of an error. -/
def Error.display : Error → String
  | httpTransport message => "HTTP transport error: " ++ message
  | httpStatus status body => "HTTP status " ++ toString status ++ ": " ++ body
  | auth message => "Authentication error: " ++ message
  | sql statementHandle message =>
    "SQL error" ++ (statementHandle.map fun handle => " (handle " ++ handle ++ ")").getD "" ++
      ": " ++ message
  | snowpipe statusCode message =>
    "Snowpipe error (code " ++ toString statusCode ++ "): " ++ message
  | channel message => "Channel error: " ++ message
  | encoding message => "Encoding error: " ++ message
  | config message => "Configuration error: " ++ message

def Error.toEtlError (error : Error) : EtlError :=
  let (kind, description) : ErrorKind × String :=
    match error with
    | httpTransport _ => (.destinationError, "Snowflake HTTP transport error")
    | httpStatus status _ =>
      if 500 ≤ status ∧ status < 600 then (.destinationError, "Snowflake server error")
      else (.destinationError, "Snowflake HTTP error")
    | auth _ => (.destinationError, "Snowflake authentication failed")
    | sql _ _ => (.destinationError, "Snowflake SQL execution failed")
    | snowpipe _ _ => (.destinationError, "Snowpipe streaming error")
    | channel _ => (.destinationError, "Snowflake channel error")
    | encoding _ => (.invalidData, "Snowflake encoding error")
    | config _ => (.configError, "Snowflake configuration error")
  ⟨kind, description, some error.display⟩

/-! ## Rows -/

inductive CdcOperation where
  | insert | update | delete
  deriving DecidableEq, Repr

structure CdcMeta where
  operation : CdcOperation
  sequence : String
  deriving DecidableEq, Repr

/-- A position in the log as text. -/
abbrev OffsetToken : Type := String

def OffsetToken.zero : OffsetToken := "0000000000000000/0000000000000000"

def OffsetToken.new (commitLsn : PgLsn) (txOrdinal : ℕ) : OffsetToken :=
  EventSequenceKey.display ⟨commitLsn, txOrdinal⟩

/-- The serialized form of rows, and the compressor with the output it has written so far. -/
structure RowFormat where
  serializeRow : List ColumnSchema → TableRow → CdcMeta → Except Error (List UInt8)
  Encoder : Type
  newEncoder : Encoder
  write : Encoder → List UInt8 → Encoder
  flush : Encoder → Encoder
  outputLength : Encoder → ℕ
  finish : Encoder → List UInt8

def MAX_COMPRESSED_BYTES : ℕ := 4 * 1024 * 1024

def BATCH_SPLIT_THRESHOLD : ℕ := 3800000

def MAX_UNFLUSHED_BYTES : ℕ := 128 * 1024

def MAX_UNCOMPRESSED_ROW_BYTES : ℕ := 2 * 1024 * 1024

/-! ## The builder -/

/-- Rows ready to be sent. -/
structure RowBatch where
  data : List UInt8
  rowCount : ℕ
  offset : OffsetToken
  deriving DecidableEq, Repr

/-- The batches so far, and the one that is being written. -/
structure RowBatchBuilder (format : RowFormat) where
  encoder : format.Encoder := format.newEncoder
  currentRowCount : ℕ := 0
  currentOffset : OffsetToken := OffsetToken.zero
  inputSinceFlush : ℕ := 0
  batches : List RowBatch := []

namespace RowBatchBuilder

variable {format : RowFormat} (builder : RowBatchBuilder format)

/-- Wraps up the batch and starts another. -/
def nextBatch : RowBatchBuilder format :=
  { batches := builder.batches ++
      [⟨format.finish builder.encoder, builder.currentRowCount, builder.currentOffset⟩] }

/-- Makes room for a row: flushes the compressor from time to time, and then starts another batch
when the output comes near the limit. -/
def makeRoom (rowLength : ℕ) : RowBatchBuilder format :=
  if MAX_UNFLUSHED_BYTES ≤ builder.inputSinceFlush + rowLength then
    let flushed :=
      { builder with encoder := format.flush builder.encoder, inputSinceFlush := 0 }
    if 0 < flushed.currentRowCount ∧
        BATCH_SPLIT_THRESHOLD < format.outputLength flushed.encoder + rowLength then
      flushed.nextBatch
    else flushed
  else builder

/-- Adds a row. -/
def pushRow (columns : List ColumnSchema) (row : TableRow) (cdc : CdcMeta) (offset : OffsetToken) :
    Except Error (RowBatchBuilder format) := do
  let scratch ← format.serializeRow columns row cdc
  if MAX_UNCOMPRESSED_ROW_BYTES < scratch.length then
    .error (.encoding ("single row exceeds " ++ toString MAX_UNCOMPRESSED_ROW_BYTES ++
      "B limit (" ++ toString scratch.length ++ "B uncompressed)"))
  else
    let builder := builder.makeRoom scratch.length
    return { builder with
      encoder := format.write builder.encoder scratch
      inputSinceFlush := builder.inputSinceFlush + scratch.length
      currentRowCount := builder.currentRowCount + 1
      currentOffset := offset }

/-- All batches. -/
def finish : Except Error (List RowBatch) :=
  if 0 < builder.currentRowCount then
    let compressed := format.finish builder.encoder
    if MAX_COMPRESSED_BYTES < compressed.length then
      .error (.encoding ("compressed batch exceeds " ++ toString MAX_COMPRESSED_BYTES ++
        "B API limit (" ++ toString compressed.length ++ "B compressed)"))
    else
      .ok (builder.batches ++ [⟨compressed, builder.currentRowCount, builder.currentOffset⟩])
  else .ok builder.batches

/-- Builders that rows were pushed to. -/
inductive Built : RowBatchBuilder format → Prop
  | empty : Built {}
  | pushRow {builder builder' : RowBatchBuilder format} {columns : List ColumnSchema}
      {row : TableRow} {cdc : CdcMeta} {offset : OffsetToken} : Built builder →
      builder.pushRow columns row cdc offset = .ok builder' → Built builder'

variable {builder}

theorem exists_pushRow {columns : List ColumnSchema} {row : TableRow} {cdc : CdcMeta}
    {bytes : List UInt8} (hbytes : format.serializeRow columns row cdc = .ok bytes)
    (hlength : bytes.length ≤ MAX_UNCOMPRESSED_ROW_BYTES) (offset : OffsetToken) :
    ∃ builder', builder.pushRow columns row cdc offset = .ok builder' ∧
      0 < builder'.currentRowCount := by
  rw [pushRow, hbytes]
  refine ⟨_, if_neg (Nat.not_lt.mpr hlength), Nat.succ_pos _⟩

/-- Rows that were pushed are in some batch. -/
theorem finish_ne_nil {batches : List RowBatch} (hrows : 0 < builder.currentRowCount)
    (hfinish : builder.finish = .ok batches) : batches ≠ [] := by
  rw [finish] at hfinish
  dsimp only at hfinish
  split_ifs at hfinish
  rw [← Except.ok.inj hfinish]
  exact List.append_ne_nil_of_right_ne_nil _ (List.cons_ne_nil _ _)

end RowBatchBuilder

end Etl.Snowflake
