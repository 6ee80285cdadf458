import Etl.Common.BalancedSplit
import Etl.Destinations.BigQuery.Encoding

/-! # Batches of copied rows

How the rows of a table copy are cut into append requests. The number of batches comes from the
encoded length of the first row and the request limit of the client, which is a parameter here; the
rows are then spread evenly over the batches.

When all rows have one length, the batches keep to the limit as soon as two rows fit into a request
(`copyBatches_within_iff`). When only one does, as many batches as rows are asked for, and this is
taken as a request for a single batch with all of them (`copyBatches_large_rows_exceed`).

Reference: `etl-destinations/src/bigquery/core.rs` (`split_table_rows`).
-/

namespace Etl.BigQuery

open List

open BalancedSplit

/-- A row as it is sent: its cells with the tags of their fields. -/
abbrev EncodedRow : Type := List (ℕ × CellNonOptional)

section Batches

variable (formats : CellFormats) (maxBatchSizeBytes : ℕ)

/-- How many batches to make of the rows. -/
def calculateTargetBatchesForTableCopy (tableRows : List EncodedRow) : ℕ :=
  match tableRows.head? with
  | none => 0
  | some encodedRow =>
    let totalRows := tableRows.length
    let estimatedRowSize := encodedLen formats encodedRow
    let rowsPerBatch :=
      if 0 < estimatedRowSize then maxBatchSizeBytes / estimatedRowSize else totalRows
    if 0 < rowsPerBatch then totalRows ⌈/⌉ rowsPerBatch else 1

/-- Splits the rows into about as many batches as asked for. The source's division panics when there
are two rows or more and no batch is asked for; a copy never does that
(`calculateTargetBatchesForTableCopy_pos`). -/
def splitTableRows (tableRows : List EncodedRow) (targetBatches : ℕ) : List (List EncodedRow) :=
  let totalRows := tableRows.length
  if totalRows = 0 then []
  else if totalRows ≤ 1 ∨ targetBatches = 1 ∨ totalRows ≤ targetBatches then [tableRows]
  else
    let optimalRowsPerBatch := totalRows ⌈/⌉ targetBatches
    if optimalRowsPerBatch = 0 then [tableRows]
    else
      let numSubBatches := totalRows ⌈/⌉ optimalRowsPerBatch
      (splitOffParts (partSizes totalRows numSubBatches) tableRows).1

/-- The batches of a table copy. -/
def copyBatches (tableRows : List EncodedRow) : List (List EncodedRow) :=
  splitTableRows tableRows (calculateTargetBatchesForTableCopy formats maxBatchSizeBytes tableRows)

def batchSize (batch : List EncodedRow) : ℕ := (batch.map (encodedLen formats)).sum

/-- The batches have the rows in order, none is empty and none is over the limit. -/
structure SplitsWithin (tableRows : List EncodedRow) (batches : List (List EncodedRow)) : Prop where
  nonempty : ∀ batch ∈ batches, batch ≠ []
  flatten : batches.flatten = tableRows
  size_le : ∀ batch ∈ batches, batchSize formats batch ≤ maxBatchSizeBytes

end Batches

/-! ## Sizes of batches -/

section Sizes

variable {formats : CellFormats} {maxBatchSizeBytes size : ℕ} {tableRows : List EncodedRow}
  {batch : List EncodedRow}

theorem batchSize_of_forall (hbatch : ∀ row ∈ batch, encodedLen formats row = size) :
    batchSize formats batch = batch.length * size := by
  rw [batchSize, map_congr_left hbatch, map_const', sum_replicate, smul_eq_mul]

/-- At least one batch is asked for rows. -/
theorem calculateTargetBatchesForTableCopy_pos (hrows : tableRows ≠ []) :
    0 < calculateTargetBatchesForTableCopy formats maxBatchSizeBytes tableRows := by
  obtain ⟨row, rest, rfl⟩ := exists_cons_of_ne_nil hrows
  have hceil {rowsPerBatch : ℕ} (hper : 0 < rowsPerBatch) :
      0 < (row :: rest).length ⌈/⌉ rowsPerBatch := by
    rw [Nat.ceilDiv_eq_add_pred_div, Nat.div_pos_iff, length_cons]
    omega
  simp only [calculateTargetBatchesForTableCopy, head?_cons]
  split_ifs with hsize hper hper
  · exact hceil hper
  · exact Nat.one_pos
  · exact hceil hper
  · exact Nat.one_pos

/-- Splitting keeps the rows and their order whatever number of batches is asked for, and no batch
is empty. -/
theorem splitTableRows_spec (tableRows : List EncodedRow) (targetBatches : ℕ) :
    (∀ batch ∈ splitTableRows tableRows targetBatches, batch ≠ []) ∧
      (splitTableRows tableRows targetBatches).flatten = tableRows := by
  have hone : tableRows ≠ [] →
      (∀ batch ∈ [tableRows], batch ≠ []) ∧ [tableRows].flatten = tableRows := by
    intro hrows
    simpa using hrows
  rw [splitTableRows]
  dsimp only
  split_ifs with hempty hsingle hoptimal
  · simpa using length_eq_zero_iff.mp hempty
  · exact hone (mt length_eq_zero_iff.mpr hempty)
  · exact hone (mt length_eq_zero_iff.mpr hempty)
  · set optimal := tableRows.length ⌈/⌉ targetBatches
    set count := tableRows.length ⌈/⌉ optimal
    have hcount_le : count ≤ tableRows.length := by
      rw [ceilDiv_le_iff_le_mul (by omega)]
      exact Nat.le_mul_of_pos_left _ (by omega)
    have hcount : 0 < count := by
      by_contra hzero
      have := (ceilDiv_le_iff_le_mul (c := 0) (b := tableRows.length) (a := optimal)
        (by omega)).mp (by omega)
      omega
    have hsum : (partSizes tableRows.length count).sum = tableRows.length := sum_partSizes hcount
    rw [splitOffParts_eq]
    refine ⟨?_, flatten_splitLengths _ _ hsum.ge⟩
    intro batch hbatch hnil
    have hmem : batch.length ∈ partSizes tableRows.length count := by
      rw [← map_splitLengths_length tableRows _ hsum.le]
      exact mem_map_of_mem hbatch
    obtain ⟨i, -, hi⟩ := mem_map.mp hmem
    have hpos := partSize_pos hcount_le hcount i
    rw [hi, hnil] at hpos
    exact absurd hpos (lt_irrefl 0)

/-- When `rowsPerBatch` is at least two and the number of batches is calculated from it, no batch
has more rows. -/
theorem length_le_of_mem_splitTableRows {rowsPerBatch : ℕ} (hrows : 2 ≤ rowsPerBatch)
    (hbatch : batch ∈ splitTableRows tableRows (tableRows.length ⌈/⌉ rowsPerBatch)) :
    batch.length ≤ rowsPerBatch := by
  have htarget_mul : tableRows.length ≤ rowsPerBatch * (tableRows.length ⌈/⌉ rowsPerBatch) :=
    (ceilDiv_le_iff_le_mul (by omega)).mp le_rfl
  have htarget_le : tableRows.length ⌈/⌉ rowsPerBatch ≤ (tableRows.length + 1) / 2 := by
    rw [ceilDiv_le_iff_le_mul (by omega)]
    calc tableRows.length ≤ 2 * ((tableRows.length + 1) / 2) := by omega
      _ ≤ rowsPerBatch * ((tableRows.length + 1) / 2) := Nat.mul_le_mul_right _ hrows
  set target := tableRows.length ⌈/⌉ rowsPerBatch
  rw [splitTableRows] at hbatch
  dsimp only at hbatch
  split_ifs at hbatch with hempty hsingle hoptimal
  · exact absurd hbatch not_mem_nil
  · rw [mem_singleton.mp hbatch]
    -- asking for one batch per row happens for a single row only
    rcases hsingle with hsingle | hsingle | hsingle
    · omega
    · rw [hsingle, mul_one] at htarget_mul
      exact htarget_mul
    · omega
  · have := (ceilDiv_le_iff_le_mul (c := 0) (b := tableRows.length) (a := target)
      (by by_contra hzero; simp_all)).mp hoptimal.le
    omega
  · set optimal := tableRows.length ⌈/⌉ target
    set count := tableRows.length ⌈/⌉ optimal
    have htarget : 0 < target := by
      by_contra hzero
      simp_all
    have hoptimal_le : optimal ≤ rowsPerBatch := by
      rw [ceilDiv_le_iff_le_mul htarget, mul_comm]
      exact htarget_mul
    have hcount_mul : tableRows.length ≤ count * optimal := by
      rw [mul_comm]
      exact (ceilDiv_le_iff_le_mul (by omega)).mp le_rfl
    rw [splitOffParts_eq] at hbatch
    refine length_mem_splitLengths tableRows _ rowsPerBatch ?_ batch hbatch
    intro part hpart
    obtain ⟨i, -, rfl⟩ := mem_map.mp hpart
    exact (partSize_le hcount_mul i).trans hoptimal_le

/-- The number of batches for rows of one length, when at least one row fits. -/
theorem calculateTargetBatchesForTableCopy_of_forall (hnonempty : tableRows ≠ [])
    (hrows : ∀ row ∈ tableRows, encodedLen formats row = size) (hpos : 0 < size)
    (hsize : size ≤ maxBatchSizeBytes) :
    calculateTargetBatchesForTableCopy formats maxBatchSizeBytes tableRows =
      tableRows.length ⌈/⌉ (maxBatchSizeBytes / size) := by
  obtain ⟨first, rest, rfl⟩ := exists_cons_of_ne_nil hnonempty
  have hfirst := hrows first mem_cons_self
  rw [calculateTargetBatchesForTableCopy]
  simp only [List.head?_cons, hfirst, if_pos hpos, if_pos (Nat.div_pos hsize hpos)]

/-- When a request has room for one row only, as many batches as rows are asked for, which is taken
as one batch. -/
theorem not_splitsWithin_of_lt (hrows : ∀ row ∈ tableRows, encodedLen formats row = size)
    (hsize : size ≤ maxBatchSizeBytes) (hlength : 1 < tableRows.length)
    (hlarge : maxBatchSizeBytes < 2 * size) :
    ¬ SplitsWithin formats maxBatchSizeBytes tableRows
      (copyBatches formats maxBatchSizeBytes tableRows) := by
  have hone : maxBatchSizeBytes / size = 1 := Nat.div_eq_of_lt_le (by omega) (by omega)
  have hbatches : copyBatches formats maxBatchSizeBytes tableRows = [tableRows] := by
    rw [copyBatches, calculateTargetBatchesForTableCopy_of_forall
      (ne_nil_of_length_pos (by omega)) hrows (by omega) hsize, hone, ceilDiv_one,
      splitTableRows]
    rw [if_neg (by omega), if_pos (.inr (.inr le_rfl))]
  intro hwithin
  have hle := hwithin.size_le tableRows (by rw [hbatches]; exact mem_singleton_self _)
  rw [batchSize_of_forall hrows] at hle
  have hmul : 2 * size ≤ tableRows.length * size := Nat.mul_le_mul_right size hlength
  omega

/-- The batches keep to the limit exactly when there is at most one row or two rows fit into a
request. -/
theorem copyBatches_within_iff (formats : CellFormats) (maxBatchSizeBytes size : ℕ)
    (tableRows : List EncodedRow)
    (hrows : ∀ row ∈ tableRows, encodedLen formats row = size) (hsize : size ≤ maxBatchSizeBytes) :
    SplitsWithin formats maxBatchSizeBytes tableRows
        (copyBatches formats maxBatchSizeBytes tableRows) ↔
      tableRows.length ≤ 1 ∨ 2 * size ≤ maxBatchSizeBytes := by
  have hspec := splitTableRows_spec tableRows
    (calculateTargetBatchesForTableCopy formats maxBatchSizeBytes tableRows)
  have hsizes : ∀ batch ∈ copyBatches formats maxBatchSizeBytes tableRows,
      batchSize formats batch = batch.length * size := by
    intro batch hbatch
    refine batchSize_of_forall fun row hrow => hrows row ?_
    rw [← hspec.2]
    exact mem_flatten_of_mem hbatch hrow
  constructor
  -- two rows over the limit: one batch takes all of them
  · intro hwithin
    by_contra hlarge
    rw [not_or, not_le, not_le] at hlarge
    exact not_splitsWithin_of_lt hrows hsize hlarge.1 hlarge.2 hwithin
  · intro hfits
    refine ⟨hspec.1, hspec.2, ?_⟩
    intro batch hbatch
    rw [hsizes batch hbatch]
    have hbatch_le : batch.length ≤ tableRows.length := by
      have hsub := sublist_flatten_of_mem hbatch
      rw [copyBatches, hspec.2] at hsub
      exact hsub.length_le
    rcases Nat.eq_zero_or_pos size with rfl | hpos
    · exact Nat.zero_le _
    · rcases hfits with hsmall | htwo
      · calc batch.length * size ≤ 1 * size := Nat.mul_le_mul_right size (hbatch_le.trans hsmall)
          _ ≤ maxBatchSizeBytes := by rw [one_mul]; exact hsize
      -- two rows fit, so the batches have as many rows as fit at most
      · have hnonempty : tableRows ≠ [] := by
          rintro rfl
          exact hspec.1 batch hbatch (length_eq_zero_iff.mp (Nat.le_zero.mp hbatch_le))
        rw [copyBatches, calculateTargetBatchesForTableCopy_of_forall hnonempty hrows hpos hsize]
          at hbatch
        have htwo_le : 2 ≤ maxBatchSizeBytes / size := (Nat.le_div_iff_mul_le hpos).mpr htwo
        calc batch.length * size
            ≤ maxBatchSizeBytes / size * size :=
              Nat.mul_le_mul_right size (length_le_of_mem_splitTableRows htwo_le hbatch)
          _ ≤ maxBatchSizeBytes := Nat.div_mul_le_self _ _

end Sizes

/-! ## Rows with one large value -/

/-- A copied row with one column of `length` bytes. -/
def blobRow (length : ℕ) : EncodedRow :=
  [(1, .bytes (List.replicate length 0)), (2, .string BigQueryOperationType.upsert.display)]

theorem encodedLen_blobRow (formats : CellFormats) (length : ℕ) :
    encodedLen formats (blobRow length) =
      Protobuf.encodedLenVarint length + length + 9 := by
  have hbytes : cellEncodeLenProst formats 1 (.bytes (List.replicate length 0)) =
      1 + (Protobuf.encodedLenVarint length + length) := by
    rw [cellEncodeLenProst, Protobuf.encodedLenField, Protobuf.WireValue.ofBytes,
      Protobuf.WireValue.payloadLen, length_replicate]
    rfl
  have hupsert : cellEncodeLenProst formats 2
      (.string BigQueryOperationType.upsert.display) = 8 := by
    rw [cellEncodeLenProst]
    decide +kernel
  calc encodedLen formats (blobRow length)
      = cellEncodeLenProst formats 1 (.bytes (List.replicate length 0)) +
          cellEncodeLenProst formats 2 (.string BigQueryOperationType.upsert.display) := by
        simp [encodedLen, blobRow]
    _ = Protobuf.encodedLenVarint length + length + 9 := by
        omega

/-- Twenty rows of a mebibyte are spread over batches below ten mebibytes. -/
theorem copyBatches_within_mebibyte_rows :
    SplitsWithin plainFormats (10 * 2 ^ 20) (List.replicate 20 (blobRow (2 ^ 20)))
      (copyBatches plainFormats (10 * 2 ^ 20) (List.replicate 20 (blobRow (2 ^ 20)))) := by
  have hsize : encodedLen plainFormats (blobRow (2 ^ 20)) = 2 ^ 20 + 12 := by
    rw [encodedLen_blobRow]
    decide
  refine (copyBatches_within_iff plainFormats (10 * 2 ^ 20) (2 ^ 20 + 12) _ ?_ (by decide)).mpr
    (.inr (by decide))
  intro row hrow
  rw [eq_of_mem_replicate hrow, hsize]

/-- Two rows of six mebibytes each fit into a request of ten (or nine) mebibytes, but they are put
into one batch. -/
theorem copyBatches_large_rows_exceed :
    encodedLen plainFormats (blobRow (6 * 2 ^ 20)) ≤ 9 * 2 ^ 20 ∧
      ¬ SplitsWithin plainFormats (9 * 2 ^ 20) [blobRow (6 * 2 ^ 20), blobRow (6 * 2 ^ 20)]
        (copyBatches plainFormats (9 * 2 ^ 20) [blobRow (6 * 2 ^ 20), blobRow (6 * 2 ^ 20)]) ∧
      ¬ SplitsWithin plainFormats (10 * 2 ^ 20) [blobRow (6 * 2 ^ 20), blobRow (6 * 2 ^ 20)]
        (copyBatches plainFormats (10 * 2 ^ 20) [blobRow (6 * 2 ^ 20), blobRow (6 * 2 ^ 20)]) := by
  have hsize : encodedLen plainFormats (blobRow (6 * 2 ^ 20)) = 6 * 2 ^ 20 + 13 := by
    rw [encodedLen_blobRow]
    decide
  have hrows : ∀ row ∈ [blobRow (6 * 2 ^ 20), blobRow (6 * 2 ^ 20)],
      encodedLen plainFormats row = 6 * 2 ^ 20 + 13 := by
    intro row hrow
    rw [eq_of_mem_replicate (n := 2) hrow, hsize]
  refine ⟨by rw [hsize]; decide, ?_, ?_⟩
  all_goals exact not_splitsWithin_of_lt hrows (by decide) Nat.one_lt_two (by decide)


end Etl.BigQuery
