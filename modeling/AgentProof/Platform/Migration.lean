import AgentProof.Platform.Versioning
import Mathlib.Data.List.Nodup

/-!
# Platform/Migration — content hashes for the versions there are

Revision `9a1faddf3548` adds `content_hash` to `agent_versions`: nullable at first, then backfilled
row by row, then `NOT NULL` and `UNIQUE`.

The schema before it admits two rows with one content, and so did `create_agent_version`; their
hashes are equal, and the unique constraint cannot be created.  **The migration succeeds exactly on
the tables whose rows differ in content** (`upgrade_iff`).
-/

open Machinery

namespace AgentProof

/-- A row of `agent_versions` before the revision. -/
structure AgentVersionRow where
  id : UUID
  name : String
  gitSha : String
  model : String
  systemPrompt : String
  toolSchemaHash : String
  config : Json
  createdAt : Timestamp
  deriving DecidableEq

/-- A row with the new column. -/
structure HashedRow extends AgentVersionRow where
  contentHash : Option String
  deriving DecidableEq

/-- The content of a row. -/
def AgentVersionRow.content (row : AgentVersionRow) : Content where
  model := row.model
  systemPrompt := row.systemPrompt
  toolSchemaHash := row.toolSchemaHash
  config := row.config

/-! ## The statements of the migration -/

/-- `op.add_column("agent_versions", sa.Column("content_hash", sa.String(), nullable=True))` -/
def addColumn (rows : List AgentVersionRow) : List HashedRow :=
  rows.map fun row => { row with contentHash := none }

/-- `UPDATE agent_versions SET content_hash = … WHERE id = …` -/
def updateHash (id : UUID) (contentHash : String) (table : List HashedRow) : List HashedRow :=
  table.map fun row => if row.id = id then { row with contentHash := some contentHash } else row

/-- `op.alter_column("agent_versions", "content_hash", nullable=False)` -/
def setNotNull (table : List HashedRow) : Except PyError (List HashedRow) :=
  if table.all fun row => row.contentHash.isSome then .ok table
  else .error (.other "IntegrityError" "column \"content_hash\" contains null values")

/-- `op.create_unique_constraint("uq_agent_versions_content_hash", …)` -/
def createUnique (table : List HashedRow) : Except PyError (List HashedRow) :=
  if (table.map fun row => row.contentHash).Nodup then .ok table
  else .error (.other "IntegrityError"
    "could not create unique index \"uq_agent_versions_content_hash\"")

section

variable [Interpreter] [Sha256]

/-- The loop over the rows that were there. -/
def backfill : List HashedRow → List HashedRow → List HashedRow
  | [], table => table
  | row :: existingRows, table =>
    backfill existingRows
      (updateHash row.id (computeAgentVersionContentHash row.content) table)

/-- `upgrade` -/
def upgrade (rows : List AgentVersionRow) : Except PyError (List HashedRow) := do
  let table := addColumn rows
  let table ← setNotNull (backfill table table)
  createUnique table

/-! ## What it leaves -/

/-- The row with its hash. -/
def AgentVersionRow.hashed (row : AgentVersionRow) : HashedRow :=
  { row with contentHash := some (computeAgentVersionContentHash row.content) }

/-- What the rest of the loop makes of one row. -/
theorem backfill_eq_map : ∀ (existingRows table : List HashedRow),
    backfill existingRows table = table.map fun row => existingRows.foldl
      (fun row existing => if row.id = existing.id then
        { row with contentHash := some (computeAgentVersionContentHash existing.content) } else row)
      row
  | [], table => by simp [backfill]
  | existing :: existingRows, table => by
    rw [backfill, backfill_eq_map existingRows, updateHash, List.map_map]
    rfl

/-- The updates of other rows leave a row as it is. -/
theorem foldl_update_of_forall_ne {row : HashedRow} {existingRows : List HashedRow}
    (h : ∀ existing ∈ existingRows, row.id ≠ existing.id) :
    existingRows.foldl (fun row existing => if row.id = existing.id then
      { row with contentHash := some (computeAgentVersionContentHash existing.content) } else row)
      row = row := by
  induction existingRows with
  | nil => rfl
  | cons existing existingRows ih =>
    rw [List.foldl_cons, if_neg (h existing List.mem_cons_self)]
    exact ih fun existing hmem => h existing (List.mem_cons_of_mem _ hmem)

/-- Its own update gives it its hash, when no other row has its id. -/
theorem foldl_update_of_mem {row : HashedRow} {existingRows : List HashedRow}
    (hids : (existingRows.map fun existing => existing.id).Nodup) (hmem : row ∈ existingRows) :
    existingRows.foldl (fun row existing => if row.id = existing.id then
      { row with contentHash := some (computeAgentVersionContentHash existing.content) } else row)
      row = row.hashed := by
  induction existingRows with
  | nil => exact absurd hmem (by simp)
  | cons existing existingRows ih =>
    obtain ⟨hid, hids⟩ := List.nodup_cons.mp hids
    have hother : ∀ other ∈ existingRows, existing.id ≠ other.id := fun other hother heq =>
      hid (List.mem_map.mpr ⟨other, hother, heq.symm⟩)
    rcases List.mem_cons.mp hmem with rfl | hmem
    · rw [List.foldl_cons, if_pos rfl]
      exact foldl_update_of_forall_ne hother
    · rw [List.foldl_cons, if_neg (hother row hmem).symm]
      exact ih hids hmem

/-- **The backfill gives every row its own hash.** -/
theorem backfill_addColumn {rows : List AgentVersionRow}
    (hids : (rows.map fun row => row.id).Nodup) :
    backfill (addColumn rows) (addColumn rows) = rows.map AgentVersionRow.hashed := by
  have hids' : ((addColumn rows).map fun row => row.id).Nodup := by
    rw [addColumn, List.map_map]
    exact hids
  rw [backfill_eq_map, addColumn, List.map_map]
  refine List.map_congr_left fun row hmem => ?_
  exact foldl_update_of_mem hids' (List.mem_map.mpr ⟨row, hmem, rfl⟩)

/-- What the migration is to leave of a table: every row, with its own hash, and no two hashes the
same. -/
structure Migrated (rows : List AgentVersionRow) (table : List HashedRow) : Prop where
  kept : table.map (fun row => row.toAgentVersionRow) = rows
  hash_eq : ∀ row ∈ table, row.contentHash = some (computeAgentVersionContentHash row.content)
  hashes_nodup : (table.map fun row => row.contentHash).Nodup

/-- The upgrade completes, and leaves what it is to leave. -/
def Migrates (rows : List AgentVersionRow) : Prop :=
  ∃ table, upgrade rows = .ok table ∧ Migrated rows table

/-- The upgrade of a table with distinct ids is the last statement on the hashed rows. -/
theorem upgrade_eq {rows : List AgentVersionRow} (hids : (rows.map fun row => row.id).Nodup) :
    upgrade rows = createUnique (rows.map AgentVersionRow.hashed) := by
  have hall : ((rows.map AgentVersionRow.hashed).all fun row => row.contentHash.isSome) = true := by
    simp [AgentVersionRow.hashed]
  rw [upgrade, backfill_addColumn hids, setNotNull, if_pos hall]
  rfl

/-- The unique constraint is created exactly when the hashes are distinct. -/
theorem migrates_iff_nodup {rows : List AgentVersionRow}
    (hids : (rows.map fun row => row.id).Nodup) :
    Migrates rows ↔ (rows.map fun row => computeAgentVersionContentHash row.content).Nodup := by
  have hhashes : ((rows.map AgentVersionRow.hashed).map fun row => row.contentHash) =
      (rows.map fun row => computeAgentVersionContentHash row.content).map some := by
    rw [List.map_map, List.map_map]
    rfl
  have hnodup : ((rows.map AgentVersionRow.hashed).map fun row => row.contentHash).Nodup ↔
      (rows.map fun row => computeAgentVersionContentHash row.content).Nodup := by
    rw [hhashes, List.nodup_map_iff (Option.some_injective String)]
  rw [Migrates, upgrade_eq hids, createUnique]
  constructor
  · rintro ⟨table, htable, -⟩
    split_ifs at htable with hdistinct
    exact hnodup.mp hdistinct
  · intro hdistinct
    refine ⟨_, if_pos (hnodup.mpr hdistinct), ?_, ?_, hnodup.mpr hdistinct⟩
    · rw [List.map_map]
      exact List.map_id rows
    · intro row hmem
      obtain ⟨row, -, rfl⟩ := List.mem_map.mp hmem
      rfl

/-- **The migration succeeds exactly on the tables whose rows differ in content**, where SHA-256
confuses no texts. -/
theorem upgrade_iff (hsha : Function.Injective Sha256.hexdigest) {p : PyFloat → Bool}
    (hrepr : ReprFloat p) {rows : List AgentVersionRow}
    (hids : (rows.map fun row => row.id).Nodup)
    (hfloats : ∀ row ∈ rows, row.config.floatsAll p = true) :
    Migrates rows ↔ rows.Pairwise fun row row' => ¬ row.content.Same row'.content := by
  rw [migrates_iff_nodup hids, List.Nodup, List.pairwise_map]
  refine List.Pairwise.iff_of_mem fun {row row'} hmem hmem' => not_congr ?_
  exact Content.hash_eq_iff hsha hrepr (hfloats row hmem) (hfloats row' hmem')

end

/-! ### Two rows for one agent -/

/-- The row of an agent, as `create_agent_version` wrote it before the revision. -/
def rowOf (payload : AgentVersionCreate) (id : UUID) : AgentVersionRow where
  id := id
  name := payload.name
  gitSha := payload.gitSha
  model := payload.model
  systemPrompt := payload.systemPrompt
  toolSchemaHash := payload.toolSchemaHash
  config := .obj payload.config
  createdAt := 0

/-- **Two rows for one agent are not migrated**: the unique constraint is violated. -/
theorem not_migrates :
    let _ := cpython
    let _ := sha256
    let rows := [rowOf referenceAgent "version 1", rowOf renamedAgent "version 2"]
    (rows.map fun row => row.id).Nodup ∧
      upgrade rows = .error (.other "IntegrityError"
        "could not create unique index \"uq_agent_versions_content_hash\"") ∧ ¬ Migrates rows := by
  intro _ _ rows
  have hupgrade : upgrade rows = .error (.other "IntegrityError"
      "could not create unique index \"uq_agent_versions_content_hash\"") := by decide +kernel
  refine ⟨by decide, hupgrade, ?_⟩
  rintro ⟨table, htable, -⟩
  cases hupgrade.symm.trans htable

/-- Two agents are migrated. -/
theorem upgrade_iff_two :
    let _ := cpython
    let _ := sha256
    Migrates [rowOf referenceAgent "version 1",
      { rowOf renamedAgent "version 2" with systemPrompt := "Refuse the request." }] := by
  intro _ _
  refine (upgrade_iff sha256_injective reprFloat_false ?_ ?_).mpr ?_ <;> decide +kernel

end AgentProof
