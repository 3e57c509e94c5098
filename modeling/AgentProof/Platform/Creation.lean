import AgentProof.Platform.Postgres

/-!
# Platform/Creation — concurrent creation of agent versions

Any number of `create_agent_version` transactions, their statements in any interleaving.  A lookup
that finds no row says nothing about the table at the insert; what makes the calls agree is the
uniqueness failure: the row an insert conflicts with is committed, and stays.

`Creating` says where a transaction stands after its commands so far, and what the table then holds
for it.
-/

open Machinery Machinery.Prog

namespace AgentProof

/-! ## The transactions -/

/-- The transactions that create versions. -/
abbrev Creations (ι : Type) : Type :=
  Threads PyError SessionCommand SessionCommand.Resp Tables ι AgentVersion

variable [Interpreter] [Sha256] {ι : Type} (now : ι → Timestamp) (newId : ι → UUID)
  (payload : ι → AgentVersionCreate)

/-- Each transaction is to create a version of its own. -/
def Creations.initial (db : Tables) : Creations ι where
  shared := db
  thread i := PostgresStore.createAgentVersion (now i) (newId i) (payload i)

/-- The content hash of a transaction. -/
def Creations.hash (i : ι) : String := computeAgentVersionContentHash (payload i).content

/-- The row a transaction is to insert. -/
def Creations.row (i : ι) : AgentVersion :=
  (payload i).version (hash payload i) (newId i) (now i)

/-- The transaction has returned a version. -/
def Creations.Returned (t : Creations ι) (i : ι) : Prop := ∃ version, t.thread i = .done (.ok version)

/-- **The calls agree.** -/
structure Creations.Agree (t : Creations ι) : Prop where
  noError : ∀ i e, t.thread i ≠ .done (.error e)
  committed : ∀ i version, t.thread i = .done (.ok version) →
    version ∈ t.shared.versions ∧ version.contentHash = hash payload i
  sameId : ∀ i j version version', t.thread i = .done (.ok version) →
    t.thread j = .done (.ok version') → hash payload i = hash payload j → version.id = version'.id
  hashes_nodup : t.shared.HashesNodup

/-! ## Where a transaction stands -/

/-- Where a transaction stands after `n` commands, over the committed rows. -/
inductive Creating (rows : List AgentVersion) (i : ι) : ℕ → Session AgentVersion → Prop where
  | start : Creating rows i 0 (PostgresStore.createAgentVersion (now i) (newId i) (payload i))
  | inserting : Creating rows i 1 (PostgresStore.insertVersion (Creations.row now newId payload i))
  | refused {row : AgentVersion} (hmem : row ∈ rows)
      (hhash : row.contentHash = Creations.hash payload i) :
      Creating rows i 2 (PostgresStore.requery (Creations.hash payload i))
  | rolledBack {row : AgentVersion} (hmem : row ∈ rows)
      (hhash : row.contentHash = Creations.hash payload i) :
      Creating rows i 3 (PostgresStore.lookupAgain (Creations.hash payload i))
  | returned {row : AgentVersion} {n : ℕ} (hn : n ≤ 4) (hmem : row ∈ rows)
      (hhash : row.contentHash = Creations.hash payload i) : Creating rows i n (.done (.ok row))

variable {now newId payload} {rows : List AgentVersion} {i : ι} {n : ℕ}

/-- More rows keep a transaction where it stands. -/
theorem Creating.mono {program : Session AgentVersion}
    (h : Creating now newId payload rows i n program) {rows' : List AgentVersion}
    (hrows : rows ⊆ rows') : Creating now newId payload rows' i n program := by
  cases h with
  | start => exact .start
  | inserting => exact .inserting
  | refused hmem hhash => exact .refused (hrows hmem) hhash
  | rolledBack hmem hhash => exact .rolledBack (hrows hmem) hhash
  | returned hn hmem hhash => exact .returned hn (hrows hmem) hhash

/-- A transaction that has ended has returned a row of its hash. -/
theorem Creating.of_done {r : Except PyError AgentVersion}
    (h : Creating now newId payload rows i n (.done r)) :
    ∃ row ∈ rows, row.contentHash = Creations.hash payload i ∧ r = .ok row := by
  generalize hp : (Prog.done r : Session AgentVersion) = p at h
  cases h with
  | start => cases hp
  | inserting => cases hp
  | refused => cases hp
  | rolledBack => cases hp
  | @returned row _ _ hmem hhash => exact ⟨row, hmem, hhash, Prog.done.inj hp⟩

/-- A transaction that goes on has issued fewer than four commands. -/
theorem Creating.lt_of_call {c : SessionCommand}
    {k : Except PyError c.Resp → Session AgentVersion}
    (h : Creating now newId payload rows i n (.call c k)) : n < 4 := by
  generalize hp : (Prog.call c k : Session AgentVersion) = p at h
  cases h with
  | returned => cases hp
  | _ => omega

/-! ## The invariant -/

namespace Creations

variable [DecidableEq ι]

/-- The committed rows are those there were and the rows of transactions that have returned, their
hashes are distinct, and every transaction stands where its commands have brought it. -/
structure Inv (now : ι → Timestamp) (newId : ι → UUID) (payload : ι → AgentVersionCreate)
    (db : Tables) (labels : List ι) (t : Creations ι) : Prop where
  hashes_nodup : t.shared.HashesNodup
  rows : ∃ created : Dict UUID AgentVersion, t.shared.agentVersions = db.agentVersions ++ created ∧
    ∀ entry ∈ created, ∃ j, entry = (newId j, row now newId payload j) ∧
      t.thread j = .done (.ok entry.2)
  stands : ∀ i, Creating now newId payload t.shared.versions i (labels.count i) (t.thread i)

variable {db : Tables} {labels : List ι} {t t' : Creations ι}

theorem Inv.initial (hhashes : db.HashesNodup) :
    Inv now newId payload db [] (Creations.initial now newId payload db) where
  hashes_nodup := hhashes
  rows := ⟨[], by simp [Creations.initial], by simp⟩
  stands _ := .start

/-- **The calls agree** wherever the invariant holds. -/
theorem Inv.agree (h : Inv now newId payload db labels t) : t.Agree payload := by
  have hcommitted : ∀ i version, t.thread i = .done (.ok version) →
      version ∈ t.shared.versions ∧ version.contentHash = hash payload i := by
    intro i version hi
    have hstands := h.stands i
    rw [hi] at hstands
    obtain ⟨row, hmem, hhash, heq⟩ := hstands.of_done
    obtain rfl := Except.ok.inj heq
    exact ⟨hmem, hhash⟩
  refine ⟨fun i e hi => ?_, hcommitted, fun i j version version' hi hj hij => ?_, h.hashes_nodup⟩
  · have hstands := h.stands i
    rw [hi] at hstands
    obtain ⟨row, -, -, heq⟩ := hstands.of_done
    cases heq
  · obtain ⟨hmem, hhash⟩ := hcommitted i version hi
    obtain ⟨hmem', hhash'⟩ := hcommitted j version' hj
    have heq : version = version' :=
      List.inj_on_of_nodup_map h.hashes_nodup hmem hmem' (hhash.trans (hij.trans hhash'.symm))
    rw [heq]

/-- A transaction moves on, and the table is left or grows. -/
theorem Inv.move (h : Inv now newId payload db labels t) {i : ι} {shared : Tables}
    {program : Session AgentVersion} (hhashes : shared.HashesNodup)
    (hrows : t.shared.versions ⊆ shared.versions)
    (hcreated : ∃ created : Dict UUID AgentVersion, shared.agentVersions = db.agentVersions ++ created ∧
      ∀ entry ∈ created, ∃ j, entry = (newId j, row now newId payload j) ∧
        (t.advance i shared program).thread j = .done (.ok entry.2))
    (hprogram : Creating now newId payload shared.versions i (labels.count i + 1) program) :
    Inv now newId payload db (labels ++ [i]) (t.advance i shared program) where
  hashes_nodup := hhashes
  rows := hcreated
  stands j := by
    by_cases hji : j = i
    · subst hji
      rw [t.advance_thread_self, List.count_append, List.count_singleton_self]
      exact hprogram
    · have hcount : [i].count j = 0 := List.count_eq_zero_of_not_mem (by simpa using hji)
      rw [t.advance_thread_of_ne _ _ _ hji, List.count_append, hcount]
      exact (h.stands j).mono hrows

/-- A transaction moves on and leaves the table. -/
theorem Inv.advance (h : Inv now newId payload db labels t) {i : ι} {c : SessionCommand}
    {k : Except PyError c.Resp → Session AgentVersion} (hi : t.thread i = .call c k)
    {program : Session AgentVersion}
    (hprogram : Creating now newId payload t.shared.versions i (labels.count i + 1) program) :
    Inv now newId payload db (labels ++ [i]) (t.advance i t.shared program) := by
  obtain ⟨created, hrows, hcreated⟩ := h.rows
  refine h.move h.hashes_nodup (List.Subset.refl _) ⟨created, hrows, fun entry hmem => ?_⟩ hprogram
  obtain ⟨j, hentry, hj⟩ := hcreated entry hmem
  exact ⟨j, hentry, by rw [t.advance_thread_of_ne _ _ _ (Threads.ne_of_call hi hj), hj]⟩

/-- A transaction commits its row and returns it. -/
theorem Inv.insert (h : Inv now newId payload db labels t) {i : ι} {c : SessionCommand}
    {k : Except PyError c.Resp → Session AgentVersion} (hi : t.thread i = .call c k)
    (hcount : labels.count i < 4)
    (hfree : ∀ existing ∈ t.shared.versions, existing.contentHash ≠ hash payload i) :
    Inv now newId payload db (labels ++ [i])
      (t.advance i { t.shared with
          agentVersions := t.shared.agentVersions ++ [(newId i, row now newId payload i)] }
        (.done (.ok (row now newId payload i)))) := by
  obtain ⟨created, hrows, hcreated⟩ := h.rows
  have hversions : Tables.versions { t.shared with
      agentVersions := t.shared.agentVersions ++ [(newId i, row now newId payload i)] } =
        t.shared.versions ++ [row now newId payload i] := by
    rw [Tables.versions, List.map_append]
    rfl
  refine h.move ?_ ?_ ⟨created ++ [(newId i, row now newId payload i)], ?_, ?_⟩
    (.returned hcount ?_ rfl)
  · rw [Tables.HashesNodup, hversions, List.map_append]
    refine List.nodup_append.mpr ⟨h.hashes_nodup, List.nodup_singleton _, ?_⟩
    intro contentHash hmem contentHash' hmem' heq
    obtain ⟨existing, hexisting, rfl⟩ := List.mem_map.mp hmem
    exact hfree existing hexisting (heq.trans (List.mem_singleton.mp hmem'))
  · rw [hversions]
    exact List.subset_append_left _ _
  · rw [hrows, List.append_assoc]
  · intro entry hmem
    rcases List.mem_append.mp hmem with hmem | hmem
    · obtain ⟨j, hentry, hj⟩ := hcreated entry hmem
      exact ⟨j, hentry, by rw [t.advance_thread_of_ne _ _ _ (Threads.ne_of_call hi hj), hj]⟩
    · obtain rfl := List.mem_singleton.mp hmem
      exact ⟨i, rfl, t.advance_thread_self _ _ _⟩
  · rw [hversions]
    simp

/-- The key of a transaction that goes on is free. -/
theorem Inv.key_free (h : Inv now newId payload db labels t) (hids : Function.Injective newId)
    {i : ι} (hfresh : Dict.get? db.agentVersions (newId i) = none) {c : SessionCommand}
    {k : Except PyError c.Resp → Session AgentVersion} (hi : t.thread i = .call c k) :
    Dict.get? t.shared.agentVersions (newId i) = none := by
  obtain ⟨created, hrows, hcreated⟩ := h.rows
  rw [Dict.get?_eq_none_iff, hrows, List.map_append, List.mem_append, not_or]
  refine ⟨Dict.get?_eq_none_iff.mp hfresh, fun hmem => ?_⟩
  obtain ⟨entry, hentry, hkey⟩ := List.mem_map.mp hmem
  obtain ⟨j, rfl, hj⟩ := hcreated entry hentry
  exact Threads.ne_of_call hi hj (hids hkey)

/-- **Step lemma**: every command keeps the invariant. -/
theorem Inv.step (h : Inv now newId payload db labels t) (hids : Function.Injective newId)
    (hfresh : ∀ i, Dict.get? db.agentVersions (newId i) = none) {i : ι}
    (hstep : Threads.Issues Tables.handle i t t') :
    Inv now newId payload db (labels ++ [i]) t' := by
  obtain ⟨hi, scan⟩ := hstep
  have hstands := h.stands i
  rw [hi] at hstands
  generalize hp : (Prog.call _ _ : Session AgentVersion) = p at hstands
  generalize hn : labels.count i = n at hstands
  cases hstands with
  | returned => cases hp
  | start =>
    rw [PostgresStore.createAgentVersion_eq] at hp
    obtain ⟨rfl, hk⟩ := Prog.call.inj hp
    obtain rfl := eq_of_heq hk
    have hselect := Tables.handle_selectVersions h.hashes_nodup scan
      (computeAgentVersionContentHash (payload i).content)
    rcases hselect with ⟨hhandle, -⟩ | ⟨row, hmem, hhash, hhandle⟩
    · rw [hhandle]
      refine h.advance hi ?_
      rw [hn]
      exact .inserting
    · rw [hhandle]
      exact h.advance hi (.returned (by omega) hmem hhash)
  | inserting =>
    rw [PostgresStore.insertVersion_eq] at hp
    obtain ⟨rfl, hk⟩ := Prog.call.inj hp
    obtain rfl := eq_of_heq hk
    by_cases htaken : ∃ existing ∈ t.shared.versions, existing.contentHash = hash payload i
    · obtain ⟨existing, hmem, hhash⟩ := htaken
      rw [Tables.handle_insertVersion_of_taken hmem hhash]
      refine h.advance hi ?_
      rw [hn]
      exact .refused hmem hhash
    · have hfree : ∀ existing ∈ t.shared.versions, existing.contentHash ≠ hash payload i :=
        fun existing hmem hhash => htaken ⟨existing, hmem, hhash⟩
      have hkey := h.key_free hids (hfresh i) hi
      rw [Tables.handle_insertVersion_of_free hkey hfree]
      exact h.insert hi (by omega) hfree
  | refused hmem hhash =>
    rw [PostgresStore.requery_eq] at hp
    obtain ⟨rfl, hk⟩ := Prog.call.inj hp
    obtain rfl := eq_of_heq hk
    refine h.advance hi ?_
    rw [hn]
    exact .rolledBack hmem hhash
  | rolledBack hmem hhash =>
    obtain ⟨rfl, hk⟩ := Prog.call.inj hp
    obtain rfl := eq_of_heq hk
    -- the row of the uniqueness failure is still there
    have hselect := Tables.handle_selectVersions h.hashes_nodup scan (hash payload i)
    rcases hselect with ⟨-, hnone⟩ | ⟨row, hmem', hhash', hhandle⟩
    · exact absurd hhash (hnone _ hmem)
    · rw [hhandle]
      exact h.advance hi (.returned (by omega) hmem' hhash')

omit [DecidableEq ι] [Interpreter] [Sha256] in
/-- The rows of the table are those there were and the rows of transactions that have returned. -/
theorem mem_versions_iff {created : Dict UUID AgentVersion} {shared : Tables}
    (hrows : shared.agentVersions = db.agentVersions ++ created) {row : AgentVersion} :
    row ∈ shared.versions ↔ row ∈ db.versions ∨ row ∈ created.map Prod.snd := by
  rw [Tables.versions, hrows, List.map_append, List.mem_append]
  rfl

/-- **Where all have returned, every hash that is there has one row.** -/
theorem Inv.length_filter_eq_one_iff (h : Inv now newId payload db labels t)
    (hreturned : ∀ i, t.Returned i) (contentHash : String) :
    (t.shared.versions.filter fun row => row.contentHash = contentHash).length = 1 ↔
      (∃ row ∈ db.versions, row.contentHash = contentHash) ∨
        ∃ i, hash payload i = contentHash := by
  obtain ⟨created, hrows, hcreated⟩ := h.rows
  have hthere : (∃ row ∈ t.shared.versions, row.contentHash = contentHash) ↔
      (∃ row ∈ db.versions, row.contentHash = contentHash) ∨
        ∃ i, hash payload i = contentHash := by
    constructor
    · rintro ⟨row, hmem, rfl⟩
      rcases (mem_versions_iff hrows).mp hmem with hmem | hmem
      · exact .inl ⟨row, hmem, rfl⟩
      · obtain ⟨entry, hentry, rfl⟩ := List.mem_map.mp hmem
        obtain ⟨j, rfl, -⟩ := hcreated entry hentry
        exact .inr ⟨j, rfl⟩
    · rintro (⟨row, hmem, hhash⟩ | ⟨i, hhash⟩)
      · exact ⟨row, (mem_versions_iff hrows).mpr (.inl hmem), hhash⟩
      · obtain ⟨version, hi⟩ := hreturned i
        obtain ⟨hmem, hversion⟩ := h.agree.committed i version hi
        exact ⟨version, hmem, hversion.trans hhash⟩
  rw [← hthere]
  rcases filter_eq_of_nodup_map h.hashes_nodup with ⟨hnil, hne⟩ | ⟨row, hmem, hhash, hone⟩
  · rw [hnil]
    exact ⟨fun hlength => absurd hlength (by simp), fun ⟨row, hmem, hhash⟩ => absurd hhash (hne row hmem)⟩
  · rw [hone]
    exact ⟨fun _ => ⟨row, hmem, hhash⟩, fun _ => rfl⟩

/-- **Run lemma**: every interleaving keeps the invariant. -/
theorem Inv.of_execution (h : Inv now newId payload db labels t) (hids : Function.Injective newId)
    (hfresh : ∀ i, Dict.get? db.agentVersions (newId i) = none) {labels' : List ι}
    (hrun : Execution (Threads.Issues Tables.handle) t labels' t') :
    Inv now newId payload db (labels ++ labels') t' := by
  refine hrun.invariant (P := fun labels' t => Inv now newId payload db (labels ++ labels') t)
    (by rwa [List.append_nil]) ?_
  intro labels' i u u' hu hstep
  rw [← List.append_assoc]
  exact hu.step hids hfresh hstep

end Creations

omit [Interpreter] [Sha256] in
/-- No command changes a committed version. -/
theorem Tables.agentVersions_prefix (scan : Scan) (command : SessionCommand) (db : Tables) :
    db.agentVersions <+: (handle scan command db).2.agentVersions := by
  cases command with
  | insertVersion row =>
    rw [handle, commit]
    split_ifs with hconflict
    · exact List.prefix_refl _
    · have hkey : Dict.get? db.agentVersions row.id = none := by
        rw [VersionConflict, not_or, Bool.not_eq_true, Dict.has_eq_false_iff] at hconflict
        exact hconflict.1
      rw [Dict.set_of_get?_eq_none hkey]
      exact List.prefix_append _ _
  | insertRun row | insertExecution row | insertEvent row | insertVerdict row =>
    rw [handle, commit]
    split_ifs <;> exact List.prefix_refl _
  | _ => exact List.prefix_refl _

/-- **Concurrent creation agrees**, for any number of transactions and in any interleaving: every
call returns a version, after at most four commands; equal hashes return the same id; in the end the
hashes that are there have one row each; and a committed row stays as it is. -/
theorem creation_agrees [DecidableEq ι] {db : Tables} (hids : Function.Injective newId)
    (hfresh : ∀ i, Dict.get? db.agentVersions (newId i) = none) (hhashes : db.HashesNodup)
    {labels : List ι} {t : Creations ι}
    (h : Execution (Threads.Issues Tables.handle) (Creations.initial now newId payload db) labels t) :
    t.Agree payload ∧
      (∀ i, t.Returned i ∨
        labels.count i < 4 ∧ ∃ t' : Creations ι, Threads.Issues Tables.handle i t t') ∧
      ((∀ i, t.Returned i) → ∀ contentHash,
        ((t.shared.versions.filter fun row => row.contentHash = contentHash).length = 1 ↔
          (∃ row ∈ db.versions, row.contentHash = contentHash) ∨
            ∃ i, Creations.hash payload i = contentHash)) ∧
      ∀ labels' (t' : Creations ι), Execution (Threads.Issues Tables.handle) t labels' t' →
        t.shared.agentVersions <+: t'.shared.agentVersions := by
  have hinv : Creations.Inv now newId payload db labels t :=
    (Creations.Inv.initial hhashes).of_execution hids hfresh h
  refine ⟨hinv.agree, fun i => ?_, fun hreturned contentHash => ?_, fun labels' t' hrun => ?_⟩
  · have hstands := hinv.stands i
    rcases t.exists_issues Tables.handle default i with ⟨r, hi⟩ | ⟨t', hstep⟩
    · rw [hi] at hstands
      obtain ⟨row, -, -, rfl⟩ := hstands.of_done
      exact .inl ⟨row, hi⟩
    · refine .inr ⟨?_, t', hstep⟩
      obtain ⟨hi, -⟩ := hstep
      rw [hi] at hstands
      exact hstands.lt_of_call
  · exact hinv.length_filter_eq_one_iff hreturned contentHash
  · exact hrun.invariant (P := fun _ (u : Creations ι) =>
      t.shared.agentVersions <+: u.shared.agentVersions) (List.prefix_refl _)
      fun _ _ _ _ hu ⟨_, scan⟩ => hu.trans (Tables.agentVersions_prefix scan _ _)

/-! ### Two callers, one content -/

/-- Two callers with the same content. -/
def sameContent (renamed : Bool) : AgentVersionCreate :=
  bif renamed then renamedAgent else referenceAgent

/-- Their keys. -/
def callerKey (renamed : Bool) : UUID := bif renamed then "renamed" else "reference"

omit [Interpreter] [Sha256] in
/-- Both look up first and find nothing; the second insert is refused, and returns the first row. -/
theorem creation_agrees_race :
    let _ := cpython
    let _ := sha256
    ∃ t ∈ (Creations.initial (fun _ => 1) callerKey sameContent {}).play Tables.handle default
        [true, false, true, false, false, false],
      t.outcome? false = t.outcome? true ∧ t.shared.versions.length = 1 ∧
        Creations.Agree sameContent t := by
  intro _ _
  have hrun : ∃ t ∈ (Creations.initial (fun _ => 1) callerKey sameContent {}).play Tables.handle
      default [true, false, true, false, false, false],
      t.outcome? false = t.outcome? true ∧ t.shared.versions.length = 1 := by decide +kernel
  obtain ⟨t, hplay, houtcome, hlength⟩ := hrun
  have hkeys : ∀ a b, callerKey a = callerKey b → a = b := by decide
  have hnone : Tables.HashesNodup {} := List.nodup_nil
  exact ⟨t, hplay, houtcome, hlength,
    (creation_agrees (fun a b => hkeys a b) (fun _ => rfl) hnone (Threads.execution_play hplay)).1⟩

end AgentProof
