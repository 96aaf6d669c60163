import ShadowDataPlane.Central.DayNormalizer
import ShadowDataPlane.Central.RowReplay
import ShadowDataPlane.Central.SelectionWellFormed
import ShadowDataPlane.Foundation.Prefixes

/-!
# Overlap replays are invisible to the totals

While one connection takes over from another, both deliver the same events.  A
day is given with every row labelled as an original or a replay of one.  When
each replay is processed while the copy before it is still remembered, the
normalizer marks exactly the replays, and the audit reports the totals of the
day without them.

An identity is as old as the copy which was processed last, so what counts is
the time of that copy and not of the original.
-/

namespace ShadowDataPlane.Central

open ShadowDataPlane.Contracts
open ShadowDataPlane.Foundation
open DecimalArithmetic

/-- A raw row, and whether it is a replay. -/
structure LabelledRow where
  row : RawRow
  isReplay : Bool := false

/-- A raw chunk whose rows are labelled. -/
structure LabelledChunk where
  chunkId : String
  rows : List LabelledRow

namespace LabelledChunk

def withReplays (chunk : LabelledChunk) : RawChunk where
  chunkId := chunk.chunkId
  rows := chunk.rows.map LabelledRow.row

/-- The originals of a chunk. -/
def originals (chunk : LabelledChunk) : LabelledChunk :=
  { chunk with rows := chunk.rows.filter fun row => ¬ row.isReplay }

/-- The order in which chunks are read. -/
def Before (left right : LabelledChunk) : Prop :=
  left.withReplays.Before right.withReplays

instance : DecidableRel LabelledChunk.Before :=
  fun left right =>
    inferInstanceAs (Decidable (left.withReplays.Before right.withReplays))

end LabelledChunk

/-- The rows of a day in the order in which they are processed. -/
def processedRows (day : List LabelledChunk) : List LabelledRow :=
  (day.insertionSort LabelledChunk.Before).flatMap LabelledChunk.rows

/-- A day without its replays; a chunk without rows does not exist. -/
def withoutReplays (day : List LabelledChunk) : List LabelledChunk :=
  (day.map LabelledChunk.originals).filter fun chunk => ¬ chunk.rows.isEmpty

section Copies

variable (builtins : Builtins) (δ : Type) [DecimalArithmetic δ]

/-- What is shown to the deduplicator for a raw row. -/
def LabelledRow.observation? (labelled : LabelledRow) :
    Option (Observation LogicalIdentity String) :=
  match parseTypedRow (δ := δ) builtins labelled.row with
  | .ok (some typed) => typed.observation?
  | _ => none

def observations (rows : List LabelledRow) :
    List (Observation LogicalIdentity String) :=
  rows.filterMap (LabelledRow.observation? builtins δ)

/--
Rows whose originals are different events, none of them in the checkpoint of
the day before, and whose replays come after their originals.
-/
structure OverlapRows (checkpoint : DedupCheckpoint)
    (rows : List LabelledRow) : Prop where
  parses : ∀ labelled ∈ rows, labelled.isReplay = false →
    ∃ typed, parseTypedRow (δ := δ) builtins labelled.row = .ok typed
  distinct :
    ((observations builtins δ (rows.filter fun row => ¬ row.isReplay)).map
      Observation.key).Nodup
  fresh : ∀ labelled ∈ rows, labelled.isReplay = false →
    ∀ event ∈ labelled.observation? builtins δ, ∀ entry ∈ checkpoint,
      entry.key ≠ event.key
  replays : EachWithEarlier (fun earlier labelled =>
    labelled.isReplay = true → ∃ original ∈ earlier,
      original.isReplay = false ∧ original.row.streamType ∈ auditStreams ∧
        IsReplay builtins original.row labelled.row) [] rows

/--
The last copy of an event among the earlier rows was received at most ten
minutes before everything up to the event.
-/
def LastCopyInWindow (checkpoint : DedupCheckpoint)
    (earlier : List LabelledRow) (labelled : LabelledRow) : Prop :=
  ∀ event ∈ labelled.observation? builtins δ,
    ∀ copy ∈ lastCopy (checkpoint ++ observations builtins δ earlier) event.key,
      InWindow (checkpoint ++ observations builtins δ earlier ++ [event]) copy

instance (checkpoint : DedupCheckpoint) (earlier : List LabelledRow)
    (labelled : LabelledRow) :
    Decidable (LastCopyInWindow builtins δ checkpoint earlier labelled) :=
  Option.decidableForallMem _

/-- Every replay is processed while the copy before it is in the window. -/
def ReplayedInWindow (checkpoint : DedupCheckpoint)
    (rows : List LabelledRow) : Prop :=
  EachWithEarlier (fun earlier labelled => labelled.isReplay = true →
    LastCopyInWindow builtins δ checkpoint earlier labelled) [] rows

instance (checkpoint : DedupCheckpoint) (rows : List LabelledRow) :
    Decidable (ReplayedInWindow builtins δ checkpoint rows) :=
  EachWithEarlier.decidable [] rows

/-- The typed row which is marked when it is a replay. -/
def LabelledRow.typed? (labelled : LabelledRow) : Option (TypedRow δ) :=
  match parseTypedRow builtins labelled.row with
  | .ok (some typed) => some (typed.mark labelled.isReplay)
  | _ => none

/-- The rows of a file in which exactly the replays are marked. -/
def LabelledChunk.typedRows (chunk : LabelledChunk) : List (TypedRow δ) :=
  chunk.rows.filterMap (LabelledRow.typed? builtins δ)

end Copies

/-! ## What is recognised -/

section Recognised

variable {κ π : Type} [DecidableEq κ] [DecidableEq π]

/-- Whether an event is a copy of one which is still remembered. -/
def recognised (history : List (Observation κ π)) (event : Observation κ π) :
    Bool :=
  match lastCopy history event.key with
  | none => false
  | some copy => decide (InWindow (history ++ [event]) copy)

/-- An event is marked when it is recognised. -/
theorem Remembers.observe_recognised
    {history : List (Observation κ π)} {dedup : Deduplicator κ π}
    {event : Observation κ π}
    (remembers : Remembers history history dedup)
    (samePayload : ∀ copy ∈ lastCopy history event.key,
      copy.1 = event.payloadHash) :
    ∃ after, dedup.observe event = .ok (recognised history event, after) ∧
      Remembers (history ++ [event]) (history ++ [event]) after := by
  cases last : lastCopy history event.key with
  | none =>
      rw [recognised, last]
      exact remembers.observe_new last
  | some copy =>
      rw [recognised, last]
      dsimp only
      by_cases inWindow : InWindow (history ++ [event]) copy
      · rw [decide_eq_true inWindow]
        exact remembers.observe_duplicate last (samePayload copy last) inWindow
      · rw [decide_eq_false inWindow]
        exact remembers.observe_expired last inWindow

end Recognised

section Run

variable {builtins : Builtins} {δ : Type} [DecimalArithmetic δ]
  {checkpoint : DedupCheckpoint}

/-- A row is read, and it is recognised if and only if it is a replay. -/
def RecognisedRight (builtins : Builtins) (δ : Type) [DecimalArithmetic δ]
    (checkpoint : DedupCheckpoint) (earlier : List LabelledRow)
    (labelled : LabelledRow) : Prop :=
  (∃ typed, parseTypedRow (δ := δ) builtins labelled.row = .ok typed) ∧
    (labelled.observation? builtins δ = none → labelled.isReplay = false) ∧
    ∀ event ∈ labelled.observation? builtins δ,
      let history := checkpoint ++ observations builtins δ earlier
      (∀ copy ∈ lastCopy history event.key, copy.1 = event.payloadHash) ∧
        recognised history event = labelled.isReplay

theorem observations_concat
    (earlier : List LabelledRow) (labelled : LabelledRow) :
    observations builtins δ (earlier ++ [labelled]) =
      observations builtins δ earlier ++
        (labelled.observation? builtins δ).toList := by
  rw [observations, List.filterMap_append]
  cases isEvent : labelled.observation? builtins δ <;>
    simp [observations, isEvent]

/-- A parsed row carries no mark yet. -/
theorem mark_false
    {row : RawRow} {typed : TypedRow δ}
    (parsed : parseTypedRow builtins row = .ok (some typed)) :
    typed.mark false = typed := by
  rcases typed with ⟨header, body⟩
  rcases parseTypedRow_eq_some_iff.mp parsed with
    ⟨_, _, _, _, isHeader, _⟩
  dsimp only at isHeader
  rw [TypedRow.mark, isHeader]
  rfl

/-- The rows of a chunk are marked as they are labelled. -/
theorem normalizeRows_eq
    {earlier rows : List LabelledRow} {dedup : DayDeduplicator}
    (right : EachWithEarlier (RecognisedRight builtins δ checkpoint)
      earlier rows)
    (remembers : Remembers (checkpoint ++ observations builtins δ earlier)
      (checkpoint ++ observations builtins δ earlier) dedup) :
    ∃ after,
      normalizeRows builtins dedup (rows.map LabelledRow.row) =
          .ok (after, rows.filterMap (LabelledRow.typed? builtins δ)) ∧
        Remembers (checkpoint ++ observations builtins δ (earlier ++ rows))
          (checkpoint ++ observations builtins δ (earlier ++ rows)) after := by
  induction rows generalizing earlier dedup with
  | nil =>
      refine ⟨dedup, rfl, ?_⟩
      rw [List.append_nil]
      exact remembers
  | cons labelled rest induction =>
      rcases right with ⟨⟨⟨typed?, parsed⟩, noEvent, isEvent⟩, others⟩
      rw [← List.singleton_append, ← List.append_assoc]
      rw [List.singleton_append, List.map_cons, normalizeRows, parsed]
      cases typed? with
      | none =>
          have unobserved : labelled.observation? builtins δ = none := by
            rw [LabelledRow.observation?, parsed]
          have untyped : labelled.typed? builtins δ = none := by
            rw [LabelledRow.typed?, parsed]
          rw [List.filterMap_cons_none untyped]
          apply induction others
          rw [observations_concat, unobserved]
          simpa using remembers
      | some typed =>
          have isTyped : labelled.typed? builtins δ =
              some (typed.mark labelled.isReplay) := by
            rw [LabelledRow.typed?, parsed]
          have shown :
              labelled.observation? builtins δ = typed.observation? := by
            rw [LabelledRow.observation?, parsed]
          rw [List.filterMap_cons_some isTyped]
          -- Each row ends with the deduplicator holding one more copy.
          have kept : ∃ after,
              keepRow dedup typed =
                  .ok (after, typed.mark labelled.isReplay) ∧
                Remembers
                  (checkpoint ++
                    observations builtins δ (earlier ++ [labelled]))
                  (checkpoint ++
                    observations builtins δ (earlier ++ [labelled]))
                  after := by
            rw [observations_concat, shown, keepRow]
            cases isShown : typed.observation? with
            | none =>
                rw [isShown] at shown
                refine ⟨dedup, ?_, by simpa using remembers⟩
                rw [noEvent shown, mark_false parsed]
            | some event =>
                rw [isShown] at shown
                rcases isEvent event shown with ⟨samePayload, asLabelled⟩
                rcases remembers.observe_recognised samePayload with
                  ⟨after, observed, remembersAfter⟩
                refine ⟨after, ?_, ?_⟩
                · dsimp only
                  rw [observed, asLabelled]
                · rw [Option.toList_some, ← List.append_assoc]
                  exact remembersAfter
          rcases kept with ⟨after, keeps, remembersAfter⟩
          rcases induction others remembersAfter with
            ⟨final, normalized, remembersFinal⟩
          refine ⟨final, ?_, remembersFinal⟩
          dsimp only
          rw [keeps, ok_bind, normalized]
          rfl

/-- The file of a chunk in which exactly the replays are marked. -/
def LabelledChunk.write (builtins : Builtins) (δ : Type)
    [DecimalArithmetic δ] (files : Dict String (List (TypedRow δ)))
    (chunk : LabelledChunk) : Dict String (List (TypedRow δ)) :=
  if (chunk.typedRows builtins δ).isEmpty then files
  else files.set chunk.chunkId (chunk.typedRows builtins δ)

/-- The chunks of a day are marked as they are labelled. -/
theorem normalizeChunks_eq
    {earlier : List LabelledRow} {chunks : List LabelledChunk}
    {before : TypedDay δ}
    (right : EachWithEarlier (RecognisedRight builtins δ checkpoint)
      earlier (chunks.flatMap LabelledChunk.rows))
    (remembers : Remembers (checkpoint ++ observations builtins δ earlier)
      (checkpoint ++ observations builtins δ earlier) before.dedup) :
    ∃ after,
      (chunks.map LabelledChunk.withReplays).foldlM (normalizeChunk builtins)
          before = .ok after ∧
        after.files =
          chunks.foldl (LabelledChunk.write builtins δ) before.files := by
  induction chunks generalizing earlier before with
  | nil => exact ⟨before, rfl, rfl⟩
  | cons chunk rest induction =>
      rw [List.flatMap_cons, EachWithEarlier.append_iff] at right
      rcases normalizeRows_eq right.1 remembers with
        ⟨dedup, normalized, remembersAfter⟩
      have written : ∃ after,
          normalizeChunk builtins before chunk.withReplays = .ok after ∧
            after.dedup = dedup ∧
            after.files =
              LabelledChunk.write builtins δ before.files chunk := by
        rw [normalizeChunk, LabelledChunk.withReplays, normalized, ok_bind]
        dsimp only
        rw [LabelledChunk.write, LabelledChunk.typedRows]
        split
        next => exact ⟨_, rfl, rfl, rfl⟩
        next => exact ⟨_, rfl, rfl, rfl⟩
      rcases written with ⟨middle, done, sameDedup, files⟩
      rw [← sameDedup] at remembersAfter
      rcases induction right.2 remembersAfter with ⟨after, continued, allFiles⟩
      refine ⟨after, ?_, ?_⟩
      · rw [List.map_cons, List.foldlM_cons, done, ok_bind]
        exact continued
      · rw [allFiles, files, List.foldl_cons]

theorem normalizeDay_eq
    {day : List LabelledChunk}
    (right : EachWithEarlier (RecognisedRight builtins δ checkpoint) []
      (processedRows day)) :
    ∃ result : TypedDay δ,
      normalizeDay builtins checkpoint
          (day.map LabelledChunk.withReplays) = .ok result ∧
        result.files = (day.insertionSort LabelledChunk.Before).foldl
          (LabelledChunk.write builtins δ) Dict.empty := by
  have sorted :
      (day.map LabelledChunk.withReplays).insertionSort RawChunk.Before =
        (day.insertionSort LabelledChunk.Before).map
          LabelledChunk.withReplays :=
    insertionSort_map RawChunk.Before LabelledChunk.withReplays day
  rw [normalizeDay, sorted]
  apply normalizeChunks_eq right
  simpa [observations] using remembers_load checkpoint

end Run

/-! ## The files -/

/-- What yields nothing may be left out. -/
theorem flatMap_filter
    {α β : Type} {items : List α} {keep : α → Bool} {parts : α → List β}
    (nothing : ∀ item, keep item = false → parts item = []) :
    (items.filter keep).flatMap parts = items.flatMap parts := by
  induction items with
  | nil => rfl
  | cons item rest induction =>
      rw [List.flatMap_cons, ← induction]
      cases kept : keep item with
      | false => rw [List.filter_cons_of_neg (by simp [kept]),
          nothing item kept, List.nil_append]
      | true => rw [List.filter_cons_of_pos kept, List.flatMap_cons]

section Files

variable {builtins : Builtins} {δ : Type} [DecimalArithmetic δ]

theorem typedFileName_injective : Function.Injective typedFileName :=
  fun _ _ same => (String.append_left_inj _).mp same

/-- The order of the names of files. -/
abbrev NameBefore (left right : LabelledChunk) : Prop :=
  typedFileName left.chunkId ≤ typedFileName right.chunkId

instance : Std.Total NameBefore :=
  ⟨fun left right =>
    le_total (typedFileName left.chunkId) (typedFileName right.chunkId)⟩

instance : IsTrans LabelledChunk NameBefore :=
  ⟨fun _ _ _ first second => le_trans first second⟩

/-- The files hold the rows of their chunks, an empty one none. -/
theorem entries_write
    {chunks : List LabelledChunk} {files : Dict String (List (TypedRow δ))}
    (distinct : (chunks.map LabelledChunk.chunkId).Nodup)
    (apart : ∀ chunk ∈ chunks, chunk.chunkId ∉ files.entries.map Prod.fst) :
    (chunks.foldl (LabelledChunk.write builtins δ) files).entries =
      files.entries ++
        ((chunks.filter fun chunk =>
            ¬ (chunk.typedRows builtins δ).isEmpty).map fun chunk =>
          (chunk.chunkId, chunk.typedRows builtins δ)) := by
  induction chunks generalizing files with
  | nil => simp
  | cons chunk rest induction =>
      rcases List.nodup_cons.mp distinct with ⟨first, restDistinct⟩
      have absent := apart chunk List.mem_cons_self
      rw [List.foldl_cons, induction restDistinct, LabelledChunk.write]
      · split
        next empty => rw [List.filter_cons_of_neg (by simpa using empty)]
        next filled =>
          rw [Dict.entries_set_of_not_mem _ absent,
            List.filter_cons_of_pos (by simpa using filled),
            List.append_assoc, List.map_cons, List.singleton_append]
      · intro other inRest
        have otherApart := apart other (List.mem_cons_of_mem _ inRest)
        rw [LabelledChunk.write]
        split
        next => exact otherApart
        next =>
          rw [Dict.entries_set_of_not_mem _ absent, List.map_append,
            List.mem_append]
          rintro (old | new)
          · exact otherApart old
          · rw [List.map_singleton, List.mem_singleton] at new
            exact first (List.mem_map.mpr ⟨other, inRest, new⟩)

theorem auditedRows_write
    {chunks : List LabelledChunk}
    (distinct : (chunks.map LabelledChunk.chunkId).Nodup) :
    auditedRows (chunks.foldl (LabelledChunk.write builtins δ) Dict.empty) =
      (chunks.insertionSort NameBefore).flatMap
        (LabelledChunk.typedRows builtins δ) := by
  rw [auditedRows, entries_write distinct fun _ _ => List.not_mem_nil]
  rw [Dict.empty, List.nil_append,
    insertionSort_map, ← filter_insertionSort, List.flatMap_map]
  exact flatMap_filter fun chunk empty => by simpa using empty

/-- The audit skips the replays. -/
theorem foldl_addRow
    (rows : List (TypedRow δ)) (totals : AuditTotals δ) :
    rows.foldl AuditTotals.addRow totals =
      (rows.filter fun row => ¬ row.header.isDuplicate).foldl
        AuditTotals.addRow totals := by
  induction rows generalizing totals with
  | nil => rfl
  | cons row rest induction =>
      rw [List.foldl_cons, induction, List.filter_cons]
      cases isDuplicate : row.header.isDuplicate with
      | false => simp
      | true => simp [AuditTotals.addRow, isDuplicate]

/-- What is not marked of a file is the file of the originals. -/
theorem filter_typedRows (chunk : LabelledChunk) :
    (chunk.typedRows builtins δ).filter
        (fun row => ¬ row.header.isDuplicate) =
      chunk.originals.typedRows builtins δ := by
  rw [LabelledChunk.typedRows, LabelledChunk.typedRows,
    LabelledChunk.originals, List.filter_filterMap, List.filterMap_filter]
  congr 1
  funext labelled
  rw [LabelledRow.typed?]
  cases isReplay : labelled.isReplay with
  | false => split <;> simp [TypedRow.mark]
  | true => split <;> simp [TypedRow.mark]

end Files

/-! ## Replays are recognised -/

section Overlap

variable {builtins : Builtins} {δ : Type} [DecimalArithmetic δ]
  {checkpoint : DedupCheckpoint} {rows : List LabelledRow}

/-- A replay is observed as its original is, at a time of its own. -/
theorem observation?_replay
    {original labelled : LabelledRow} {parsed : Option (TypedRow δ)}
    (audited : original.row.streamType ∈ auditStreams)
    (again : IsReplay builtins original.row labelled.row)
    (isParsed : parseTypedRow builtins original.row = .ok parsed) :
    (∃ typed, parseTypedRow (δ := δ) builtins labelled.row = .ok typed) ∧
      ∃ first ∈ original.observation? builtins δ,
        ∃ event ∈ labelled.observation? builtins δ,
          event.key = first.key ∧ event.payloadHash = first.payloadHash := by
  rcases parseTypedRow_audited audited isParsed with
    ⟨typed, identity, rfl, isIdentity⟩
  have replayed := parseTypedRow_replay audited again isParsed
  rcases parseTypedRow_eq_some_iff.mp isParsed with ⟨_, _, _, _, isHeader, _⟩
  rcases logicalIdentity_replay again isHeader with ⟨samePayload, sameIdentity⟩
  refine ⟨⟨_, replayed⟩,
    ⟨identity, typed.header.payloadHash, typed.header.appReceiveRealtimeNs⟩, ?_,
    ⟨identity, (rowHeader builtins labelled.row).payloadHash,
      labelled.row.appReceiveRealtimeNs⟩, ?_, rfl, samePayload⟩
  · rw [LabelledRow.observation?, isParsed]
    dsimp only
    rw [TypedRow.observation?, isIdentity]
    rfl
  · rw [LabelledRow.observation?, replayed]
    dsimp only
    rw [TypedRow.observation?, sameIdentity, isIdentity]
    rfl

namespace OverlapRows

/-- A replay has an original among the rows before it. -/
theorem original_of_split
    (overlap : OverlapRows builtins δ checkpoint rows)
    {earlier later : List LabelledRow} {labelled : LabelledRow}
    (split : rows = earlier ++ labelled :: later)
    (isReplay : labelled.isReplay = true) :
    (∃ typed, parseTypedRow (δ := δ) builtins labelled.row = .ok typed) ∧
      ∃ original ∈ earlier, original.isReplay = false ∧
        ∃ first ∈ original.observation? builtins δ,
          ∃ event ∈ labelled.observation? builtins δ,
            event.key = first.key ∧
              event.payloadHash = first.payloadHash := by
  have follows := EachWithEarlier.iff_forall_split.mp overlap.replays
    earlier labelled later split isReplay
  rw [List.nil_append] at follows
  rcases follows with ⟨original, isEarlier, isOriginal, audited, again⟩
  have isRow : original ∈ rows := by
    rw [split]
    exact List.mem_append_left _ isEarlier
  rcases overlap.parses original isRow isOriginal with ⟨parsed, isParsed⟩
  rcases observation?_replay audited again isParsed with
    ⟨replayParsed, first, isFirst, event, isEvent, same⟩
  exact ⟨replayParsed, original, isEarlier, isOriginal, first, isFirst, event,
    isEvent, same⟩

/-- Everything observed is an original or carries what its original carries. -/
theorem original_of_observation
    (overlap : OverlapRows builtins δ checkpoint rows)
    {earlier later : List LabelledRow} (split : rows = earlier ++ later)
    {event : Observation LogicalIdentity String}
    (observed : event ∈ observations builtins δ earlier) :
    ∃ original ∈ earlier, original.isReplay = false ∧
      ∃ first ∈ original.observation? builtins δ,
        event.key = first.key ∧ event.payloadHash = first.payloadHash := by
  rcases List.mem_filterMap.mp observed with ⟨labelled, isRow, isEvent⟩
  cases isReplay : labelled.isReplay with
  | false => exact ⟨labelled, isRow, isReplay, event, isEvent, rfl, rfl⟩
  | true =>
      rcases List.append_of_mem isRow with ⟨before, after, rfl⟩
      rw [List.append_assoc, List.cons_append] at split
      rcases overlap.original_of_split split isReplay with
        ⟨_, original, isEarlier, isOriginal, first, isFirst, other, isOther,
          same⟩
      cases Option.some.inj (isEvent.symm.trans isOther)
      exact ⟨original, List.mem_append_left _ isEarlier, isOriginal, first,
        isFirst, same⟩

/-- Two originals with one identity are one event. -/
theorem eq_of_sameKey
    (overlap : OverlapRows builtins δ checkpoint rows)
    {original other : LabelledRow}
    (isRow : original ∈ rows) (isOriginal : original.isReplay = false)
    (otherRow : other ∈ rows) (otherOriginal : other.isReplay = false)
    {first second : Observation LogicalIdentity String}
    (isFirst : first ∈ original.observation? builtins δ)
    (isSecond : second ∈ other.observation? builtins δ)
    (same : first.key = second.key) : first = second := by
  have observed {labelled : LabelledRow}
      {event : Observation LogicalIdentity String}
      (isRow : labelled ∈ rows) (isOriginal : labelled.isReplay = false)
      (isEvent : event ∈ labelled.observation? builtins δ) :
      event ∈ observations builtins δ
        (rows.filter fun row => ¬ row.isReplay) :=
    List.mem_filterMap.mpr
      ⟨labelled, List.mem_filter.mpr ⟨isRow, by simp [isOriginal]⟩, isEvent⟩
  exact List.inj_on_of_nodup_map overlap.distinct
    (observed isRow isOriginal isFirst)
    (observed otherRow otherOriginal isSecond) same

/-- No original was observed before. -/
theorem lastCopy_original
    (overlap : OverlapRows builtins δ checkpoint rows)
    {earlier later : List LabelledRow} {labelled : LabelledRow}
    (split : rows = earlier ++ labelled :: later)
    (isOriginal : labelled.isReplay = false)
    {event : Observation LogicalIdentity String}
    (isEvent : event ∈ labelled.observation? builtins δ) :
    lastCopy (checkpoint ++ observations builtins δ earlier) event.key =
      none := by
  rw [← Option.not_isSome_iff_eq_none, lastCopy_isSome_iff]
  rintro ⟨copy, isCopy, same⟩
  rcases List.mem_append.mp isCopy with old | observed
  · have isRow : labelled ∈ rows := by simp [split]
    exact overlap.fresh labelled isRow isOriginal event isEvent copy old same
  · rcases overlap.original_of_observation split observed with
      ⟨original, isEarlier, originalToo, first, isFirst, sameFirst, _⟩
    have distinct := overlap.distinct
    rw [split, List.filter_append, List.filter_cons_of_pos
      (by simp [isOriginal]), observations, List.filterMap_append,
      List.filterMap_cons_some isEvent, List.map_append, List.map_cons]
      at distinct
    apply (List.nodup_append.mp distinct).2.2 first.key _ event.key
      List.mem_cons_self (sameFirst.symm.trans same)
    exact List.mem_map_of_mem (List.mem_filterMap.mpr
      ⟨original, List.mem_filter.mpr ⟨isEarlier, by simp [originalToo]⟩,
        isFirst⟩)

/-- Exactly the replays are recognised. -/
theorem recognisedRight
    (overlap : OverlapRows builtins δ checkpoint rows)
    (inWindow : ReplayedInWindow builtins δ checkpoint rows) :
    EachWithEarlier (RecognisedRight builtins δ checkpoint) [] rows := by
  rw [EachWithEarlier.iff_forall_split]
  intro earlier labelled later split
  rw [List.nil_append]
  have isRow : labelled ∈ rows := by simp [split]
  cases isReplay : labelled.isReplay with
  | false =>
      refine ⟨overlap.parses labelled isRow isReplay, fun _ => isReplay, ?_⟩
      intro event isEvent history
      have unknown : lastCopy history event.key = none :=
        overlap.lastCopy_original split isReplay isEvent
      constructor
      · intro copy isCopy
        rw [unknown] at isCopy
        cases isCopy
      · rw [recognised, unknown, isReplay]
  | true =>
      rcases overlap.original_of_split split isReplay with
        ⟨parsed, original, isEarlier, isOriginal, first, isFirst, event,
          isEvent, sameKey, samePayload⟩
      have originalRow : original ∈ rows := by
        rw [split]
        exact List.mem_append_left _ isEarlier
      refine ⟨parsed, fun unobserved => ?_, ?_⟩
      · rw [unobserved] at isEvent
        cases isEvent
      · intro observed isObserved history
        cases Option.some.inj (isEvent.symm.trans isObserved)
        constructor
        · intro copy last
          rcases List.mem_append.mp (exists_of_lastCopy last) with old | seen
          · exact (overlap.fresh original originalRow isOriginal first isFirst
              ⟨event.key, copy.1, copy.2⟩ old sameKey).elim
          · rcases overlap.original_of_observation split seen with
              ⟨other, otherEarlier, otherOriginal, second, isSecond, otherKey,
                otherPayload⟩
            have otherRow : other ∈ rows := by
              rw [split]
              exact List.mem_append_left _ otherEarlier
            have one := overlap.eq_of_sameKey otherRow otherOriginal originalRow
              isOriginal isSecond isFirst (otherKey.symm.trans sameKey)
            rw [samePayload, ← one]
            exact otherPayload
        · have known : (lastCopy history event.key).isSome :=
            lastCopy_isSome_iff.mpr ⟨first, List.mem_append_right _
              (List.mem_filterMap.mpr ⟨original, isEarlier, isFirst⟩),
              sameKey.symm⟩
          rcases Option.isSome_iff_exists.mp known with ⟨copy, last⟩
          have within := EachWithEarlier.iff_forall_split.mp inWindow
            earlier labelled later split isReplay event isEvent
          rw [recognised, last, isReplay]
          exact decide_eq_true (within copy last)

end OverlapRows

/-! ## The day without its replays -/

/-- The rows of a day are those of its chunks in some order. -/
theorem processedRows_perm (day : List LabelledChunk) :
    (processedRows day).Perm (day.flatMap LabelledChunk.rows) :=
  (List.perm_insertionSort LabelledChunk.Before day).flatMap_right _

/-- What is left of a day are its originals, perhaps in another order. -/
theorem processedRows_withoutReplays (day : List LabelledChunk) :
    (processedRows (withoutReplays day)).Perm
      ((processedRows day).filter fun row => ¬ row.isReplay) := by
  have left : (withoutReplays day).flatMap LabelledChunk.rows =
      (day.flatMap LabelledChunk.rows).filter fun row => ¬ row.isReplay := by
    rw [withoutReplays,
      flatMap_filter fun chunk empty => by simpa using empty,
      List.flatMap_map, List.filter_flatMap]
    rfl
  refine (processedRows_perm _).trans ?_
  rw [left]
  exact (processedRows_perm day).symm.filter _

/-- Originals alone are a day as well. -/
theorem OverlapRows.originals
    (overlap : OverlapRows builtins δ checkpoint rows)
    {originals : List LabelledRow}
    (perm : originals.Perm (rows.filter fun row => ¬ row.isReplay)) :
    OverlapRows builtins δ checkpoint originals ∧
      ReplayedInWindow builtins δ checkpoint originals := by
  have isOriginal (labelled : LabelledRow) (member : labelled ∈ originals) :
      labelled ∈ rows ∧ labelled.isReplay = false := by
    simpa using List.mem_filter.mp (perm.mem_iff.mp member)
  have all : (originals.filter fun row => ¬ row.isReplay) = originals := by
    rw [List.filter_eq_self]
    intro labelled member
    simp [(isOriginal labelled member).2]
  have noReplay {before after : List LabelledRow} {labelled : LabelledRow}
      (split : originals = before ++ labelled :: after)
      (isReplay : labelled.isReplay = true) : False := by
    have member : labelled ∈ originals := by simp [split]
    rw [(isOriginal labelled member).2] at isReplay
    cases isReplay
  refine ⟨?_, ?_⟩
  · exact {
      parses := fun labelled member isFalse =>
        overlap.parses labelled (isOriginal labelled member).1 isFalse
      distinct := by
        rw [all]
        exact ((perm.filterMap _).map _).nodup_iff.mpr overlap.distinct
      fresh := fun labelled member isFalse =>
        overlap.fresh labelled (isOriginal labelled member).1 isFalse
      replays := EachWithEarlier.iff_forall_split.mpr
        fun _ _ _ split isReplay => (noReplay split isReplay).elim }
  · exact EachWithEarlier.iff_forall_split.mpr
      fun _ _ _ split isReplay => (noReplay split isReplay).elim

end Overlap

/-! ## The totals -/

section Totals

variable {builtins : Builtins} {δ : Type} [DecimalArithmetic δ]

/-- A chunk keeps its file when other chunks are written. -/
theorem get?_write
    {chunks : List LabelledChunk}
    (distinct : (chunks.map LabelledChunk.chunkId).Nodup)
    {chunk : LabelledChunk} (isChunk : chunk ∈ chunks) :
    ((chunks.foldl (LabelledChunk.write builtins δ) Dict.empty).get?
      chunk.chunkId).getD [] = chunk.typedRows builtins δ := by
  have entries : (chunks.foldl (LabelledChunk.write builtins δ)
      Dict.empty).entries = _ :=
    entries_write distinct fun _ _ => List.not_mem_nil
  have listed (rows : List (TypedRow δ)) :
      (chunks.foldl (LabelledChunk.write builtins δ) Dict.empty).get?
          chunk.chunkId = some rows ↔
        rows = chunk.typedRows builtins δ ∧ rows.isEmpty = false := by
    rw [← Dict.mem_entries_iff, entries, Dict.empty, List.nil_append,
      List.mem_map]
    constructor
    · rintro ⟨other, member, isEntry⟩
      rcases Prod.mk.inj isEntry with ⟨sameId, isRows⟩
      rcases List.mem_filter.mp member with ⟨isOther, filled⟩
      cases List.inj_on_of_nodup_map distinct isOther isChunk sameId
      exact ⟨isRows.symm, by simpa [isRows] using filled⟩
    · rintro ⟨rfl, filled⟩
      exact ⟨chunk, List.mem_filter.mpr ⟨isChunk, by simpa using filled⟩, rfl⟩
  cases found : (chunks.foldl (LabelledChunk.write builtins δ)
      Dict.empty).get? chunk.chunkId with
  | some rows => exact ((listed rows).mp found).1
  | none =>
      cases isRows : chunk.typedRows builtins δ with
      | nil => rfl
      | cons row rest =>
          rw [(listed _).mpr ⟨isRows.symm, rfl⟩] at found
          cases found

/-- The audit reads the originals of the chunks in the order of their names. -/
theorem buildD0Audit_write
    {day : List LabelledChunk}
    (distinct : (day.map LabelledChunk.chunkId).Nodup) :
    buildD0Audit ((day.insertionSort LabelledChunk.Before).foldl
        (LabelledChunk.write builtins δ) Dict.empty) =
      ((day.insertionSort NameBefore).flatMap fun chunk =>
        chunk.originals.typedRows builtins δ).foldl AuditTotals.addRow
          { trade := tradeTotals, aggTrade := tradeTotals } := by
  have sorted := List.perm_insertionSort LabelledChunk.Before day
  have names : ((day.insertionSort LabelledChunk.Before).map fun chunk =>
      typedFileName chunk.chunkId).Nodup := by
    have inOrder : (day.map fun chunk => typedFileName chunk.chunkId) =
        (day.map LabelledChunk.chunkId).map typedFileName := by
      rw [List.map_map]
      rfl
    rw [(sorted.map _).nodup_iff, inOrder]
    exact distinct.map typedFileName_injective
  rw [buildD0Audit, auditedRows_write
      ((sorted.map LabelledChunk.chunkId).nodup_iff.mpr distinct),
    foldl_addRow, List.filter_flatMap]
  simp only [filter_typedRows]
  rw [insertionSort_perm sorted names]

/-- The day without its replays has the same originals. -/
theorem flatMap_withoutReplays (day : List LabelledChunk) :
    ((withoutReplays day).insertionSort NameBefore).flatMap (fun chunk =>
        chunk.originals.typedRows builtins δ) =
      (day.insertionSort NameBefore).flatMap fun chunk =>
        chunk.originals.typedRows builtins δ := by
  rw [withoutReplays, ← filter_insertionSort, insertionSort_map]
  rw [flatMap_filter, List.flatMap_map]
  · congr 1
    funext chunk
    simp [LabelledChunk.originals]
  · intro chunk empty
    have none : chunk.rows = [] := by simpa using empty
    simp [LabelledChunk.typedRows, LabelledChunk.originals, none]

/--
A replay is marked, and nothing else, when the copy before it was received at
most ten minutes before everything processed so far; the audit then reports
what it reports for the day without the replays.
-/
theorem overlap_replay_invisible
    (builtins : Builtins) {δ : Type} [DecimalArithmetic δ]
    (checkpoint : DedupCheckpoint) (day : List LabelledChunk)
    (chunkIds : (day.map LabelledChunk.chunkId).Nodup)
    (overlap : OverlapRows builtins δ checkpoint (processedRows day))
    (inWindow : ReplayedInWindow builtins δ checkpoint (processedRows day)) :
    ∃ result bare : TypedDay δ,
      normalizeDay builtins checkpoint
          (day.map LabelledChunk.withReplays) = .ok result ∧
        (∀ chunk ∈ day, (result.files.get? chunk.chunkId).getD [] =
          chunk.typedRows builtins δ) ∧
        normalizeDay builtins checkpoint
          ((withoutReplays day).map LabelledChunk.withReplays) = .ok bare ∧
        buildD0Audit result.files = buildD0Audit bare.files := by
  rcases overlap.originals (processedRows_withoutReplays day) with
    ⟨bareOverlap, bareInWindow⟩
  rcases normalizeDay_eq (overlap.recognisedRight inWindow) with
    ⟨result, normalized, files⟩
  rcases normalizeDay_eq (bareOverlap.recognisedRight bareInWindow) with
    ⟨bare, bareNormalized, bareFiles⟩
  refine ⟨result, bare, normalized, ?_, bareNormalized, ?_⟩
  · intro chunk isChunk
    have sorted := List.perm_insertionSort LabelledChunk.Before day
    rw [files]
    apply get?_write
    · exact (sorted.map LabelledChunk.chunkId).nodup_iff.mpr chunkIds
    · exact sorted.mem_iff.mpr isChunk
  · have bareIds :
        ((withoutReplays day).map LabelledChunk.chunkId).Nodup := by
      apply List.Nodup.sublist (List.filter_sublist.map _)
      rw [List.map_map]
      exact chunkIds
    rw [files, bareFiles, buildD0Audit_write chunkIds,
      buildD0Audit_write bareIds, flatMap_withoutReplays]

end Totals

/-! ## A replay which makes its event older

A trade is received at 1000 s and replayed twice, the second time at 1599 s.
The first replay was received a second later, or a second earlier, by the clock.
-/

/--
When a replay is processed, its original was received at most ten minutes
before it and before everything processed so far.
-/
def OriginalInWindow (builtins : Builtins) (rows : List LabelledRow) : Prop :=
  EachWithEarlier (fun earlier labelled => labelled.isReplay = true →
    ∃ original ∈ earlier, original.isReplay = false ∧
      IsReplay builtins original.row labelled.row ∧
        ∀ other ∈ earlier ++ [labelled],
          other.row.appReceiveRealtimeNs ≤
            original.row.appReceiveRealtimeNs + dedupWindowNs) [] rows

def sampleTrade (tradeId : Int) : List (String × Json) :=
  [("T", .integer 999), ("s", .text "BTCUSDT"), ("p", .text "100"),
    ("q", .text "2"), ("m", .boolean false), ("t", .integer tradeId)]

def sampleOriginal (receiveSeq tradeId : Int) (receivedNs : Nat) :
    LabelledRow where
  row := {
    exchangeSymbol := some "BTCUSDT"
    streamType := .trade
    connectionId := "old"
    receiveSeq
    appReceiveRealtimeNs := receivedNs
    appReceiveMonotonicNs := receiveSeq
    payload := .object (("e", .text "trade") :: ("E", .integer 999) ::
      sampleTrade tradeId) }

/-- The event in a wrapper, its first two members in the other order. -/
def sampleReplay (receiveSeq tradeId : Int) (receivedNs : Nat) :
    LabelledRow where
  row := {
    exchangeSymbol := some "BTCUSDT"
    streamType := .trade
    connectionId := "replacement"
    receiveSeq
    appReceiveRealtimeNs := receivedNs
    appReceiveMonotonicNs := receiveSeq
    payload := .object [("stream", .text "btcusdt@trade"),
      ("data", .object (("E", .integer 999) :: ("e", .text "trade") ::
        sampleTrade tradeId))] }
  isReplay := true

theorem isReplay_sample (first second tradeId : Int) (firstNs secondNs : Nat) :
    IsReplay plainBuiltins (sampleOriginal first tradeId firstNs).row
      (sampleReplay second tradeId secondNs).row where
  streamType := rfl
  symbol := rfl
  data := by
    have names : (("e", Json.text "trade") :: ("E", .integer 999) ::
        sampleTrade tradeId).map Prod.fst =
        ["e", "E", "T", "s", "p", "q", "m", "t"] := rfl
    apply Json.Reordered.permute
    · rw [names]
      decide +kernel
    · exact List.Perm.swap _ _ _

def sampleDay (firstReplayNs : Nat) : List LabelledChunk :=
  [{ chunkId := "trade-0001"
     rows := [sampleOriginal 1 7 1000000000000, sampleReplay 1 7 firstReplayNs,
       sampleOriginal 2 8 1599500000000, sampleReplay 2 7 1599000000000] }]

theorem processedRows_sample (firstReplayNs : Nat) :
    processedRows (sampleDay firstReplayNs) =
      [sampleOriginal 1 7 1000000000000, sampleReplay 1 7 firstReplayNs,
        sampleOriginal 2 8 1599500000000, sampleReplay 2 7 1599000000000] := rfl

theorem overlapRows_sample (firstReplayNs : Nat) :
    OverlapRows plainBuiltins ℚ []
      (processedRows (sampleDay firstReplayNs)) where
  parses labelled member isOriginal := by
    have parsed : ∀ labelled ∈
        [sampleOriginal 1 7 1000000000000, sampleOriginal 2 8 1599500000000],
        (parseTypedRow (δ := ℚ) plainBuiltins labelled.row).toOption.isSome := by
      decide +kernel
    have isRead : (parseTypedRow (δ := ℚ) plainBuiltins
        labelled.row).toOption.isSome := by
      simp only [processedRows_sample, List.mem_cons, List.not_mem_nil,
        or_false] at member
      rcases member with rfl | rfl | rfl | rfl
      · exact parsed _ List.mem_cons_self
      · cases isOriginal
      · exact parsed _ (List.mem_cons_of_mem _ List.mem_cons_self)
      · cases isOriginal
    rcases Option.isSome_iff_exists.mp isRead with ⟨typed, isTyped⟩
    exact ⟨typed, eq_ok_of_toOption isTyped⟩
  distinct := by
    have originals : (processedRows (sampleDay firstReplayNs)).filter
        (fun row => ¬ row.isReplay) =
        [sampleOriginal 1 7 1000000000000,
          sampleOriginal 2 8 1599500000000] := rfl
    rw [originals]
    decide +kernel
  fresh _ _ _ _ _ _ isEntry := by cases isEntry
  replays := by
    rw [processedRows_sample]
    have follows (original replay : LabelledRow) (earlier : List LabelledRow)
        (isEarlier : original ∈ earlier) (isOriginal : original.isReplay = false)
        (isTrade : original.row.streamType = .trade)
        (again : IsReplay plainBuiltins original.row replay.row) :
        ∃ original ∈ earlier, original.isReplay = false ∧
          original.row.streamType ∈ auditStreams ∧
            IsReplay plainBuiltins original.row replay.row :=
      ⟨original, isEarlier, isOriginal, by rw [isTrade]; decide, again⟩
    refine ⟨fun isReplay => (nomatch isReplay), fun _ => ?_,
      fun isReplay => (nomatch isReplay), fun _ => ?_, trivial⟩
    · exact follows (sampleOriginal 1 7 1000000000000) _ _ (by simp) rfl rfl
        (isReplay_sample 1 1 7 1000000000000 firstReplayNs)
    · exact follows (sampleOriginal 1 7 1000000000000) _ _ (by simp) rfl rfl
        (isReplay_sample 1 2 7 1000000000000 1599000000000)

theorem originalInWindow_sample :
    OriginalInWindow plainBuiltins (processedRows (sampleDay 999000000000)) := by
  rw [processedRows_sample]
  refine ⟨fun isReplay => (nomatch isReplay), fun _ => ?_,
    fun isReplay => (nomatch isReplay), fun _ => ?_, trivial⟩
  · refine ⟨sampleOriginal 1 7 1000000000000, by simp, rfl,
      isReplay_sample 1 1 7 1000000000000 999000000000, by decide +kernel⟩
  · refine ⟨sampleOriginal 1 7 1000000000000, by simp, rfl,
      isReplay_sample 1 2 7 1000000000000 1599000000000, by decide +kernel⟩

/-- With a second in between, both replays are recognised. -/
theorem overlap_replay_invisible_sampleDay :
    ∃ result bare : TypedDay ℚ,
      normalizeDay plainBuiltins [] ((sampleDay 1001000000000).map
          LabelledChunk.withReplays) = .ok result ∧
        (∀ chunk ∈ sampleDay 1001000000000,
          (result.files.get? chunk.chunkId).getD [] =
            chunk.typedRows plainBuiltins ℚ) ∧
        normalizeDay plainBuiltins []
          ((withoutReplays (sampleDay 1001000000000)).map
            LabelledChunk.withReplays) = .ok bare ∧
        buildD0Audit result.files = buildD0Audit bare.files :=
  overlap_replay_invisible plainBuiltins [] (sampleDay 1001000000000)
    (by decide +kernel) (overlapRows_sample 1001000000000)
    (by decide +kernel)

/--
When the first replay was received before its original, the second one is no
longer recognised, although its original is in the window.
-/
theorem replay_counted_sampleDay :
    ((sampleDay 999000000000).map LabelledChunk.chunkId).Nodup ∧
      OverlapRows plainBuiltins ℚ []
        (processedRows (sampleDay 999000000000)) ∧
      OriginalInWindow plainBuiltins
        (processedRows (sampleDay 999000000000)) ∧
      ∃ result bare : TypedDay ℚ,
        normalizeDay plainBuiltins [] ((sampleDay 999000000000).map
            LabelledChunk.withReplays) = .ok result ∧
          normalizeDay plainBuiltins []
            ((withoutReplays (sampleDay 999000000000)).map
              LabelledChunk.withReplays) = .ok bare ∧
          (∃ chunk ∈ sampleDay 999000000000,
            (result.files.get? chunk.chunkId).getD [] ≠
              chunk.typedRows plainBuiltins ℚ) ∧
          buildD0Audit result.files ≠ buildD0Audit bare.files := by
  have counted :
      ((normalizeDay (δ := ℚ) plainBuiltins []
        ((sampleDay 999000000000).map
          LabelledChunk.withReplays)).toOption.map fun day =>
        ((buildD0Audit day.files).trade.events,
          ((day.files.get? "trade-0001").getD []).map fun row =>
            row.header.isDuplicate)) =
        some (3, [false, true, false, false]) := by
    decide +kernel
  have bareCounted :
      ((normalizeDay (δ := ℚ) plainBuiltins []
        ((withoutReplays (sampleDay 999000000000)).map
          LabelledChunk.withReplays)).toOption.map fun day =>
        (buildD0Audit day.files).trade.events) = some 2 := by
    decide +kernel
  have labels : (sampleDay 999000000000).map (fun chunk =>
      (chunk.typedRows plainBuiltins ℚ).map fun row =>
        row.header.isDuplicate) = [[false, true, false, true]] := by
    decide +kernel
  rcases Option.map_eq_some_iff.mp counted with ⟨result, isResult, marks⟩
  rcases Option.map_eq_some_iff.mp bareCounted with ⟨bare, isBare, events⟩
  rcases Prod.mk.inj marks with ⟨withReplays, isMarked⟩
  refine ⟨by decide +kernel, overlapRows_sample 999000000000,
    originalInWindow_sample, result, bare, eq_ok_of_toOption isResult,
    eq_ok_of_toOption isBare, ⟨_, List.mem_cons_self, ?_⟩, ?_⟩
  · intro same
    rw [same] at isMarked
    rw [sampleDay, List.map_cons, List.map_nil, isMarked] at labels
    cases labels
  · intro same
    rw [same, events] at withReplays
    cases withReplays

end ShadowDataPlane.Central
