import ShadowDataPlane.Contracts.Chunk
import ShadowDataPlane.Foundation.Lines
import ShadowDataPlane.Foundation.Result

/-!
# The bytes of a journal

The journal of a day has one line for each reference, the JSON text of the
reference and a newline.  How a reference is written and read is up to the
JSON libraries; what is relied on is stated in `JsonLaws`.

A journal of whole documents is read, even if the newline behind the last one
is missing.  A line which was put together of pieces of documents is refused
(`Torn.not_read`), whatever is appended behind it (`Torn.append`).
-/

namespace ShadowDataPlane.Edge

open ShadowDataPlane.Foundation
open ShadowDataPlane.Contracts

/-! ## Documents -/

/-- The byte at the end of a line. -/
def newline : UInt8 := 10

/-- `validate_json` refuses the text. -/
structure ValidationError where
  text : List UInt8
deriving DecidableEq, Repr

/-- The JSON text of a reference, and how it is read. -/
structure RefCodec where
  dumps : ChunkRefV1 → List UInt8
  validateJson : List UInt8 → Except ValidationError ChunkRefV1

namespace RefCodec

/-- `canonical_json_bytes`, which appends a newline. -/
def canonicalJsonBytes (codec : RefCodec) (chunk : ChunkRefV1) : List UInt8 :=
  codec.dumps chunk ++ [newline]

/-- What the journal relies on. -/
structure JsonLaws (codec : RefCodec) : Prop where
  /-- Control characters are escaped. -/
  oneLine : ∀ chunk, newline ∉ codec.dumps chunk
  roundTrip : ∀ chunk, codec.validateJson (codec.dumps chunk) = .ok chunk
  /-- White space behind a document is insignificant. -/
  trailingNewline : ∀ text chunk,
    codec.validateJson (text ++ [newline]) = .ok chunk ↔
      codec.validateJson text = .ok chunk
  /-- Beginnings of documents are accepted as one whole document only. -/
  oneDocument : ∀ pieces chunk,
    (∀ piece ∈ pieces, piece ≠ [] ∧ ∃ begun, piece <+: codec.dumps begun) →
      codec.validateJson pieces.flatten = .ok chunk →
        pieces = [codec.dumps chunk]
  /-- No document is the beginning of another one. -/
  selfDelimiting : ∀ left right,
    codec.dumps left <+: codec.dumps right → left = right

end RefCodec

/-! ## Journals of whole documents -/

section Journals

variable {codec : RefCodec} {bytes : List UInt8}

/-- Whole lines, and perhaps a document whose newline is missing. -/
def Documents (codec : RefCodec) (chunks : List ChunkRefV1)
    (last : Option ChunkRefV1) (bytes : List UInt8) : Prop :=
  bytes = chunks.flatMap codec.canonicalJsonBytes ++
    last.elim [] codec.dumps

/-- A line which is refused, whatever is appended behind it. -/
def Torn (codec : RefCodec) (bytes : List UInt8) : Prop :=
  ∃ chunks : List ChunkRefV1,
    (∃ pieces : List (List UInt8),
      bytes = chunks.flatMap codec.canonicalJsonBytes ++ pieces.flatten ∧
        pieces ≠ [] ∧
        (∀ piece ∈ pieces,
          piece ≠ [] ∧ ∃ begun, piece <+: codec.dumps begun) ∧
        ∀ chunk, pieces ≠ [codec.dumps chunk]) ∨
    ∃ text rest : List UInt8,
      bytes = chunks.flatMap codec.canonicalJsonBytes ++
          (text ++ [newline] ++ rest) ∧
        newline ∉ text ∧ ∀ chunk, codec.validateJson text ≠ .ok chunk

theorem RefCodec.JsonLaws.dumps_ne_nil
    (laws : codec.JsonLaws) (chunk : ChunkRefV1) :
    codec.dumps chunk ≠ [] := by
  intro empty
  have accepted := laws.roundTrip chunk
  rw [empty] at accepted
  cases laws.oneDocument [] chunk (by rintro piece ⟨⟩) accepted

/-- A line is read as the document in it. -/
theorem RefCodec.JsonLaws.validateJson_line
    (laws : codec.JsonLaws) (chunk : ChunkRefV1) :
    codec.validateJson (codec.canonicalJsonBytes chunk) = .ok chunk :=
  (laws.trailingNewline _ _).mpr (laws.roundTrip chunk)

theorem linesOf_documents
    (laws : codec.JsonLaws) (chunks : List ChunkRefV1) (rest : List UInt8) :
    linesOf newline (chunks.flatMap codec.canonicalJsonBytes ++ rest) =
      chunks.map codec.canonicalJsonBytes ++ linesOf newline rest :=
  linesOf_flatMap_append laws.oneLine chunks rest

/-- Whole documents are read. -/
theorem Documents.read
    {chunks : List ChunkRefV1} {last : Option ChunkRefV1}
    (laws : codec.JsonLaws) (documents : Documents codec chunks last bytes) :
    (linesOf newline bytes).mapM codec.validateJson =
      .ok (chunks ++ last.toList) := by
  have lines : linesOf newline bytes =
      chunks.map codec.canonicalJsonBytes ++
        last.toList.map codec.dumps := by
    rw [documents, linesOf_documents laws]
    cases last with
    | none => rfl
    | some chunk =>
        show _ ++ linesOf newline (codec.dumps chunk) = _
        rw [linesOf_of_not_mem (laws.oneLine chunk) (laws.dumps_ne_nil chunk)]
        rfl
  rw [lines]
  apply mapM_eq_ok_of_forall₂
  apply List.rel_append
  · rw [List.forall₂_map_left_iff, List.forall₂_same]
    exact fun chunk _ => laws.validateJson_line chunk
  · rw [List.forall₂_map_left_iff, List.forall₂_same]
    exact fun chunk _ => laws.roundTrip chunk

/-- Pieces of documents have no newline. -/
theorem RefCodec.JsonLaws.newline_not_mem_pieces
    (laws : codec.JsonLaws) {pieces : List (List UInt8)}
    (begun : ∀ piece ∈ pieces,
      piece ≠ [] ∧ ∃ begun, piece <+: codec.dumps begun) :
    newline ∉ pieces.flatten := by
  intro member
  rcases List.mem_flatten.mp member with ⟨piece, isPiece, inPiece⟩
  rcases (begun piece isPiece).2 with ⟨chunk, isPrefix⟩
  exact laws.oneLine chunk (isPrefix.subset inPiece)

/-- A torn line is not read. -/
theorem Torn.not_read
    (laws : codec.JsonLaws) (torn : Torn codec bytes)
    (chunks : List ChunkRefV1) :
    (linesOf newline bytes).mapM codec.validateJson ≠ .ok chunks := by
  intro completed
  rcases torn with ⟨whole, ⟨pieces, rfl, some, begun, refused⟩ |
    ⟨text, rest, rfl, unbroken, refused⟩⟩
  · have isLine : pieces.flatten ∈ linesOf newline
        (whole.flatMap codec.canonicalJsonBytes ++ pieces.flatten) := by
      rw [linesOf_documents laws, linesOf_of_not_mem
        (laws.newline_not_mem_pieces begun)]
      · simp
      · intro empty
        rcases List.exists_mem_of_ne_nil pieces some with ⟨piece, isPiece⟩
        exact (begun piece isPiece).1
          (List.flatten_eq_nil_iff.mp empty piece isPiece)
    rcases exists_result_of_mem_mapM completed isLine with
      ⟨chunk, _, accepted⟩
    exact refused chunk (laws.oneDocument pieces chunk begun accepted)
  · have isLine : text ++ [newline] ∈ linesOf newline
        (whole.flatMap codec.canonicalJsonBytes ++
          (text ++ [newline] ++ rest)) := by
      rw [linesOf_documents laws, linesOf_append_line unbroken]
      simp
    rcases exists_result_of_mem_mapM completed isLine with
      ⟨chunk, _, accepted⟩
    exact refused chunk ((laws.trailingNewline text chunk).mp accepted)

/-- What an append writes: nothing, a piece, or the whole line. -/
theorem take_canonicalJsonBytes
    (laws : codec.JsonLaws) (chunk : ChunkRefV1) (written : Nat) :
    written = 0 ∨
      (written ≤ (codec.dumps chunk).length ∧
        (codec.canonicalJsonBytes chunk).take written =
          (codec.dumps chunk).take written ∧
        (codec.dumps chunk).take written ≠ []) ∨
      ((codec.dumps chunk).length < written ∧
        (codec.canonicalJsonBytes chunk).take written =
          codec.dumps chunk ++ [newline]) := by
  by_cases none : written = 0
  · exact Or.inl none
  · right
    by_cases within : written ≤ (codec.dumps chunk).length
    · left
      refine ⟨within, List.take_append_of_le_length within, ?_⟩
      rw [Ne, List.take_eq_nil_iff, not_or]
      exact ⟨none, laws.dumps_ne_nil chunk⟩
    · right
      refine ⟨by omega, List.take_of_length_le ?_⟩
      rw [RefCodec.canonicalJsonBytes, List.length_append]
      show _ + 1 ≤ _
      omega

/-- An append behind pieces of documents, or one which is cut, tears a line. -/
theorem torn_append_pieces
    (laws : codec.JsonLaws) (chunks : List ChunkRefV1)
    {pieces : List (List UInt8)}
    (begun : ∀ piece ∈ pieces,
      piece ≠ [] ∧ ∃ begun, piece <+: codec.dumps begun)
    {chunk : ChunkRefV1} {written : Nat} (some : written ≠ 0)
    (tears : pieces ≠ [] ∨ written < (codec.dumps chunk).length) :
    Torn codec (chunks.flatMap codec.canonicalJsonBytes ++ pieces.flatten ++
      (codec.canonicalJsonBytes chunk).take written) := by
  have several : ∀ (piece : List UInt8) (other : ChunkRefV1), pieces ≠ [] →
      pieces ++ [piece] ≠ [codec.dumps other] := by
    intro piece other nonempty single
    have lengths := congrArg List.length single
    rw [List.length_append, List.length_singleton,
      List.length_singleton] at lengths
    exact nonempty (List.eq_nil_of_length_eq_zero (by omega))
  have extended : ∀ piece, piece ≠ [] → piece <+: codec.dumps chunk →
      ∀ other ∈ pieces ++ [piece],
        other ≠ [] ∧ ∃ begun, other <+: codec.dumps begun := by
    intro piece nonempty isPrefix other member
    rcases List.mem_append.mp member with old | new
    · exact begun other old
    · rw [List.mem_singleton.mp new]
      exact ⟨nonempty, chunk, isPrefix⟩
  rcases take_canonicalJsonBytes laws chunk written with
    none | ⟨within, isPiece, nonempty⟩ | ⟨beyond, isLine⟩
  · exact absurd none some
  · refine ⟨chunks, Or.inl ⟨pieces ++ [(codec.dumps chunk).take written],
      ?_, by simp, extended _ nonempty (List.take_prefix _ _), ?_⟩⟩
    · rw [isPiece, List.append_assoc, List.flatten_append,
        List.flatten_singleton]
    · intro other
      by_cases first : pieces = []
      · intro single
        rw [first, List.nil_append, List.cons.injEq] at single
        have isPrefix := List.take_prefix written (codec.dumps chunk)
        rw [single.1] at isPrefix
        have cut := tears.resolve_left (not_not.mpr first)
        have lengths := congrArg List.length single.1
        rw [laws.selfDelimiting _ _ isPrefix, List.length_take] at lengths
        omega
      · exact several _ other first
  · have nonempty : pieces ≠ [] := tears.resolve_right (by omega)
    refine ⟨chunks, Or.inr
      ⟨pieces.flatten ++ codec.dumps chunk, [], ?_, ?_, ?_⟩⟩
    · rw [isLine]
      simp only [List.append_assoc, List.append_nil]
    · rw [List.mem_append, not_or]
      exact ⟨laws.newline_not_mem_pieces begun, laws.oneLine chunk⟩
    · intro other accepted
      apply several (codec.dumps chunk) other nonempty
      apply laws.oneDocument
      · exact extended _ (laws.dumps_ne_nil chunk) (List.prefix_refl _)
      · rw [List.flatten_append, List.flatten_singleton]
        exact accepted

/-- What is appended to a torn journal leaves it torn. -/
theorem Torn.append
    (laws : codec.JsonLaws) (torn : Torn codec bytes) (chunk : ChunkRefV1)
    (written : Nat) :
    Torn codec
      (bytes ++ (codec.canonicalJsonBytes chunk).take written) := by
  by_cases none : written = 0
  · rw [none, List.take_zero, List.append_nil]
    exact torn
  · rcases torn with ⟨whole, ⟨pieces, rfl, some, begun, _⟩ |
      ⟨text, rest, rfl, unbroken, refused⟩⟩
    · exact torn_append_pieces laws whole begun none (Or.inl some)
    · refine ⟨whole, Or.inr ⟨text,
        rest ++ (codec.canonicalJsonBytes chunk).take written, ?_, unbroken,
        refused⟩⟩
      simp only [List.append_assoc]

/-- No append but nothing fits behind a document without its newline. -/
theorem Documents.tear
    {chunks : List ChunkRefV1} {last : Option ChunkRefV1}
    (laws : codec.JsonLaws) (documents : Documents codec chunks last bytes)
    {chunk : ChunkRefV1} {written : Nat} (some : written ≠ 0)
    (tears : last ≠ none ∨ written < (codec.dumps chunk).length) :
    Torn codec
      (bytes ++ (codec.canonicalJsonBytes chunk).take written) := by
  have pieces : last.elim [] codec.dumps =
      (last.toList.map codec.dumps).flatten := by
    cases last with
    | none => rfl
    | some chunk => exact (List.append_nil _).symm
  rw [documents, pieces]
  apply torn_append_pieces laws chunks _ some
  · apply tears.imp_left
    intro present empty
    rw [List.map_eq_nil_iff, Option.toList_eq_nil_iff] at empty
    exact present empty
  · intro piece member
    rcases List.mem_map.mp member with ⟨begun, _, rfl⟩
    exact ⟨laws.dumps_ne_nil begun, begun, List.prefix_refl _⟩

/-- A whole document which is appended to whole lines. -/
theorem Documents.append
    {chunks : List ChunkRefV1}
    (laws : codec.JsonLaws) (documents : Documents codec chunks none bytes)
    {chunk : ChunkRefV1} {written : Nat}
    (whole : (codec.dumps chunk).length ≤ written) :
    ∃ chunks' last, chunks' ++ last.toList = chunks ++ [chunk] ∧
      Documents codec chunks' last
        (bytes ++ (codec.canonicalJsonBytes chunk).take written) := by
  rw [Documents, Option.elim_none, List.append_nil] at documents
  rcases take_canonicalJsonBytes laws chunk written with
    none | ⟨within, isPiece, _⟩ | ⟨_, isLine⟩
  · rw [none, Nat.le_zero, List.length_eq_zero_iff] at whole
    exact absurd whole (laws.dumps_ne_nil chunk)
  · refine ⟨chunks, some chunk, rfl, ?_⟩
    rw [isPiece, List.take_of_length_le whole, documents]
    rfl
  · refine ⟨chunks ++ [chunk], none, by simp, ?_⟩
    rw [isLine, documents, Documents, List.flatMap_append,
      List.flatMap_singleton]
    exact (List.append_nil _).symm

/-- Whether the next append begins a line. -/
def EndsLine (bytes : List UInt8) : Prop :=
  ∀ last ∈ bytes.getLast?, last = newline

instance (bytes : List UInt8) : Decidable (EndsLine bytes) :=
  match isLast : bytes.getLast? with
  | none => isTrue (by rw [EndsLine, isLast]; rintro last ⟨⟩)
  | some last =>
      decidable_of_iff (last = newline) (by simp [EndsLine, isLast])

theorem Documents.endsLine_iff
    {chunks : List ChunkRefV1} {last : Option ChunkRefV1}
    (laws : codec.JsonLaws) (documents : Documents codec chunks last bytes) :
    EndsLine bytes ↔ last = none := by
  cases last with
  | none =>
      rw [Documents, Option.elim_none, List.append_nil] at documents
      refine ⟨fun _ => rfl, fun _ => ?_⟩
      rw [documents, EndsLine]
      rcases List.eq_nil_or_concat chunks with rfl | ⟨others, chunk, rfl⟩
      · rintro last ⟨⟩
      · rw [List.concat_eq_append, List.flatMap_append,
          List.flatMap_singleton, RefCodec.canonicalJsonBytes,
          ← List.append_assoc,
          List.getLast?_concat]
        rintro last ⟨⟩
        rfl
  | some chunk =>
      rw [Documents, Option.elim_some] at documents
      refine ⟨fun ends => ?_, by rintro ⟨⟩⟩
      have nonempty := laws.dumps_ne_nil chunk
      have isLast := List.getLast?_eq_some_getLast nonempty
      rw [EndsLine, documents, List.getLast?_append, isLast] at ends
      have isNewline := ends _ rfl
      have member := List.getLast_mem nonempty
      rw [isNewline] at member
      exact absurd member (laws.oneLine chunk)

end Journals

end ShadowDataPlane.Edge
