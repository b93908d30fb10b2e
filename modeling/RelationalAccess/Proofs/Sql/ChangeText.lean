import Mathlib.Data.List.Nodup
import RelationalAccess.Proofs.Sql.Parameters

/-!
The texts of statements that insert or update one row are read back: the one as the columns that
it gives a value, the other as its assignments and the rows that it is for.
-/

namespace RelationalAccess

/-- The insertion of a row as an engine reads it. -/
structure ReadInsert where
  table : String
  /-- The columns that are given a value, by name, with their values. -/
  cells : List (String × Value)

namespace ReadInsert

/-- Names with commas between them up to a closing parenthesis, and what stands behind it. -/
def names? : List Token → Option (List String × List Token)
  | .name only :: .sign ")" :: behind => some ([only], behind)
  | .name first :: .sign "," :: rest =>
    (names? rest).map fun (others, behind) => (first :: others, behind)
  | _ => none

/-- Values with commas between them up to a closing parenthesis, and what stands behind it. -/
def values? : List Token → Option (List Value × List Token)
  | .bound only :: .sign ")" :: behind => some ([only], behind)
  | .bound first :: .sign "," :: rest =>
    (values? rest).map fun (others, behind) => (first :: others, behind)
  | _ => none

/-- The columns with their values, of which there must be as many. -/
def cells? (tokens : List Token) : Option (List (String × Value)) :=
  match names? tokens with
  | some (names, .word "VALUES" :: .sign "(" :: further) =>
    match values? further with
    | some (values, []) => if names.length = values.length then some (names.zip values) else none
    | _ => none
  | _ => none

theorem cells?_eq {tokens further : List Token} {names : List String} {values : List Value}
    (named : names? tokens = some (names, .word "VALUES" :: .sign "(" :: further))
    (valued : values? further = some (values, [])) (same : names.length = values.length) :
    cells? tokens = some (names.zip values) := by
  simp [cells?, named, valued, same]

/-- The insertion that tokens are, if they are one. -/
def ofTokens? : List Token → Option ReadInsert
  | [.word "INSERT", .word "INTO", .name table, .word "DEFAULT", .word "VALUES"] =>
    some { table, cells := [] }
  | .word "INSERT" :: .word "INTO" :: .name table :: .sign "(" :: listed =>
    (cells? listed).map fun cells => { table, cells }
  | _ => none

end ReadInsert

/-- The update of rows as an engine reads it. -/
structure ReadUpdate where
  table : String
  /-- The columns that are set, by name, with their new values. -/
  assignments : List (String × Value)
  /-- The condition on the rows that are updated. -/
  condition : Expression Test

namespace ReadUpdate

/-- Assignments with commas between them up to the condition, and the tokens of the condition. -/
def assignments? : List Token → Option (List (String × Value) × List Token)
  | .name column :: .sign "=" :: .bound value :: .word "WHERE" :: behind =>
    some ([(column, value)], behind)
  | .name column :: .sign "=" :: .bound value :: .sign "," :: rest =>
    (assignments? rest).map fun (others, behind) => ((column, value) :: others, behind)
  | _ => none

/-- The update that tokens are, if they are one. -/
def ofTokens? : List Token → Option ReadUpdate
  | .word "UPDATE" :: .name table :: .word "SET" :: rest => do
    let (assignments, behind) ← assignments? rest
    return { table, assignments, condition := ← Expression.ofTokens? behind }
  | _ => none

/-- Whether an update is of a row: its condition holds on it. -/
def Updates (relations : Relations) (cells : String → Value) (update : ReadUpdate) : Prop :=
  update.condition.truthBy (fun _ => Test.truth relations cells) = .holds

end ReadUpdate

namespace Piece

variable {dialect : Dialect}

theorem names?_closed (first : String) (others : List String) (behind : List Token) :
    ReadInsert.names? ((names (first :: others)).flatMap (tokens dialect) ++ .sign ")" :: behind) =
      some (first :: others, behind) := by
  induction others generalizing first with
  | nil => rfl
  | cons second rest inductionHypothesis =>
    have parted : names (first :: second :: rest) =
        .name first :: .words ", " :: names (second :: rest) := rfl
    rw [parted, List.flatMap_cons, List.flatMap_cons, tokens_comma]
    exact congrArg (Option.map fun (others, behind) => (first :: others, behind))
      (inductionHypothesis second)

theorem values?_closed (first : Value) (others : List Value) (behind : List Token) :
    ReadInsert.values? ((separated ", " ((first :: others).map fun value => [.bound value])).flatMap
        (tokens dialect) ++ .sign ")" :: behind) =
      some (first :: others, behind) := by
  induction others generalizing first with
  | nil => rfl
  | cons second rest inductionHypothesis =>
    have parted : separated ", " ((first :: second :: rest).map fun value => [.bound value]) =
        .bound first :: .words ", " ::
          separated ", " ((second :: rest).map fun value => [.bound value]) := rfl
    rw [parted, List.flatMap_cons, List.flatMap_cons, tokens_comma]
    exact congrArg (Option.map fun (others, behind) => (first :: others, behind))
      (inductionHypothesis second)

/-- Names and values in parentheses are read as cells. -/
theorem cells?_listed (first : String × Value) (others : List (String × Value)) :
    ReadInsert.cells? ((names ((first :: others).map Prod.fst)).flatMap (tokens dialect) ++
        .sign ")" :: .word "VALUES" :: .sign "(" ::
          ((separated ", " ((first :: others).map fun cell => [.bound cell.2])).flatMap
            (tokens dialect) ++ [.sign ")"])) =
      some (first :: others) := by
  have named (behind : List Token) : ReadInsert.names?
      ((names ((first :: others).map Prod.fst)).flatMap (tokens dialect) ++ .sign ")" :: behind) =
        some ((first :: others).map Prod.fst, behind) :=
    names?_closed first.1 (others.map Prod.fst) behind
  have valued : ReadInsert.values? ((separated ", " (((first :: others).map Prod.snd).map
      fun value => [.bound value])).flatMap (tokens dialect) ++ [.sign ")"]) =
        some ((first :: others).map Prod.snd, []) :=
    values?_closed first.2 (others.map Prod.snd) []
  rw [List.map_map] at valued
  exact (ReadInsert.cells?_eq (named _) valued (by simp)).trans
    (congrArg some (List.zip_of_prod rfl rfl).symm)

/-- A column set to a bound value. -/
def assigned (cell : String × Value) : List Piece := [.name cell.1, .words " = ", .bound cell.2]

theorem assignments?_closed (first : String × Value) (others : List (String × Value))
    (behind : List Token) :
    ReadUpdate.assignments? ((separated ", " ((first :: others).map assigned)).flatMap
        (tokens dialect) ++ .word "WHERE" :: behind) =
      some (first :: others, behind) := by
  have signRead : tokens dialect (.words " = ") = [.sign "="] := by cases dialect <;> decide
  have firstRead (first : String × Value) : (assigned first).flatMap (tokens dialect) =
      [.name first.1, .sign "=", .bound first.2] := by
    rw [assigned, List.flatMap_cons, List.flatMap_cons, signRead]
    rfl
  induction others generalizing first with
  | nil =>
    show ReadUpdate.assignments? ((assigned first).flatMap (tokens dialect) ++ _) = _
    rw [firstRead]
    rfl
  | cons second rest inductionHypothesis =>
    have parted : separated ", " ((first :: second :: rest).map assigned) =
        assigned first ++ .words ", " :: separated ", " ((second :: rest).map assigned) := rfl
    rw [parted, List.flatMap_append, firstRead, List.flatMap_cons, tokens_comma]
    exact congrArg (Option.map fun (others, behind) => (first :: others, behind))
      (inductionHypothesis second)

end Piece

/-- A column by its name, set to the bound form of its new value. -/
def Table.Assigns (dialect : Dialect) (table : Table) (change : Nat × Value)
    (cell : String × Value) : Prop :=
  ∃ column, table.columns[change.1]? = some column ∧ cell.1 = column.name ∧
    dialect.write column change.2 = .ok cell.2

/-- A read update sets the changed columns to the bound forms of their values, and is of just the
stored row that has the bound form of some keys. -/
structure ReadUpdate.Writes (dialect : Dialect) (table : Table) (keys : Keys)
    (changes : List (Nat × Value)) (read : ReadUpdate) : Prop where
  sameTable : read.table = table.name
  assigns : List.Forall₂ (table.Assigns dialect) changes read.assignments
  selects : ∀ relations cells, relations.ExactOn table (table.rowOf cells) →
    (read.Updates relations cells ↔
      table.keysOf (table.rowOf cells) = table.boundKeys dialect keys)

namespace Statement

variable {dialect : Dialect} {table : Table} {statement : Statement}

/-- An insertion is read as the columns that it binds with their bound values. -/
theorem reads_insert {values : List Value}
    (isMade : insert dialect table values = .ok statement) :
    ∃ columns, boundColumns dialect table values = .ok columns ∧
      ReadInsert.ofTokens? (statement.tokens dialect) =
        some
          { table := table.name
            cells := columns.map fun (column, bound) => (column.name, bound) } := by
  obtain ⟨pieces, arePieces, made⟩ := ok_of_bind isMade
  obtain rfl := Except.ok.inj made
  rw [tokens_assemble (carries_insertPieces arePieces).spaced]
  obtain ⟨columns, areBound, made⟩ := ok_of_bind arePieces
  refine ⟨columns, areBound, ?_⟩
  have insertRead : Piece.tokens dialect (.words "INSERT INTO ") = [.word "INSERT", .word "INTO"] := by
    cases dialect <;> decide
  have nameRead : Piece.tokens dialect (.name table.name) = [.name table.name] := rfl
  cases columns with
  | nil =>
    obtain rfl := Except.ok.inj made
    have defaultRead : Piece.tokens dialect (.words " DEFAULT VALUES") =
        [.word "DEFAULT", .word "VALUES"] := by cases dialect <;> decide
    simp only [List.flatMap_cons, List.flatMap_nil, insertRead, nameRead, defaultRead]
    rfl
  | cons first others =>
    obtain rfl := Except.ok.inj made
    have openingRead : Piece.tokens dialect (.words " (") = [.sign "("] := by cases dialect <;> decide
    have valuesRead : Piece.tokens dialect (.words ") VALUES (") =
        [.sign ")", .word "VALUES", .sign "("] := by cases dialect <;> decide
    have listed := @Piece.cells?_listed dialect (first.1.name, first.2)
      (others.map fun (column, bound) => (column.name, bound))
    rw [List.map_cons, List.map_cons, List.map_map, List.map_map] at listed
    simp only [List.flatMap_cons, List.flatMap_append, List.flatMap_nil, insertRead, openingRead,
      valuesRead, Piece.tokens_closing, nameRead, List.append_assoc, List.cons_append,
      List.nil_append, List.map_cons]
    exact congrArg (Option.map _) listed

/-- What an insertion binds for a column is the bound form of its value. It binds all columns but
those that the engine numbers and that are null. -/
theorem lookup_boundColumns {values : List Value} {columns : List (Column × Value)}
    (distinct : (table.columns.map (·.name)).Nodup) (width : values.length = table.columns.length)
    (areBound : boundColumns dialect table values = .ok columns) {position : Nat} {column : Column}
    (found : table.columns[position]? = some column) {value : Value}
    (isThere : values[position]? = some value) :
    match (columns.map fun (column, bound) => (column.name, bound)).lookup column.name with
    | some bound => ¬ (column.autoIncrement = true ∧ value = .null) ∧
        dialect.write column value = .ok bound
    | none => column.autoIncrement = true ∧ value = .null := by
  have each := mapM_eq_ok_iff.mp areBound
  have paired : (column, value) ∈ table.columns.zip values :=
    List.mem_of_getElem? (List.getElem?_zip_eq_some.mpr ⟨found, isThere⟩)
  have names : (table.columns.zip values).map (·.1.name) = table.columns.map (·.name) := by
    refine List.map_map.symm.trans (congrArg (List.map Column.name) ?_)
    exact List.map_fst_zip (Nat.le_of_eq width.symm)
  have isKept_iff : (!(column.autoIncrement && value.isNull)) = true ↔
      ¬ (column.autoIncrement = true ∧ value = .null) := by
    rw [Bool.not_eq_true', ← Bool.not_eq_true, Bool.and_eq_true, Value.isNull_iff]
  have alone := List.inj_on_of_nodup_map (names ▸ distinct)
  have binds (other : Column) (bound : Value) (isBound : (other, bound) ∈ columns)
      (sameName : column.name = other.name) :
      ¬ (column.autoIncrement = true ∧ value = .null) ∧ dialect.write column value = .ok bound := by
    obtain ⟨pair, isPair, isWritten⟩ := counterpart_left each isBound
    obtain ⟨isZipped, isKept⟩ := List.mem_filter.mp isPair
    obtain ⟨written, hasWritten, same⟩ := ok_of_bind isWritten
    obtain ⟨rfl, rfl⟩ := Prod.mk.inj (Except.ok.inj same)
    obtain rfl := alone paired isZipped sameName
    exact ⟨isKept_iff.mp isKept, hasWritten⟩
  split
  · next bound isBound =>
    obtain ⟨before, after, same, _⟩ := List.lookup_eq_some_iff.mp isBound
    have isCell : (column.name, bound) ∈ columns.map fun (column, bound) => (column.name, bound) := by
      simp [same]
    obtain ⟨⟨other, _⟩, isListed, sameCell⟩ := List.mem_map.mp isCell
    obtain ⟨sameName, rfl⟩ := Prod.mk.inj sameCell
    exact binds other _ isListed sameName.symm
  · next isOmitted =>
    by_contra kept
    have isKept : (column, value) ∈ (table.columns.zip values).filter fun (column, value) =>
        !(column.autoIncrement && value.isNull) :=
      List.mem_filter.mpr ⟨paired, isKept_iff.mpr kept⟩
    obtain ⟨entry, isListed, isWritten⟩ := counterpart_right each isKept
    obtain ⟨written, _, same⟩ := ok_of_bind isWritten
    obtain rfl := Except.ok.inj same
    have apart := List.lookup_eq_none_iff.mp isOmitted _ (List.mem_map.mpr ⟨_, isListed, rfl⟩)
    simp at apart

/-- Changes are assigned one by one. -/
private theorem cells_of_assignments {changes : List (Nat × Value)} {groups : List (List Piece)}
    (areAssigned : changes.mapM (assignment dialect table) = .ok groups) :
    ∃ cells : List (String × Value), groups = cells.map Piece.assigned ∧
      List.Forall₂ (table.Assigns dialect) changes cells := by
  have each := mapM_eq_ok_iff.mp areAssigned
  clear areAssigned
  induction each with
  | nil => exact ⟨[], rfl, .nil⟩
  | @cons change group _ _ isAssigned _ inductionHypothesis =>
    obtain ⟨cells, rfl, areCells⟩ := inductionHypothesis
    unfold assignment at isAssigned
    split at isAssigned
    · cases isAssigned
    · next column found =>
      obtain ⟨bound, isBound, made⟩ := ok_of_bind isAssigned
      obtain rfl := Except.ok.inj made
      exact ⟨(column.name, bound) :: cells, rfl, .cons ⟨column, found, rfl, isBound⟩ areCells⟩

/-- The filter of a row by its keys is read as a condition that holds on just the stored row that has
the bound form of the keys. -/
private theorem reads_rowFilter {keys : Keys} {filter : Filter} {pieces : List Piece}
    (isFilter : rowFilter table keys = .ok filter)
    (isMade : filter.pieces dialect table = .ok pieces) :
    ∃ condition, Expression.ofTokens? (pieces.flatMap (Piece.tokens dialect)) = some condition ∧
      ∀ relations cells, relations.ExactOn table (table.rowOf cells) →
        (condition.truthBy (fun _ => Test.truth relations cells) = .holds ↔
          table.keysOf (table.rowOf cells) = table.boundKeys dialect keys) := by
  unfold rowFilter at isFilter
  split at isFilter
  · cases isFilter
  · next usable =>
    obtain rfl := Except.ok.inj isFilter
    obtain ⟨writable, _⟩ := Condition.writes_of_pieces _ isMade
    obtain ⟨same, isSame, reads⟩ := Condition.reads_pieces _ writable
    obtain rfl := Except.ok.inj (isMade.symm.trans isSame)
    refine ⟨_, reads.ofTokens?, fun relations cells exact => ?_⟩
    have whole : keys.values.length = table.primaryKeys.length := by
      by_contra differs
      exact usable (.inr (.inl differs))
    have present : keys.hasNull = false := by
      cases hasNull : keys.hasNull with
      | false => rfl
      | true => exact absurd (.inr (.inr hasNull)) usable
    rw [Filter.truthBy_expression writable,
      Filter.storedTruth_ofKeys (by simpa using whole) (by simpa using present) writable exact]
    exact List.mem_singleton

/-- An update is read as one that writes its changes into the row of its keys. -/
theorem reads_update {keys : Keys} {changes : List (Nat × Value)}
    (isMade : update dialect table keys changes = .ok statement) :
    ∃ read, ReadUpdate.ofTokens? (statement.tokens dialect) = some read ∧
      read.Writes dialect table keys changes := by
  obtain ⟨pieces, arePieces, made⟩ := ok_of_bind isMade
  obtain rfl := Except.ok.inj made
  rw [tokens_assemble (carries_updatePieces arePieces).spaced]
  unfold updatePieces at arePieces
  split at arePieces
  · cases arePieces
  · next someChanges =>
    obtain ⟨groups, areAssigned, further⟩ := ok_of_bind arePieces
    obtain ⟨filter, isFilter, further⟩ := ok_of_bind further
    obtain ⟨condition, isCondition, made⟩ := ok_of_bind further
    obtain rfl := Except.ok.inj made
    obtain ⟨cells, rfl, areCells⟩ := cells_of_assignments areAssigned
    obtain ⟨expression, isRead, holds⟩ := reads_rowFilter isFilter isCondition
    refine ⟨⟨table.name, cells, expression⟩, ?_, ⟨rfl, areCells, holds⟩⟩
    have updateRead : Piece.tokens dialect (.words "UPDATE ") = [.word "UPDATE"] := by
      cases dialect <;> decide
    have setRead : Piece.tokens dialect (.words " SET ") = [.word "SET"] := by cases dialect <;> decide
    have whereRead : Piece.tokens dialect (.words " WHERE ") = [.word "WHERE"] := by
      cases dialect <;> decide
    have nameRead : Piece.tokens dialect (.name table.name) = [.name table.name] := rfl
    cases areCells with
    | nil => exact absurd rfl someChanges
    | @cons _ first _ others _ _ =>
      have assigned := @Piece.assignments?_closed dialect first others
        (condition.flatMap (Piece.tokens dialect))
      simp only [List.flatMap_cons, List.flatMap_append, updateRead, setRead, whereRead, nameRead,
        List.cons_append, List.nil_append]
      rw [ReadUpdate.ofTokens?, assigned]
      simp [isRead]

end Statement

end RelationalAccess
