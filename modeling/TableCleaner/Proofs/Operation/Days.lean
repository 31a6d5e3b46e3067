import TableCleaner.Proofs.Calendar.Written
import TableCleaner.Proofs.Operation.Numeric

/-!
# Days that keep their places

A part of a date is taken from the day of a cell, and only dates and texts have one. Turning a
column into dates or into texts keeps its days: a date comes back from its text, and the texts of
numbers and truth values have none of the marks of a date. So the parts of the dates of a column do
not depend on the types that it went through.
-/

namespace TableCleaner

/-! ## Texts of numbers -/

/-- The text is digits with at most one minus sign and one point in it. -/
structure Decimal.IsNumeral (s : List Char) : Prop where
  mem : ∀ c ∈ s, isDigit c = true ∨ c = '-' ∨ c = '.'
  minus : s.count '-' ≤ 1
  point : s.count '.' ≤ 1

namespace Decimal

variable {s : List Char}

theorem IsPlain.minus_not_mem {d : Decimal} (h : IsPlain s d) : '-' ∉ s := by
  intro hc
  rcases h.mem hc with hc | hc <;> cases hc

theorem IsPlain.count_point_le {d : Decimal} (h : IsPlain s d) : s.count '.' ≤ 1 := by
  have hpoint : isDigit '.' = false := rfl
  cases h with
  | whole h => simp [count_of_digits h.digits hpoint]
  | point h hf => simp [count_of_digits h.digits hpoint, count_of_digits hf hpoint]

theorem IsPlain.isNumeral {d : Decimal} (h : IsPlain s d) (negative : Bool) :
    IsNumeral (if negative then '-' :: s else s) := by
  have hmem : ∀ c ∈ s, isDigit c = true ∨ c = '-' ∨ c = '.' := fun c hc => (h.mem hc).imp_right .inr
  have hminus := List.count_eq_zero_of_not_mem h.minus_not_mem
  have hpoint := h.count_point_le
  cases negative with
  | false => exact ⟨hmem, hminus ▸ Nat.zero_le 1, hpoint⟩
  | true => exact ⟨List.forall_mem_cons.mpr ⟨.inr (.inl rfl), hmem⟩, by simp [hminus], by simpa⟩

theorem isNumeral_intChars (i : Int) : IsNumeral (Json.intChars i) := by
  have h := (IsPlain.whole (isRun_toDigits i.natAbs)).isNumeral (decide (i < 0))
  simpa [Json.intChars] using h

theorem isNumeral_layout (d : Decimal) (negative : Bool) :
    IsNumeral (if negative then '-' :: plainStyle.layout d else plainStyle.layout d) := by
  obtain ⟨e, hplain, -⟩ := exists_isPlain_positional d.digits d.exponent
  exact hplain.isNumeral negative

namespace IsNumeral

theorem isBlank_eq_false (h : IsNumeral s) : ∀ c ∈ s, Text.isBlank c = false := by
  intro c hc
  rcases h.mem c hc with hc | rfl | rfl
  · exact (Cell.clean_of_isDigit hc).1
  · decide
  · decide

theorem count_eq_zero (h : IsNumeral s) {c : Char}
    (hc : isDigit c = false ∧ c ≠ '-' ∧ c ≠ '.') : s.count c = 0 := by
  rw [List.count_eq_zero]
  intro hmem
  rcases h.mem c hmem with hdigit | hminus | hpoint
  · simp [hc.1] at hdigit
  · exact hc.2.1 hminus
  · exact hc.2.2 hpoint

theorem isLower_eq_false (h : IsNumeral s) : ∀ c ∈ s, c.toLower.isLower = false := by
  intro c hc
  rcases h.mem c hc with hc | rfl | rfl
  · rw [toLower_of_isDigit hc]
    unfold isDigit at hc
    simp only [Bool.and_eq_true, decide_eq_true_eq] at hc
    simp only [Char.isLower, Bool.and_eq_false_iff, decide_eq_false_iff_not]
    left
    intro hlower
    exact absurd (UInt32.le_trans hlower hc.2) (by decide)
  · decide
  · decide

end IsNumeral

end Decimal

/-- Every layout of a date names the month or has a slash, two minus signs or two points. -/
theorem Layout.exists_mark : ∀ layout ∈ dateTimeLayouts ++ dateLayouts,
    (.monthName ∈ layout ∨ .shortMonthName ∈ layout) ∨ 0 < layout.count (.fixed '/') ∨
      1 < layout.count (.fixed '-') ∨ 1 < layout.count (.fixed '.') := by
  decide

theorem Layout.readFields?_of_isNumeral {s : List Char} (h : Decimal.IsNumeral s) {layout : Layout}
    (hlayout : layout ∈ dateTimeLayouts ++ dateLayouts) : readFields? layout {} s = none := by
  rcases exists_mark layout hlayout with hname | hslash | hminus | hpoint
  · cases hread : readFields? layout {} s with
    | none => rfl
    | some f =>
      obtain ⟨c, hc, hlower⟩ := exists_letter hread hname
      simp [h.isLower_eq_false c hc] at hlower
  · apply readFields?_eq_none {} (c := '/')
    rwa [h.count_eq_zero (by decide)]
  · exact readFields?_eq_none {} (Nat.lt_of_le_of_lt h.minus hminus)
  · exact readFields?_eq_none {} (Nat.lt_of_le_of_lt h.point hpoint)

theorem DateTime.readChars?_of_isNumeral {s : List Char} (h : Decimal.IsNumeral s) :
    readChars? s = none := by
  have htimestamp : Timestamp.read? s = none := by
    apply Timestamp.read?_eq_none
    · exact h.count_eq_zero (by decide)
    · exact h.count_eq_zero (by decide)
    · simp [h.count_eq_zero (c := ':') (by decide)]
  have hdateTime : Layout.dateTimeLayouts.findSome? (·.readDateTime? s) = none := by
    rw [List.findSome?_eq_none_iff]
    intro layout hlayout
    rw [Layout.readDateTime?,
      Layout.readFields?_of_isNumeral h (List.mem_append_left _ hlayout)]
    rfl
  have hdate : Layout.dateLayouts.findSome? (·.readDate? s) = none := by
    rw [List.findSome?_eq_none_iff]
    intro layout hlayout
    rw [Layout.readDate?, Layout.readFields?_of_isNumeral h (List.mem_append_right _ hlayout)]
    rfl
  unfold readChars?
  simp only [Text.trim_of_not_blank h.isBlank_eq_false, htimestamp, hdateTime, hdate]
  exact ite_self _

theorem DateTime.readChars?_plain (x : Float) : readChars? (Decimal.plainStyle.chars x) = none := by
  unfold Decimal.Style.chars
  extract_lets bits text
  -- The names of the undefined number and of infinity are closed texts; any other is a numeral.
  split
  · decide +kernel
  by_cases hinfinity : bits = Binary.infinityBits
  · simp only [text, if_pos hinfinity]
    split <;> decide +kernel
  · have hlayout : ∃ d, text = Decimal.plainStyle.layout d := by
      simp only [text, if_neg hinfinity]
      split
      · exact ⟨_, rfl⟩
      · exact ⟨_, rfl⟩
    obtain ⟨d, hd⟩ := hlayout
    rw [hd]
    exact readChars?_of_isNumeral (Decimal.isNumeral_layout d _)

/-! ## Days of cells -/

namespace Cell

/-- The day that a cell is read as. -/
def day? (c : Cell) : Option Date := c.dateTime?.map (·.date)

theorem day?_text_shown (c : Cell) : (text c.shown).day? = c.day? := by
  have htext : ∀ s : List Char,
      (text (String.ofList s)).day? = (DateTime.readChars? s).map (·.date) := by
    intro s
    rw [day?, dateTime?, DateTime.read?, String.toList_ofList]
  cases c with
  | null => exact htext []
  | text s => rfl
  | number x =>
    refine (htext _).trans ?_
    rw [shownChars, DateTime.readChars?_plain]
    rfl
  | int i =>
    refine (htext _).trans ?_
    rw [shownChars, DateTime.readChars?_of_isNumeral (Decimal.isNumeral_intChars _)]
    rfl
  | bool b =>
    refine (htext _).trans ?_
    cases b <;> decide +kernel
  | dateTime t =>
    refine (htext _).trans ?_
    rw [shownChars, DateTime.readChars?_writeChars]
    rfl

theorem day?_convertCell {type : TargetType} (htype : type = .string ∨ type = .datetime) (c : Cell) :
    (Table.convertCell type c).day? = c.day? := by
  rcases htype with rfl | rfl
  · cases c with
    | null => rfl
    | number | int | text | bool | dateTime => exact day?_text_shown _
  · change ((c.dateTime?.map Cell.dateTime).getD .null).day? = c.day?
    unfold day?
    cases c.dateTime? <;> rfl

end Cell

/-! ## Days of columns -/

namespace Table

variable {t : Table} {name : String}

/-- The days of a column's cells. -/
def days? (t : Table) (name : String) : Option (List (Option Date)) :=
  (t.cells? name).map (·.map Cell.day?)

/-- A part of a day; an empty cell when there is none. -/
def dayPartCell (part : DatePart) (d : Option Date) : Cell :=
  (d.map fun d => .int (datePart part d)).getD .null

theorem datePartCell_eq (part : DatePart) : datePartCell part = dayPartCell part ∘ Cell.day? := by
  funext c
  rw [Function.comp_apply, datePartCell, Cell.day?]
  cases c.dateTime? <;> rfl

theorem column?_extractDatePart (part : DatePart) {days : List (Option Date)}
    (h : t.days? name = some days) :
    (t.extractDatePart name (some part)).column? (name ++ "_" ++ part.name) =
      some ⟨name ++ "_" ++ part.name, days.map (dayPartCell part)⟩ := by
  obtain ⟨cells, hcells, rfl⟩ := Option.map_eq_some_iff.mp h
  rw [extractDatePart, column?_derive, if_pos rfl, hcells, datePartCell_eq, List.map_map]
  rfl

theorem days?_changeType {type : TargetType} (htype : type = .string ∨ type = .datetime) :
    ((Operation.changeType name (some type)).apply t).days? name = t.days? name := by
  rw [Operation.apply_changeType, mapColumn, days?, days?]
  cases hcells : t.cells? name with
  | none => simp [hcells]
  | some cells =>
    simp [cells?_mapCells, hcells, Cell.day?_convertCell htype]

/-- The table with a column turned into one type after another. -/
def retype (t : Table) (name : String) (types : List TargetType) : Table :=
  types.foldl (fun s type => (Operation.changeType name (some type)).apply s) t

theorem days?_retype {types : List TargetType}
    (htypes : ∀ type ∈ types, type = .string ∨ type = .datetime) :
    (t.retype name types).days? name = t.days? name := by
  induction types generalizing t with
  | nil => rfl
  | cons type types ih =>
    obtain ⟨htype, htypes⟩ := List.forall_mem_cons.mp htypes
    exact (ih htypes).trans (days?_changeType htype)

end Table

/-- **Types do not touch days.** The parts of the dates of a column are the parts of its own cells,
and they stay the same when the column is turned into dates, into texts, or into one after the other
before, in any order and any number of times. No number or truth value gets a day when it becomes a
text, and a date keeps its day in every year and with every fraction of a second. -/
theorem Operation.extractDatePart_retype (t : Table) {name : String} {c : Column} (hname : name ≠ "")
    (hc : t.column? name = some c) (part : DatePart) {types : List TargetType}
    (htypes : ∀ type ∈ types, type = .string ∨ type = .datetime) :
    let parts : Column :=
      ⟨name ++ "_" ++ part.name, c.cells.map (Table.datePartCell part)⟩
    ((extractDatePart name (some part)).apply t).column? (name ++ "_" ++ part.name) = some parts ∧
      ((extractDatePart name (some part)).apply (t.retype name types)).column?
        (name ++ "_" ++ part.name) = some parts := by
  have hdays : t.days? name = some (c.cells.map Cell.day?) := by
    rw [Table.days?, Table.cells?_eq hname, hc]
    rfl
  intro parts
  have hparts : parts =
      ⟨name ++ "_" ++ part.name, (c.cells.map Cell.day?).map (Table.dayPartCell part)⟩ := by
    rw [List.map_map, ← Table.datePartCell_eq]
  rw [hparts]
  exact ⟨Table.column?_extractDatePart part hdays,
    Table.column?_extractDatePart part ((Table.days?_retype htypes).trans hdays)⟩

theorem Operation.extractDatePart_retype_mixed :
    ∃ t : Table,
      t.columns = [⟨"at", [.text " 2024/3/9", .dateTime ⟨⟨12024, 2, 29, by decide⟩,
        ⟨23, 59, 59, 500000000, by decide⟩⟩, .dateTime (.atMidnight ⟨-44, 3, 15, by decide⟩),
        .int 20240309, .number 2024.25, .bool true, .null]⟩] ∧
      ((extractDatePart "at" (some .year)).apply t).column? "at_year" =
        some ⟨"at_year", [.int 2024, .int 12024, .int (-44), .null, .null, .null, .null]⟩ ∧
      ((extractDatePart "at" (some .year)).apply (t.retype "at" [.string, .datetime])).column?
        "at_year" =
          some ⟨"at_year", [.int 2024, .int 12024, .int (-44), .null, .null, .null, .null]⟩ := by
  let c : Column := ⟨"at", [.text " 2024/3/9", .dateTime ⟨⟨12024, 2, 29, by decide⟩,
    ⟨23, 59, 59, 500000000, by decide⟩⟩, .dateTime (.atMidnight ⟨-44, 3, 15, by decide⟩),
    .int 20240309, .number 2024.25, .bool true, .null]⟩
  let t : Table := ⟨[c], 7, List.nodup_singleton _, by simp [c]⟩
  have htypes : ∀ type ∈ [TargetType.string, TargetType.datetime],
      type = .string ∨ type = .datetime := by
    decide
  have hc : t.column? "at" = some c := rfl
  obtain ⟨hplain, hretyped⟩ := extractDatePart_retype t (by decide) hc .year htypes
  have hparts : c.cells.map (Table.datePartCell .year) =
      [.int 2024, .int 12024, .int (-44), .null, .null, .null, .null] := by
    decide +kernel
  rw [hparts] at hplain hretyped
  exact ⟨t, rfl, hplain, hretyped⟩

end TableCleaner
