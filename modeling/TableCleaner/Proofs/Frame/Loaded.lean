import TableCleaner.Proofs.Calendar.DayNumber
import TableCleaner.Proofs.Calendar.Layouts
import TableCleaner.Proofs.Frame.RoundTrip
import TableCleaner.Proofs.Table.Bare

/-!
# Loaded values

What becomes of the values of a frame. Truth values and texts are kept as they are, and days and
moments come back from their texts, whatever the unit. Integers are kept as long as they fit, and
those beyond the integers of a cell are lost.
-/

namespace TableCleaner

/-! ## Texts of days and moments -/

namespace TimeUnit

/-- The nanoseconds of a unit. -/
def nanos (unit : TimeUnit) : Nat := nanosPerSecond / unit.perSecond

/-- The moment is a whole number of units, and not within a leap second. -/
structure Counts (unit : TimeUnit) (n : Int) (t : DateTime) : Prop where
  whole : t.time.nanos < nanosPerSecond
  count : t.nanosFromEpoch = n * unit.nanos

variable {unit : TimeUnit} {n : Int} {t : DateTime}

theorem perSecond_dvd (unit : TimeUnit) : unit.perSecond ∣ nanosPerSecond := by
  cases unit <;> decide

theorem Counts.ofUnits? (h : unit.Counts n t) : DateTime.ofUnits? unit.perSecond n = some t :=
  DateTime.ofUnits?_eq unit.perSecond_dvd h.whole h.count

theorem Counts.pow_dvd_nanos (h : unit.Counts n t) : 10 ^ (9 - unit.digits) ∣ t.time.nanos := by
  have hcount := h.count
  change t.date.dayNumber * (86400 * nanosPerSecond : Nat) + (t.time.nanosOfDay : Int) =
    n * unit.nanos at hcount
  unfold TimeOfDay.nanosOfDay nanosPerSecond at hcount
  cases unit with
  | milliseconds =>
    change _ = n * (1000000 : Nat) at hcount
    change 10 ^ 6 ∣ _
    omega
  | microseconds =>
    change _ = n * (1000 : Nat) at hcount
    change 10 ^ 3 ∣ _
    omega
  | nanoseconds => exact Nat.one_dvd _

theorem writeChars_layout (unit : TimeUnit) (t : DateTime) :
    unit.layout.writeChars t = Layout.writeWith
      ('.' :: (Layout.padded 9 (t.time.nanos % nanosPerSecond)).take unit.digits) t
      (Layout.dateAndClock ++ [.fraction]) := by
  have hdigits : Layout.writeChars [.fixed '.', .fractionDigits unit.digits] t =
      '.' :: (Layout.padded 9 (t.time.nanos % nanosPerSecond)).take unit.digits := by
    simp [Layout.writeChars, Layout.writeItem]
  rw [Layout.writeWith_append (by decide), TimeUnit.layout, Layout.writeChars_append, hdigits]

theorem Counts.readChars? (h : unit.Counts n t) :
    DateTime.readChars? (unit.layout.writeChars t) = some t := by
  have hnanos : t.time.nanos % nanosPerSecond = t.time.nanos := Nat.mod_eq_of_lt h.whole
  have hfraction : Layout.IsFraction (t.time.nanos % nanosPerSecond)
      ('.' :: (Layout.padded 9 (t.time.nanos % nanosPerSecond)).take unit.digits) := by
    rw [hnanos]
    exact Layout.isFraction_take (by cases unit <;> decide) h.whole h.pow_dvd_nanos
  rw [writeChars_layout, Layout.readChars?_writeWith (by decide) t hfraction, if_pos (by decide)]

end TimeUnit

/-! ## Values -/

/-- The integers of the type. -/
def IntType.Holds (type : IntType) (i : Int) : Prop :=
  if type.isSigned then -2 ^ (type.bits - 1) ≤ i ∧ i < 2 ^ (type.bits - 1)
  else 0 ≤ i ∧ i < 2 ^ type.bits

namespace Series

/-- A value of a series. -/
inductive Value where
  | bool (b : Bool)
  | int (type : IntType) (i : Int)
  | text (s : String)
  /-- Days from the start of 1970. -/
  | day (n : Int)
  /-- Units from the start of 1970. -/
  | moment (unit : TimeUnit) (n : Int)

/-- The values of a series of truth values, integers, texts, days or moments. -/
def values? : Series → Option (List (Option Value))
  | bool vs => some (vs.map (·.map .bool))
  | int type vs => some (vs.map (·.map (.int type)))
  | text vs => some (vs.map (·.map .text))
  | date vs => some (vs.map (·.map .day))
  | dateTime unit vs => some (vs.map (·.map (.moment unit)))
  | float32 _ | float64 _ | time _ | duration .. | empty _ => none

namespace Value

/-- The type has the integer, and the calendar has the day or the moment. -/
def Exists : Value → Prop
  | int type i => type.Holds i
  | day n => ∃ d : Date, d.dayNumber = n
  | moment unit n => ∃ t, unit.Counts n t
  | bool _ | text _ => True

/-- The cell holds the value. -/
def HeldBy (c : Cell) : Value → Prop
  | bool b => c = .bool b
  | int _ i => ∃ j, c = .int j ∧ j.toInt = i
  | text s => c = .text s
  | day n => ∃ d, c = .dateTime (.atMidnight d) ∧ d.dayNumber = n
  | moment unit n => ∃ t, c = .dateTime t ∧ unit.Counts n t

/-- The value is no integer beyond those of a cell. -/
def Fits : Value → Prop
  | int _ i => -2 ^ 63 ≤ i ∧ i < 2 ^ 63
  | _ => True

theorem HeldBy.ne_null {c : Cell} {v : Value} (h : v.HeldBy c) : c ≠ .null := by
  rintro rfl
  cases v <;> simp [HeldBy] at h

end Value

/-- The cell is empty where the value is missing, and else holds it. -/
def Kept (v : Option Value) (c : Cell) : Prop :=
  (c = .null ↔ v = none) ∧ ∀ a, v = some a → a.HeldBy c

/-- The cell holds the value if it fits, and is empty if it does not. -/
def Loaded (v : Option Value) (c : Cell) : Prop :=
  (v = none → c = .null) ∧ ∀ a, v = some a → (a.Fits → a.HeldBy c) ∧ (¬ a.Fits → c = .null)

theorem Loaded.kept_iff {v : Option Value} {c : Cell} (h : Loaded v c) :
    Kept v c ↔ ∀ a, v = some a → a.Fits := by
  cases v with
  | none => simp [Kept, h.1 rfl]
  | some a =>
    obtain ⟨hfits, hlost⟩ := h.2 a rfl
    simp only [Kept, Option.some.injEq, forall_eq', reduceCtorEq, iff_false]
    constructor
    · rintro ⟨hnull, -⟩
      by_contra hnot
      exact hnull (hlost hnot)
    · intro ha
      exact ⟨(hfits ha).ne_null, hfits ha⟩

theorem forall₂_kept_iff {vs : List (Option Value)} {cells : List Cell}
    (h : List.Forall₂ Loaded vs cells) :
    List.Forall₂ Kept vs cells ↔ ∀ v, some v ∈ vs → v.Fits := by
  induction h with
  | nil => simp
  | cons hfirst _ ih =>
    rw [List.forall₂_cons, hfirst.kept_iff, ih]
    simp only [List.mem_cons, or_imp, forall_and, eq_comm]

/-! ## Series -/

theorem loaded_cellOf {α : Type} {wrap : α → Value} {f : α → Cell} {v : Option α}
    (h : ∀ a, v = some a →
      ((wrap a).Fits → (wrap a).HeldBy (f a)) ∧ (¬ (wrap a).Fits → f a = .null)) :
    Loaded (v.map wrap) (cellOf f v) := by
  cases v with
  | none => exact ⟨fun _ => rfl, nofun⟩
  | some a =>
    refine ⟨nofun, fun b hb => ?_⟩
    obtain rfl := Option.some.inj hb
    exact h a rfl

theorem forall₂_loaded {α : Type} {wrap : α → Value} {f : α → Cell} {vs : List (Option α)}
    (hexists : ∀ v, some v ∈ vs.map (·.map wrap) → v.Exists)
    (h : ∀ a, (wrap a).Exists →
      ((wrap a).Fits → (wrap a).HeldBy (f a)) ∧ (¬ (wrap a).Fits → f a = .null)) :
    List.Forall₂ Loaded (vs.map (·.map wrap)) (vs.map (cellOf f)) := by
  rw [List.forall₂_map_left_iff, List.forall₂_map_right_iff, List.forall₂_same]
  intro v hv
  refine loaded_cellOf fun a ha => h a (hexists _ ?_)
  exact List.mem_map.mpr ⟨v, hv, by rw [ha]; rfl⟩

theorem readCell_day (d : Date) :
    readCell (Layout.yearFirst.writeChars (DateTime.atMidnight d)) = .dateTime (.atMidnight d) := by
  rw [readCell, Layout.readChars?_writeDate (by decide)]
  rfl

theorem exists_loaded {s : Series} {vs : List (Option Value)} (hvalues : s.values? = some vs)
    (hexists : ∀ v, some v ∈ vs → v.Exists) :
    ∃ cells, s.cells? = some cells ∧ List.Forall₂ Loaded vs cells := by
  cases s with
  | bool values | text values =>
    obtain rfl := Option.some.inj hvalues
    exact ⟨_, rfl, forall₂_loaded hexists fun a _ => ⟨fun _ => rfl, fun h => absurd trivial h⟩⟩
  | int type values =>
    obtain rfl := Option.some.inj hvalues
    refine ⟨_, rfl, forall₂_loaded hexists fun i _ => ⟨fun h => ?_, fun h => ?_⟩⟩
    · refine ⟨Int64.ofInt i, ?_, Int64.toInt_ofInt_of_le h.1 h.2⟩
      have hfits : -0x8000000000000000 ≤ i ∧ i < 0x8000000000000000 := h
      rw [intCell, Cell.int64?, if_pos hfits]
      rfl
    · have hlost : ¬(-0x8000000000000000 ≤ i ∧ i < 0x8000000000000000) := h
      rw [intCell, Cell.int64?, if_neg hlost]
      rfl
  | date values =>
    obtain rfl := Option.some.inj hvalues
    refine ⟨_, rfl, forall₂_loaded hexists fun n hday => ⟨fun _ => ?_, fun h => absurd trivial h⟩⟩
    obtain ⟨d, rfl⟩ := hday
    refine ⟨d, ?_, rfl⟩
    rw [dayChars?, Date.ofDayNumber?_dayNumber]
    exact readCell_day d
  | dateTime unit values =>
    obtain rfl := Option.some.inj hvalues
    refine ⟨_, rfl, forall₂_loaded hexists fun n hmoment =>
      ⟨fun _ => ?_, fun h => absurd trivial h⟩⟩
    obtain ⟨t, ht⟩ := hmoment
    refine ⟨t, ?_, ht⟩
    rw [momentChars?, ht.ofUnits?]
    change cellOf .dateTime (DateTime.readChars? (unit.layout.writeChars t)) = _
    rw [ht.readChars?]
    rfl
  | float32 | float64 | time | duration | empty => cases hvalues

theorem length_values? {s : Series} {vs : List (Option Value)} (h : s.values? = some vs) :
    vs.length = s.length := by
  cases s with
  | bool | int | text | date | dateTime =>
    obtain rfl := Option.some.inj h
    exact List.length_map ..
  | float32 | float64 | time | duration | empty => cases h

theorem fits_of_holds {type : IntType} (h : type.bits < 64 ∨ type = .int64) {i : Int}
    (hi : type.Holds i) : (Value.int type i).Fits := by
  rcases h with hbits | rfl
  · have hpow : (2 : Int) ^ (type.bits - 1) ≤ 2 ^ 63 ∧ (2 : Int) ^ type.bits ≤ 2 ^ 63 :=
      ⟨pow_le_pow_right₀ (by decide) (by omega), pow_le_pow_right₀ (by decide) (by omega)⟩
    unfold IntType.Holds at hi
    unfold Value.Fits
    split at hi <;> omega
  · exact hi

/-- The integers of the series are of a type that fits. -/
def IsNarrow : Series → Prop
  | int type _ => type.bits < 64 ∨ type = .int64
  | _ => True

theorem IsNarrow.fits {s : Series} (h : s.IsNarrow) {vs : List (Option Value)}
    (hvalues : s.values? = some vs) {v : Value} (hv : some v ∈ vs) (hexists : v.Exists) :
    v.Fits := by
  cases s with
  | int type values =>
    obtain rfl := Option.some.inj hvalues
    obtain ⟨a, -, ha⟩ := List.mem_map.mp hv
    obtain ⟨i, -, rfl⟩ := Option.map_eq_some_iff.mp ha
    exact fits_of_holds h hexists
  | bool | text | date | dateTime =>
    obtain rfl := Option.some.inj hvalues
    obtain ⟨a, -, ha⟩ := List.mem_map.mp hv
    obtain ⟨i, -, rfl⟩ := Option.map_eq_some_iff.mp ha
    trivial
  | float32 | float64 | time | duration | empty => cases hvalues

end Series

/-! ## Frames -/

namespace Frame

open Series

variable {f : Frame} {t : Table} {height : Nat} {R S : Option Value → Cell → Prop}

/-- The columns are those of the series, and the cells of each relate to its values. -/
def Relates (R : Option Value → Cell → Prop) (f : Frame) (columns : List Column) : Prop :=
  List.Forall₂ (fun s c => c.name = s.name ∧
    ∃ vs, s.series.values? = some vs ∧ List.Forall₂ R vs c.cells) f columns

/-- All series hold values, and all values exist. -/
def HasValues (f : Frame) : Prop :=
  ∀ s ∈ f, ∃ vs, s.series.values? = some vs ∧ ∀ v, some v ∈ vs → v.Exists

/-- No value is an integer beyond those of a cell. -/
def Fits (f : Frame) : Prop :=
  ∀ s ∈ f, ∀ vs, s.series.values? = some vs → ∀ v, some v ∈ vs → v.Fits

theorem exists_columns (h : f.HasValues) :
    ∃ columns, columns? f = .ok columns ∧ f.Relates Loaded columns := by
  induction f with
  | nil => exact ⟨[], rfl, .nil⟩
  | cons s rest ih =>
    obtain ⟨hfirst, hrest⟩ := List.forall_mem_cons.mp h
    obtain ⟨vs, hvalues, hexists⟩ := hfirst
    obtain ⟨cells, hcells, hloaded⟩ := exists_loaded hvalues hexists
    obtain ⟨columns, hcolumns, hrelates⟩ := ih hrest
    refine ⟨⟨s.name, cells⟩ :: columns, ?_, .cons ⟨rfl, vs, hvalues, hloaded⟩ hrelates⟩
    rw [columns?, hcells]
    simp only [hcolumns]
    rfl

theorem Relates.names {columns : List Column} (h : f.Relates R columns) :
    columns.map (·.name) = f.map (·.name) := by
  induction h with
  | nil => rfl
  | cons hfirst _ ih => rw [List.map_cons, List.map_cons, hfirst.1, ih]

theorem Relates.length {columns : List Column} (h : f.Relates R columns)
    (hheight : ∀ s ∈ f, s.series.length = height) : ∀ c ∈ columns, c.cells.length = height := by
  induction h with
  | nil => simp
  | cons hfirst _ ih =>
    obtain ⟨hlen, hrest⟩ := List.forall_mem_cons.mp hheight
    obtain ⟨-, vs, hvalues, hcells⟩ := hfirst
    refine List.forall_mem_cons.mpr ⟨?_, ih hrest⟩
    rw [← hcells.length_eq, length_values? hvalues, hlen]

theorem Relates.kept_iff {columns : List Column} (h : f.Relates Loaded columns) :
    f.Relates Kept columns ↔ f.Fits := by
  induction h with
  | nil => exact iff_of_true .nil (by simp [Fits])
  | @cons s c rest columns hfirst hrest ih =>
    obtain ⟨hname, vs, hvalues, hcells⟩ := hfirst
    have hiff : (c.name = s.name ∧ ∃ ws, s.series.values? = some ws ∧
        List.Forall₂ Kept ws c.cells) ↔
        ∀ ws, s.series.values? = some ws → ∀ v, some v ∈ ws → v.Fits := by
      simp only [hname, hvalues, true_and, Option.some.injEq, exists_eq_left', forall_eq']
      exact forall₂_kept_iff hcells
    unfold Relates Fits at ih ⊢
    rw [List.forall₂_cons, hiff, ih, List.forall_mem_cons]

/-- **Loading.** A frame of truth values, integers, texts, days and moments becomes a table. A cell
is empty where the value is missing, and else it holds the value, unless this is an integer that
needs more than 64 bits with its sign: that one is lost. So all values are kept exactly if all
integers fit, as they do in every type of less than 64 bits and in the signed one of 64 bits. -/
theorem toTable?_keeps_iff (hheight : ∀ s ∈ f, s.series.length = height)
    (hnames : (f.map (·.name)).Nodup) (hvalues : f.HasValues) :
    ∃ t, f.toTable? = .ok t ∧ f.Relates Loaded t.columns ∧ (f.Relates Kept t.columns ↔ f.Fits) ∧
      ((∀ s ∈ f, s.series.IsNarrow) → f.Relates Kept t.columns) := by
  obtain ⟨columns, hcolumns, hloaded⟩ := exists_columns hvalues
  have hlen := hloaded.length hheight
  obtain ⟨t, ht⟩ := (Table.ofColumns?_isOk_iff columns).mpr
    ⟨fun c hc d hd => (hlen c hc).trans (hlen d hd).symm, hloaded.names ▸ hnames⟩
  obtain ⟨rfl, -⟩ := Table.ofColumns?_eq_ok_iff.mp ht
  refine ⟨t, toTable?_eq_ok hcolumns ht, hloaded, hloaded.kept_iff, fun hnarrow => ?_⟩
  refine hloaded.kept_iff.mpr fun s hs vs hvs v hv => ?_
  obtain ⟨ws, hws, hexists⟩ := hvalues s hs
  obtain rfl := Option.some.inj (hvs.symm.trans hws)
  exact (hnarrow s hs).fits hvs hv (hexists v hv)

theorem toTable?_keeps_iff_last :
    let f : Frame := [⟨"byte", .int ⟨false, 8⟩ [some 255, none]⟩, ⟨"day", .date [some 95026236, none]⟩,
      ⟨"moment", .dateTime .nanoseconds [some (-1), none]⟩]
    (∀ s ∈ f, s.series.length = 2) ∧ (f.map (·.name)).Nodup ∧ f.HasValues ∧
      ∃ t, f.toTable? = .ok t ∧ f.Relates Kept t.columns := by
  intro f
  have hheight : ∀ s ∈ f, s.series.length = 2 := by simp [f, Series.length]
  have hnames : (f.map (·.name)).Nodup := by decide
  have hvalues : f.HasValues := by
    let moment : DateTime :=
      ⟨⟨1969, 12, 31, by decide⟩, ⟨23, 59, 59, 999999999, by decide⟩⟩
    have hbyte : (Value.int ⟨false, 8⟩ 255).Exists := by simp [Value.Exists, IntType.Holds]
    have hday : (Value.day 95026236).Exists := ⟨⟨262142, 12, 31, by decide⟩, by decide +kernel⟩
    have hmoment : (Value.moment .nanoseconds (-1)).Exists :=
      ⟨moment, by decide, by decide +kernel⟩
    simp [f, HasValues, values?, hbyte, hday, hmoment]
  obtain ⟨t, ht, -, -, hnarrow⟩ := toTable?_keeps_iff hheight hnames hvalues
  exact ⟨hheight, hnames, hvalues, t, ht, hnarrow (by simp [f, IsNarrow])⟩

/-- The first integer beyond those of a cell is lost. -/
theorem toTable?_loses_unsigned :
    let f : Frame := [⟨"v", .int ⟨false, 64⟩ [some 9223372036854775808]⟩]
    f.HasValues ∧ ∃ t, f.toTable? = .ok t ∧ t.columns = [⟨"v", [.null]⟩] ∧
      ¬ f.Relates Kept t.columns := by
  intro f
  let t : Table := ⟨[⟨"v", [.null]⟩], 1, by decide, by decide⟩
  have hcolumns : columns? f = .ok t.columns := by decide +kernel
  refine ⟨?_, t, toTable?_eq_ok hcolumns (Table.ofColumns?_eq_ok_iff.mpr ⟨rfl, rfl⟩), rfl, ?_⟩
  · simp [f, HasValues, values?, Value.Exists, IntType.Holds]
  · simp [f, t, Relates, values?, Kept]

end Frame

end TableCleaner
