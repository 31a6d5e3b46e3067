import TableCleaner.Proofs.Calendar.Names
import TableCleaner.Proofs.Calendar.Stamps

/-!
# No layout hides another

The layouts are tried one after another, and reading is lenient. Still a text that was written in one
layout is never taken for another date by an earlier layout. Mostly it lacks a mark that the earlier
layout has; where the marks agree, the year stands where the earlier layout has a field of two
digits.
-/

namespace TableCleaner

namespace LayoutItem

/-- The item is written with at least one character, and without blanks. -/
def isSolid : LayoutItem → Bool
  | year | month | day | hour | minute | second | monthName | shortMonthName => true
  | _ => false

/-- The item is written without marks of its own, but for the sign of a year. -/
def isPlain : LayoutItem → Bool
  | fraction | fractionDigits _ | offset | zone => false
  | _ => true

end LayoutItem

namespace Layout

open LayoutItem

variable {t : DateTime} {item : LayoutItem} {layout other : Layout} {rest : List Char} {c : Char}

/-! ## Names as items -/

theorem isNamed_of_date (d : Date) : IsNamed d.month := isNamed d.isDate.2.1

theorem writeItem_monthName (t : DateTime) :
    writeItem t .monthName = shortName t.date.month ++ nameRest t.date.month :=
  (isNamed_of_date t.date).full

theorem readFields?_monthName (t : DateTime) (f : DateFields) (layout : Layout) (rest : List Char) :
    readFields? (.monthName :: layout) f (writeItem t .monthName ++ rest) =
      readFields? layout { f with month := t.date.month } rest := by
  rw [readFields?, readItem?, writeItem_monthName, readName?_full (isNamed_of_date t.date)]
  rfl

theorem readFields?_shortMonthName (hitem : item ∈ [.shortMonthName, .monthName]) (t : DateTime)
    (f : DateFields) (layout : Layout) (rest : List Char) :
    readFields? (item :: layout) f (writeItem t .shortMonthName ++ ' ' :: rest) =
      readFields? layout { f with month := t.date.month } (' ' :: rest) := by
  have hnamed := isNamed_of_date t.date
  have htext : writeItem t .shortMonthName = shortName t.date.month := rfl
  simp only [List.mem_cons, List.not_mem_nil, or_false] at hitem
  rcases hitem with rfl | rfl
  · rw [readFields?, readItem?, htext, readShortName?_shortName hnamed]
    rfl
  · rw [readFields?, readItem?, htext, readName?_shortName hnamed]
    rfl

/-! ## Texts without blanks at the ends -/

theorem solid_writeItem (h : item.isSolid = true) (t : DateTime) :
    writeItem t item ≠ [] ∧ ∀ c ∈ writeItem t item, Text.isBlank c = false := by
  have hpadded : ∀ n, padded 2 n ≠ [] ∧ ∀ c ∈ padded 2 n, Text.isBlank c = false :=
    fun n => ⟨(isRun_padded 2 n).ne_nil, (isRun_padded 2 n).not_blank⟩
  have hnamed := isNamed_of_date t.date
  have hshort : shortName t.date.month ≠ [] :=
    List.ne_nil_of_length_pos (by rw [hnamed.length]; decide)
  cases item with
  | month | day | hour | minute | second => exact hpadded _
  | year =>
    obtain ⟨sign, ds, hsign, hds, heq⟩ := exists_writeYear t.date.year
    rw [writeItem, heq]
    refine ⟨by simp [hds.ne_nil], fun c hc => ?_⟩
    rcases List.mem_append.mp hc with hc | hc
    · rcases hsign with rfl | rfl | rfl
      · cases hc
      · rw [List.mem_singleton.mp hc]; rfl
      · rw [List.mem_singleton.mp hc]; rfl
    · exact hds.not_blank c hc
  | shortMonthName =>
    exact ⟨hshort, fun c hc => hnamed.not_blank c (List.mem_append_left _ hc)⟩
  | monthName =>
    rw [writeItem_monthName]
    exact ⟨by simp [hshort], hnamed.not_blank⟩
  | fraction | fractionDigits | blank | timeMark | offset | zone | fixed => cases h

theorem writeChars_cons (item : LayoutItem) (layout : Layout) (t : DateTime) :
    writeChars (item :: layout) t = writeItem t item ++ writeChars layout t :=
  List.flatMap_cons

theorem writeChars_append (layout other : Layout) (t : DateTime) :
    writeChars (layout ++ other) t = writeChars layout t ++ writeChars other t :=
  List.flatMap_append

/-- The layout begins and ends with solid items. -/
def isTrimmed (layout : Layout) : Bool :=
  layout.head?.any isSolid && layout.getLast?.any isSolid

theorem writeChars_ne_nil (h : layout.isTrimmed = true) (t : DateTime) :
    writeChars layout t ≠ [] := by
  cases layout with
  | nil => cases h
  | cons item layout =>
    have hitem : item.isSolid = true := by simpa using (Bool.and_eq_true_iff.mp h).1
    simp [writeChars_cons, (solid_writeItem hitem t).1]

theorem not_beginsBlank_writeChars (h : layout.isTrimmed = true) (t : DateTime)
    (rest : List Char) : ¬Text.BeginsBlank (writeChars layout t ++ rest) := by
  cases layout with
  | nil => cases h
  | cons item layout =>
    have hitem : item.isSolid = true := by simpa using (Bool.and_eq_true_iff.mp h).1
    obtain ⟨hne, hsolid⟩ := solid_writeItem hitem t
    rw [writeChars_cons, List.append_assoc, Text.beginsBlank_append hne]
    exact Text.not_beginsBlank_of_not_blank hsolid

theorem not_endsBlank_writeChars (h : layout.isTrimmed = true) (t : DateTime) :
    ¬Text.EndsBlank (writeChars layout t) := by
  have hlast := (Bool.and_eq_true_iff.mp h).2
  rcases List.eq_nil_or_concat layout with rfl | ⟨layout, item, rfl⟩
  · cases hlast
  · have hitem : item.isSolid = true := by simpa using hlast
    obtain ⟨hne, hsolid⟩ := solid_writeItem hitem t
    have htext : writeChars [item] t = writeItem t item := List.flatMap_singleton _ _
    rw [List.concat_eq_append, writeChars_append, htext, Text.endsBlank_append hne]
    exact Text.not_endsBlank_of_not_blank hsolid

/-! ## Marks -/

/-- How often a mark may stand in what the layout writes: a minus sign stands before a year, too. -/
def countMark (layout : Layout) (c : Char) : Nat :=
  layout.count (.fixed c) + if c = '-' then layout.count .year else 0

theorem isDigit_of_mem_marks (hc : c ∈ marks) : Decimal.isDigit c = false := by
  simp only [marks, List.mem_cons, List.not_mem_nil, or_false] at hc
  rcases hc with rfl | rfl | rfl | rfl | rfl | rfl | rfl <;> rfl

theorem count_writeItem_le (hplain : item.isPlain = true) (hc : c ∈ marks) (t : DateTime) :
    (writeItem t item).count c ≤ countMark [item] c := by
  have hdigit := isDigit_of_mem_marks hc
  have hnamed := isNamed_of_date t.date
  cases item with
  | month | day | hour | minute | second =>
    rw [writeItem, count_padded _ _ hdigit]
    exact Nat.zero_le _
  | year =>
    obtain ⟨sign, ds, hsign, hds, heq⟩ := exists_writeYear t.date.year
    rw [writeItem, heq, List.count_append, Decimal.count_of_digits hds.digits hdigit]
    have hplus : c ≠ '+' := by
      rintro rfl
      simp [marks] at hc
    rcases hsign with rfl | rfl | rfl
    · exact Nat.zero_le _
    · by_cases hminus : c = '-'
      · simp [countMark, hminus]
      · simp [Ne.symm hminus]
    · simp [hplus.symm]
  | shortMonthName =>
    have hnot : c ∉ shortName t.date.month := fun h =>
      hnamed.not_mark c (List.mem_append_left _ h) hc
    exact (List.count_eq_zero.mpr hnot).le.trans (Nat.zero_le _)
  | monthName =>
    rw [writeItem_monthName, List.count_eq_zero.mpr fun h => hnamed.not_mark c h hc]
    exact Nat.zero_le _
  | blank =>
    have hblank : ' ' ∉ marks := by decide
    have hc : c ∉ [' '] := fun h => hblank (List.mem_singleton.mp h ▸ hc)
    exact (List.count_eq_zero.mpr hc).le.trans (Nat.zero_le _)
  | timeMark =>
    have hmark : 'T' ∉ marks := by decide
    have hc : c ∉ ['T'] := fun h => hmark (List.mem_singleton.mp h ▸ hc)
    exact (List.count_eq_zero.mpr hc).le.trans (Nat.zero_le _)
  | fixed d =>
    by_cases h : d = c
    · simp [writeItem, countMark, h]
    · simp [writeItem, h]
  | fraction | fractionDigits | offset | zone => cases hplain

theorem countMark_cons (item : LayoutItem) (layout : Layout) (c : Char) :
    countMark (item :: layout) c = countMark [item] c + countMark layout c := by
  unfold countMark
  by_cases hminus : c = '-'
  · simp only [if_pos hminus, List.count_cons, List.count_nil]
    omega
  · simp only [if_neg hminus, List.count_cons, List.count_nil]
    omega

theorem count_writeChars_le (hplain : layout.all isPlain = true) (hc : c ∈ marks) (t : DateTime) :
    (writeChars layout t).count c ≤ layout.countMark c := by
  induction layout with
  | nil => exact Nat.zero_le _
  | cons item layout ih =>
    rw [List.all_cons, Bool.and_eq_true] at hplain
    rw [writeChars_cons, List.count_append, countMark_cons]
    exact Nat.add_le_add (count_writeItem_le hplain.1 hc t) (ih hplain.2)

/-- Some mark stands in the other layout more often than in what this layout writes. -/
def lacks (layout other : Layout) : Bool :=
  layout.all isPlain && marks.any fun c => layout.countMark c < other.count (.fixed c)

theorem readFields?_of_lacks (h : layout.lacks other = true) (t : DateTime) :
    readFields? other {} (writeChars layout t) = none := by
  obtain ⟨hplain, hmarks⟩ := Bool.and_eq_true_iff.mp h
  obtain ⟨c, hc, hless⟩ := List.any_eq_true.mp hmarks
  exact readFields?_eq_none {} (Nat.lt_of_le_of_lt (count_writeChars_le hplain hc t)
    (of_decide_eq_true hless))

/-! ## A year in the place of a field -/

theorem length_le_of_readDigits? {most n : Nat} {s : List Char}
    (h : readDigits? most s = some (n, rest)) : s.length ≤ most + rest.length := by
  unfold readDigits? at h
  extract_lets ds at h
  split at h
  · cases h
  · have hds : ds.length ≤ most :=
      ((List.takeWhile_sublist _).length_le).trans (List.length_take_le most s)
    cases h
    rw [List.length_drop]
    omega

theorem ne_nil_of_readField?_writeYear {year : Int} {n : Nat}
    (h : readField? (writeYear year) = some (n, rest)) : rest ≠ [] := by
  have hsign : ∀ sign ds, Text.isBlank sign = false → Decimal.isDigit sign = false →
      readField? (sign :: ds) = none := by
    intro sign ds hblank hdigit
    rw [readField?, Text.trimStart_of_stopsAt (stopsAt_cons hblank ds), readDigits?]
    simp [hdigit]
  unfold writeYear at h
  split at h
  · rename_i hyear
    have hlen : (padded 4 year.toNat).length = 4 := length_padded (by decide) (by omega)
    have htrim := trimStart_run (isRun_padded 4 year.toNat) []
    rw [List.append_nil] at htrim
    rw [readField?, htrim] at h
    have hleft := length_le_of_readDigits? h
    exact List.ne_nil_of_length_pos (by omega)
  · split at h
    · rw [hsign '-' _ rfl rfl] at h
      cases h
    · rw [hsign '+' _ rfl rfl] at h
      cases h

theorem readFields?_year_last (hdigit : Decimal.isDigit c = false) {a b : Nat} (ha : a < 100)
    (hb : b < 100) (year : Int) : readFields? [.year, .fixed c, .month, .fixed c, .day] {}
      (padded 2 a ++ c :: (padded 2 b ++ c :: writeYear year)) = none := by
  have hlen : (padded 2 a).length = 2 := length_padded (by decide) ha
  have hyear := readYear?_of_isRun (isRun_padded 2 a) (by omega)
    (stopsAt_cons hdigit (padded 2 b ++ c :: writeYear year))
  have hmonth := readField?_padded hb (stopsAt_cons hdigit (writeYear year))
  simp only [readFields?, readItem?, hyear, hmonth, Option.map_some, if_true]
  -- The first two fields fit, and the year is all that is left for the day.
  cases hday : readField? (writeYear year) with
  | none => rfl
  | some p =>
    obtain ⟨d, r, hr⟩ := List.exists_cons_of_ne_nil (ne_nil_of_readField?_writeYear hday)
    simp only [Option.map_some, hr, readFields?]

/-! ## Written dates -/

theorem readDate?_of_fields {f : DateFields} {s : List Char} {d : Date}
    (h : readFields? layout {} s = some f)
    (hf : f.year = d.year ∧ f.month = d.month ∧ f.day = d.day) : readDate? layout s = some d := by
  rw [readDate?, h]
  change Date.of? f.year f.month f.day = some d
  rw [hf.1, hf.2.1, hf.2.2]
  exact d.of?_self

theorem readFields?_writeChars {f : DateFields} (h : Separates t [] layout) :
    readFields? layout f (writeChars layout t) = some (layout.foldl (filled t) f) := by
  have hread := readFields?_append t [] f h
  rwa [List.append_nil, List.append_nil] at hread

theorem readDate?_three {x y z : LayoutItem}
    (hitems : (x, y, z) ∈ [(.year, .month, .day), (.month, .day, .year), (.day, .month, .year)])
    (hdigit : Decimal.isDigit c = false) (t : DateTime) :
    readDate? [x, .fixed c, y, .fixed c, z] (writeChars [x, .fixed c, y, .fixed c, z] t) =
      some t.date := by
  have hfield : ∀ item ∈ [x, y, z],
      item ∈ [LayoutItem.year, .month, .day, .hour, .minute, .second] := by
    simp only [List.mem_cons, List.not_mem_nil, or_false, Prod.mk.injEq] at hitems
    rcases hitems with ⟨rfl, rfl, rfl⟩ | ⟨rfl, rfl, rfl⟩ | ⟨rfl, rfl, rfl⟩ <;> simp
  have hseparates : Separates t [] [x, .fixed c, y, .fixed c, z] :=
    ⟨.field (hfield x (by simp)) (stopsAt_cons hdigit _), .fixed c,
      .field (hfield y (by simp)) (stopsAt_cons hdigit _), .fixed c,
      .field (hfield z (by simp)) (stopsAt_nil _), trivial⟩
  refine readDate?_of_fields (readFields?_writeChars hseparates) ?_
  simp only [List.mem_cons, List.not_mem_nil, or_false, Prod.mk.injEq] at hitems
  rcases hitems with ⟨rfl, rfl, rfl⟩ | ⟨rfl, rfl, rfl⟩ | ⟨rfl, rfl, rfl⟩ <;> exact ⟨rfl, rfl, rfl⟩

theorem stopsAt_writeItem (h : item.isSolid = true) (t : DateTime) (rest : List Char) :
    StopsAt Text.isBlank (writeItem t item ++ rest) := by
  obtain ⟨hne, hsolid⟩ := solid_writeItem h t
  rw [← Text.not_beginsBlank_iff, Text.beginsBlank_append hne]
  exact Text.not_beginsBlank_of_not_blank hsolid

theorem stopsAt_writeChars (h : item.isSolid = true) (layout : Layout) (t : DateTime)
    (rest : List Char) : StopsAt Text.isBlank (writeChars (item :: layout) t ++ rest) := by
  rw [writeChars_cons, List.append_assoc]
  exact stopsAt_writeItem h t _

theorem separates_blankYear (t : DateTime) : Separates t [] [blank, year] :=
  ⟨.blank (stopsAt_writeChars rfl [] t _), .field (by simp) (stopsAt_nil _), trivial⟩

/-- What stands behind the name of a month in front: ` 09, 2024`. -/
def afterName : Layout := [blank, day, fixed ','] ++ [blank, year]

theorem separates_afterName (t : DateTime) : Separates t [] afterName :=
  separates_append ⟨.blank (stopsAt_writeChars rfl [fixed ','] t _),
    .field (by simp) (stopsAt_cons rfl _), .fixed ',', trivial⟩ (separates_blankYear t)

theorem readDate?_monthName (t : DateTime) :
    readDate? (monthName :: afterName) (writeChars (monthName :: afterName) t) = some t.date := by
  have hread := readFields?_monthName t {} afterName (writeChars afterName t)
  rw [readFields?_writeChars (separates_afterName t)] at hread
  exact readDate?_of_fields hread ⟨rfl, rfl, rfl⟩

theorem readDate?_shortMonthName (hitem : item ∈ [.shortMonthName, .monthName]) (t : DateTime) :
    readDate? (item :: afterName) (writeChars (shortMonthName :: afterName) t) = some t.date := by
  have htext : ' ' :: writeChars [day, fixed ',', blank, year] t = writeChars afterName t := rfl
  have hread := readFields?_shortMonthName hitem t {} afterName
    (writeChars [day, fixed ',', blank, year] t)
  rw [htext, readFields?_writeChars (separates_afterName t)] at hread
  exact readDate?_of_fields hread ⟨rfl, rfl, rfl⟩

theorem readDate?_dayFirst (t : DateTime) :
    readDate? [day, blank, monthName, blank, year]
      (writeChars [day, blank, monthName, blank, year] t) = some t.date := by
  have hday : Separates t (writeItem t .monthName ++ writeChars [blank, year] t) [day, blank] :=
    ⟨.field (by simp) (stopsAt_cons rfl _), .blank (stopsAt_writeItem rfl t _), trivial⟩
  have hread := readFields?_append t [monthName, blank, year] {} hday
  rw [readFields?_monthName, readFields?_writeChars (separates_blankYear t), ← writeChars_cons,
    ← writeChars_append] at hread
  exact readDate?_of_fields hread ⟨rfl, rfl, rfl⟩

/-! ## Written dates with a time -/

/-- What the layout writes with a given text for the fraction of the second. -/
def writeWith (fraction : List Char) (t : DateTime) (layout : Layout) : List Char :=
  layout.flatMap fun item => if item = .fraction then fraction else writeItem t item

theorem writeWith_of_notMem (h : .fraction ∉ layout) (fraction : List Char) (t : DateTime) :
    writeWith fraction t layout = writeChars layout t := by
  refine List.flatMap_congr fun item hitem => if_neg ?_
  rintro rfl
  exact h hitem

theorem writeWith_append (h : .fraction ∉ layout) (fraction : List Char) (t : DateTime) :
    writeWith fraction t (layout ++ [.fraction]) = writeChars layout t ++ fraction := by
  rw [← writeWith_of_notMem h fraction t]
  simp [writeWith]

/-- `2024-03-09T08:30:00` -/
def markedDateAndClock : Layout := yearFirst ++ [fixed 'T'] ++ clock

/-- `2024/03/09 08:30:00` -/
def slashedDateAndClock : Layout := [year, fixed '/', month, fixed '/', day, blank] ++ clock

theorem separates_markedDateAndClock (t : DateTime) (hstop : StopsAt Decimal.isDigit rest) :
    Separates t rest markedDateAndClock :=
  separates_append (separates_append (separates_yearFirst t (stopsAt_cons rfl _))
    ⟨.fixed 'T', trivial⟩) (separates_clock t hstop)

theorem separates_slashedDateAndClock (t : DateTime) (hstop : StopsAt Decimal.isDigit rest) :
    Separates t rest slashedDateAndClock :=
  separates_append ⟨.field (by simp) (stopsAt_cons rfl _), .fixed '/',
    .field (by simp) (stopsAt_cons rfl _), .fixed '/', .field (by simp) (stopsAt_cons rfl _),
    .blank (stopsAt_writeChars rfl _ t _), trivial⟩ (separates_clock t hstop)

variable {fraction : List Char} {nanos : Nat}

theorem IsFraction.stopsAt_digit (h : IsFraction nanos fraction) :
    StopsAt Decimal.isDigit fraction := by
  cases h with
  | none => exact stopsAt_nil _
  | digits => exact stopsAt_cons rfl _

theorem readFields?_fraction (h : IsFraction nanos fraction) (f : DateFields) :
    readFields? [.fraction] f fraction = some { f with nanos } := by
  have hread := readFraction?_append h (stopsAt_nil _)
  rw [List.append_nil] at hread
  rw [readFields?, readItem?, hread]
  rfl

theorem readDateTime?_fraction (hseparates : Separates t fraction layout)
    (hfields : layout.foldl (filled t) {} = ⟨t.date.year, t.date.month, t.date.day, t.time.hour,
      t.time.minute, t.time.second + t.time.nanos / nanosPerSecond, 0, none⟩)
    (hfraction : IsFraction (t.time.nanos % nanosPerSecond) fraction) :
    readDateTime? (layout ++ [.fraction]) (writeChars layout t ++ fraction) = some t := by
  rw [readDateTime?, readFields?_append t [.fraction] {} hseparates, hfields,
    readFields?_fraction hfraction]
  exact DateFields.dateTime?_eq t.date.of?_self (DateFields.time?_self rfl rfl rfl rfl)

theorem readDateTime?_slashed (t : DateTime) :
    readDateTime? slashedDateAndClock (writeChars slashedDateAndClock t) =
      some ⟨t.date, t.time.wholeSeconds⟩ := by
  rw [readDateTime?, readFields?_writeChars (separates_slashedDateAndClock t (stopsAt_nil _))]
  exact DateFields.dateTime?_eq t.date.of?_self (DateFields.time?_of_eq rfl rfl rfl rfl)

/-- The mark of the time stands where the layout with a blank has the hour. -/
theorem readDateTime?_marked_eq_none (t : DateTime) (fraction : List Char) :
    readDateTime? (dateAndClock ++ [.fraction]) (writeChars markedDateAndClock t ++ fraction) =
      none := by
  have htext : writeChars markedDateAndClock t ++ fraction =
      writeChars yearFirst t ++ 'T' :: (writeChars clock t ++ fraction) := by
    simp [markedDateAndClock, writeChars_append, writeChars_cons, writeItem]
  have hlayout : dateAndClock ++ [.fraction] = yearFirst ++ (.blank :: (clock ++ [.fraction])) := by
    simp [dateAndClock]
  have htrim : ∀ s, Text.trimStart ('T' :: s) = 'T' :: s :=
    fun s => Text.trimStart_of_stopsAt (stopsAt_cons rfl s)
  have hhour : ∀ s, readField? ('T' :: s) = none := by
    intro s
    rw [readField?, htrim]
    rfl
  have hread := readFields?_append t (.blank :: (clock ++ [.fraction])) {}
    (separates_yearFirst t (stopsAt_cons (c := 'T') rfl (writeChars clock t ++ fraction)))
  rw [readDateTime?, htext, hlayout, hread, clock]
  simp [readFields?, readItem?, htrim, hhour]

/-! ## All layouts in their order -/

/-- What the layout writes is no timestamp, and trimming leaves it as it is. -/
def isLocal (layout : Layout) : Bool :=
  layout.isTrimmed && layout.all isPlain && layout.countMark 'Z' == 0 &&
    layout.countMark 'z' == 0 && decide (layout.countMark ':' ≤ 2)

theorem readChars?_of_isLocal (h : layout.isLocal = true) (t : DateTime)
    (hfraction : IsFraction nanos fraction) :
    DateTime.readChars? (writeChars layout t ++ fraction) =
      (dateTimeLayouts.findSome? (·.readDateTime? (writeChars layout t ++ fraction))).or
        ((dateLayouts.findSome? (·.readDate? (writeChars layout t ++ fraction))).map
          DateTime.atMidnight) := by
  simp only [isLocal, Bool.and_eq_true, beq_iff_eq, decide_eq_true_eq] at h
  obtain ⟨⟨⟨⟨htrimmed, hplain⟩, hupper⟩, hlower⟩, hcolon⟩ := h
  have hcount : ∀ c ∈ marks, c ≠ '.' →
      (writeChars layout t ++ fraction).count c ≤ layout.countMark c := by
    intro c hc hpoint
    rw [List.count_append, hfraction.count_eq_zero (isDigit_of_mem_marks hc) hpoint]
    exact count_writeChars_le hplain hc t
  have htrim : Text.trim (writeChars layout t ++ fraction) = writeChars layout t ++ fraction := by
    refine Text.trim_eq_self_iff.mpr ⟨not_beginsBlank_writeChars htrimmed t fraction, ?_⟩
    cases hfraction with
    | none =>
      rw [List.append_nil]
      exact not_endsBlank_writeChars htrimmed t
    | digits hrun =>
      rw [← List.singleton_append, ← List.append_assoc, Text.endsBlank_append hrun.ne_nil]
      exact Text.not_endsBlank_of_not_blank hrun.not_blank
  have hne : writeChars layout t ++ fraction ≠ [] :=
    List.append_ne_nil_of_left_ne_nil (writeChars_ne_nil htrimmed t) fraction
  have hstamp : Timestamp.read? (writeChars layout t ++ fraction) = none := by
    apply Timestamp.read?_eq_none
    · exact Nat.le_zero.mp (hupper ▸ hcount 'Z' (by decide) (by decide))
    · exact Nat.le_zero.mp (hlower ▸ hcount 'z' (by decide) (by decide))
    · exact (hcount ':' (by decide) (by decide)).trans hcolon
  rw [DateTime.readChars?, htrim, hstamp, Option.none_or, if_neg (by simpa using hne)]

/-- The layouts that are tried before either do not fit or agree. -/
theorem findSome?_dateLayouts {s : List Char} {d : Date} (before after : List Layout)
    (hlist : dateLayouts = before ++ layout :: after)
    (hbefore : ∀ other ∈ before, other.readDate? s = none ∨ other.readDate? s = some d)
    (hread : layout.readDate? s = some d) : dateLayouts.findSome? (·.readDate? s) = some d := by
  rw [hlist]
  clear hlist
  induction before with
  | nil => rw [List.nil_append, List.findSome?_cons, hread]
  | cons other before ih =>
    rw [List.cons_append, List.findSome?_cons]
    rcases hbefore other List.mem_cons_self with hother | hother
    · rw [hother]
      exact ih fun x hx => hbefore x (List.mem_cons_of_mem other hx)
    · rw [hother]

theorem readDate?_of_lacks (h : layout.lacks other = true) (t : DateTime) :
    readDate? other (writeChars layout t) = none := by
  rw [readDate?, readFields?_of_lacks h]
  rfl

theorem readDateTime?_of_lacks (h : layout.lacks other = true) (t : DateTime) :
    readDateTime? other (writeChars layout t) = none := by
  rw [readDateTime?, readFields?_of_lacks h]
  rfl

/-- With the year at the end, the layouts with the year in front have no place for all its digits. -/
theorem readDate?_year_last (t : DateTime) :
    readDate? [year, fixed '/', month, fixed '/', day]
        (writeChars [month, fixed '/', day, fixed '/', year] t) = none ∧
      readDate? yearFirst (writeChars [day, fixed '-', month, fixed '-', year] t) = none := by
  obtain ⟨hmonth, hday, -⟩ := t.fields_lt
  have hslash := readFields?_year_last (c := '/') rfl hmonth hday t.date.year
  have hdash := readFields?_year_last (c := '-') rfl hday hmonth t.date.year
  constructor
  · simp [readDate?, writeChars, writeItem, hslash]
  · simp [readDate?, writeChars, writeItem, yearFirst, hdash]

theorem findSome?_writeDate (h : layout ∈ dateLayouts) (t : DateTime) :
    dateLayouts.findSome? (·.readDate? (writeChars layout t)) = some t.date := by
  obtain ⟨hslash, hdash⟩ := readDate?_year_last t
  have hlacks : ∀ (before : List Layout) (layout : Layout), before.all layout.lacks = true →
      ∀ other ∈ before, other.readDate? (writeChars layout t) = none ∨
        other.readDate? (writeChars layout t) = some t.date :=
    fun before layout hall other hother =>
      .inl (readDate?_of_lacks (List.all_eq_true.mp hall other hother) t)
  simp only [dateLayouts, List.mem_cons, List.not_mem_nil, or_false] at h
  rcases h with rfl | rfl | rfl | rfl | rfl | rfl | rfl | rfl
  · exact findSome?_dateLayouts [] _ rfl (hlacks _ _ (by decide)) (readDate?_yearFirst t)
  · exact findSome?_dateLayouts [_] _ rfl (hlacks _ _ (by decide))
      (readDate?_three (by simp) rfl t)
  · exact findSome?_dateLayouts [_, _] _ rfl
      (List.forall_mem_cons.mpr
        ⟨.inl (readDate?_of_lacks (by decide) t), List.forall_mem_singleton.mpr (.inl hslash)⟩)
      (readDate?_three (by simp) rfl t)
  · exact findSome?_dateLayouts [_, _, _] _ rfl
      (List.forall_mem_cons.mpr ⟨.inl hdash, hlacks _ _ (by decide)⟩)
      (readDate?_three (by simp) rfl t)
  · exact findSome?_dateLayouts [_, _, _, _] _ rfl (hlacks _ _ (by decide))
      (readDate?_three (by simp) rfl t)
  · exact findSome?_dateLayouts [_, _, _, _, _] _ rfl (hlacks _ _ (by decide))
      (readDate?_monthName t)
  · -- The layout with the full name comes before, and reads the short one as well.
    exact findSome?_dateLayouts ([_, _, _, _, _] ++ [_]) _ rfl
      (List.forall_mem_append.mpr ⟨hlacks _ _ (by decide),
        List.forall_mem_singleton.mpr (.inr (readDate?_shortMonthName (by simp) t))⟩)
      (readDate?_shortMonthName (by simp) t)
  · exact findSome?_dateLayouts [_, _, _, _, _, _, _] _ rfl (hlacks _ _ (by decide))
      (readDate?_dayFirst t)

theorem readChars?_writeDate (h : layout ∈ dateLayouts) (t : DateTime) :
    DateTime.readChars? (writeChars layout t) = some (DateTime.atMidnight t.date) := by
  have hlocal : ∀ layout ∈ dateLayouts, layout.isLocal = true := by decide
  have hlacks : ∀ layout ∈ dateLayouts, ∀ other ∈ dateTimeLayouts, layout.lacks other = true := by
    decide
  have hread := readChars?_of_isLocal (hlocal layout h) t (.none rfl)
  have htime : dateTimeLayouts.findSome? (·.readDateTime? (writeChars layout t)) = none :=
    List.findSome?_eq_none_iff.mpr fun other hother =>
      readDateTime?_of_lacks (hlacks layout h other hother) t
  rw [List.append_nil] at hread
  rw [hread, htime, findSome?_writeDate h t]
  rfl

theorem readChars?_writeWith (h : layout ∈ dateTimeLayouts) (t : DateTime)
    (hfraction : IsFraction (t.time.nanos % nanosPerSecond) fraction) :
    DateTime.readChars? (writeWith fraction t layout) =
      some (if .fraction ∈ layout then t else ⟨t.date, t.time.wholeSeconds⟩) := by
  have hstop := hfraction.stopsAt_digit
  simp only [dateTimeLayouts, List.mem_cons, List.not_mem_nil, or_false] at h
  rcases h with rfl | rfl | rfl
  · rw [writeWith_append (by decide), readChars?_of_isLocal (by decide) t hfraction,
      dateTimeLayouts, List.findSome?_cons,
      readDateTime?_fraction (separates_dateAndClock t hstop) rfl hfraction, if_pos (by decide)]
    rfl
  · change DateTime.readChars? (writeWith fraction t (markedDateAndClock ++ [.fraction])) = _
    rw [writeWith_append (by decide), readChars?_of_isLocal (by decide) t hfraction,
      dateTimeLayouts, List.findSome?_cons, readDateTime?_marked_eq_none, List.findSome?_cons]
    have hread := readDateTime?_fraction (separates_markedDateAndClock t hstop) rfl hfraction
    rw [show yearFirst ++ [fixed 'T'] ++ clock = markedDateAndClock from rfl, hread,
      if_pos (by decide)]
    rfl
  · change DateTime.readChars? (writeWith fraction t slashedDateAndClock) = _
    have hlocal : slashedDateAndClock.isLocal = true := by decide
    have hread := readChars?_of_isLocal hlocal t (.none rfl)
    rw [List.append_nil] at hread
    have hlacks : ∀ other ∈ dateTimeLayouts.take 2, slashedDateAndClock.lacks other = true := by
      decide
    have hearlier : (dateTimeLayouts.take 2).findSome?
        (·.readDateTime? (writeChars slashedDateAndClock t)) = none :=
      List.findSome?_eq_none_iff.mpr fun other hother =>
        readDateTime?_of_lacks (hlacks other hother) t
    have hlist : dateTimeLayouts = dateTimeLayouts.take 2 ++ [slashedDateAndClock] := rfl
    rw [writeWith_of_notMem (by decide), hread, hlist, List.findSome?_append, hearlier,
      Option.none_or, List.findSome?_singleton, readDateTime?_slashed, if_neg (by decide)]
    rfl

end Layout

namespace DateTime

theorem read?_ofList (s : List Char) : read? (String.ofList s) = readChars? s := by
  rw [read?, String.toList_ofList]

/-- No layout hides another. A date that is written in any layout is read as that date at midnight,
and a date with a time is read as it was written, with the fraction where the layout has one. A
timestamp gives the time on its own clock, whatever its offset. So a shown date gives the date back,
with the time in whole seconds. -/
theorem read?_written :
    (∀ layout ∈ Layout.dateLayouts, ∀ d : Date,
      read? (String.ofList (layout.writeChars (atMidnight d))) = some (atMidnight d)) ∧
    (∀ layout ∈ Layout.dateTimeLayouts, ∀ (t : DateTime) (fraction : List Char),
      Layout.IsFraction (t.time.nanos % nanosPerSecond) fraction →
      read? (String.ofList (layout.writeWith fraction t)) =
        some (if .fraction ∈ layout then t else ⟨t.date, t.time.wholeSeconds⟩)) ∧
    (∀ (t : DateTime) (fraction zone : List Char), ∀ mark ∈ ['T', 't', ' '],
      0 ≤ t.date.year ∧ t.date.year ≤ 9999 →
      Layout.IsFraction (t.time.nanos % nanosPerSecond) fraction → Timestamp.IsZone zone →
      read? (String.ofList (Timestamp.write t mark fraction zone)) = some t) ∧
    ∀ t : DateTime, read? (Cell.dateTime t).shown = some ⟨t.date, t.time.wholeSeconds⟩ := by
  refine ⟨?_, ?_, ?_, ?_⟩
  · intro layout hlayout d
    rw [read?_ofList, Layout.readChars?_writeDate hlayout]
    rfl
  · intro layout hlayout t fraction hfraction
    rw [read?_ofList, Layout.readChars?_writeWith hlayout t hfraction]
  · intro t fraction zone mark hmark hyear hfraction hzone
    rw [read?_ofList, readChars?_timestamp hyear hmark hfraction hzone]
  · intro t
    exact (read?_ofList t.writeChars).trans (readChars?_writeChars t)

theorem read?_written_leap :
    let t : DateTime := ⟨⟨2016, 12, 31, by decide⟩, ⟨23, 59, 59, 1500000000, by decide⟩⟩
    read? "2016-12-31 23:59:60.5" = some t ∧ read? "2016-12-31T23:59:60.50+05:30" = some t := by
  intro t
  have hhalf : Layout.IsFraction (t.time.nanos % nanosPerSecond) ('.' :: Layout.padded 1 5) :=
    .digits (Layout.isRun_padded 1 5) (by decide) (by decide +kernel)
  have hzeros : Layout.IsFraction (t.time.nanos % nanosPerSecond) ('.' :: Layout.padded 2 50) :=
    .digits (Layout.isRun_padded 2 50) (by decide) (by decide +kernel)
  have hzone : Timestamp.IsZone ('+' :: (Layout.padded 2 5 ++ ':' :: Layout.padded 2 30)) :=
    .shifted (by simp) (by decide) (by decide)
  have hblank := read?_written.2.1 (Layout.dateAndClock ++ [LayoutItem.fraction]) (by decide) t _
    hhalf
  have hmarked := read?_written.2.2.1 t _ _ 'T' (by simp) (by decide) hzeros hzone
  have htext : String.ofList ((Layout.dateAndClock ++ [LayoutItem.fraction]).writeWith
      ('.' :: Layout.padded 1 5) t) = "2016-12-31 23:59:60.5" := by
    decide +kernel
  have hstamp : String.ofList (Timestamp.write t 'T' ('.' :: Layout.padded 2 50)
      ('+' :: (Layout.padded 2 5 ++ ':' :: Layout.padded 2 30))) =
      "2016-12-31T23:59:60.50+05:30" := by
    decide +kernel
  rw [htext, if_pos (by decide)] at hblank
  rw [hstamp] at hmarked
  exact ⟨hblank, hmarked⟩

end DateTime

end TableCleaner
