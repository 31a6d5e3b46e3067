import TableCleaner.Proofs.Calendar.Marks
import TableCleaner.Proofs.Cell.Reading

/-!
# Written dates

What a layout writes is read back by the same layout: each field is a run of digits, and the
character behind it ends the run. So the text of a date gives the date back for every year, and the
time of day without the fraction of its second.
-/

namespace TableCleaner

/-! ## Digits in front of another character -/

namespace Layout

variable {ds rest : List Char}

theorem length_padded {width n : Nat} (hwidth : 0 < width) (h : n < 10 ^ width) :
    (padded width n).length = width := by
  have hlen := (Nat.length_toDigits_le_iff (by decide) hwidth).mpr h
  simp [padded, Nat.sub_add_cancel hlen]

theorem digitsValue_padded (width n : Nat) : Decimal.digitsValue (padded width n) = n := by
  rw [padded, Decimal.digitsValue_append, Decimal.digitsValue_zeros, Decimal.digitsValue_toDigits,
    Nat.mul_zero, Nat.zero_add]

theorem readDigits?_append {most : Nat} (hrun : Decimal.IsRun ds) (hmost : ds.length ≤ most)
    (hstop : StopsAt Decimal.isDigit rest) :
    readDigits? most (ds ++ rest) = some (Decimal.digitsValue ds, rest) := by
  have hstop' : StopsAt Decimal.isDigit (rest.take (most - ds.length)) := by
    intro c hc
    apply hstop
    cases rest with
    | nil => simp at hc
    | cons d rest =>
      cases hk : most - ds.length with
      | zero => simp [hk] at hc
      | succ k => simpa [hk] using hc
  have htake : ((ds ++ rest).take most).takeWhile Decimal.isDigit = ds := by
    rw [List.take_append, List.take_of_length_le hmost, hrun.takeWhile_append,
      hstop'.takeWhile_eq, List.append_nil]
  unfold readDigits?
  simp [htake, hrun.ne_nil]

theorem trimStart_run (hrun : Decimal.IsRun ds) (rest : List Char) :
    Text.trimStart (ds ++ rest) = ds ++ rest := by
  obtain ⟨c, cs, rfl⟩ := List.exists_cons_of_ne_nil hrun.ne_nil
  have hc := (Cell.clean_of_isDigit (hrun.digits c List.mem_cons_self)).1
  exact List.dropWhile_cons_of_neg (by simp [hc])

theorem readField?_padded {n : Nat} (h : n < 100) (hstop : StopsAt Decimal.isDigit rest) :
    readField? (padded 2 n ++ rest) = some (n, rest) := by
  have hrun := isRun_padded 2 n
  have hlen : (padded 2 n).length = 2 := length_padded (by decide) h
  rw [readField?, trimStart_run hrun, readDigits?_append hrun hlen.le hstop, digitsValue_padded]

theorem readYear?_of_isRun (hrun : Decimal.IsRun ds) (hmost : ds.length ≤ 4)
    (hstop : StopsAt Decimal.isDigit rest) :
    readYear? (ds ++ rest) = some ((Decimal.digitsValue ds : Int), rest) := by
  have hread := readDigits?_append hrun hmost hstop
  have htrim := trimStart_run hrun rest
  obtain ⟨c, cs, rfl⟩ := List.exists_cons_of_ne_nil hrun.ne_nil
  have hsign : ∀ sign, Decimal.isDigit sign = false → c ≠ sign := by
    rintro sign hsign rfl
    rw [hrun.digits c List.mem_cons_self] at hsign
    cases hsign
  have hminus := hsign '-' rfl
  have hplus := hsign '+' rfl
  rw [List.cons_append] at hread htrim ⊢
  rw [readYear?, htrim]
  simp [hminus, hplus, hread]

theorem readYear?_cons_of_isRun (hrun : Decimal.IsRun ds) (hstop : StopsAt Decimal.isDigit rest) :
    readYear? ('-' :: (ds ++ rest)) = some (-(Decimal.digitsValue ds : Int), rest) ∧
      readYear? ('+' :: (ds ++ rest)) = some ((Decimal.digitsValue ds : Int), rest) := by
  have hread : readDigits? (ds ++ rest).length (ds ++ rest) = some (Decimal.digitsValue ds, rest) :=
    readDigits?_append hrun (by simp) hstop
  have htrim : ∀ c, Text.isBlank c = false → Text.trimStart (c :: (ds ++ rest)) = c :: (ds ++ rest) :=
    fun c hc => List.dropWhile_cons_of_neg (by simp [hc])
  rw [readYear?, readYear?, htrim '-' rfl, htrim '+' rfl]
  simp only [hread, Option.map_some, and_self]

theorem readYear?_writeYear (year : Int) (hstop : StopsAt Decimal.isDigit rest) :
    readYear? (writeYear year ++ rest) = some (year, rest) := by
  obtain ⟨hminus, hplus⟩ := readYear?_cons_of_isRun (isRun_padded 4 year.natAbs) hstop
  rw [digitsValue_padded] at hminus hplus
  unfold writeYear
  split
  · rename_i hyear
    have hlen : (padded 4 year.toNat).length = 4 := length_padded (by decide) (by omega)
    rw [readYear?_of_isRun (isRun_padded 4 year.toNat) hlen.le hstop, digitsValue_padded,
      Int.toNat_of_nonneg hyear.1]
  · split
    · have hvalue : -(year.natAbs : Int) = year := by omega
      rwa [hvalue] at hminus
    · have hvalue : (year.natAbs : Int) = year := by omega
      rwa [hvalue] at hplus

/-! ## Items of a layout -/

/-- The fields with those that an item of a layout writes for a date and time. -/
def filled (t : DateTime) (f : DateFields) : LayoutItem → DateFields
  | .year => { f with year := t.date.year }
  | .month => { f with month := t.date.month }
  | .day => { f with day := t.date.day }
  | .hour => { f with hour := t.time.hour }
  | .minute => { f with minute := t.time.minute }
  | .second => { f with second := t.time.second + t.time.nanos / nanosPerSecond }
  | _ => f

/-- The written form of the item ends where another text begins: a field of digits in front of
another character, and a blank in front of what is none. A fixed character ends by itself. -/
inductive EndsBefore (rest : List Char) : LayoutItem → Prop
  | field {item : LayoutItem}
      (h : item ∈ [.year, .month, .day, .hour, .minute, .second])
      (hstop : StopsAt Decimal.isDigit rest) : EndsBefore rest item
  | blank (hstop : StopsAt Text.isBlank rest) : EndsBefore rest .blank
  | fixed (c : Char) : EndsBefore rest (.fixed c)

theorem readItem?_writeItem (t : DateTime) (f : DateFields) {item : LayoutItem}
    (h : EndsBefore rest item) :
    readItem? f (writeItem t item ++ rest) item = some (filled t f item, rest) := by
  cases h with
  | field h hstop =>
    obtain ⟨hmonth, hday⟩ := t.date.isDate.2
    obtain ⟨hhour, hminute, hsecond, hnanos⟩ := t.time.isTime
    have hdays : daysInMonth t.date.year t.date.month ≤ 31 := by
      unfold daysInMonth
      split <;> split <;> omega
    -- A leap second is written as the second 60.
    have hleap : t.time.second + t.time.nanos / nanosPerSecond < 100 := by
      unfold nanosPerSecond at hnanos ⊢
      omega
    simp only [List.mem_cons, List.not_mem_nil, or_false] at h
    rcases h with rfl | rfl | rfl | rfl | rfl | rfl
    · simp only [readItem?, writeItem, readYear?_writeYear _ hstop, Option.map_some, filled]
    all_goals
      simp only [readItem?, writeItem]
      rw [readField?_padded (by omega) hstop]
      rfl
  | blank hstop =>
    simp only [readItem?, writeItem, filled, List.singleton_append, Option.some.injEq,
      Prod.mk.injEq, true_and]
    have hone := Text.trimStart_of_blank (p := [' ']) (s := rest) (by simp; decide)
    rw [List.singleton_append] at hone
    rw [hone, Text.trimStart_of_stopsAt hstop]
  | fixed c => simp [readItem?, writeItem, filled]

/-- Every item of the layout ends before what the later items write, and a text after them. -/
def Separates (t : DateTime) (rest : List Char) : Layout → Prop
  | [] => True
  | item :: layout => EndsBefore (writeChars layout t ++ rest) item ∧ Separates t rest layout

theorem readFields?_append (t : DateTime) {layout : Layout} (more : Layout) (f : DateFields)
    (h : Separates t rest layout) :
    readFields? (layout ++ more) f (writeChars layout t ++ rest) =
      readFields? more (layout.foldl (filled t) f) rest := by
  induction layout generalizing f with
  | nil => rfl
  | cons item layout ih =>
    obtain ⟨hitem, hlayout⟩ := h
    rw [List.cons_append, readFields?, writeChars, List.flatMap_cons, List.append_assoc,
      ← writeChars, readItem?_writeItem t f hitem]
    exact ih _ hlayout

theorem stopsAt_nil (p : Char → Bool) : StopsAt p [] := by
  simp [StopsAt]

theorem stopsAt_cons {p : Char → Bool} {c : Char} (h : p c = false) (s : List Char) :
    StopsAt p (c :: s) := by
  intro d hd
  rwa [← Option.some.inj hd]

theorem stopsAt_blank_run (h : Decimal.IsRun ds) (rest : List Char) :
    StopsAt Text.isBlank (ds ++ rest) := by
  obtain ⟨c, cs, rfl⟩ := List.exists_cons_of_ne_nil h.ne_nil
  exact stopsAt_cons (Cell.clean_of_isDigit (h.digits c List.mem_cons_self)).1 _

theorem separates_append {t : DateTime} {layout more : Layout}
    (h : Separates t (writeChars more t ++ rest) layout) (hmore : Separates t rest more) :
    Separates t rest (layout ++ more) := by
  induction layout with
  | nil => exact hmore
  | cons item layout ih =>
    obtain ⟨hitem, hlayout⟩ := h
    refine ⟨?_, ih hlayout⟩
    change EndsBefore ((layout ++ more).flatMap (writeItem t) ++ rest) item
    rwa [List.flatMap_append, List.append_assoc]

theorem separates_yearFirst (t : DateTime) (hstop : StopsAt Decimal.isDigit rest) :
    Separates t rest yearFirst :=
  ⟨.field (by simp) (stopsAt_cons rfl _), .fixed '-', .field (by simp) (stopsAt_cons rfl _),
    .fixed '-', .field (by simp) hstop, trivial⟩

theorem separates_clock (t : DateTime) (hstop : StopsAt Decimal.isDigit rest) :
    Separates t rest clock :=
  ⟨.field (by simp) (stopsAt_cons rfl _), .fixed ':', .field (by simp) (stopsAt_cons rfl _),
    .fixed ':', .field (by simp) hstop, trivial⟩

theorem separates_dateAndClock (t : DateTime) (hstop : StopsAt Decimal.isDigit rest) :
    Separates t rest dateAndClock := by
  have hblank : Separates t (writeChars clock t ++ rest) [.blank] := by
    refine ⟨.blank ?_, trivial⟩
    change StopsAt Text.isBlank (padded 2 t.time.hour ++ _ ++ rest)
    rw [List.append_assoc]
    exact stopsAt_blank_run (isRun_padded 2 _) _
  refine separates_append (separates_append ?_ hblank) (separates_clock t hstop)
  exact separates_yearFirst t (stopsAt_cons rfl _)

end Layout

/-! ## Texts of dates -/

/-- The time without the fraction of its second. -/
def TimeOfDay.wholeSeconds (time : TimeOfDay) : TimeOfDay where
  hour := time.hour
  minute := time.minute
  second := time.second
  nanos := time.nanos / nanosPerSecond * nanosPerSecond
  isTime := by
    obtain ⟨hhour, hminute, hsecond, hnanos⟩ := time.isTime
    refine ⟨hhour, hminute, hsecond, ?_⟩
    unfold nanosPerSecond at hnanos ⊢
    omega

theorem TimeOfDay.of?_self (time : TimeOfDay) :
    of? time.hour time.minute time.second time.nanos = some time :=
  dif_pos time.isTime

theorem Date.of?_self (d : Date) : of? d.year d.month d.day = some d :=
  dif_pos d.isDate

theorem DateFields.time?_of_eq {f : DateFields} {time : TimeOfDay} (hhour : f.hour = time.hour)
    (hminute : f.minute = time.minute)
    (hsecond : f.second = time.second + time.nanos / nanosPerSecond) (hnanos : f.nanos = 0) :
    f.time? = some time.wholeSeconds := by
  obtain ⟨-, -, hlt, hleap⟩ := time.isTime
  have hself := time.wholeSeconds.of?_self
  unfold time?
  rw [hhour, hminute, hsecond, hnanos]
  rcases Nat.lt_or_ge time.nanos nanosPerSecond with hless | hge
  · have hzero : time.nanos / nanosPerSecond = 0 := Nat.div_eq_of_lt hless
    have hwhole : time.wholeSeconds.nanos = 0 := by simp [TimeOfDay.wholeSeconds, hzero]
    rw [hzero, Nat.add_zero, if_neg (by omega), ← hself, hwhole]
    rfl
  · have hone : time.nanos / nanosPerSecond = 1 := by
      unfold nanosPerSecond at hge hleap ⊢
      omega
    have hsecond : time.second = 59 := by omega
    have hwhole : time.wholeSeconds.nanos = nanosPerSecond := by
      simp [TimeOfDay.wholeSeconds, hone]
    have hwhole' : time.wholeSeconds.second = 59 := hsecond
    rw [hone, hsecond, if_pos rfl, ← hself, hwhole, hwhole']
    rfl

theorem DateFields.dateTime?_eq {f : DateFields} {d : Date} {time : TimeOfDay}
    (hdate : f.date? = some d) (htime : f.time? = some time) : f.dateTime? = some ⟨d, time⟩ := by
  rw [dateTime?, hdate, htime]
  rfl

namespace Layout

theorem readDate?_yearFirst (t : DateTime) :
    readDate? yearFirst (writeChars yearFirst t) = some t.date := by
  have hread := readFields?_append t [] {} (separates_yearFirst t (stopsAt_nil Decimal.isDigit))
  rw [List.append_nil, List.append_nil] at hread
  rw [readDate?, hread]
  exact t.date.of?_self

theorem readDateTime?_dateAndClock (t : DateTime) :
    readDateTime? (dateAndClock ++ [.fraction]) (writeChars dateAndClock t) =
      some ⟨t.date, t.time.wholeSeconds⟩ := by
  have hread := readFields?_append t [.fraction] {}
    (separates_dateAndClock t (stopsAt_nil Decimal.isDigit))
  rw [List.append_nil] at hread
  rw [readDateTime?, hread]
  exact DateFields.dateTime?_eq t.date.of?_self (DateFields.time?_of_eq rfl rfl rfl rfl)

/-! ## The marks of a written date -/

theorem count_padded (width n : Nat) {c : Char} (hc : Decimal.isDigit c = false) :
    (padded width n).count c = 0 :=
  Decimal.count_of_digits (isRun_padded width n).digits hc

theorem count_writeYear (year : Int) {c : Char} (hc : Decimal.isDigit c = false) (hminus : c ≠ '-')
    (hplus : c ≠ '+') : (writeYear year).count c = 0 := by
  obtain ⟨sign, ds, hsign, hds, heq⟩ := exists_writeYear year
  rw [heq, List.count_append, Decimal.count_of_digits hds.digits hc]
  rcases hsign with rfl | rfl | rfl
  · rfl
  · simp [hminus.symm]
  · simp [hplus.symm]

theorem count_yearFirst (t : DateTime) {c : Char} (hc : Decimal.isDigit c = false) (hminus : c ≠ '-')
    (hplus : c ≠ '+') : (writeChars yearFirst t).count c = 0 := by
  simp only [writeChars, yearFirst, List.flatMap_cons, List.flatMap_nil, writeItem,
    List.count_append, count_writeYear _ hc hminus hplus, count_padded _ _ hc]
  simp [hminus.symm]

theorem count_clock (t : DateTime) {c : Char} (hc : Decimal.isDigit c = false) :
    (writeChars clock t).count c = if c = ':' then 2 else 0 := by
  simp only [writeChars, clock, List.flatMap_cons, List.flatMap_nil, writeItem,
    List.count_append, count_padded _ _ hc]
  by_cases hcolon : c = ':'
  · simp [hcolon]
  · simp [hcolon, Ne.symm hcolon]

theorem stopsAt_writeYear (year : Int) (rest : List Char) :
    StopsAt Text.isBlank (writeYear year ++ rest) := by
  obtain ⟨sign, ds, hsign, hds, heq⟩ := exists_writeYear year
  rw [heq]
  rcases hsign with rfl | rfl | rfl
  · exact stopsAt_blank_run hds rest
  · exact stopsAt_cons rfl _
  · exact stopsAt_cons rfl _

theorem trim_writeYear (year : Int) (middle : List Char) (n : Nat) :
    Text.trim (writeYear year ++ middle ++ padded 2 n) = writeYear year ++ middle ++ padded 2 n := by
  apply Text.trim_of_stopsAt
  · rw [List.append_assoc]
    exact stopsAt_writeYear year _
  · rw [List.reverse_append]
    have hrun := isRun_padded 2 n
    apply stopsAt_blank_run
    exact ⟨by simpa using hrun.ne_nil, fun c hc => hrun.digits c (List.mem_reverse.mp hc)⟩

end Layout

namespace DateTime

open Layout

theorem trim_writeChars (t : DateTime) : Text.trim t.writeChars = t.writeChars := by
  unfold writeChars
  split
  · have htext : Layout.writeChars yearFirst t =
        writeYear t.date.year ++ ('-' :: padded 2 t.date.month ++ ['-']) ++ padded 2 t.date.day := by
      simp [Layout.writeChars, yearFirst, writeItem]
    rw [htext, trim_writeYear]
  · have htext : Layout.writeChars dateAndClock t =
        writeYear t.date.year ++ ('-' :: padded 2 t.date.month ++ '-' :: padded 2 t.date.day ++
          ' ' :: padded 2 t.time.hour ++ ':' :: padded 2 t.time.minute ++ [':']) ++
        padded 2 (t.time.second + t.time.nanos / nanosPerSecond) := by
      simp [Layout.writeChars, dateAndClock, yearFirst, clock, writeItem]
    rw [htext, trim_writeYear]

theorem count_writeChars_le (t : DateTime) {c : Char} (hc : Decimal.isDigit c = false)
    (hsign : c ≠ '-' ∧ c ≠ '+') (hblank : c ≠ ' ') :
    t.writeChars.count c ≤ if c = ':' then 2 else 0 := by
  have hdate := count_yearFirst t hc hsign.1 hsign.2
  unfold writeChars
  split
  · rw [hdate]
    exact Nat.zero_le _
  · have htext : Layout.writeChars dateAndClock t =
        Layout.writeChars yearFirst t ++ ' ' :: Layout.writeChars clock t := by
      simp [Layout.writeChars, dateAndClock, writeItem]
    rw [htext, List.count_append, hdate, List.count_cons_of_ne hblank.symm, count_clock t hc]
    omega

theorem timestamp_read?_writeChars (t : DateTime) : Timestamp.read? t.writeChars = none := by
  apply Timestamp.read?_eq_none
  · exact Nat.le_zero.mp (t.count_writeChars_le (c := 'Z') rfl (by decide) (by decide))
  · exact Nat.le_zero.mp (t.count_writeChars_le (c := 'z') rfl (by decide) (by decide))
  · exact t.count_writeChars_le (c := ':') rfl (by decide) (by decide)

theorem writeChars_ne_nil (t : DateTime) : t.writeChars ≠ [] := by
  obtain ⟨sign, ds, -, hds, hyear⟩ := exists_writeYear t.date.year
  have hfirst : writeYear t.date.year ≠ [] := by simp [hyear, hds.ne_nil]
  unfold writeChars
  split <;> simp [Layout.writeChars, dateAndClock, yearFirst, writeItem, hfirst]

theorem readChars?_writeChars (t : DateTime) :
    readChars? t.writeChars = some ⟨t.date, t.time.wholeSeconds⟩ := by
  unfold readChars?
  simp only [trim_writeChars, timestamp_read?_writeChars, Option.none_or, List.isEmpty_iff,
    if_neg t.writeChars_ne_nil]
  unfold writeChars
  split
  · rename_i hmidnight
    -- The text has no colon, so the layouts with a time do not fit.
    have hnone : dateTimeLayouts.findSome? (·.readDateTime? (Layout.writeChars yearFirst t)) =
        none := by
      rw [List.findSome?_eq_none_iff]
      intro layout hlayout
      have hcolon : ∀ layout ∈ dateTimeLayouts, 0 < layout.count (.fixed ':') := by decide
      have hless := hcolon layout hlayout
      rw [← count_yearFirst t (c := ':') rfl (by decide) (by decide)] at hless
      rw [readDateTime?, readFields?_eq_none {} hless]
      rfl
    rw [hnone, Option.none_or, dateLayouts, List.findSome?_cons, readDate?_yearFirst, hmidnight]
    rfl
  · rw [dateTimeLayouts, List.findSome?_cons, readDateTime?_dateAndClock]
    rfl

end DateTime

end TableCleaner
