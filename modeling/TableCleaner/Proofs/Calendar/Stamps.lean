import TableCleaner.Proofs.Calendar.Written

/-!
# Written timestamps

A timestamp is a date and a clock with a fraction of one to nine digits, or none, and the offset of
the clock. It is read as the time on that clock, whatever the offset.
-/

namespace TableCleaner

theorem Decimal.IsRun.not_blank {ds : List Char} (h : IsRun ds) :
    ∀ c ∈ ds, Text.isBlank c = false :=
  fun c hc => (Cell.clean_of_isDigit (h.digits c hc)).1

namespace Layout

variable {ds fraction rest : List Char} {nanos n : Nat}

/-! ## Fractions -/

/-- A text for the nanoseconds of a fraction: nothing for none, or a point with one to nine digits. -/
inductive IsFraction (nanos : Nat) : List Char → Prop
  | none (hzero : nanos = 0) : IsFraction nanos []
  | digits {ds : List Char} (hrun : Decimal.IsRun ds) (hlen : ds.length ≤ 9)
      (hvalue : Decimal.digitsValue ds * 10 ^ (9 - ds.length) = nanos) : IsFraction nanos ('.' :: ds)

theorem readFraction?_append (h : IsFraction nanos fraction)
    (hstop : StopsAt (fun c => Decimal.isDigit c || c == '.') rest) :
    readFraction? (fraction ++ rest) = some (nanos, rest) := by
  have hdigit : StopsAt Decimal.isDigit rest := fun c hc =>
    (Bool.or_eq_false_iff.mp (hstop c hc)).1
  cases h with
  | none hzero =>
    cases rest with
    | nil => rw [hzero]; rfl
    | cons c rest =>
      have hpoint : c ≠ '.' := by simpa using (Bool.or_eq_false_iff.mp (hstop c rfl)).2
      simp [readFraction?, hpoint, hzero]
  | @digits ds hrun hlen hvalue =>
    have hnanos : fractionNanos ds = nanos := by
      rw [fractionNanos, List.take_of_length_le hlen]
      exact hvalue
    simp only [readFraction?, List.cons_append]
    rw [hrun.takeWhile_append, hdigit.takeWhile_eq, List.append_nil, hrun.dropWhile_append,
      hdigit.dropWhile_eq, hnanos]
    simp [hrun.ne_nil]

theorem IsFraction.count_eq_zero (h : IsFraction nanos fraction) {c : Char}
    (hdigit : Decimal.isDigit c = false) (hpoint : c ≠ '.') : fraction.count c = 0 := by
  cases h with
  | none => rfl
  | digits hrun => rw [List.count_cons_of_ne hpoint.symm, Decimal.count_of_digits hrun.digits hdigit]

theorem isFraction_take {n k : Nat} (hk : 0 < k ∧ k ≤ 9) (hn : n < 10 ^ 9)
    (hzeros : 10 ^ (9 - k) ∣ n) : IsFraction n ('.' :: (padded 9 n).take k) := by
  have hrun := isRun_padded 9 n
  have hlen : (padded 9 n).length = 9 := length_padded (by decide) hn
  have htake : ((padded 9 n).take k).length = k := by
    rw [List.length_take, hlen]
    omega
  refine .digits ⟨?_, fun c hc => hrun.digits c (List.mem_of_mem_take hc)⟩ (by omega) ?_
  · exact List.ne_nil_of_length_pos (by omega)
  have hrest : Decimal.digitsValue ((padded 9 n).drop k) < 10 ^ (9 - k) := by
    have hdigits : ∀ c ∈ (padded 9 n).drop k, Decimal.isDigit c = true := fun c hc =>
      hrun.digits c (List.mem_of_mem_drop hc)
    have hlt := Decimal.digitsValue_lt hdigits
    rwa [List.length_drop, hlen] at hlt
  have hsplit : 10 ^ (9 - k) * Decimal.digitsValue ((padded 9 n).take k) +
      Decimal.digitsValue ((padded 9 n).drop k) = n := by
    have happend := Decimal.digitsValue_append ((padded 9 n).take k) ((padded 9 n).drop k)
    rwa [List.take_append_drop, digitsValue_padded, List.length_drop, hlen, eq_comm] at happend
  have hzero : Decimal.digitsValue ((padded 9 n).drop k) = 0 := by
    refine Nat.eq_zero_of_dvd_of_lt ?_ hrest
    rw [← hsplit] at hzeros
    exact (Nat.dvd_add_right (Nat.dvd_mul_right _ _)).mp hzeros
  rw [htake, Nat.mul_comm]
  omega

/-! ## Fields of a fixed width -/

theorem readExactly?_padded {width : Nat} (hwidth : 0 < width) (hn : n < 10 ^ width)
    (rest : List Char) : readExactly? width (padded width n ++ rest) = some (n, rest) := by
  have hlen := length_padded hwidth hn
  have htake : (padded width n ++ rest).take width = padded width n := List.take_left' hlen
  have hdrop : (padded width n ++ rest).drop width = rest := List.drop_left' hlen
  have hdigits : (padded width n).all Decimal.isDigit = true :=
    List.all_eq_true.mpr (isRun_padded width n).digits
  simp only [readExactly?, htake, hdrop, hlen, hdigits, digitsValue_padded]
  simp

end Layout

namespace DateFields

theorem time?_self {f : DateFields} {time : TimeOfDay} (hhour : f.hour = time.hour)
    (hminute : f.minute = time.minute)
    (hsecond : f.second = time.second + time.nanos / nanosPerSecond)
    (hnanos : f.nanos = time.nanos % nanosPerSecond) : f.time? = some time := by
  obtain ⟨-, -, hlt, hleap⟩ := time.isTime
  unfold time?
  rw [hhour, hminute, hsecond, hnanos]
  rcases Nat.lt_or_ge time.nanos nanosPerSecond with hless | hge
  · rw [Nat.div_eq_of_lt hless, Nat.mod_eq_of_lt hless, Nat.add_zero, if_neg (by omega)]
    exact time.of?_self
  · have hone : time.nanos / nanosPerSecond = 1 := by
      unfold nanosPerSecond at hge hleap ⊢
      omega
    have hsum : nanosPerSecond + time.nanos % nanosPerSecond = time.nanos := by
      have hdiv := Nat.div_add_mod time.nanos nanosPerSecond
      rw [hone, Nat.mul_one] at hdiv
      exact hdiv
    have hsecond : time.second = 59 := by omega
    rw [hone, hsecond, if_pos rfl, hsum, ← hsecond]
    exact time.of?_self

end DateFields

theorem DateTime.fields_lt (t : DateTime) : t.date.month < 100 ∧ t.date.day < 100 ∧
    t.time.hour < 100 ∧ t.time.minute < 100 ∧
    t.time.second + t.time.nanos / nanosPerSecond < 100 := by
  obtain ⟨-, hmonth, hday⟩ := t.date.isDate
  obtain ⟨hhour, hminute, hsecond, hnanos⟩ := t.time.isTime
  have hdays : daysInMonth t.date.year t.date.month ≤ 31 := by
    unfold daysInMonth
    split <;> split <;> omega
  unfold nanosPerSecond at hnanos ⊢
  omega

namespace Timestamp

open Layout

variable {zone fraction : List Char}

/-- An offset of less than a day: that of universal time, or hours and minutes with a sign. -/
inductive IsZone : List Char → Prop
  | universal {c : Char} (h : c ∈ ['Z', 'z']) : IsZone [c]
  | shifted {sign : Char} (hsign : sign ∈ ['+', '-']) {hour minute : Nat} (hhour : hour < 24)
      (hminute : minute < 60) : IsZone (sign :: (padded 2 hour ++ ':' :: padded 2 minute))

theorem oneOf?_cons {cs : List Char} {c : Char} (h : c ∈ cs) (r : List Char) :
    oneOf? cs (c :: r) = some r := by
  rw [oneOf?, if_pos (List.contains_iff_mem.mpr h)]

theorem isOffset_of_isZone (h : IsZone zone) : isOffset zone = true := by
  cases h with
  | @universal c h =>
    simp only [List.mem_cons, List.not_mem_nil, or_false] at h
    rcases h with rfl | rfl <;> rfl
  | @shifted sign hsign hour minute hhour hminute =>
    have hmark : sign ∈ ['+', '-', '−'] := by
      simp only [List.mem_cons, List.not_mem_nil, or_false] at hsign ⊢
      tauto
    have hlast : readExactly? 2 (padded 2 minute) = some (minute, []) := by
      rw [← List.append_nil (padded 2 minute)]
      exact readExactly?_padded (by decide) (by omega) []
    unfold isOffset
    split
    · rfl
    · rw [oneOf?_cons hmark]
      simp only [Option.bind_eq_bind, Option.bind_some]
      rw [readExactly?_padded (by decide) (by omega)]
      simp only [Option.bind_some]
      rw [oneOf?_cons (by simp)]
      simp [hlast, hhour, hminute]

/-- A date and the time on a clock with a given offset. -/
def write (t : DateTime) (mark : Char) (fraction zone : List Char) : List Char :=
  yearFirst.writeChars t ++ mark :: (clock.writeChars t ++ (fraction ++ zone))

theorem stopsAt_zone (h : IsZone zone) :
    StopsAt (fun c => Decimal.isDigit c || c == '.') zone := by
  cases h with
  | @universal c h =>
    simp only [List.mem_cons, List.not_mem_nil, or_false] at h
    rcases h with rfl | rfl <;> exact stopsAt_cons rfl _
  | @shifted sign hsign =>
    simp only [List.mem_cons, List.not_mem_nil, or_false] at hsign
    rcases hsign with rfl | rfl <;> exact stopsAt_cons rfl _

theorem write_eq {t : DateTime} (hyear : 0 ≤ t.date.year ∧ t.date.year ≤ 9999) (mark : Char)
    (fraction zone : List Char) : write t mark fraction zone =
      padded 4 t.date.year.toNat ++ '-' :: (padded 2 t.date.month ++ '-' :: (padded 2 t.date.day ++
        mark :: (padded 2 t.time.hour ++ ':' :: (padded 2 t.time.minute ++
          ':' :: (padded 2 (t.time.second + t.time.nanos / nanosPerSecond) ++
            (fraction ++ zone)))))) := by
  simp only [write, writeChars, yearFirst, clock, writeItem, writeYear, if_pos hyear,
    List.flatMap_cons, List.flatMap_nil, List.append_assoc, List.cons_append, List.nil_append]

theorem read?_write {t : DateTime} {mark : Char} (hyear : 0 ≤ t.date.year ∧ t.date.year ≤ 9999)
    (hmark : mark ∈ ['T', 't', ' ']) (hzone : IsZone zone)
    (hfraction : IsFraction (t.time.nanos % nanosPerSecond) fraction) :
    read? (write t mark fraction zone) = some t := by
  have hfour : t.date.year.toNat < 10 ^ 4 := by omega
  obtain ⟨hmonth, hday, hhour, hminute, hsecond⟩ := t.fields_lt
  have hfields : ∀ {n}, n < 100 → ∀ rest, readExactly? 2 (padded 2 n ++ rest) = some (n, rest) :=
    fun hn => readExactly?_padded (by decide) hn
  have hdash := oneOf?_cons (List.mem_singleton.mpr (rfl : '-' = '-'))
  have hcolon := oneOf?_cons (List.mem_singleton.mpr (rfl : ':' = ':'))
  have hdate : Date.of? t.date.year.toNat t.date.month t.date.day = some t.date := by
    rw [Int.toNat_of_nonneg hyear.1]
    exact t.date.of?_self
  rw [write_eq hyear]
  refine Option.bind_eq_some_iff.mpr ⟨_, readExactly?_padded (by decide) hfour _, ?_⟩
  refine Option.bind_eq_some_iff.mpr ⟨_, hdash _, ?_⟩
  refine Option.bind_eq_some_iff.mpr ⟨_, hfields hmonth _, ?_⟩
  refine Option.bind_eq_some_iff.mpr ⟨_, hdash _, ?_⟩
  refine Option.bind_eq_some_iff.mpr ⟨_, hfields hday _, ?_⟩
  refine Option.bind_eq_some_iff.mpr ⟨_, oneOf?_cons hmark _, ?_⟩
  refine Option.bind_eq_some_iff.mpr ⟨_, hfields hhour _, ?_⟩
  refine Option.bind_eq_some_iff.mpr ⟨_, hcolon _, ?_⟩
  refine Option.bind_eq_some_iff.mpr ⟨_, hfields hminute _, ?_⟩
  refine Option.bind_eq_some_iff.mpr ⟨_, hcolon _, ?_⟩
  refine Option.bind_eq_some_iff.mpr ⟨_, hfields hsecond _, ?_⟩
  refine Option.bind_eq_some_iff.mpr
    ⟨_, readFraction?_append hfraction (stopsAt_zone hzone), ?_⟩
  exact (if_pos (isOffset_of_isZone hzone)).trans
    (DateFields.dateTime?_eq hdate (DateFields.time?_self rfl rfl rfl rfl))

theorem not_endsBlank_zone (h : IsZone zone) : zone ≠ [] ∧ ¬Text.EndsBlank zone := by
  cases h with
  | @universal c h =>
    simp only [List.mem_cons, List.not_mem_nil, or_false] at h
    rcases h with rfl | rfl <;> exact ⟨by simp, by simp [Text.EndsBlank, Text.isBlank]⟩
  | @shifted sign hsign hour minute =>
    have hrun := isRun_padded 2 minute
    refine ⟨by simp, ?_⟩
    have hsplit : sign :: (padded 2 hour ++ ':' :: padded 2 minute) =
        sign :: (padded 2 hour ++ [':']) ++ padded 2 minute := by simp
    rw [hsplit, Text.endsBlank_append hrun.ne_nil]
    exact Text.not_endsBlank_of_not_blank hrun.not_blank

theorem trim_write {t : DateTime} {mark : Char} (hyear : 0 ≤ t.date.year ∧ t.date.year ≤ 9999)
    (hzone : IsZone zone) : Text.trim (write t mark fraction zone) = write t mark fraction zone := by
  rw [Text.trim_eq_self_iff]
  constructor
  · have hrun := isRun_padded 4 t.date.year.toNat
    rw [write_eq hyear, Text.beginsBlank_append hrun.ne_nil]
    exact Text.not_beginsBlank_of_not_blank hrun.not_blank
  · obtain ⟨hne, hends⟩ := not_endsBlank_zone hzone
    have hsplit : write t mark fraction zone =
        yearFirst.writeChars t ++ mark :: (clock.writeChars t ++ fraction) ++ zone := by
      simp [write]
    rwa [hsplit, Text.endsBlank_append hne]

end Timestamp

theorem DateTime.readChars?_timestamp {t : DateTime} {mark : Char} {fraction zone : List Char}
    (hyear : 0 ≤ t.date.year ∧ t.date.year ≤ 9999) (hmark : mark ∈ ['T', 't', ' '])
    (hfraction : Layout.IsFraction (t.time.nanos % nanosPerSecond) fraction)
    (hzone : Timestamp.IsZone zone) :
    readChars? (Timestamp.write t mark fraction zone) = some t := by
  have hne : Timestamp.write t mark fraction zone ≠ [] := by simp [Timestamp.write]
  rw [readChars?, Timestamp.trim_write hyear hzone, if_neg (by simpa using hne),
    Timestamp.read?_write hyear hmark hzone hfraction]
  rfl

end TableCleaner
