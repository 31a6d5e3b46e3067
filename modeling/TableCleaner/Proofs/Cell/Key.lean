import TableCleaner.Proofs.Calendar.Written

/-!
# Keys of one kind

The key of a cell is its shown text. Among cells of one kind the text gives the value back: an
integer, a truth value and a text are read off it, and a number that is not undefined is known by
its shortest decimal, up to the sign of a zero. Only dates lose something, the fraction of their
second. A date at midnight is shown without a time, so it is not taken for one shortly after.
-/

namespace TableCleaner

/-! ## Integers and truth values -/

theorem Json.intChars_inj {i j : Int} (h : intChars i = intChars j) : i = j := by
  have hsign : ∀ m n : Nat, '-' :: Nat.toDigits 10 m ≠ Nat.toDigits 10 n := by
    intro m n heq
    have hdigit := (Decimal.isRun_toDigits n).digits '-' (heq ▸ List.mem_cons_self)
    cases hdigit
  have hdigits : ∀ {m n : Nat}, Nat.toDigits 10 m = Nat.toDigits 10 n → m = n := by
    intro m n heq
    rw [← Decimal.digitsValue_toDigits m, heq, Decimal.digitsValue_toDigits]
  unfold intChars at h
  split at h <;> split at h
  · have := hdigits (List.cons.inj h).2
    omega
  · exact absurd h (hsign _ _)
  · exact absurd h.symm (hsign _ _)
  · have := hdigits h
    omega

theorem Json.boolChars_inj {a b : Bool} (h : boolChars a = boolChars b) : a = b := by
  revert a b
  decide

/-! ## Dates -/

namespace DateTime

/-- The dates are the same but for the fraction of a second. -/
def SameSecond (s t : DateTime) : Prop :=
  s.date = t.date ∧ s.time.wholeSeconds = t.time.wholeSeconds

instance (s t : DateTime) : Decidable (s.SameSecond t) := inferInstanceAs (Decidable (_ ∧ _))

variable {s t : DateTime}

theorem count_colon_writeChars (t : DateTime) :
    t.writeChars.count ':' = if t.time = .midnight then 0 else 2 := by
  have hdate := Layout.count_yearFirst t (c := ':') rfl (by decide) (by decide)
  unfold writeChars
  split
  · exact hdate
  · have htext : Layout.writeChars Layout.dateAndClock t =
        Layout.writeChars Layout.yearFirst t ++ ' ' :: Layout.writeChars Layout.clock t := by
      simp [Layout.writeChars, Layout.dateAndClock, Layout.writeItem]
    rw [htext, List.count_append, hdate, List.count_cons_of_ne (by decide), Layout.count_clock t rfl]
    rfl

theorem SameSecond.writeChars_eq (h : s.SameSecond t) (hs : s.time ≠ .midnight)
    (ht : t.time ≠ .midnight) : s.writeChars = t.writeChars := by
  obtain ⟨hdate, htime⟩ := h
  obtain ⟨hhour, hminute, hsecond, hnanos⟩ : s.time.hour = t.time.hour ∧
      s.time.minute = t.time.minute ∧ s.time.second = t.time.second ∧
      s.time.nanos / nanosPerSecond * nanosPerSecond =
        t.time.nanos / nanosPerSecond * nanosPerSecond := by
    simpa only [TimeOfDay.wholeSeconds, TimeOfDay.mk.injEq] using htime
  have hleap := Nat.eq_of_mul_eq_mul_right (by decide) hnanos
  unfold writeChars
  rw [if_neg hs, if_neg ht]
  simp only [Layout.writeChars, Layout.dateAndClock, Layout.yearFirst, Layout.clock,
    List.cons_append, List.nil_append, List.flatMap_cons, List.flatMap_nil, Layout.writeItem,
    hdate, hhour, hminute, hsecond, hleap]

theorem writeChars_eq_iff : s.writeChars = t.writeChars ↔
    s = t ∨ s.SameSecond t ∧ s.time ≠ .midnight ∧ t.time ≠ .midnight := by
  constructor
  · intro h
    have hread := congrArg readChars? h
    rw [readChars?_writeChars, readChars?_writeChars, Option.some.injEq, mk.injEq] at hread
    have hcolon := congrArg (List.count ':') h
    rw [count_colon_writeChars, count_colon_writeChars] at hcolon
    by_cases hs : s.time = .midnight <;> by_cases ht : t.time = .midnight
    · left
      cases s
      cases t
      simp_all
    · simp [hs, ht] at hcolon
    · simp [hs, ht] at hcolon
    · exact .inr ⟨hread, hs, ht⟩
  · rintro (rfl | ⟨h, hs, ht⟩)
    · rfl
    · exact h.writeChars_eq hs ht

end DateTime

/-! ## Numbers -/

namespace Cell

/-- The cell is the undefined number. -/
def isNaN : Cell → Bool
  | number x => x.isNaN
  | _ => false

variable {x y : Float}

theorem exists_sign_of_infinite (hfinite : ¬ x.isFinite = true) (hnan : ¬ x.isNaN = true) :
    x = Binary.ofMagnitude (Binary.isNegative x) Binary.infinityBits ∧ (number x).shownChars =
      if Binary.isNegative x then ['-', 'i', 'n', 'f'] else ['i', 'n', 'f'] := by
  have hinfinity : Binary.magnitudeBits x = Binary.infinityBits := by
    rw [Binary.isFinite_iff, Nat.not_lt] at hfinite
    rw [Binary.isNaN_iff, Nat.not_lt] at hnan
    exact Nat.le_antisymm hnan hfinite
  have hzero : ¬ (x == 0.0) = true := by
    rw [Binary.beq_zero_iff, hinfinity]
    decide
  constructor
  · rw [← hinfinity, Binary.ofMagnitude_self]
  · rw [shownChars, if_neg hzero]
    unfold Decimal.Style.chars
    simp only [if_neg hnan, if_pos hinfinity]

theorem beq_self_of_not_isNaN (h : ¬ x.isNaN = true) : (x == x) = true := by
  rw [Float.beq_self_iff]
  rintro rfl
  exact h (by decide +kernel)

theorem beq_of_shownChars_eq (hx : ¬ x.isNaN = true) (hy : ¬ y.isNaN = true)
    (h : (number x).shownChars = (number y).shownChars) : (x == y) = true := by
  have hread := congrArg numberOfChars? h
  rw [numberOfChars?_shownChars, numberOfChars?_shownChars] at hread
  have hvalue : ∀ z : Float, (number z).number? = if z.isFinite then some z else none := fun _ => rfl
  rw [hvalue, hvalue] at hread
  by_cases hxzero : (x == 0.0) = true <;> by_cases hyzero : (y == 0.0) = true
  · rcases Binary.eq_of_beq_zero hxzero with rfl | rfl <;>
      rcases Binary.eq_of_beq_zero hyzero with rfl | rfl <;> decide +kernel
  · rw [if_pos hxzero, if_neg hyzero] at hread
    split at hread
    · rw [← Option.some.inj hread] at hyzero
      exact absurd (by decide +kernel) hyzero
    · cases hread
  · rw [if_neg hxzero, if_pos hyzero] at hread
    split at hread
    · rw [Option.some.inj hread] at hxzero
      exact absurd (by decide +kernel) hxzero
    · cases hread
  · rw [if_neg hxzero, if_neg hyzero] at hread
    have hsame : x = y := by
      by_cases hxfinite : x.isFinite = true <;> by_cases hyfinite : y.isFinite = true
      · simpa [hxfinite, hyfinite] using hread
      · simp [hxfinite, hyfinite] at hread
      · simp [hxfinite, hyfinite] at hread
      · obtain ⟨hxeq, hxshown⟩ := exists_sign_of_infinite hxfinite hx
        obtain ⟨hyeq, hyshown⟩ := exists_sign_of_infinite hyfinite hy
        rw [hxshown, hyshown] at h
        have hsign : ∀ a b : Bool, (if a then ['-', 'i', 'n', 'f'] else ['i', 'n', 'f']) =
            (if b then ['-', 'i', 'n', 'f'] else ['i', 'n', 'f']) → a = b := by
          decide
        rw [hxeq, hyeq, hsign _ _ h]
    rw [← hsame]
    exact beq_self_of_not_isNaN hx

theorem shownChars_eq_of_beq (h : (x == y) = true) :
    (number x).shownChars = (number y).shownChars := by
  obtain ⟨-, -, rfl | ⟨rfl, rfl⟩ | ⟨rfl, rfl⟩⟩ := Float.beq_iff_ne_nan_and_eq.mp h
  · rfl
  · decide +kernel
  · decide +kernel

/-! ## Cells -/

/-- Both cells hold a value, of one kind. -/
inductive SameKind : Cell → Cell → Prop
  | number (x y : Float) : SameKind (.number x) (.number y)
  | int (i j : Int64) : SameKind (.int i) (.int j)
  | text (s t : String) : SameKind (.text s) (.text t)
  | bool (a b : Bool) : SameKind (.bool a) (.bool b)
  | dateTime (s t : DateTime) : SameKind (.dateTime s) (.dateTime t)

/-- Equal values, or dates that differ in the fraction of a second alone, neither of them at
midnight sharp. -/
def SameToSecond (a b : Cell) : Prop :=
  a.same b = true ∨ ∃ s t, a = dateTime s ∧ b = dateTime t ∧
    s.SameSecond t ∧ s.time ≠ .midnight ∧ t.time ≠ .midnight

variable {a b : Cell}

theorem same_iff_eq (ha : ∀ x, a ≠ number x) : a.same b = true ↔ a = b := by
  rw [same.eq_2, beq_iff_eq]
  exact fun x _ hx => absurd hx (ha x)

theorem sameToSecond_iff (ha : ∀ t, a ≠ dateTime t) : a.SameToSecond b ↔ a.same b = true := by
  refine or_iff_left ?_
  rintro ⟨s, t, hs, -⟩
  exact ha s hs

theorem key_eq_some (h : a ≠ null) : a.key = some (String.ofList a.shownChars) := by
  cases a with
  | null => exact absurd rfl h
  | text s => simp [key, shown, shownChars]
  | number | int | bool | dateTime => rfl

theorem key_eq_iff_shownChars_eq (ha : a ≠ null) (hb : b ≠ null) :
    a.key = b.key ↔ a.shownChars = b.shownChars := by
  rw [key_eq_some ha, key_eq_some hb, Option.some.injEq, String.ofList_inj]

theorem key_eq_iff_of_sameKind (h : a.SameKind b) (ha : a.isNaN = false) (hb : b.isNaN = false) :
    a.key = b.key ↔ a.SameToSecond b := by
  rw [key_eq_iff_shownChars_eq (by cases h <;> simp) (by cases h <;> simp)]
  cases h with
  | number x y =>
    rw [sameToSecond_iff (by simp)]
    exact ⟨beq_of_shownChars_eq (Bool.eq_false_iff.mp ha) (Bool.eq_false_iff.mp hb),
      shownChars_eq_of_beq⟩
  | int i j =>
    rw [sameToSecond_iff (by simp), same_iff_eq (by simp), int.injEq]
    exact ⟨fun h => Int64.toInt_inj.mp (Json.intChars_inj h), fun h => h ▸ rfl⟩
  | text s t =>
    rw [sameToSecond_iff (by simp), same_iff_eq (by simp), text.injEq]
    exact String.toList_inj
  | bool p q =>
    rw [sameToSecond_iff (by simp), same_iff_eq (by simp), bool.injEq]
    exact ⟨Json.boolChars_inj, fun h => h ▸ rfl⟩
  | dateTime s t =>
    refine DateTime.writeChars_eq_iff.trans ?_
    rw [SameToSecond, same_iff_eq (by simp), dateTime.injEq]
    simp only [dateTime.injEq]
    refine or_congr_right ⟨fun h => ⟨s, t, rfl, rfl, h⟩, ?_⟩
    rintro ⟨s', t', rfl, rfl, h⟩
    exact h

theorem key_eq_iff (h : a ≠ null → b ≠ null → a.SameKind b) (ha : a.isNaN = false)
    (hb : b.isNaN = false) : a.key = b.key ↔ a.SameToSecond b := by
  by_cases hanull : a = null
  · subst hanull
    cases b <;> simp [key, SameToSecond, same]
  by_cases hbnull : b = null
  · subst hbnull
    cases a <;> simp [key, SameToSecond, same]
  · exact key_eq_iff_of_sameKind (h hanull hbnull) ha hb

end Cell

end TableCleaner
