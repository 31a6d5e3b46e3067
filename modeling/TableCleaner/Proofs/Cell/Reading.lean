import TableCleaner.Cell
import TableCleaner.Proofs.Decimal.Nearest
import TableCleaner.Proofs.Decimal.Written
import TableCleaner.Proofs.Text.Trim

/-!
# Cells read from their texts

A cell that is shown and read again is the same number, or again no number. Integers and floating
point numbers are shown by all the digits that tell them apart, the names of infinity and of the
undefined number stand for nothing finite, and a date has a minus sign where a number has none.
Truth values are the exception, and the sign of a zero is not shown.
-/

namespace TableCleaner

/-! ## Texts of dates -/

namespace Layout

theorem isRun_padded (width n : Nat) : Decimal.IsRun (padded width n) := by
  have hrun := Decimal.isRun_toDigits n
  refine ⟨by simp [padded, hrun.ne_nil], fun c hc => ?_⟩
  rcases List.mem_append.mp hc with hc | hc
  · exact Decimal.isDigit_of_mem_zeros hc
  · exact hrun.digits c hc

theorem exists_writeYear (year : Int) : ∃ sign ds, (sign = [] ∨ sign = ['-'] ∨ sign = ['+']) ∧
    Decimal.IsRun ds ∧ writeYear year = sign ++ ds := by
  unfold writeYear
  split
  · exact ⟨[], _, .inl rfl, isRun_padded 4 _, rfl⟩
  split
  · exact ⟨['-'], _, .inr (.inl rfl), isRun_padded 4 _, rfl⟩
  · exact ⟨['+'], _, .inr (.inr rfl), isRun_padded 4 _, rfl⟩

end Layout

/-! ## Texts of numbers -/

namespace Cell

theorem clean_of_isDigit {c : Char} (h : Decimal.isDigit c = true) :
    Text.isBlank c = false ∧ isGroupMark c = false := by
  have hlow : 48 ≤ c.toNat := by
    simp only [Decimal.isDigit, Bool.and_eq_true, decide_eq_true_eq] at h
    exact h.1
  have hhigh : c.toNat ≤ 57 := by
    simp only [Decimal.isDigit, Bool.and_eq_true, decide_eq_true_eq] at h
    exact h.2
  constructor
  · simp [Text.isBlank]
    omega
  · simp only [isGroupMark, Bool.or_eq_false_iff, decide_eq_false_iff_not]
    refine ⟨⟨⟨⟨?_, ?_⟩, ?_⟩, ?_⟩, ?_⟩
    all_goals
      rintro rfl
      revert hlow hhigh
      decide

theorem numberOfChars?_of_clean {s : List Char}
    (h : ∀ c ∈ s, Text.isBlank c = false ∧ isGroupMark c = false) :
    numberOfChars? s = (Decimal.readFloat? s).filter (·.isFinite) := by
  have hmarks : s.filter (!isGroupMark ·) = s := by
    rw [List.filter_eq_self]
    intro c hc
    simp [(h c hc).2]
  rw [numberOfChars?, Text.trim_of_not_blank fun c hc => (h c hc).1, hmarks]

theorem numberOfChars?_of_isPlain {s : List Char} {d : Decimal} (h : Decimal.IsPlain s d)
    (negative : Bool) :
    numberOfChars? (if negative then '-' :: s else s) =
      (some (d.toFloat negative)).filter (·.isFinite) := by
  have hclean : ∀ c ∈ s, Text.isBlank c = false ∧ isGroupMark c = false := by
    intro c hc
    rcases h.mem hc with hdigit | rfl
    · exact clean_of_isDigit hdigit
    · decide
  obtain ⟨c, r, rfl, hc⟩ := h.exists_cons
  have hread := h.readUnsigned?
  cases negative with
  | false =>
    have hsign : Decimal.read? (c :: r) = (Decimal.readUnsigned? (c :: r)).map (.number false) :=
      Decimal.read?_append (.inl rfl) hc r
    rw [if_neg Bool.false_ne_true, numberOfChars?_of_clean hclean, Decimal.readFloat?, hsign, hread]
    rfl
  | true =>
    have hsign : Decimal.read? ('-' :: c :: r) =
        (Decimal.readUnsigned? (c :: r)).map (.number true) :=
      Decimal.read?_append (.inr (.inl rfl)) hc r
    rw [if_pos rfl, numberOfChars?_of_clean (List.forall_mem_cons.mpr ⟨by decide, hclean⟩),
      Decimal.readFloat?, hsign, hread]
    rfl

theorem numberOfChars?_chars {x : Float} (hfinite : x.isFinite = true) (hzero : ¬ (x == 0.0) = true) :
    numberOfChars? (Decimal.plainStyle.chars x) = some x := by
  have hchars := Decimal.plainStyle.chars_of_isFinite hfinite hzero
  have hmantissa := Binary.mantissa_pos_of_ne_zero hzero
  have hlt := Binary.isFinite_iff.mp hfinite
  rw [Binary.beq_zero_iff] at hzero
  set d := Decimal.shortest Decimal.plainStyle.tie (Binary.ofBits (Binary.magnitudeBits x)) with hd
  obtain ⟨e, hplain, hvalue⟩ := Decimal.exists_isPlain_positional d.digits d.exponent
  have hback : (Binary.ofBits (Binary.magnitudeBits x)).readsBack e = true := by
    rw [Binary.readsBack_congr hvalue]
    exact Decimal.readsBack_shortest .up hmantissa
  have hfloat : e.toFloat (Binary.isNegative x) = x := by
    rw [Decimal.toFloat, Binary.nearestBits_of_readsBack (Nat.pos_of_ne_zero hzero) hlt hback,
      Binary.ofMagnitude_self]
  change Decimal.plainStyle.chars x =
    if Binary.isNegative x then '-' :: Decimal.positional false (Nat.toDigits 10 d.digits) d.exponent
    else Decimal.positional false (Nat.toDigits 10 d.digits) d.exponent at hchars
  rw [hchars, numberOfChars?_of_isPlain hplain, hfloat]
  simp [hfinite]

theorem isFinite_ofInt (i : Int64) : (Decimal.ofInt i.toInt).isFinite = true := by
  have hvalue : (⟨i.toInt.natAbs, 0⟩ : Decimal).value < (2 : ℚ) ^ (1023 : Int) := by
    have hlow := i.le_toInt
    have hhigh := i.toInt_lt
    have hnat : i.toInt.natAbs < 2 ^ 64 := by omega
    have hcast : (i.toInt.natAbs : ℚ) < 2 ^ (64 : Int) := by exact_mod_cast hnat
    rw [Decimal.value, zpow_zero, mul_one]
    exact hcast.trans_le (zpow_le_zpow_right₀ (by norm_num) (by norm_num))
  have hlt := Decimal.nearestBits_lt hvalue
  rw [Binary.isFinite_iff, Decimal.ofInt, Decimal.toFloat, Binary.magnitudeBits_ofMagnitude _ hlt.le]
  exact hlt

theorem numberOfChars?_intChars (i : Int64) :
    numberOfChars? (Json.intChars i.toInt) = some (Decimal.ofInt i.toInt) := by
  have hplain : Decimal.IsPlain (Nat.toDigits 10 i.toInt.natAbs) ⟨i.toInt.natAbs, 0⟩ := by
    have := Decimal.IsPlain.whole (Decimal.isRun_toDigits i.toInt.natAbs)
    rwa [Decimal.digitsValue_toDigits] at this
  have hread := numberOfChars?_of_isPlain hplain (decide (i.toInt < 0))
  simp only [decide_eq_true_eq] at hread
  rw [Json.intChars, hread]
  change (some (Decimal.ofInt i.toInt)).filter _ = _
  simp [isFinite_ofInt]

theorem numberOfChars?_of_minus {sign ds : List Char}
    (hsign : sign = [] ∨ sign = ['-'] ∨ sign = ['+']) (hds : Decimal.IsRun ds) (rest : List Char) :
    numberOfChars? (sign ++ ds ++ '-' :: rest) = none := by
  have hclean : ∀ c ∈ sign ++ ds, Text.isBlank c = false ∧ isGroupMark c = false := by
    intro c hc
    rcases List.mem_append.mp hc with hc | hc
    · rcases hsign with rfl | rfl | rfl
      · cases hc
      · obtain rfl := List.mem_singleton.mp hc
        decide
      · obtain rfl := List.mem_singleton.mp hc
        decide
    · exact clean_of_isDigit (hds.digits c hc)
  have htrim : Text.trim (sign ++ ds ++ '-' :: rest) = sign ++ ds ++ '-' :: Text.trimEnd rest := by
    have hstart : Text.trimStart (sign ++ ds) = sign ++ ds :=
      Text.trimStart_of_not_blank fun c hc => (hclean c hc).1
    rw [Text.trim, Text.trimStart_append_cons (by decide), hstart,
      Text.trimEnd_append_cons (by decide)]
  have hfilter : (sign ++ ds).filter (!isGroupMark ·) = sign ++ ds := by
    rw [List.filter_eq_self]
    intro c hc
    simp [(hclean c hc).2]
  obtain ⟨c, r, rfl⟩ := List.exists_cons_of_ne_nil hds.ne_nil
  have hread := hds.readUnsigned?_append (c := '-') (by decide) (by decide) (by decide)
    ((Text.trimEnd rest).filter (!isGroupMark ·))
  have hsigned := Decimal.read?_append hsign (hds.digits c List.mem_cons_self)
    (r ++ '-' :: (Text.trimEnd rest).filter (!isGroupMark ·))
  rw [List.cons_append] at hread
  rw [numberOfChars?, htrim, List.filter_append, hfilter, List.filter_cons_of_pos (by decide),
    Decimal.readFloat?, List.append_assoc, List.cons_append, hsigned, hread]
  rfl

/-- A date has a minus sign after its year, and so it is no number. -/
theorem numberOfChars?_writeChars (t : DateTime) : numberOfChars? t.writeChars = none := by
  obtain ⟨sign, ds, hsign, hds, hyear⟩ := Layout.exists_writeYear t.date.year
  obtain ⟨rest, hrest⟩ : ∃ rest, t.writeChars = Layout.writeYear t.date.year ++ '-' :: rest := by
    unfold DateTime.writeChars
    split
    · exact ⟨_, rfl⟩
    · exact ⟨_, rfl⟩
  rw [hrest, hyear]
  exact numberOfChars?_of_minus hsign hds rest

theorem numberOfChars?_shownChars (x : Float) :
    numberOfChars? (number x).shownChars = if x == 0.0 then some 0.0 else (number x).number? := by
  rw [shownChars]
  by_cases hzero : (x == 0.0) = true
  · rw [if_pos hzero, if_pos hzero]
    decide +kernel
  rw [if_neg hzero, if_neg hzero]
  by_cases hfinite : x.isFinite = true
  · rw [numberOfChars?_chars hfinite hzero, number?, if_pos hfinite]
  rw [number?, if_neg hfinite]
  -- The names of the other numbers are read as no finite ones.
  rw [Binary.isFinite_iff, Nat.not_lt] at hfinite
  unfold Decimal.Style.chars
  split
  · decide +kernel
  · rename_i hnan
    rw [Binary.isNaN_iff, Nat.not_lt] at hnan
    simp only [if_pos (Nat.le_antisymm hnan hfinite)]
    split <;> decide +kernel

theorem number?_text_shown {c : Cell} (hbool : ∀ b, c ≠ .bool b) (hzero : c ≠ .number (-0.0)) :
    (text c.shown).number? = c.number? := by
  have htext : ∀ s : List Char, (text (String.ofList s)).number? = numberOfChars? s := by
    intro s
    rw [number?, String.toList_ofList]
  cases c with
  | null => exact (htext []).trans (by decide +kernel)
  | text s => rfl
  | bool b => exact absurd rfl (hbool b)
  | int i => exact (htext _).trans (numberOfChars?_intChars i)
  | dateTime t => exact (htext _).trans (numberOfChars?_writeChars t)
  | number x =>
    refine (htext _).trans ((numberOfChars?_shownChars x).trans ?_)
    split
    · rename_i hx
      rcases Binary.eq_of_beq_zero hx with rfl | rfl
      · decide +kernel
      · exact absurd rfl hzero
    · rfl

end Cell

end TableCleaner
