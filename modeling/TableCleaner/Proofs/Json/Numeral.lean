import TableCleaner.Json.Printer
import TableCleaner.Json.Reader
import TableCleaner.Proofs.Decimal.Nearest
import TableCleaner.Proofs.Decimal.Written
import TableCleaner.Proofs.Text.Trim

/-!
# Printed numbers

A number that is printed is read as the same number. An integer has all its digits. A floating-point
number has the digits of a decimal that reads back, around a point or with an exponent, so it is not
taken for an integer.
-/

namespace TableCleaner

/-! ## Runs of digits -/

namespace Decimal

/-- A run of digits as it stands before a point: no zero is in front of another digit. -/
structure IsWholePart (ds : List Char) : Prop extends IsRun ds where
  head : ds.head? = some '0' → ds.length = 1

variable {ds fs rest : List Char}

theorem IsRun.takeWhile_eq (h : IsRun ds) (hrest : StopsAt isDigit rest) :
    (ds ++ rest).takeWhile isDigit = ds := by
  rw [h.takeWhile_append, hrest.takeWhile_eq, List.append_nil]

theorem IsRun.dropWhile_eq (h : IsRun ds) (hrest : StopsAt isDigit rest) :
    (ds ++ rest).dropWhile isDigit = rest := by
  rw [h.dropWhile_append, hrest.dropWhile_eq]

theorem head?_toDigits_ne_zero {n : Nat} (h : 0 < n) : (Nat.toDigits 10 n).head? ≠ some '0' := by
  induction n using Nat.strongRecOn with
  | ind n ih =>
    by_cases hlt : n < 10
    · have hdigit : ∀ m < 10, 0 < m → Nat.digitChar m ≠ '0' := by decide
      rw [Nat.toDigits_of_lt_base hlt]
      simpa using hdigit n hlt h
    · rw [Nat.toDigits_of_base_le (by decide) (Nat.not_lt.mp hlt), List.head?_append_of_ne_nil _
        Nat.toDigits_ne_nil]
      exact ih (n / 10) (by omega) (by omega)

theorem isWholePart_toDigits (n : Nat) : IsWholePart (Nat.toDigits 10 n) := by
  refine ⟨isRun_toDigits n, fun hzero => ?_⟩
  rcases Nat.eq_zero_or_pos n with rfl | hpos
  · rfl
  · exact absurd hzero (head?_toDigits_ne_zero hpos)

theorem IsRun.isWholePart_of_head (h : IsRun ds) (hhead : ds.head? ≠ some '0') : IsWholePart ds :=
  ⟨h, fun hzero => absurd hzero hhead⟩

/-! ## Values of decimals -/

theorem nearestBits_of_value_eq_zero {d : Decimal} (h : d.value = 0) : d.nearestBits = 0 := by
  have hdigits : d.digits = 0 := by
    by_contra hne
    exact absurd h (value_pos_iff.mpr (Nat.pos_of_ne_zero hne)).ne'
  rw [nearestBits, if_pos hdigits]

end Decimal

theorem Binary.digits_pos_of_readsBack {x : Binary} {d : Decimal} (hm : 0 < x.mantissa)
    (h : x.readsBack d = true) : 0 < d.digits := by
  have hlow : 0 < x.low := by
    have hone : (1 : ℚ) ≤ x.mantissa := by exact_mod_cast hm
    have hgap : (0 : ℚ) < x.mantissa - if x.narrowBelow then 1 / 4 else 1 / 2 := by
      split <;> linarith
    exact mul_pos hgap (by positivity)
  rw [← Decimal.value_pos_iff]
  rcases ((readsBack_iff hm).mp h).1 with hlt | ⟨-, heq⟩
  · exact hlow.trans hlt
  · exact heq ▸ hlow

namespace Json

open Decimal

/-! ## The parts of a number -/

/-- The character may go on a number. -/
def goesOn (c : Char) : Bool := isDigit c || c = '.' || c = 'e' || c = 'E'

variable {negative : Bool} {ds fs rest : List Char} {fraction : Option (List Char)}

theorem stopsAt_isDigit_of_goesOn (h : StopsAt goesOn rest) : StopsAt isDigit rest := by
  intro c hc
  have hgoes := h c hc
  simp only [goesOn, Bool.or_eq_false_iff] at hgoes
  exact hgoes.1.1.1

theorem readTail?_of_stopsAt (h : StopsAt goesOn rest) :
    readTail? negative ds fraction rest = some (⟨negative, ds, fraction, none⟩, rest) := by
  unfold readTail?
  cases rest with
  | nil => rfl
  | cons c rest =>
    have hgoes := h c rfl
    simp only [goesOn, Bool.or_eq_false_iff, decide_eq_false_iff_not] at hgoes
    simp [hgoes]

/-- An exponent with its sign. -/
def exponentChars (e : Int) : List Char :=
  (if e < 0 then ['-'] else ['+']) ++ Nat.toDigits 10 e.natAbs

theorem readExponent?_exponentChars (e : Int) (hrest : StopsAt isDigit rest) :
    readExponent? (exponentChars e ++ rest) = some (e, rest) := by
  have hrun := isRun_toDigits e.natAbs
  have htake := hrun.takeWhile_eq hrest
  have hdrop := hrun.dropWhile_eq hrest
  have hvalue := digitsValue_toDigits e.natAbs
  unfold readExponent? exponentChars
  split_ifs with he
  · simp [htake, hdrop, hvalue, hrun.ne_nil, abs_of_neg he]
  · simp [htake, hdrop, hvalue, hrun.ne_nil, abs_of_nonneg (Int.not_lt.mp he)]

theorem readTail?_exponentChars (e : Int) (hrest : StopsAt isDigit rest) :
    readTail? negative ds fraction ('e' :: (exponentChars e ++ rest)) =
      some (⟨negative, ds, fraction, some e⟩, rest) := by
  unfold readTail?
  simp [readExponent?_exponentChars e hrest]

theorem readDigits?_of_stopsAt (h : IsWholePart ds) (hrest : StopsAt isDigit rest)
    (hpoint : rest.head? ≠ some '.') :
    readDigits? negative (ds ++ rest) = readTail? negative ds none rest := by
  unfold readDigits?
  simp only [h.takeWhile_eq hrest, h.dropWhile_eq hrest]
  rw [if_neg (by simpa [h.ne_nil] using h.head)]
  split
  · exact absurd rfl hpoint
  · rfl

theorem readDigits?_point (h : IsWholePart ds) (hf : IsRun fs) (hrest : StopsAt isDigit rest) :
    readDigits? negative (ds ++ '.' :: (fs ++ rest)) = readTail? negative ds (some fs) rest := by
  have hpoint : StopsAt isDigit ('.' :: (fs ++ rest)) := by
    rintro c ⟨⟩
    rfl
  unfold readDigits?
  simp only [h.takeWhile_eq hpoint, h.dropWhile_eq hpoint, hf.takeWhile_eq hrest,
    hf.dropWhile_eq hrest]
  rw [if_neg (by simpa [h.ne_nil] using h.head), if_neg (by simpa using hf.ne_nil)]

/-! ## Integers -/

theorem readNumber?_of_readDigits? {s : List Char} {p : NumberText × List Char}
    (h : readDigits? false s = some p) : readNumber? s = some p := by
  unfold readNumber?
  split
  · -- A sign is no digit.
    simp [readDigits?, isDigit] at h
  · exact h

theorem readNumber?_intChars (i : Int) (hrest : StopsAt goesOn rest) :
    readNumber? (intChars i ++ rest) =
      some (⟨decide (i < 0), Nat.toDigits 10 i.natAbs, none, none⟩, rest) := by
  have hdigits : ∀ negative, readDigits? negative (Nat.toDigits 10 i.natAbs ++ rest) =
      some (⟨negative, Nat.toDigits 10 i.natAbs, none, none⟩, rest) := by
    intro negative
    have hpoint : rest.head? ≠ some '.' := by
      intro hhead
      exact absurd (hrest '.' hhead) (by decide)
    rw [readDigits?_of_stopsAt (isWholePart_toDigits _) (stopsAt_isDigit_of_goesOn hrest) hpoint,
      readTail?_of_stopsAt hrest]
  unfold intChars
  split_ifs with hi
  · rw [decide_eq_true hi]
    exact hdigits true
  · rw [decide_eq_false hi]
    exact readNumber?_of_readDigits? (hdigits false)

theorem value?_intChars {i : Int} (hlow : leastInt ≤ i) (hhigh : i ≤ greatestInt) :
    NumberText.value? ⟨decide (i < 0), Nat.toDigits 10 i.natAbs, none, none⟩ = some (.int i) := by
  have hsigned : (if decide (i < 0) = true then -(i.natAbs : Int) else i.natAbs) = i := by
    split_ifs with hi
    · have := of_decide_eq_true hi
      omega
    · have := of_decide_eq_false (Bool.eq_false_iff.mpr hi)
      omega
  have hzero : (decide (i < 0) && decide (i.natAbs = 0)) = false := by
    simp only [Bool.and_eq_false_iff, decide_eq_false_iff_not]
    omega
  unfold NumberText.value?
  simp only [digitsValue_toDigits, hsigned, hzero]
  simp [hlow, hhigh]

/-! ## Floating-point numbers -/

/-- What the digits of a number and its exponent say. -/
def NumberText.decimal (t : NumberText) : Decimal :=
  ⟨digitsValue (t.whole ++ t.fraction.getD []), t.exponent.getD 0 - (t.fraction.getD []).length⟩

theorem NumberText.value?_eq_float {t : NumberText}
    (h : t.fraction.isSome = true ∨ t.exponent.isSome = true)
    (hfinite : (t.decimal.toFloat t.negative).isFinite = true) :
    t.value? = some (.float (t.decimal.toFloat t.negative)) := by
  obtain ⟨negative, whole, fraction, exponent⟩ := t
  unfold NumberText.decimal at hfinite
  unfold NumberText.value? NumberText.decimal
  cases fraction <;> cases exponent <;> simp_all

/-- The text is read as a decimal of a value that has a point or an exponent. -/
def ReadsAs (s : List Char) (v : ℚ) : Prop :=
  ∀ (negative : Bool) (rest : List Char), StopsAt goesOn rest →
    ∃ t : NumberText, readDigits? negative (s ++ rest) = some (t, rest) ∧ t.negative = negative ∧
      (t.fraction.isSome = true ∨ t.exponent.isSome = true) ∧ t.decimal.value = v

theorem readsAs_point (h : IsWholePart ds) (hf : IsRun fs) :
    ReadsAs (ds ++ '.' :: fs) (⟨digitsValue (ds ++ fs), -fs.length⟩ : Decimal).value := by
  intro negative rest hrest
  refine ⟨⟨negative, ds, some fs, none⟩, ?_, rfl, .inl rfl, by simp [NumberText.decimal]⟩
  rw [List.append_assoc, List.cons_append,
    readDigits?_point h hf (stopsAt_isDigit_of_goesOn hrest), readTail?_of_stopsAt hrest]

theorem readsAs_exponent (h : IsWholePart ds) (e : Int) :
    ReadsAs (ds ++ 'e' :: exponentChars e) (⟨digitsValue ds, e⟩ : Decimal).value := by
  intro negative rest hrest
  have hdigit := stopsAt_isDigit_of_goesOn hrest
  refine ⟨⟨negative, ds, none, some e⟩, ?_, rfl, .inr rfl, by simp [NumberText.decimal]⟩
  rw [List.append_assoc, List.cons_append, readDigits?_of_stopsAt h _ (by simp),
    readTail?_exponentChars e hdigit]
  rintro c ⟨⟩
  rfl

theorem readsAs_point_exponent (h : IsWholePart ds) (hf : IsRun fs) (e : Int) :
    ReadsAs (ds ++ '.' :: fs ++ 'e' :: exponentChars e)
      (⟨digitsValue (ds ++ fs), e - fs.length⟩ : Decimal).value := by
  intro negative rest hrest
  have hdigit := stopsAt_isDigit_of_goesOn hrest
  have hstop : StopsAt isDigit ('e' :: (exponentChars e ++ rest)) := by
    rintro c ⟨⟩
    rfl
  refine ⟨⟨negative, ds, some fs, some e⟩, ?_, rfl, .inl rfl, by simp [NumberText.decimal]⟩
  have hread : readDigits? negative (ds ++ '.' :: (fs ++ 'e' :: (exponentChars e ++ rest))) =
      readTail? negative ds (some fs) ('e' :: (exponentChars e ++ rest)) :=
    readDigits?_point h hf hstop
  rw [readTail?_exponentChars e hdigit] at hread
  simpa using hread

theorem exists_point_positional {n : Nat} {e : Int} (h : 0 < n) (he : e < 0) :
    ∃ ds fs, IsWholePart ds ∧ IsRun fs ∧
      positional true (Nat.toDigits 10 n) e = ds ++ '.' :: fs ∧ digitsValue (ds ++ fs) = n ∧
        -(fs.length : Int) = e := by
  have hrun := isRun_toDigits n
  have hvalue := digitsValue_toDigits n
  unfold positional
  extract_lets point
  have hpoint : point = (Nat.toDigits 10 n).length + e := rfl
  rw [if_neg (Int.not_le.mpr he)]
  split
  · refine ⟨_, _, ?_, ?_, rfl, ?_, ?_⟩
    · have htake : IsRun ((Nat.toDigits 10 n).take point.toNat) := by
        refine ⟨?_, fun c hc => hrun.digits c (List.mem_of_mem_take hc)⟩
        rw [ne_eq, List.take_eq_nil_iff, not_or]
        exact ⟨by omega, hrun.ne_nil⟩
      refine htake.isWholePart_of_head ?_
      rw [List.head?_take, if_neg (by omega)]
      exact head?_toDigits_ne_zero h
    · refine ⟨?_, fun c hc => hrun.digits c (List.mem_of_mem_drop hc)⟩
      rw [ne_eq, List.drop_eq_nil_iff]
      omega
    · rw [List.take_append_drop, hvalue]
    · rw [List.length_drop]
      omega
  · have hnone : digitsValue (Nat.toDigits 10 0) = 0 := rfl
    refine ⟨Nat.toDigits 10 0, List.replicate (-point).toNat '0' ++ Nat.toDigits 10 n,
      isWholePart_toDigits 0, ?_, rfl, ?_, ?_⟩
    · refine ⟨by simp [hrun.ne_nil], fun c hc => ?_⟩
      rcases List.mem_append.mp hc with hc | hc
      · exact isDigit_of_mem_zeros hc
      · exact hrun.digits c hc
    · simp only [digitsValue_append, digitsValue_zeros, hvalue, hnone, Nat.mul_zero, Nat.zero_add]
    · rw [List.length_append, List.length_replicate]
      omega

theorem readsAs_positional_natCast {n : Nat} {k : Nat} (h : 0 < n ∨ k = 0) :
    ReadsAs (positional true (Nat.toDigits 10 n) k) (⟨n, k⟩ : Decimal).value := by
  have hrun := isRun_toDigits n
  have hwhole : IsWholePart (Nat.toDigits 10 n ++ List.replicate k '0') := by
    rcases h with h | rfl
    · refine (hrun.append fun c => isDigit_of_mem_zeros).isWholePart_of_head ?_
      rw [List.head?_append_of_ne_nil _ hrun.ne_nil]
      exact head?_toDigits_ne_zero h
    · simpa using isWholePart_toDigits n
  have hdecimal : (⟨digitsValue (Nat.toDigits 10 n ++ List.replicate k '0' ++ ['0']),
      -(['0'].length : Int)⟩ : Decimal).value = (⟨n, k⟩ : Decimal).value := by
    have hnone : digitsValue ['0'] = 0 := rfl
    simp only [digitsValue_append, digitsValue_zeros, digitsValue_toDigits, hnone, Decimal.value,
      List.length_replicate, List.length_singleton]
    push_cast
    rw [zpow_neg_one, zpow_natCast]
    field_simp
    ring
  have hread := readsAs_point hwhole (isRun_toDigits 0)
  rw [← hdecimal]
  unfold positional
  simpa using hread

theorem readsAs_positional {n : Nat} (h : 0 < n) (e : Int) :
    ReadsAs (positional true (Nat.toDigits 10 n) e) (⟨n, e⟩ : Decimal).value := by
  by_cases he : 0 ≤ e
  · obtain ⟨k, rfl⟩ := Int.eq_ofNat_of_zero_le he
    exact readsAs_positional_natCast (.inl h)
  · obtain ⟨ds, fs, hds, hfs, htext, hvalue, hlen⟩ := exists_point_positional h (Int.not_le.mp he)
    have hread := readsAs_point hds hfs
    rwa [← htext, hvalue, hlen] at hread

theorem readsAs_scientific {n : Nat} (h : 0 < n) (e : Int) :
    ReadsAs (scientific true (Nat.toDigits 10 n) ((Nat.toDigits 10 n).length - 1 + e))
      (⟨n, e⟩ : Decimal).value := by
  have hrun := isRun_toDigits n
  have hvalue := digitsValue_toDigits n
  have hhead := head?_toDigits_ne_zero h
  have hsign : ∀ lead : Int, (if lead < 0 then ['-'] else if true then ['+'] else []) ++
      Nat.toDigits 10 lead.natAbs = exponentChars lead := fun _ => rfl
  unfold scientific
  generalize Nat.toDigits 10 n = ds at *
  match ds with
  | [] => exact absurd rfl hrun.ne_nil
  | [d] =>
    have hread := readsAs_exponent (hrun.isWholePart_of_head hhead) e
    rw [hvalue] at hread
    simpa [← hsign] using hread
  | d :: c :: fs =>
    have hfirst : IsWholePart [d] := by
      refine IsRun.isWholePart_of_head ⟨by simp, fun a ha => ?_⟩ hhead
      exact hrun.digits a (List.mem_singleton.mp ha ▸ List.mem_cons_self)
    have hrest : IsRun (c :: fs) :=
      ⟨by simp, fun a ha => hrun.digits a (List.mem_cons_of_mem _ ha)⟩
    have hlead : (((d :: c :: fs).length : Nat) : Int) - 1 + e - ((c :: fs).length : Nat) = e := by
      simp only [List.length_cons]
      omega
    have hread := readsAs_point_exponent hfirst hrest
      ((((d :: c :: fs).length : Nat) : Int) - 1 + e)
    have hdigits : digitsValue ([d] ++ c :: fs) = n := hvalue
    rw [hlead, hdigits] at hread
    simpa [← hsign] using hread

theorem readsAs_layout {d : Decimal} (h : 0 < d.digits) : ReadsAs (jsonStyle.layout d) d.value := by
  unfold Style.layout
  extract_lets ds lead isPlain
  split
  · exact readsAs_positional h d.exponent
  · exact readsAs_scientific h d.exponent

theorem exists_readsAs_chars {x : Float} (h : x.isFinite = true) :
    ∃ s v, jsonStyle.chars x = (if Binary.isNegative x then '-' :: s else s) ∧ ReadsAs s v ∧
      ∀ d : Decimal, d.value = v → d.toFloat (Binary.isNegative x) = x := by
  have hlt := Binary.isFinite_iff.mp h
  have hnan : ¬ x.isNaN = true := by
    rw [Binary.isNaN_iff]
    omega
  have hself := Binary.ofMagnitude_self x
  unfold Style.chars
  rw [if_neg hnan]
  simp only [if_neg hlt.ne]
  by_cases hzero : Binary.magnitudeBits x = 0
  · have hreads : ReadsAs (jsonStyle.layout ⟨0, 0⟩) (⟨0, (0 : Nat)⟩ : Decimal).value :=
      readsAs_positional_natCast (.inr rfl)
    refine ⟨_, _, by rw [if_pos hzero], hreads, ?_⟩
    intro d hd
    have hbits := nearestBits_of_value_eq_zero (hd.trans (by simp [Decimal.value]))
    rw [toFloat, hbits, ← hzero, hself]
  · have hpos := Nat.pos_of_ne_zero hzero
    have hmantissa := (Binary.ofBits_ofBits (Binary.magnitudeBits x)).mantissa_pos hpos
    have hback := readsBack_shortest jsonStyle.tie hmantissa
    have hdigits := Binary.digits_pos_of_readsBack hmantissa hback
    refine ⟨_, _, by rw [if_neg hzero], readsAs_layout hdigits, ?_⟩
    intro d hd
    rw [← Binary.readsBack_congr hd] at hback
    rw [toFloat, Binary.nearestBits_of_readsBack hpos hlt hback, hself]

theorem readNumber?_floatChars {x : Float} (h : x.isFinite = true) (hrest : StopsAt goesOn rest) :
    ∃ t, readNumber? (floatChars x ++ rest) = some (t, rest) ∧ t.value? = some (.float x) := by
  obtain ⟨s, v, hchars, hreads, hfloat⟩ := exists_readsAs_chars h
  obtain ⟨t, hread, hnegative, hfloating, hvalue⟩ := hreads (Binary.isNegative x) rest hrest
  refine ⟨t, ?_, ?_⟩
  · rw [floatChars, if_pos h, hchars]
    cases hsign : Binary.isNegative x with
    | false =>
      rw [hsign] at hread
      exact readNumber?_of_readDigits? hread
    | true =>
      rw [hsign] at hread
      exact hread
  · have hself := hfloat t.decimal hvalue
    rw [← hnegative] at hself
    rw [NumberText.value?_eq_float hfloating (hself ▸ h), hself]

end Json

end TableCleaner
