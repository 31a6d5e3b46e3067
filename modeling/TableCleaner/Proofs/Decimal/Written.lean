import TableCleaner.Decimal.Reading
import TableCleaner.Decimal.Style
import TableCleaner.Proofs.Decimal.Value

/-!
# Written decimals

A plain text of a number is a run of digits with at most one point in it. However the digits of a
decimal are laid out around the point, reading the text gives a decimal of the same value.
-/

namespace TableCleaner.Decimal

/-! ## Digits -/

/-- A run of digits, with one at least. -/
structure IsRun (ds : List Char) : Prop where
  ne_nil : ds ≠ []
  digits : ∀ c ∈ ds, isDigit c = true

theorem digitsValue_append (ds fs : List Char) :
    digitsValue (ds ++ fs) = 10 ^ fs.length * digitsValue ds + digitsValue fs := by
  change Nat.ofDigitChars 10 (ds ++ fs) 0 = _
  rw [Nat.ofDigitChars_append, Nat.ofDigitChars_eq_ofDigitChars_zero]
  rfl

theorem digitsValue_zeros (n : Nat) : digitsValue (List.replicate n '0') = 0 :=
  Nat.ofDigitChars_replicate_zero

theorem digitsValue_toDigits (n : Nat) : digitsValue (Nat.toDigits 10 n) = n :=
  Nat.ofDigitChars_ten_toDigits

theorem digitsValue_lt {ds : List Char} (h : ∀ c ∈ ds, isDigit c = true) :
    digitsValue ds < 10 ^ ds.length := by
  induction ds using List.reverseRecOn with
  | nil => decide
  | append_singleton ds c ih =>
    have hfront := ih fun d hd => h d (List.mem_append_left _ hd)
    have hlast : digitsValue [c] < 10 := by
      have hdigit := h c (List.mem_append_right _ List.mem_cons_self)
      simp only [isDigit, Bool.and_eq_true, decide_eq_true_eq] at hdigit
      have hnine : c.toNat ≤ '9'.toNat := hdigit.2
      change 10 * 0 + (c.toNat - 48) < 10
      change c.toNat ≤ 57 at hnine
      omega
    have happend := digitsValue_append ds [c]
    rw [List.length_singleton, Nat.pow_one] at happend
    rw [happend, List.length_append, List.length_singleton, Nat.pow_succ]
    omega

theorem isRun_toDigits (n : Nat) : IsRun (Nat.toDigits 10 n) :=
  ⟨Nat.toDigits_ne_nil, fun _ hc => Nat.isDigit_of_mem_toDigits (by decide) (by decide) hc⟩

theorem isDigit_of_mem_zeros {n : Nat} {c : Char} (h : c ∈ List.replicate n '0') :
    isDigit c = true := by
  rw [List.eq_of_mem_replicate h]
  rfl

theorem count_of_digits {ds : List Char} (h : ∀ c ∈ ds, isDigit c = true) {c : Char}
    (hc : isDigit c = false) : ds.count c = 0 := by
  rw [List.count_eq_zero]
  intro hmem
  rw [h c hmem] at hc
  cases hc

theorem IsRun.append {ds fs : List Char} (h : IsRun ds) (hf : ∀ c ∈ fs, isDigit c = true) :
    IsRun (ds ++ fs) := by
  refine ⟨by simp [h.ne_nil], fun c hc => ?_⟩
  rcases List.mem_append.mp hc with hc | hc
  · exact h.digits c hc
  · exact hf c hc

/-! ## Plain texts -/

/-- The text is digits with at most one point, and it stands for the decimal. -/
inductive IsPlain : List Char → Decimal → Prop
  | whole {ds : List Char} (h : IsRun ds) : IsPlain ds ⟨digitsValue ds, 0⟩
  | point {ds fs : List Char} (h : IsRun ds) (hf : ∀ c ∈ fs, isDigit c = true) :
      IsPlain (ds ++ '.' :: fs) ⟨digitsValue (ds ++ fs), -fs.length⟩

variable {s ds : List Char} {d : Decimal}

theorem IsRun.takeWhile_append (h : IsRun ds) (rest : List Char) :
    (ds ++ rest).takeWhile isDigit = ds ++ rest.takeWhile isDigit :=
  List.takeWhile_append_of_pos h.digits

theorem IsRun.dropWhile_append (h : IsRun ds) (rest : List Char) :
    (ds ++ rest).dropWhile isDigit = rest.dropWhile isDigit :=
  List.dropWhile_append_of_pos h.digits

theorem IsPlain.readUnsigned? (h : IsPlain s d) : readUnsigned? s = some d := by
  cases h with
  | whole h =>
    have htake := h.takeWhile_append []
    have hdrop := h.dropWhile_append []
    simp only [List.append_nil, List.takeWhile_nil, List.dropWhile_nil] at htake hdrop
    unfold Decimal.readUnsigned?
    simp [htake, hdrop, h.ne_nil]
  | @point ds fs h hf =>
    have htake := h.takeWhile_append ('.' :: fs)
    have hdrop := h.dropWhile_append ('.' :: fs)
    rw [List.takeWhile_cons_of_neg (by decide), List.append_nil] at htake
    rw [List.dropWhile_cons_of_neg (by decide)] at hdrop
    unfold Decimal.readUnsigned?
    simp [htake, hdrop, h.ne_nil, List.takeWhile_eq_self_iff.mpr hf,
      List.dropWhile_eq_nil_iff.mpr hf]

theorem IsRun.readUnsigned?_append (h : IsRun ds) {c : Char} (hdigit : isDigit c = false)
    (hpoint : c ≠ '.') (hexp : c ≠ 'e' ∧ c ≠ 'E') (rest : List Char) :
    readUnsigned? (ds ++ c :: rest) = none := by
  have htake := h.takeWhile_append (c :: rest)
  have hdrop := h.dropWhile_append (c :: rest)
  rw [List.takeWhile_cons_of_neg (by simp [hdigit]), List.append_nil] at htake
  rw [List.dropWhile_cons_of_neg (by simp [hdigit])] at hdrop
  unfold Decimal.readUnsigned?
  simp [htake, hdrop, h.ne_nil, hpoint, hexp]

theorem IsPlain.exists_cons (h : IsPlain s d) : ∃ c r, s = c :: r ∧ isDigit c = true := by
  cases h with
  | whole h | point h =>
    obtain ⟨c, r, rfl⟩ := List.exists_cons_of_ne_nil h.ne_nil
    exact ⟨c, _, rfl, h.digits c List.mem_cons_self⟩

theorem IsPlain.mem (h : IsPlain s d) {c : Char} (hc : c ∈ s) : isDigit c = true ∨ c = '.' := by
  cases h with
  | whole h => exact .inl (h.digits c hc)
  | point h hf =>
    rcases List.mem_append.mp hc with hc | hc
    · exact .inl (h.digits c hc)
    · rcases List.mem_cons.mp hc with hc | hc
      · exact .inr hc
      · exact .inl (hf c hc)

theorem exists_isPlain_positional (n : Nat) (e : Int) :
    ∃ d, IsPlain (positional false (Nat.toDigits 10 n) e) d ∧ d.value = (⟨n, e⟩ : Decimal).value := by
  have hrun := isRun_toDigits n
  have hvalue := digitsValue_toDigits n
  unfold positional
  extract_lets point
  have hpoint : point = (Nat.toDigits 10 n).length + e := rfl
  split
  · rename_i he
    obtain ⟨k, rfl⟩ := Int.eq_ofNat_of_zero_le he
    refine ⟨_, by simpa using .whole (hrun.append fun c => isDigit_of_mem_zeros), ?_⟩
    simp [value, digitsValue_append, digitsValue_zeros, hvalue, mul_comm]
  split
  · -- The point stands among the digits.
    have hfirst : IsRun ((Nat.toDigits 10 n).take point.toNat) := by
      refine ⟨?_, fun c hc => hrun.digits c (List.mem_of_mem_take hc)⟩
      rw [ne_eq, List.take_eq_nil_iff, not_or]
      exact ⟨by omega, hrun.ne_nil⟩
    refine ⟨_, .point hfirst fun c hc => hrun.digits c (List.mem_of_mem_drop hc), ?_⟩
    have hexp : -((((Nat.toDigits 10 n).drop point.toNat).length : Nat) : Int) = e := by
      rw [List.length_drop]
      omega
    rw [List.take_append_drop, hvalue, hexp]
  · -- It stands before all of them, with zeros in between.
    have hzero : IsRun ['0'] := isRun_toDigits 0
    have hrest : ∀ c ∈ List.replicate (-point).toNat '0' ++ Nat.toDigits 10 n, isDigit c = true := by
      intro c hc
      rcases List.mem_append.mp hc with hc | hc
      · exact isDigit_of_mem_zeros hc
      · exact hrun.digits c hc
    have hdigits : digitsValue (['0'] ++ (List.replicate (-point).toNat '0' ++ Nat.toDigits 10 n)) =
        n := by
      have hnone : digitsValue ['0'] = 0 := rfl
      simp only [digitsValue_append, digitsValue_zeros, hvalue, hnone, Nat.mul_zero, Nat.zero_add]
    have hexp : -(((List.replicate (-point).toNat '0' ++ Nat.toDigits 10 n).length : Nat) : Int) =
        e := by
      rw [List.length_append, List.length_replicate]
      omega
    have hplain := IsPlain.point hzero hrest
    rw [hdigits, hexp] at hplain
    exact ⟨_, hplain, rfl⟩

/-! ## Signs -/

theorem Style.chars_of_isFinite (style : Style) {x : Float} (hfinite : x.isFinite = true)
    (hzero : ¬ (x == 0.0) = true) :
    style.chars x = if Binary.isNegative x then
      '-' :: style.layout (shortest style.tie (Binary.ofBits (Binary.magnitudeBits x)))
      else style.layout (shortest style.tie (Binary.ofBits (Binary.magnitudeBits x))) := by
  have hlt := Binary.isFinite_iff.mp hfinite
  rw [Binary.beq_zero_iff] at hzero
  unfold Style.chars
  rw [if_neg (by rw [Binary.isNaN_iff]; omega)]
  simp only [if_neg hlt.ne, if_neg hzero]

theorem toLower_of_isDigit {c : Char} (h : isDigit c = true) : c.toLower = c := by
  unfold isDigit at h
  simp only [Bool.and_eq_true, decide_eq_true_eq] at h
  unfold Char.toLower
  rw [dif_neg]
  rintro ⟨hupper, -⟩
  exact absurd (UInt32.le_trans hupper h.2) (by decide)

theorem read?_append {sign : List Char} (hsign : sign = [] ∨ sign = ['-'] ∨ sign = ['+']) {c : Char}
    (hc : isDigit c = true) (s : List Char) :
    read? (sign ++ c :: s) = (readUnsigned? (c :: s)).map (.number (sign == ['-'])) := by
  have hne : ∀ (a : Char) (w : List Char), isDigit a = false →
      String.ofList ((c :: s).map Char.toLower) ≠ String.ofList (a :: w) := by
    intro a w ha h
    have hcons := String.ofList_injective h
    rw [List.map_cons, toLower_of_isDigit hc] at hcons
    rw [(List.cons.inj hcons).1, ha] at hc
    cases hc
  have hinf : String.ofList ((c :: s).map Char.toLower) ≠ "inf" :=
    hne 'i' ['n', 'f'] rfl
  have hinfinity : String.ofList ((c :: s).map Char.toLower) ≠ "infinity" :=
    hne 'i' ['n', 'f', 'i', 'n', 'i', 't', 'y'] rfl
  have hnan : String.ofList ((c :: s).map Char.toLower) ≠ "nan" :=
    hne 'n' ['a', 'n'] rfl
  have hminus : c ≠ '-' := by
    rintro rfl
    cases hc
  have hplus : c ≠ '+' := by
    rintro rfl
    cases hc
  -- The three words are ruled out by the facts above.
  unfold read?
  rcases hsign with rfl | rfl | rfl
  · simp only [List.nil_append, List.cons.injEq, hminus, hplus, false_and, imp_self, implies_true]
    rfl
  · simp only [List.singleton_append]
    rfl
  · simp only [List.singleton_append]
    rfl

end TableCleaner.Decimal
