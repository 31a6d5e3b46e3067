import TableCleaner.Proofs.Operation.Fill
import TableCleaner.Proofs.Operation.Numeric
import TableCleaner.Proofs.Stats.Quantile
import TableCleaner.Proofs.Stats.Spread

/-!
# Numbers that statistics keep

A mean or a median fills a column, and a scaled column has a number wherever its source has one, as
long as the sums and differences on the way are finite. They are finite for all numbers below
`2 ^ 970`. Only the quotient of robust scaling can leave the range then: the quartiles may lie close
together and a number far away.
-/

namespace TableCleaner

open Binary

/-- The numeric reading of a column. -/
def Column.view (c : Column) : List (Option Float) := Stats.view c.cells

def Column.numbers (c : Column) : List Float := Stats.present c.view

/-- The column has two different numbers. -/
def Column.Varied (c : Column) : Prop :=
  ∃ a ∈ c.numbers, ∃ b ∈ c.numbers, signedValue a ≠ signedValue b

instance : DecidablePred Column.Varied := fun c =>
  inferInstanceAs (Decidable (∃ a ∈ c.numbers, ∃ b ∈ c.numbers, signedValue a ≠ signedValue b))

/-- The column has a number at the row. -/
def Table.HasNumber (t : Table) (name : String) (row : Nat) : Prop :=
  ∃ y, t.cell? name row = some (.number y)

namespace Column

variable {c : Column} {x : Float}

theorem mem_numbers : x ∈ c.numbers ↔ ∃ d ∈ c.cells, d.number? = some x := by
  simp [numbers, view, Stats.present, Stats.view]

theorem isFinite_of_mem_numbers (h : x ∈ c.numbers) : x.isFinite = true := by
  obtain ⟨d, -, hd⟩ := mem_numbers.mp h
  exact Cell.isFinite_number? hd

theorem length_numbers_le (c : Column) : c.numbers.length ≤ c.cells.length := by
  unfold numbers view Stats.present Stats.view
  exact (List.length_filterMap_le _ _).trans (List.length_map _).le

theorem Varied.two_le_length (h : c.Varied) : 2 ≤ c.numbers.length := by
  obtain ⟨a, ha, b, hb, hne⟩ := h
  match hnumbers : c.numbers with
  | [] => simp [hnumbers] at ha
  | [v] =>
    rw [hnumbers, List.mem_singleton] at ha hb
    exact absurd (by rw [ha, hb]) hne
  | _ :: _ :: _ => simp

end Column

/-! ## Fills -/

theorem Stats.mean?_eq {view : List (Option Float)} (hmany : 2 ≤ (present view).length) :
    mean? view = some (average (present view)) := by
  have hne : (present view).isEmpty = false := by
    rw [List.isEmpty_eq_false_iff]
    exact List.ne_nil_of_length_pos (by omega)
  simp only [mean?, hne]
  rfl

namespace Operation

variable {t : Table} {c : Column} {value : Option Json}

theorem isFilled_of_finite (hc : c ∈ t.columns) (hname : c.name ≠ "") {strategy : ImputeStrategy}
    {y : Float} (hfill : Table.fill? c.cells value strategy = some (Cell.ofFloat y))
    (hy : y.isFinite = true) :
    ∃ fill, t.IsFilled c.name fill ((impute c.name (some strategy) value).apply t) := by
  have hcell : Cell.ofFloat y ≠ .null := by
    rw [Cell.ofFloat, if_pos hy]
    exact Cell.noConfusion
  rw [impute_of_fill? hc hname strategy hfill, if_neg hcell]
  exact ⟨_, Table.isFilled_mapCells c.name hcell⟩

theorem impute_mean_isFilled (hc : c ∈ t.columns) (hname : c.name ≠ "")
    (hmany : 2 ≤ c.numbers.length) (hlt : c.numbers.length < 2 ^ 64)
    (hsum : (Stats.sum c.numbers).isFinite = true) :
    ∃ fill, t.IsFilled c.name fill ((impute c.name (some .mean) value).apply t) := by
  refine isFilled_of_finite hc hname ?_ (Stats.average_le hsum (by omega) hlt).1
  change (Stats.mean? c.view).map Cell.ofFloat = _
  rw [Stats.mean?_eq hmany, Option.map_some]
  rfl

theorem impute_median_isFilled (hc : c ∈ t.columns) (hname : c.name ≠ "")
    (hmany : 2 ≤ c.numbers.length) (hlt : c.numbers.length < 2 ^ 64)
    (hnear : Stats.Near c.view 0.5) :
    ∃ fill, t.IsFilled c.name fill ((impute c.name (some .median) value).apply t) := by
  obtain ⟨y, hmedian, hy, -⟩ :=
    hnear.exists_quantile? .two hmany hlt fun v hv => Column.isFinite_of_mem_numbers hv
  refine isFilled_of_finite hc hname ?_ hy
  change (Stats.quantile? c.view 0.5).map Cell.ofFloat = _
  rw [hmedian, Option.map_some]

end Operation

/-! ## Scales -/

namespace Scaler

/-- The sums and differences that the center and the unit of a scale are made of are finite. -/
def InRange (view : List (Option Float)) : Scaler → Prop
  | .minMax => True
  | .standard => (Stats.sum (Stats.present view)).isFinite = true
  | .robust => Stats.Near view 0.25 ∧ Stats.Near view 0.5 ∧ Stats.Near view 0.75

/-- The quotient by the unit does not leave the finite range. Only the robust scale has to ask, and
not for an infinite unit. -/
def Fits (x unit : Float) : Scaler → Prop
  | .minMax | .standard => True
  | .robust => unit.isFinite = true → |signedValue x / signedValue unit| < overflow

end Scaler

namespace Stats

/-- The number is not beyond all the numbers and their sum. -/
def Central (view : List (Option Float)) (m : Float) : Prop :=
  m.isFinite = true ∧ ∀ r, |signedValue (sum (present view))| ≤ r →
    (∀ v ∈ present view, |signedValue v| ≤ r) → |signedValue m| ≤ r

/-- A scale takes a center from every number, and the quotient by its unit is finite if it fits. -/
def Scales (view : List (Option Float)) (scaler : Scaler) (center unit : Float) : Prop :=
  Table.scale? view scaler = some (center, unit) ∧ Central view center ∧
    ∀ x ∈ present view, (x - center).isFinite = true →
      (((x - center) / unit).isFinite = true ↔ scaler.Fits (x - center) unit)

section

variable {view : List (Option Float)} {a b : Float}
  (hvalues : ∀ v ∈ present view, v.isFinite = true) (hmany : 2 ≤ (present view).length)
  (hlt : (present view).length < 2 ^ 64)

include hvalues

theorem exists_scales_minMax (ha : a ∈ present view) (hb : b ∈ present view)
    (hne : signedValue a ≠ signedValue b) : ∃ center unit, Scales view .minMax center unit := by
  obtain ⟨low, hmin, hlow, hleast⟩ := exists_min? hvalues ha
  obtain ⟨high, hmax, hhigh, hgreatest⟩ := exists_max? hvalues ha
  have hless : signedValue low < signedValue high := by
    rcases hne.lt_or_gt with h | h
    · exact (hleast a ha).trans_lt (h.trans_le (hgreatest b hb))
    · exact (hleast b hb).trans_lt (h.trans_le (hgreatest a ha))
  have hlow' := hvalues low hlow
  have hhigh' := hvalues high hhigh
  refine ⟨low, high - low, ?_, ⟨hlow', fun r _ hall => hall low hlow⟩, fun x hx hdiff => ?_⟩
  · have horder : low < high := (lt_iff hlow' hhigh').mpr hless
    simp only [Table.scale?, hmin, hmax, Option.bind_eq_bind, Option.bind_some, if_pos horder]
  · exact iff_of_true (isFinite_div_range hlow' hhigh' (hvalues x hx) hdiff hless (hleast x hx)
      (hgreatest x hx)) trivial

include hmany hlt

theorem exists_scales_standard (hrange : Scaler.standard.InRange view) :
    ∃ center unit, Scales view .standard center unit := by
  obtain ⟨hmean, hle⟩ := average_le hrange (by omega) hlt
  obtain ⟨d, hdeviation, hd, hgreat⟩ := sampleDeviation?_bounds hvalues hmany hlt hmean
  refine ⟨average (present view), Table.divisor d, ?_, ⟨hmean, fun r hsum _ => hle.trans hsum⟩,
    fun x hx hdiff => ?_⟩
  · have hmean? : mean? view = some (average (present view)) := mean?_eq hmany
    simp only [Table.scale?, hmean?, hdeviation, Option.bind_eq_bind, Option.bind_some]
    rfl
  · exact iff_of_true (isFinite_div_deviation hdiff hd (hgreat x hx hdiff)) trivial

theorem exists_scales_robust (hrange : Scaler.robust.InRange view) :
    ∃ center unit, Scales view .robust center unit := by
  obtain ⟨hnear₁, hnear₂, hnear₃⟩ := hrange
  obtain ⟨low, hquartile₁, hlow, -⟩ := hnear₁.exists_quantile? .one hmany hlt hvalues
  obtain ⟨m, hmedian, hm, v, hv, hle⟩ := hnear₂.exists_quantile? .two hmany hlt hvalues
  obtain ⟨high, hquartile₃, hhigh, -⟩ := hnear₃.exists_quantile? .three hmany hlt hvalues
  refine ⟨m, Table.divisor (high - low), ?_, ⟨hm, fun r _ hall => hle.trans (hall v hv)⟩,
    fun x hx hdiff => isFinite_div_divisor_iff hdiff (isRounded_sub hhigh hlow)⟩
  simp only [Table.scale?, median?, hquartile₁, hmedian, hquartile₃, Option.bind_eq_bind,
    Option.bind_some]
  rfl

theorem exists_scales (ha : a ∈ present view) (hb : b ∈ present view)
    (hne : signedValue a ≠ signedValue b) {scaler : Scaler} (hrange : scaler.InRange view) :
    ∃ center unit, Scales view scaler center unit := by
  cases scaler with
  | minMax => exact exists_scales_minMax hvalues ha hb hne
  | standard => exact exists_scales_standard hvalues hmany hlt hrange
  | robust => exact exists_scales_robust hvalues hmany hlt hrange

end

theorem inRange_of_moderate {view : List (Option Float)} (hmany : 2 ≤ (present view).length)
    (hlt : (present view).length < 2 ^ 64) (hvalues : ∀ v ∈ present view, Moderate v)
    (scaler : Scaler) : scaler.InRange view := by
  cases scaler with
  | minMax => trivial
  | standard => exact (sum_le hvalues).1
  | robust =>
    exact ⟨near_of_moderate .one hmany hlt hvalues, near_of_moderate .two hmany hlt hvalues,
      near_of_moderate .three hmany hlt hvalues⟩

theorem isFinite_sub_of_central {view : List (Option Float)} {m x : Float}
    (hvalues : ∀ v ∈ present view, Moderate v) (hm : Central view m) (hx : x ∈ present view) :
    (x - m).isFinite = true :=
  (hvalues x hx).isFinite_sub hm.1 (hm.2 _ (sum_le hvalues).2 fun v hv => (hvalues v hv).le)

end Stats

namespace Table

variable {t : Table} {c : Column} {scaler : Scaler} {center unit x : Float} {row : Nat}

theorem cell?_scale (hc : c ∈ t.columns) (hname : c.name ≠ "")
    (hscale : scale? c.view scaler = some (center, unit))
    (hrow : c.cells[row]?.bind Cell.number? = some x) :
    (t.scale scaler c.name).cell? (c.name ++ scaler.suffix) row =
      some (Cell.ofFloat ((x - center) / unit)) := by
  obtain ⟨d, hd, hx⟩ := Option.bind_eq_some_iff.mp hrow
  rw [cell?, column?_scale (cells?_of_mem hc hname), Option.bind_some, scaledCells]
  change scale? (Stats.view c.cells) scaler = _ at hscale
  simp only [hscale, List.getElem?_map, hd, Option.map_some, scaledCell, hx]

theorem hasNumber_scale_iff (hc : c ∈ t.columns) (hname : c.name ≠ "")
    (hscale : scale? c.view scaler = some (center, unit))
    (hrow : c.cells[row]?.bind Cell.number? = some x) :
    (t.scale scaler c.name).HasNumber (c.name ++ scaler.suffix) row ↔
      ((x - center) / unit).isFinite = true := by
  rw [HasNumber, cell?_scale hc hname hscale hrow, Cell.ofFloat]
  constructor
  · rintro ⟨y, hy⟩
    by_contra hinfinite
    rw [if_neg hinfinite] at hy
    cases hy
  · intro hfinite
    exact ⟨_, by rw [if_pos hfinite]⟩

end Table

namespace Operation

/-- **Statistics keep numbers.** In a named column with two different numbers, the mean leaves no
empty cell if the sum of the numbers is finite, and the median if the difference of the two numbers
around it is. If the sums and differences that a scale is made of are finite, it has a number at
every row with a number whose distance from the center is finite; the robust scale has one there
exactly when the quotient does not leave the finite range. Below `2 ^ 970` all these sums and
differences are finite. -/
theorem statistics_keep_numbers (t : Table) (hrows : t.height < 2 ^ 64) {c : Column}
    (hc : c ∈ t.columns) (hname : c.name ≠ "") (hvaried : c.Varied) (value : Option Json) :
    ((Stats.sum c.numbers).isFinite = true →
      ∃ fill, t.IsFilled c.name fill ((impute c.name (some .mean) value).apply t)) ∧
    (Stats.Near c.view 0.5 →
      ∃ fill, t.IsFilled c.name fill ((impute c.name (some .median) value).apply t)) ∧
    (∀ scaler : Scaler, scaler.InRange c.view →
      ∃ center unit, Table.scale? c.view scaler = some (center, unit) ∧
        ∀ row x, c.cells[row]?.bind Cell.number? = some x → (x - center).isFinite = true →
          (((scale scaler c.name).apply t).HasNumber (c.name ++ scaler.suffix) row ↔
            scaler.Fits (x - center) unit)) ∧
    ((∀ v ∈ c.numbers, |signedValue v| < 2 ^ (970 : ℤ)) →
      (Stats.sum c.numbers).isFinite = true ∧ Stats.Near c.view 0.5 ∧
      ∀ scaler : Scaler, scaler.InRange c.view ∧
        ∀ center unit, Table.scale? c.view scaler = some (center, unit) →
          ∀ x ∈ c.numbers, (x - center).isFinite = true) := by
  have hvalues : ∀ v ∈ c.numbers, v.isFinite = true := fun _ => Column.isFinite_of_mem_numbers
  have hmany := hvaried.two_le_length
  have hlt : c.numbers.length < 2 ^ 64 := by
    have := c.length_numbers_le
    rw [t.length_cells c hc] at this
    omega
  obtain ⟨a, ha, b, hb, hne⟩ := hvaried
  refine ⟨impute_mean_isFilled hc hname hmany hlt, impute_median_isFilled hc hname hmany hlt,
    fun scaler hrange => ?_, fun hsmall => ?_⟩
  · obtain ⟨center, unit, hscale, -, hquotient⟩ :=
      Stats.exists_scales hvalues hmany hlt ha hb hne hrange
    refine ⟨center, unit, hscale, fun row x hrow hdiff => ?_⟩
    obtain ⟨d, hd, hx⟩ := Option.bind_eq_some_iff.mp hrow
    have hmem : x ∈ c.numbers := Column.mem_numbers.mpr ⟨d, List.mem_of_getElem? hd, hx⟩
    exact (Table.hasNumber_scale_iff hc hname hscale hrow).trans (hquotient x hmem hdiff)
  · have hmoderate : ∀ v ∈ c.numbers, Stats.Moderate v := fun v hv => ⟨hvalues v hv, hsmall v hv⟩
    have hrange := Stats.inRange_of_moderate hmany hlt hmoderate
    refine ⟨hrange .standard, (hrange .robust).2.1, fun scaler => ⟨hrange scaler, ?_⟩⟩
    intro center unit hscale x hx
    obtain ⟨center', unit', hscale', hcentral, -⟩ :=
      Stats.exists_scales hvalues hmany hlt ha hb hne (hrange scaler)
    obtain ⟨rfl, rfl⟩ := Prod.mk.inj (Option.some.inj (hscale.symm.trans hscale'))
    exact Stats.isFinite_sub_of_central hmoderate hcentral hx

theorem statistics_keep_numbers_small :
    let c : Column := ⟨"v", [.number 1.0, .null, .number 3.0, .text "4"]⟩
    let t : Table := ⟨[c], 4, by decide, by decide⟩
    t.height < 2 ^ 64 ∧ c ∈ t.columns ∧ c.name ≠ "" ∧ c.Varied ∧
      (∃ fill, t.IsFilled "v" fill ((impute "v" (some .mean) none).apply t)) ∧
      (∃ fill, t.IsFilled "v" fill ((impute "v" (some .median) none).apply t)) ∧
      ∀ scaler : Scaler, ∀ row ∈ [0, 2, 3],
        ((scale scaler "v").apply t).HasNumber ("v" ++ scaler.suffix) row := by
  intro c t
  have hvaried : c.Varied := by decide +kernel
  obtain ⟨hmean, hmedian, hscale, hmoderate⟩ := statistics_keep_numbers t (by decide)
    (c := c) List.mem_cons_self (by decide) hvaried none
  obtain ⟨hsum, hnear, hrange⟩ := hmoderate (by decide +kernel)
  refine ⟨by decide, List.mem_cons_self, by decide, hvaried, hmean hsum, hmedian hnear,
    fun scaler row hrow => ?_⟩
  obtain ⟨center, unit, hfound, hrows⟩ := hscale scaler (hrange scaler).1
  obtain ⟨x, hx, hnumber⟩ : ∃ x ∈ c.numbers, c.cells[row]?.bind Cell.number? = some x := by
    revert row
    decide +kernel
  refine (hrows row x hnumber ((hrange scaler).2 center unit hfound x hx)).mpr ?_
  cases scaler with
  | minMax => trivial
  | standard => trivial
  | robust =>
    have hsorted : (Stats.present c.view).mergeSort (fun a b => decide (a ≤ b)) =
        Stats.present c.view := List.mergeSort_of_pairwise (by decide +kernel)
    have hrobust : Table.scale? c.view .robust = some (3.0, 1.5) := by
      simp only [Table.scale?, Stats.median?, Stats.quantile?, hsorted]
      decide +kernel
    obtain ⟨rfl, rfl⟩ := Prod.mk.inj (Option.some.inj (hrobust.symm.trans hfound))
    have hquotients : ∀ x ∈ c.numbers,
        |signedValue (x - 3.0) / signedValue 1.5| < overflow := by decide +kernel
    exact fun _ => hquotients x hx

/-- No column is named by the empty name. A sum, a difference around the median and distances from
the least number and from the mean leave the finite range, and so does a great number divided by
the distance of close quartiles. -/
theorem statistics_lose_numbers :
    let table (c : Column) : Table := ⟨[c], c.cells.length, by simp, by simp⟩
    let unnamed : Column := ⟨"", [.int 1, .int 2, .null]⟩
    let great : Column := ⟨"v", [.number 1e308, .number 1.5e308, .null]⟩
    let wide : Column := ⟨"v", [.number (-1.5e308), .number 1.5e308, .null]⟩
    let far : Column := ⟨"v", [.number 1.5e308, .number (-1.5e308), .number 1.5e308]⟩
    let close : Column :=
      ⟨"v", [.number 1e-300, .number 2e-300, .number 3e-300, .number 4e-300, .number 1e300]⟩
    (unnamed.Varied ∧
      (impute "" (some .mean) none).apply (table unnamed) = table unnamed) ∧
    (great.Varied ∧ (impute "v" (some .mean) none).apply (table great) = table great) ∧
    (wide.Varied ∧ (impute "v" (some .median) none).apply (table wide) = table wide ∧
      ((scale .minMax "v").apply (table wide)).cell? "v_minmax" 1 = some .null) ∧
    (far.Varied ∧ ((scale .standard "v").apply (table far)).cell? "v_std" 1 = some .null) ∧
    close.Varied ∧ ((scale .robust "v").apply (table close)).cell? "v_robust" 4 = some .null := by
  intro table unnamed great wide far close
  refine ⟨by decide +kernel, by decide +kernel, ⟨by decide +kernel, ?median, by decide +kernel⟩,
    by decide +kernel, by decide +kernel, ?robust⟩
  case median =>
    have hsorted : (Stats.present wide.view).mergeSort (fun a b => decide (a ≤ b)) =
        Stats.present wide.view := List.mergeSort_of_pairwise (by decide +kernel)
    have hmedian : Table.fill? wide.cells none .median = some .null := by
      change (Stats.quantile? wide.view 0.5).map Cell.ofFloat = _
      simp only [Stats.quantile?, hsorted]
      decide +kernel
    exact (impute_of_fill? (t := table wide) List.mem_cons_self (by decide) .median hmedian).trans
      (if_pos rfl)
  case robust =>
    have hsorted : (Stats.present close.view).mergeSort (fun a b => decide (a ≤ b)) =
        Stats.present close.view := List.mergeSort_of_pairwise (by decide +kernel)
    have hrobust : Table.scale? close.view .robust = some (3e-300, 2e-300) := by
      simp only [Table.scale?, Stats.median?, Stats.quantile?, hsorted]
      decide +kernel
    have hnumber : close.cells[4]?.bind Cell.number? = some 1e300 := by decide +kernel
    have hcell := Table.cell?_scale (t := table close) List.mem_cons_self (by decide) hrobust hnumber
    refine hcell.trans ?_
    decide +kernel

end Operation

end TableCleaner
