import TableCleaner.Calendar.Reading
import TableCleaner.Proofs.Text.Trim

/-!
# The marks of a date

A text that is read by a layout holds all the fixed characters of the layout, as often as the layout
has them, and letters for the name of a month. A timestamp has two minus signs, two colons, and the
mark of its offset. So texts that lack these marks are no dates.
-/

namespace TableCleaner

namespace Layout

variable {s r : List Char}

/-! ## What is left is an end of the text -/

theorem suffix_of_map {α β : Type} {p : Option (α × List Char)} {f : α × List Char → β} {b : β}
    (hp : ∀ {a q}, p = some (a, q) → q <:+ s) (h : (p.map fun x => (f x, x.2)) = some (b, r)) :
    r <:+ s := by
  obtain ⟨⟨a, q⟩, hread, heq⟩ := Option.map_eq_some_iff.mp h
  cases heq
  exact hp hread

theorem readDigits?_suffix {most n : Nat} (h : readDigits? most s = some (n, r)) : r <:+ s := by
  unfold readDigits? at h
  extract_lets ds at h
  split at h
  · simp at h
  · cases h
    exact List.drop_suffix _ _

theorem readField?_suffix {n : Nat} (h : readField? s = some (n, r)) : r <:+ s :=
  (readDigits?_suffix h).trans (Text.trimStart_suffix s)

theorem readYear?_suffix {year : Int} (h : readYear? s = some (year, r)) : r <:+ s := by
  refine List.IsSuffix.trans ?_ (Text.trimStart_suffix s)
  unfold readYear? at h
  split at h
  · rename_i hs
    rw [hs]
    exact (suffix_of_map readDigits?_suffix h).trans (List.suffix_cons _ _)
  · rename_i hs
    rw [hs]
    exact (suffix_of_map readDigits?_suffix h).trans (List.suffix_cons _ _)
  · exact suffix_of_map readDigits?_suffix h

theorem readFraction?_suffix {n : Nat} (h : readFraction? s = some (n, r)) : r <:+ s := by
  unfold readFraction? at h
  split at h
  · extract_lets ds at h
    split at h
    · simp at h
    · cases h
      exact (List.dropWhile_suffix _).trans (List.suffix_cons _ _)
  · cases h
    exact List.suffix_refl s

theorem readExactly?_suffix {count n : Nat} (h : readExactly? count s = some (n, r)) : r <:+ s := by
  unfold readExactly? at h
  extract_lets ds at h
  split at h
  · cases h
    exact List.drop_suffix _ _
  · simp at h

theorem dropWord?_suffix {word : List Char} (h : dropWord? word s = some r) : r <:+ s := by
  unfold dropWord? at h
  split at h
  · cases h
    exact List.drop_suffix _ _
  · simp at h

theorem readMark?_suffix (h : readMark? s = some r) : r <:+ s := by
  unfold readMark? at h
  split at h
  · split at h
    · cases h
      exact List.suffix_cons _ _
    · simp at h
  · simp at h

theorem exists_of_readShortName? {month : Nat} (h : readShortName? s = some (month, r)) :
    ∃ names ∈ monthNames, dropWord? names.1 s = some r := by
  unfold readShortName? at h
  obtain ⟨⟨names, i⟩, hmem, hread⟩ := List.exists_of_findSome?_eq_some h
  obtain ⟨r', hr, heq⟩ := Option.map_eq_some_iff.mp hread
  cases heq
  exact ⟨names, List.fst_mem_of_mem_zipIdx hmem, hr⟩

theorem readShortName?_suffix {month : Nat} (h : readShortName? s = some (month, r)) : r <:+ s := by
  obtain ⟨_, _, hread⟩ := exists_of_readShortName? h
  exact dropWord?_suffix hread

theorem readName?_suffix {month : Nat} (h : readName? s = some (month, r)) : r <:+ s := by
  unfold readName? at h
  obtain ⟨⟨m, r'⟩, hread, heq⟩ := Option.map_eq_some_iff.mp h
  have hshort := readShortName?_suffix hread
  simp only [Prod.mk.injEq] at heq
  obtain ⟨-, rfl⟩ := heq
  cases hrest : dropWord? (monthNames.getD (m - 1) ([], [])).2 r' with
  | none => exact hshort
  | some r'' => exact (dropWord?_suffix hrest).trans hshort

theorem readOffset?_suffix {needed : Bool} {seconds : Int}
    (h : readOffset? needed s = some (seconds, r)) : r <:+ s := by
  refine List.IsSuffix.trans ?_ (Text.trimStart_suffix s)
  unfold readOffset? at h
  split at h
  · simp at h
  · rename_i c rest hs
    rw [hs]
    refine List.IsSuffix.trans ?_ (List.suffix_cons c rest)
    split at h
    · cases h
      exact List.suffix_refl _
    · split at h
      · obtain ⟨⟨hours, r₁⟩, hhours, h⟩ := Option.bind_eq_some_iff.mp h
        refine List.IsSuffix.trans ?_ (readExactly?_suffix hhours)
        refine List.IsSuffix.trans ?_ (List.dropWhile_suffix fun c => c = ':' || Text.isBlank c)
        dsimp only at h
        -- The minutes may be left out when nothing stands in their place.
        split at h
        all_goals
          obtain ⟨⟨minutes, r₂⟩, hminutes, h⟩ := Option.bind_eq_some_iff.mp h
          dsimp only at h
          split at h
        · simp at h
        · cases hminutes
          cases h
          exact List.suffix_refl _
        · simp at h
        · cases h
          exact readExactly?_suffix hminutes
      · simp at h

theorem readZone?_suffix {seconds : Int} (h : readZone? s = some (seconds, r)) : r <:+ s := by
  unfold readZone? at h
  extract_lets s' at h
  refine List.IsSuffix.trans ?_ (Text.trimStart_suffix s)
  split at h
  · rename_i hword
    cases h
    exact dropWord?_suffix hword
  · exact readOffset?_suffix h

theorem eq_cons_of_fixed {f g : DateFields} {c : Char}
    (h : readItem? f s (.fixed c) = some (g, r)) : s = c :: r := by
  simp only [readItem?] at h
  split at h
  · split at h
    · rename_i heq
      cases h
      rw [heq]
    · simp at h
  · simp at h

theorem readItem?_suffix {f g : DateFields} {item : LayoutItem}
    (h : readItem? f s item = some (g, r)) : r <:+ s := by
  cases item with
  | year => exact suffix_of_map readYear?_suffix h
  | month | day | hour | minute | second => exact suffix_of_map readField?_suffix h
  | fraction => exact suffix_of_map readFraction?_suffix h
  | fractionDigits count => exact suffix_of_map readExactly?_suffix h
  | monthName => exact suffix_of_map readName?_suffix h
  | shortMonthName => exact suffix_of_map readShortName?_suffix h
  | offset => exact suffix_of_map readOffset?_suffix h
  | zone => exact suffix_of_map readZone?_suffix h
  | blank =>
    cases h
    exact Text.trimStart_suffix s
  | timeMark =>
    obtain ⟨rest, hread, heq⟩ := Option.map_eq_some_iff.mp h
    cases heq
    exact readMark?_suffix hread
  | fixed c =>
    rw [eq_cons_of_fixed h]
    exact List.suffix_cons c r

/-! ## Fixed characters and names -/

theorem count_fixed_le {layout : Layout} {f g : DateFields} (h : readFields? layout f s = some g)
    (c : Char) : layout.count (.fixed c) ≤ s.count c := by
  induction layout generalizing f s with
  | nil => simp
  | cons item layout ih =>
    rw [readFields?] at h
    split at h
    · rename_i f' r hread
      have hrest := ih h
      by_cases hitem : item = .fixed c
      · subst hitem
        rw [eq_cons_of_fixed hread, List.count_cons_self, List.count_cons_self]
        omega
      · rw [List.count_cons_of_ne hitem]
        exact Nat.le_trans hrest ((readItem?_suffix hread).sublist.count_le c)
    · simp at h

theorem exists_readItem? {layout : Layout} {f g : DateFields} {item : LayoutItem}
    (h : readFields? layout f s = some g) (hitem : item ∈ layout) :
    ∃ f' s', s' <:+ s ∧ (readItem? f' s' item).isSome := by
  induction layout generalizing f s with
  | nil => simp at hitem
  | cons first layout ih =>
    rw [readFields?] at h
    split at h
    · rename_i f' r hread
      rcases List.mem_cons.mp hitem with rfl | hitem
      · exact ⟨f, s, List.suffix_refl s, by rw [hread]; rfl⟩
      · obtain ⟨f'', s', hs', hsome⟩ := ih h hitem
        exact ⟨f'', s', hs'.trans (readItem?_suffix hread), hsome⟩
    · simp at h

theorem readFields?_eq_none {layout : Layout} {c : Char} (f : DateFields)
    (h : s.count c < layout.count (.fixed c)) : readFields? layout f s = none := by
  cases hread : readFields? layout f s with
  | none => rfl
  | some g => exact absurd (count_fixed_le hread c) (Nat.not_le_of_lt h)

theorem isLower_head_of_mem_monthNames :
    ∀ names ∈ monthNames, ∃ a w, names.1 = a :: w ∧ a.isLower = true := by
  have hheads : monthNames.all fun names => names.1.head?.any Char.isLower := by decide +kernel
  intro names hnames
  have hhead := List.all_eq_true.mp hheads names hnames
  cases hw : names.1 with
  | nil => simp [hw] at hhead
  | cons a w => exact ⟨a, w, rfl, by simpa [hw] using hhead⟩

theorem exists_letter_of_readShortName? (h : (readShortName? s).isSome) :
    ∃ c ∈ s, c.toLower.isLower = true := by
  obtain ⟨⟨month, r⟩, hread⟩ := Option.isSome_iff_exists.mp h
  obtain ⟨names, hnames, hword⟩ := exists_of_readShortName? hread
  obtain ⟨a, w, heq, ha⟩ := isLower_head_of_mem_monthNames names hnames
  unfold dropWord? at hword
  split at hword
  · rename_i hstart
    cases s with
    | nil => simp [heq, Text.asciiLower] at hstart
    | cons c s =>
      simp only [heq, List.length_cons, List.take_succ_cons, Text.asciiLower, List.map_cons,
        List.isPrefixOf_cons_cons, Bool.and_eq_true, beq_iff_eq] at hstart
      exact ⟨c, List.mem_cons_self, hstart.1 ▸ ha⟩
  · simp at hword

theorem exists_letter {layout : Layout} {f g : DateFields} (h : readFields? layout f s = some g)
    (hname : .monthName ∈ layout ∨ .shortMonthName ∈ layout) :
    ∃ c ∈ s, c.toLower.isLower = true := by
  have hread : ∃ s', s' <:+ s ∧ (readShortName? s').isSome := by
    rcases hname with hname | hname
    · obtain ⟨f', s', hs', hsome⟩ := exists_readItem? h hname
      exact ⟨s', hs', by simpa [readItem?, readName?] using hsome⟩
    · obtain ⟨f', s', hs', hsome⟩ := exists_readItem? h hname
      exact ⟨s', hs', by simpa [readItem?] using hsome⟩
  obtain ⟨s', hs', hsome⟩ := hread
  obtain ⟨c, hc, hletter⟩ := exists_letter_of_readShortName? hsome
  exact ⟨c, hs'.subset hc, hletter⟩

end Layout

/-! ## Timestamps -/

namespace Timestamp

variable {s r : List Char}

theorem oneOf?_eq_some {cs : List Char} (h : oneOf? cs s = some r) : ∃ c ∈ cs, s = c :: r := by
  unfold oneOf? at h
  split at h
  · split at h
    · rename_i hmem
      cases h
      exact ⟨_, List.contains_iff_mem.mp hmem, rfl⟩
    · simp at h
  · simp at h

theorem sublist_of_oneOf? {a : Char} {marks : List Char} (h : oneOf? [a] s = some r)
    (hmarks : marks.Sublist r) : (a :: marks).Sublist s := by
  obtain ⟨c, hc, rfl⟩ := oneOf?_eq_some h
  rw [List.mem_singleton.mp hc]
  exact hmarks.cons_cons a

theorem sublist_of_readExactly? {count n : Nat} {marks : List Char}
    (h : Layout.readExactly? count s = some (n, r)) (hmarks : marks.Sublist r) : marks.Sublist s :=
  hmarks.trans (Layout.readExactly?_suffix h).sublist

theorem exists_mark_of_isOffset (h : isOffset s = true) :
    ∃ mark ∈ ['Z', 'z', ':'], [mark].Sublist s := by
  unfold isOffset at h
  split at h
  · rename_i hzone
    rw [Bool.or_eq_true, decide_eq_true_iff, decide_eq_true_iff] at hzone
    rcases hzone with rfl | rfl
    · exact ⟨'Z', by simp, List.Sublist.refl _⟩
    · exact ⟨'z', by simp, List.Sublist.refl _⟩
  · refine ⟨':', by simp, ?_⟩
    extract_lets ends at h
    cases hends : ends with
    | none => simp [hends] at h
    | some b =>
      obtain ⟨s₁, hsign, hends⟩ := Option.bind_eq_some_iff.mp hends
      obtain ⟨⟨hour, s₂⟩, hhour, hends⟩ := Option.bind_eq_some_iff.mp hends
      obtain ⟨s₃, hcolon, hends⟩ := Option.bind_eq_some_iff.mp hends
      obtain ⟨_, _, rfl⟩ := oneOf?_eq_some hsign
      apply List.Sublist.cons
      apply sublist_of_readExactly? hhour
      exact sublist_of_oneOf? hcolon (List.nil_sublist s₃)

theorem exists_marks {t : DateTime} (h : read? s = some t) :
    ∃ mark ∈ ['Z', 'z', ':'], ['-', '-', ':', ':', mark].Sublist s := by
  unfold read? at h
  obtain ⟨⟨year, s₁⟩, hyear, h⟩ := Option.bind_eq_some_iff.mp h
  obtain ⟨s₂, hdash, h⟩ := Option.bind_eq_some_iff.mp h
  obtain ⟨⟨month, s₃⟩, hmonth, h⟩ := Option.bind_eq_some_iff.mp h
  obtain ⟨s₄, hdash', h⟩ := Option.bind_eq_some_iff.mp h
  obtain ⟨⟨day, s₅⟩, hday, h⟩ := Option.bind_eq_some_iff.mp h
  obtain ⟨s₆, hmark, h⟩ := Option.bind_eq_some_iff.mp h
  obtain ⟨⟨hour, s₇⟩, hhour, h⟩ := Option.bind_eq_some_iff.mp h
  obtain ⟨s₈, hcolon, h⟩ := Option.bind_eq_some_iff.mp h
  obtain ⟨⟨minute, s₉⟩, hminute, h⟩ := Option.bind_eq_some_iff.mp h
  obtain ⟨s₁₀, hcolon', h⟩ := Option.bind_eq_some_iff.mp h
  obtain ⟨⟨second, s₁₁⟩, hsecond, h⟩ := Option.bind_eq_some_iff.mp h
  obtain ⟨⟨nanos, s₁₂⟩, hnanos, h⟩ := Option.bind_eq_some_iff.mp h
  dsimp only at h
  split at h
  · rename_i hoffset
    obtain ⟨mark, hmem, hlast⟩ := exists_mark_of_isOffset hoffset
    obtain ⟨_, _, rfl⟩ := oneOf?_eq_some hmark
    refine ⟨mark, hmem, ?_⟩
    apply sublist_of_readExactly? hyear
    apply sublist_of_oneOf? hdash
    apply sublist_of_readExactly? hmonth
    apply sublist_of_oneOf? hdash'
    apply sublist_of_readExactly? hday
    apply List.Sublist.cons
    apply sublist_of_readExactly? hhour
    apply sublist_of_oneOf? hcolon
    apply sublist_of_readExactly? hminute
    apply sublist_of_oneOf? hcolon'
    apply sublist_of_readExactly? hsecond
    exact hlast.trans (Layout.readFraction?_suffix hnanos).sublist
  · simp at h

theorem read?_eq_none (hupper : s.count 'Z' = 0) (hlower : s.count 'z' = 0)
    (hcolon : s.count ':' ≤ 2) : read? s = none := by
  rw [← Option.not_isSome_iff_eq_none, Option.isSome_iff_exists]
  rintro ⟨t, ht⟩
  obtain ⟨mark, hmark, hsub⟩ := exists_marks ht
  have hcount := hsub.count_le mark
  simp only [List.mem_cons, List.not_mem_nil, or_false] at hmark
  rcases hmark with rfl | rfl | rfl
  · simp [hupper] at hcount
  · simp [hlower] at hcount
  · simp at hcount
    omega

end Timestamp

end TableCleaner
