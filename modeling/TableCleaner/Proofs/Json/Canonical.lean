import TableCleaner.Proofs.Json.Cut
import TableCleaner.Proofs.Json.Record

/-!
# Canonical values

Every value that the reader gives is canonical: its integers are in the kept range, its other
numbers are finite, the keys of its objects ascend, and it is not nested too deeply.
-/

namespace TableCleaner.Json

variable {s r : List Char} {d : Nat} {v : Json}

/-- A value as reading leaves it, its arrays and objects nested at most so many deep. -/
inductive Canonical : Nat → Json → Prop
  | null {depth} : Canonical depth .null
  | bool {depth} (b : Bool) : Canonical depth (.bool b)
  | int {depth i} (hlow : leastInt ≤ i) (hhigh : i ≤ greatestInt) : Canonical depth (.int i)
  | float {depth x} (h : x.isFinite = true) : Canonical depth (.float x)
  | text {depth} (t : String) : Canonical depth (.text t)
  | array {depth items} (h : ∀ v ∈ items, Canonical depth v) : Canonical (depth + 1) (.array items)
  | object {depth entries} (hkeys : KeysAscend entries) (h : ∀ e ∈ entries, Canonical depth e.2) :
    Canonical (depth + 1) (.object entries)

theorem Canonical.mono (h : Canonical d v) {e : Nat} (hle : d ≤ e) : Canonical e v := by
  induction h generalizing e with
  | null => exact .null
  | bool b => exact .bool b
  | int hlow hhigh => exact .int hlow hhigh
  | float h => exact .float h
  | text t => exact .text t
  | @array d items _ ih =>
    obtain ⟨e, rfl⟩ := Nat.exists_eq_add_of_le' hle
    exact .array fun v hv => ih v hv (Nat.le_add_left d e)
  | @object d entries hkeys _ ih =>
    obtain ⟨e, rfl⟩ := Nat.exists_eq_add_of_le' hle
    exact .object hkeys fun v hv => ih v hv (Nat.le_add_left d e)

/-! ## Parts of a value -/

theorem Canonical.of_value? {t : NumberText} (h : t.value? = some v) : Canonical d v := by
  have hfloat : ∀ x : Float, (if x.isFinite then some (Json.float x) else none) = some v →
      Canonical d v := by
    intro x hx
    split at hx
    · cases hx
      exact .float ‹_›
    · cases hx
  unfold NumberText.value? at h
  extract_lets asFloat at h
  split at h
  · split at h
    · exact hfloat _ h
    · split at h
      · rename_i hrange
        simp only [Bool.and_eq_true, decide_eq_true_eq] at hrange
        cases h
        exact .int hrange.1 hrange.2
      · exact hfloat _ h
  · exact hfloat _ h

theorem forall_mem_of_readItems? {P : Json → Prop} {item : Reader Json}
    (hitem : ∀ {s : List Char} {v : Json} {y : Rest s}, item s = some (v, y) → P v)
    {vs : List Json} (h : readItems? item s = some (vs, r)) : ∀ v ∈ vs, P v := by
  fun_induction readItems? item s generalizing vs r with
  | case1 | case4 => simp at h
  | case2 s v t hlt hread rest hcomma ih =>
    obtain ⟨⟨ws, q⟩, hws, he⟩ := Option.map_eq_some_iff.mp h
    cases he
    exact List.forall_mem_cons.mpr ⟨hitem hread, ih hws⟩
  | case3 s v t hlt hread rest hclose =>
    cases h
    exact List.forall_mem_singleton.mpr (hitem hread)

theorem forall_mem_of_readEntries? {P : Json → Prop} {item : Reader Json}
    (hitem : ∀ {s : List Char} {v : Json} {y : Rest s}, item s = some (v, y) → P v)
    {es : List (String × Json)} (h : readEntries? item s = some (es, r)) : ∀ e ∈ es, P e.2 := by
  fun_induction readEntries? item s generalizing es r with
  | case1 | case2 | case5 | case6 | case7 => simp at h
  | case3 s t hquote key r₁ hkey u hcolon v x hlt hvalue q hcomma ih =>
    obtain ⟨⟨ws, q⟩, hws, he⟩ := Option.map_eq_some_iff.mp h
    cases he
    exact List.forall_mem_cons.mpr ⟨hitem hvalue, ih hws⟩
  | case4 s t hquote key r₁ hkey u hcolon v x hlt hvalue q hclose =>
    cases h
    exact List.forall_mem_singleton.mpr (hitem hvalue)

end TableCleaner.Json

namespace TableCleaner.Record

open Json (Canonical)

theorem mem_of_lastValue? {entries : List (String × Json)} {key : String} {v : Json}
    (h : lastValue? entries key = some v) : (key, v) ∈ entries := by
  obtain ⟨e, he, rfl⟩ := Option.map_eq_some_iff.mp h
  have hkey : e.1 = key := by simpa using List.find?_some he
  rw [← hkey]
  exact List.mem_reverse.mp (List.mem_of_find?_eq_some he)

theorem mem_of_mem_ofEntries {entries : List (String × Json)} {e : String × Json}
    (h : e ∈ (ofEntries entries).entries) : e ∈ entries := by
  have hget : (ofEntries entries).get? e.1 = some e.2 := get?_eq_some_iff.mpr h
  rw [get?_ofEntries] at hget
  exact mem_of_lastValue? hget

theorem canonical_toJson {r : Record} {d : Nat} (h : ∀ e ∈ r.entries, Canonical d e.2) :
    Canonical (d + 1) r.toJson :=
  .object r.ascending h

end TableCleaner.Record

namespace TableCleaner.Json

variable {s r : List Char} {d : Nat} {v : Json}

/-! ## What the reader gives -/

theorem Takes.canonical (h : Takes d s v r) : Canonical d v := by
  induction d using Nat.strongRecOn generalizing s v r with
  | ind d ih =>
    have hitem {e : Nat} (he : e < d) {s : List Char} {v : Json} {y : Rest s}
        (hread : readValue? e s = some (v, y)) : Canonical e v :=
      ih e he (readValue?_eq_some.mp hread)
    cases h with
    | text _ => exact .text _
    | null _ => exact .null
    | yes _ | no _ => exact .bool _
    | noItems _ => exact .array (by simp)
    | items _ h => exact .array (forall_mem_of_readItems? (hitem (Nat.lt_succ_self _)) h)
    | noEntries _ => exact .object .nil (by simp)
    | entries _ h =>
      refine Record.canonical_toJson fun e he => ?_
      exact forall_mem_of_readEntries? (hitem (Nat.lt_succ_self _)) h e
        (Record.mem_of_mem_ofEntries he)
    | number _ _ hv => exact .of_value? hv

theorem canonical_of_readChars? (h : readChars? s = some v) : Canonical maxDepth v := by
  obtain ⟨r, -, htakes, -⟩ := readChars?_eq_some.mp h
  exact htakes.canonical

end TableCleaner.Json
