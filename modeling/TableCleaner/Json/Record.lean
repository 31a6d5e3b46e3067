import TableCleaner.Json.Value

/-!
# Records

A record maps keys to JSON values. Its entries stand in the order of their keys, by code point, and
no key stands twice, so equal records have equal lists of entries.
-/

namespace TableCleaner

/-- Each key is less than the keys after it. -/
def KeysAscend (entries : List (String × Json)) : Prop := entries.Pairwise fun a b => a.1 < b.1

structure Record where
  entries : List (String × Json)
  ascending : KeysAscend entries
deriving DecidableEq

namespace Record

@[ext] theorem ext {r s : Record} (h : r.entries = s.entries) : r = s := by
  cases r; cases s; cases h; rfl

def empty : Record := ⟨[], .nil⟩

instance : Inhabited Record := ⟨empty⟩

/-- Puts an entry in its place, over an entry with the same key. -/
def put (key : String) (value : Json) : List (String × Json) → List (String × Json)
  | [] => [(key, value)]
  | e :: rest =>
    if key < e.1 then (key, value) :: e :: rest
    else if e.1 < key then e :: put key value rest
    else (key, value) :: rest

theorem mem_put {key : String} {value : Json} {l : List (String × Json)} {e : String × Json}
    (h : e ∈ put key value l) : e = (key, value) ∨ e ∈ l := by
  induction l with
  | nil => simpa [put] using h
  | cons a l ih =>
    rw [put] at h
    split at h
    · simpa using h
    · split at h
      · rcases List.mem_cons.1 h with h | h
        · exact .inr (h ▸ List.mem_cons_self)
        · rcases ih h with h | h
          · exact .inl h
          · exact .inr (List.mem_cons_of_mem _ h)
      · rcases List.mem_cons.1 h with h | h
        · exact .inl h
        · exact .inr (List.mem_cons_of_mem _ h)

theorem keysAscend_put {key : String} {value : Json} {l : List (String × Json)}
    (h : KeysAscend l) : KeysAscend (put key value l) := by
  induction l with
  | nil => exact List.pairwise_singleton ..
  | cons a l ih =>
    obtain ⟨ha, hl⟩ := List.pairwise_cons.1 h
    rw [put]
    split
    · rename_i hk
      refine List.pairwise_cons.2 ⟨fun e he => ?_, h⟩
      rcases List.mem_cons.1 he with rfl | he
      · exact hk
      · exact String.lt_trans hk (ha e he)
    · rename_i hk
      split
      · rename_i hk'
        refine List.pairwise_cons.2 ⟨fun e he => ?_, ih hl⟩
        rcases mem_put he with rfl | he
        · exact hk'
        · exact ha e he
      · rename_i hk'
        have : key = a.1 := String.le_antisymm (String.not_lt.1 hk') (String.not_lt.1 hk)
        refine List.pairwise_cons.2 ⟨fun e he => ?_, hl⟩
        simpa [this] using ha e he

/-- The record with `value` at `key`. -/
def insert (r : Record) (key : String) (value : Json) : Record :=
  ⟨put key value r.entries, keysAscend_put r.ascending⟩

/-- The record that a list of entries stands for: the last of two equal keys wins. -/
def ofEntries (entries : List (String × Json)) : Record :=
  entries.foldl (fun r e => r.insert e.1 e.2) empty

def get? (r : Record) (key : String) : Option Json := (r.entries.find? (·.1 == key)).map (·.2)

def contains (r : Record) (key : String) : Bool := r.entries.any (·.1 == key)

/-- Without the entries at some keys. -/
def without (r : Record) (keys : List String) : Record :=
  ⟨r.entries.filter fun e => !keys.contains e.1, r.ascending.filter _⟩

/-- Adds the entries of `other` at the keys that `r` lacks. -/
def withDefaults (r other : Record) : Record :=
  other.entries.foldl (fun s e => if s.contains e.1 then s else s.insert e.1 e.2) r

def toJson (r : Record) : Json := .object r.entries

end Record

/-- The record of an object; any other value has none. -/
def Json.record? : Json → Option Record
  | .object entries => some (Record.ofEntries entries)
  | _ => none

end TableCleaner
