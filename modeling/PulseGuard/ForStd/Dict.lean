import Mathlib.Algebra.GroupWithZero.Nat
import Mathlib.Data.List.Nodup

/-!
# Insertion-ordered dictionaries

A Python `dict` as an association list whose keys are pairwise distinct. Writing a
key that is present replaces its value in place; a new key goes to the end, so
iteration order is insertion order.

`Assoc` holds the operations on bare association lists; `Dict` carries the
distinctness of the keys as a field.
-/

namespace Assoc

variable {κ : Type u} {ν : Type v} [DecidableEq κ]

/-- `d.get(k)`: the value at the first entry with key `k`. -/
def get? (k : κ) : List (κ × ν) → Option ν
  | [] => none
  | (k', x) :: rest => if k' = k then some x else get? k rest

/-- `d[k] = x`: replace in place, or append. -/
def set (k : κ) (x : ν) : List (κ × ν) → List (κ × ν)
  | [] => [(k, x)]
  | (k', y) :: rest => if k' = k then (k, x) :: rest else (k', y) :: set k x rest

@[simp] theorem get?_nil (k : κ) : get? k ([] : List (κ × ν)) = none := rfl

theorem get?_cons (k k' : κ) (x : ν) (rest : List (κ × ν)) :
    get? k ((k', x) :: rest) = if k' = k then some x else get? k rest := rfl

@[simp] theorem get?_set_self (k : κ) (x : ν) (d : List (κ × ν)) : get? k (set k x d) = some x := by
  induction d with
  | nil => simp [set, get?]
  | cons e rest ih =>
    obtain ⟨k', y⟩ := e
    by_cases hk : k' = k <;> simp [set, get?, hk, ih]

theorem get?_set_of_ne {k k' : κ} (x : ν) (d : List (κ × ν)) (h : k ≠ k') :
    get? k' (set k x d) = get? k' d := by
  induction d with
  | nil => simp [set, get?, h]
  | cons e rest ih =>
    obtain ⟨k₀, y⟩ := e
    by_cases hk : k₀ = k
    · subst hk; simp [set, get?, h]
    · simp [set, get?, hk, ih]

theorem get?_set (k k' : κ) (x : ν) (d : List (κ × ν)) :
    get? k' (set k x d) = if k = k' then some x else get? k' d := by
  split
  · rename_i h; subst h; exact get?_set_self k x d
  · rename_i h; exact get?_set_of_ne x d h

theorem mem_of_get? {k : κ} {x : ν} {d : List (κ × ν)} (h : get? k d = some x) : (k, x) ∈ d := by
  induction d with
  | nil => simp at h
  | cons e rest ih =>
    obtain ⟨k', y⟩ := e
    rw [get?_cons] at h
    split at h
    · rename_i hk; subst hk; cases h; exact List.mem_cons_self
    · exact List.mem_cons_of_mem _ (ih h)

theorem get?_eq_none_iff {k : κ} {d : List (κ × ν)} :
    get? k d = none ↔ k ∉ d.map Prod.fst := by
  induction d with
  | nil => simp
  | cons e rest ih =>
    obtain ⟨k', y⟩ := e
    rw [get?_cons]
    by_cases hk : k' = k
    · simp [hk]
    · simp [hk, ih, Ne.symm hk]

/-- With distinct keys, every entry is the one `get?` finds. -/
theorem get?_of_mem {k : κ} {x : ν} {d : List (κ × ν)} (hd : (d.map Prod.fst).Nodup)
    (h : (k, x) ∈ d) : get? k d = some x := by
  induction d with
  | nil => simp at h
  | cons e rest ih =>
    obtain ⟨k', y⟩ := e
    rw [List.map_cons, List.nodup_cons] at hd
    rw [get?_cons]
    rcases List.mem_cons.mp h with heq | hmem
    · cases heq; simp
    · have hne : k' ≠ k := by
        intro hk
        exact hd.1 (List.mem_map.mpr ⟨(k, x), hmem, hk.symm⟩)
      rw [if_neg hne]
      exact ih hd.2 hmem

theorem set_of_not_mem {k : κ} (x : ν) {d : List (κ × ν)} (h : k ∉ d.map Prod.fst) :
    set k x d = d ++ [(k, x)] := by
  induction d with
  | nil => rfl
  | cons e rest ih =>
    obtain ⟨k', y⟩ := e
    rw [List.map_cons, List.mem_cons, not_or] at h
    rw [set, if_neg (Ne.symm h.1), ih h.2, List.cons_append]

/-- Writing what is there already changes nothing. -/
theorem set_of_get? {k : κ} {x : ν} {d : List (κ × ν)} (h : get? k d = some x) : set k x d = d := by
  induction d with
  | nil => cases h
  | cons e rest ih =>
    obtain ⟨k', y⟩ := e
    rw [get?_cons] at h
    by_cases hk : k' = k
    · rw [if_pos hk] at h
      cases h
      rw [set, if_pos hk, hk]
    · rw [if_neg hk] at h
      rw [set, if_neg hk, ih h]

/-- Writing `k` adds it to the keys, at the end, only when it was absent. -/
theorem map_fst_set (k : κ) (x : ν) (d : List (κ × ν)) :
    (set k x d).map Prod.fst =
      if k ∈ d.map Prod.fst then d.map Prod.fst else d.map Prod.fst ++ [k] := by
  induction d with
  | nil => simp [set]
  | cons e rest ih =>
    obtain ⟨k', y⟩ := e
    by_cases hk : k' = k
    · simp [set, hk]
    · simp only [set, hk, if_false, List.map_cons, ih, List.mem_cons, Ne.symm hk, false_or]
      split <;> simp

theorem nodup_set (k : κ) (x : ν) {d : List (κ × ν)} (hd : (d.map Prod.fst).Nodup) :
    ((set k x d).map Prod.fst).Nodup := by
  rw [map_fst_set]
  split
  · exact hd
  · rename_i h
    rw [List.nodup_append]
    refine ⟨hd, by simp, ?_⟩
    intro a ha b hb hab
    simp only [List.mem_cons, List.not_mem_nil, or_false] at hb
    subst hab hb
    exact h ha

/-- Of the entries with some keys, a write touches its own. -/
theorem filter_set (p : κ → Bool) (k : κ) (x : ν) (d : List (κ × ν)) :
    (set k x d).filter (fun e => p e.1) =
      if p k then set k x (d.filter fun e => p e.1) else d.filter fun e => p e.1 := by
  induction d with
  | nil =>
    by_cases hp : p k = true
    · simp [set, hp]
    · simp [set, hp]
  | cons e rest ih =>
    obtain ⟨k', y⟩ := e
    by_cases hk : k' = k
    · subst hk
      by_cases hp : p k' = true
      · simp [set, hp]
      · simp [set, hp]
    · rw [set, if_neg hk, List.filter_cons, List.filter_cons, ih]
      by_cases hp : p k = true
      · by_cases hp' : p k' = true
        · simp [set, hp, hp', hk]
        · simp [hp, hp']
      · simp [hp]

/-- A search of the values that found `x` still does after `x` was written, whatever it replaced. -/
theorem find?_set {p : ν → Bool} {x : ν} {d : List (κ × ν)}
    (h : (d.map Prod.snd).find? p = some x) (k : κ) :
    ((set k x d).map Prod.snd).find? p = some x := by
  have hp : p x = true := List.find?_some h
  induction d with
  | nil => cases h
  | cons e rest ih =>
    obtain ⟨k', y⟩ := e
    rw [set]
    split
    · rw [List.map_cons, List.find?_cons_of_pos hp]
    · rw [List.map_cons] at h ⊢
      by_cases hy : p y = true
      · rw [List.find?_cons_of_pos hy] at h ⊢
        exact h
      · rw [List.find?_cons_of_neg hy] at h ⊢
        exact ih h

theorem get?_filter {p : κ → Bool} {k : κ} (hk : p k = true) (d : List (κ × ν)) :
    get? k (d.filter fun e => p e.1) = get? k d := by
  induction d with
  | nil => rfl
  | cons e rest ih =>
    obtain ⟨k', y⟩ := e
    rw [List.filter_cons, get?_cons]
    by_cases hkk : k' = k
    · subst hkk
      rw [if_pos hk, if_pos rfl, get?_cons, if_pos rfl]
    · rw [if_neg hkk]
      split
      · rw [get?_cons, if_neg hkk, ih]
      · exact ih

end Assoc

/-- A dictionary: entries in insertion order, keys pairwise distinct. -/
structure Dict (κ : Type u) (ν : Type v) where
  entries : List (κ × ν)
  nodup : (entries.map Prod.fst).Nodup

namespace Dict

variable {κ : Type u} {ν : Type v}

@[ext] theorem ext {d e : Dict κ ν} (h : d.entries = e.entries) : d = e := by
  cases d; cases e; cases h; rfl

/-- `{}` -/
def empty : Dict κ ν := ⟨[], List.nodup_nil⟩

instance : Inhabited (Dict κ ν) := ⟨empty⟩

/-- The keys, in insertion order. -/
def keys (d : Dict κ ν) : List κ := d.entries.map Prod.fst

/-- The values, in insertion order. -/
def values (d : Dict κ ν) : List ν := d.entries.map Prod.snd

/-- A dictionary is false in a boolean context when it has no entries. -/
def isEmpty (d : Dict κ ν) : Bool := d.entries.isEmpty

/-- `{k: v for k, v in d.items() if p(k)}` -/
def filter (d : Dict κ ν) (p : κ → Bool) : Dict κ ν where
  entries := d.entries.filter fun e => p e.1
  nodup := (List.filter_sublist.map Prod.fst).nodup d.nodup

variable [DecidableEq κ]

/-- `d.get(k)` -/
def get? (d : Dict κ ν) (k : κ) : Option ν := Assoc.get? k d.entries

/-- `k in d` -/
def contains (d : Dict κ ν) (k : κ) : Bool := (d.get? k).isSome

/-- `d[k] = x` -/
def set (d : Dict κ ν) (k : κ) (x : ν) : Dict κ ν :=
  ⟨Assoc.set k x d.entries, Assoc.nodup_set k x d.nodup⟩

/-- `d.update(e)` -/
def update (d e : Dict κ ν) : Dict κ ν := e.entries.foldl (fun acc kx => acc.set kx.1 kx.2) d

/-- The dictionary of a list of entries, in which a later value for a key wins. -/
def ofList (entries : List (κ × ν)) : Dict κ ν :=
  entries.foldl (fun d kx => d.set kx.1 kx.2) empty

@[simp] theorem get?_empty (k : κ) : (empty : Dict κ ν).get? k = none := rfl

theorem get?_filter (d : Dict κ ν) {p : κ → Bool} {k : κ} (hk : p k = true) :
    (d.filter p).get? k = d.get? k :=
  Assoc.get?_filter hk d.entries

@[simp] theorem get?_set_self (d : Dict κ ν) (k : κ) (x : ν) : (d.set k x).get? k = some x :=
  Assoc.get?_set_self k x d.entries

theorem set_of_get? (d : Dict κ ν) {k : κ} {x : ν} (h : d.get? k = some x) : d.set k x = d :=
  ext (Assoc.set_of_get? h)

theorem get?_set_of_ne (d : Dict κ ν) {k k' : κ} (x : ν) (h : k ≠ k') :
    (d.set k x).get? k' = d.get? k' :=
  Assoc.get?_set_of_ne x d.entries h

theorem get?_set (d : Dict κ ν) (k k' : κ) (x : ν) :
    (d.set k x).get? k' = if k = k' then some x else d.get? k' :=
  Assoc.get?_set k k' x d.entries

theorem get?_eq_some_iff (d : Dict κ ν) {k : κ} {x : ν} :
    d.get? k = some x ↔ (k, x) ∈ d.entries :=
  ⟨Assoc.mem_of_get?, Assoc.get?_of_mem d.nodup⟩

theorem get?_eq_none_iff (d : Dict κ ν) {k : κ} : d.get? k = none ↔ k ∉ d.keys :=
  Assoc.get?_eq_none_iff

theorem mem_keys_iff (d : Dict κ ν) {k : κ} : k ∈ d.keys ↔ ∃ x, d.get? k = some x := by
  rw [← not_iff_not, ← get?_eq_none_iff]
  cases d.get? k <;> simp

theorem contains_iff (d : Dict κ ν) {k : κ} : d.contains k = true ↔ k ∈ d.keys := by
  rw [mem_keys_iff, contains, Option.isSome_iff_exists]

theorem mem_values_iff (d : Dict κ ν) {x : ν} : x ∈ d.values ↔ ∃ k, d.get? k = some x := by
  simp only [values, List.mem_map, get?_eq_some_iff]
  constructor
  · rintro ⟨⟨k, y⟩, hmem, rfl⟩; exact ⟨k, hmem⟩
  · rintro ⟨k, hmem⟩; exact ⟨(k, x), hmem, rfl⟩

/-- After a write, a value is the new one or sits at a key other than the written one. -/
theorem mem_values_set (d : Dict κ ν) (k : κ) (x y : ν) :
    y ∈ (d.set k x).values ↔ y = x ∨ ∃ k', k' ≠ k ∧ d.get? k' = some y := by
  simp only [mem_values_iff, get?_set]
  constructor
  · intro h
    obtain ⟨k', hk'⟩ := h
    split at hk'
    · cases hk'; exact Or.inl rfl
    · rename_i hne; exact Or.inr ⟨k', Ne.symm hne, hk'⟩
  · rintro (rfl | ⟨k', hne, hk'⟩)
    · exact ⟨k, by simp⟩
    · exact ⟨k', by rw [if_neg (Ne.symm hne)]; exact hk'⟩

theorem find?_values_set {d : Dict κ ν} {p : ν → Bool} {x : ν} (h : d.values.find? p = some x)
    (k : κ) : (d.set k x).values.find? p = some x :=
  Assoc.find?_set h k

/-- Counting one key up adds one to the counts. -/
theorem sum_values_set (d : Dict κ Nat) (k : κ) :
    (d.set k ((d.get? k).getD 0 + 1)).values.sum = d.values.sum + 1 := by
  have hentries : ∀ entries : List (κ × Nat),
      ((Assoc.set k ((Assoc.get? k entries).getD 0 + 1) entries).map Prod.snd).sum =
        (entries.map Prod.snd).sum + 1 := by
    intro entries
    induction entries with
    | nil => rfl
    | cons entry rest ih =>
      obtain ⟨k', n⟩ := entry
      rw [Assoc.get?_cons, Assoc.set]
      split
      · simp only [Option.getD_some, List.map_cons, List.sum_cons]
        omega
      · simp only [List.map_cons, List.sum_cons, ih]
        omega
  exact hentries d.entries

private theorem foldl_set_append {d e : List (κ × ν)} (h : ((d ++ e).map Prod.fst).Nodup)
    (acc : Dict κ ν) (hacc : acc.entries = d) :
    (e.foldl (fun d kx => d.set kx.1 kx.2) acc).entries = d ++ e := by
  induction e generalizing d acc with
  | nil => rw [List.append_nil]; exact hacc
  | cons kx rest ih =>
    have hcons : d ++ kx :: rest = (d ++ [kx]) ++ rest := by simp
    have hnot : kx.1 ∉ d.map Prod.fst := by
      rw [List.map_append, List.map_cons, List.nodup_append] at h
      exact fun hmem => h.2.2 _ hmem _ List.mem_cons_self rfl
    have hset : (acc.set kx.1 kx.2).entries = d ++ [kx] := by
      change Assoc.set kx.1 kx.2 acc.entries = _
      rw [hacc, Assoc.set_of_not_mem _ hnot]
    rw [hcons] at h ⊢
    exact ih h (acc.set kx.1 kx.2) hset

/-- Entries with distinct keys are the entries of their dictionary. -/
theorem entries_ofList {entries : List (κ × ν)} (h : (entries.map Prod.fst).Nodup) :
    (ofList entries).entries = entries :=
  foldl_set_append (d := []) h empty rfl

/-- `update` reads the new entries first, then the old ones. -/
theorem get?_update (d e : Dict κ ν) (k : κ) :
    (d.update e).get? k = (e.get? k).or (d.get? k) := by
  obtain ⟨es, hes⟩ := e
  simp only [update, get?]
  induction es generalizing d with
  | nil => simp
  | cons kx rest ih =>
    obtain ⟨k', x⟩ := kx
    rw [List.map_cons, List.nodup_cons] at hes
    simp only [List.foldl_cons]
    rw [ih (d.set k' x) hes.2, Assoc.get?_cons]
    by_cases hk : k' = k
    · subst hk
      rw [Assoc.get?_eq_none_iff.mpr hes.1]
      simp [set]
    · simp [set, Assoc.get?_set_of_ne x d.entries hk, hk]

end Dict
