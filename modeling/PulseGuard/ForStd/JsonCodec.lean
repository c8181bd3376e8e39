import PulseGuard.ForStd.Json

/-!
# Codecs for JSON objects

A codec writes a type to JSON values and reads it back. The fields of an object are written
one after another, each present or absent, and read by their keys.
-/

namespace Json

/-- A way of writing values of a type, which can be read back. -/
structure Codec (α : Type u) where
  enc : α → PyVal
  dec : PyVal → Option α
  dec_enc : ∀ a, dec (enc a) = some a

namespace Codec

variable {α : Type u}

/-- Any value, as it is. -/
def val : Codec PyVal where
  enc v := v
  dec := some
  dec_enc _ := rfl

def str : Codec String where
  enc := .str
  dec
    | .str s => some s
    | _ => none
  dec_enc _ := rfl

def int : Codec Int where
  enc := .int
  dec
    | .int n => some n
    | _ => none
  dec_enc _ := rfl

def bool : Codec Bool where
  enc := .bool
  dec
    | .bool b => some b
    | _ => none
  dec_enc _ := rfl

def dict : Codec (Dict String PyVal) where
  enc d := .dict d.entries
  dec
    | .dict entries => some (Dict.ofList entries)
    | _ => none
  dec_enc d := congrArg some (Dict.ext (Dict.entries_ofList d.nodup))

/-- A list of values. -/
def list (c : Codec α) : Codec (List α) where
  enc xs := .list (xs.map c.enc)
  dec
    | .list vs => vs.mapM c.dec
    | _ => none
  dec_enc xs := by
    induction xs with
    | nil => rfl
    | cons x xs ih =>
      simp only [List.map_cons, List.mapM_cons, c.dec_enc] at ih ⊢
      rw [ih]
      rfl

/-- A value or `null`, for a codec that does not write `null` itself. -/
def nullable (c : Codec α) (h : ∀ a, c.enc a ≠ .none) : Codec (Option α) where
  enc
    | none => .none
    | some a => c.enc a
  dec
    | .none => some none
    | v => (c.dec v).map some
  dec_enc
    | none => rfl
    | some a => by
      split
      · rename_i heq
        exact absurd heq (h a)
      · rw [c.dec_enc]
        rfl

variable (c : Codec α)

/-- A field of an object under a key, present or absent. -/
def field (key : String) (value : Option α) : String × Option PyVal := (key, value.map c.enc)

/-- What an object holds under a key: `none` when it is there and not of the type. -/
def read (key : String) (entries : List (String × PyVal)) : Option (Option α) :=
  match Assoc.get? key entries with
  | none => some none
  | some v => (c.dec v).map some

end Codec

/-- The entries of the fields that are present. -/
def present (fields : List (String × Option PyVal)) : List (String × PyVal) :=
  fields.filterMap fun field => field.2.map (field.1, ·)

section

variable {fields : List (String × Option PyVal)}

/-- The keys that are present are among the keys, in their order. -/
theorem map_fst_present : ((present fields).map Prod.fst).Sublist (fields.map Prod.fst) := by
  induction fields with
  | nil => exact List.Sublist.refl _
  | cons field rest ih =>
    obtain ⟨key, value⟩ := field
    cases value with
    | none => exact ih.cons _
    | some v => exact ih.cons_cons _

theorem get?_present (h : (fields.map Prod.fst).Nodup) (key : String) :
    Assoc.get? key (present fields) = (Assoc.get? key fields).join := by
  induction fields with
  | nil => rfl
  | cons field rest ih =>
    obtain ⟨k, value⟩ := field
    rw [List.map_cons, List.nodup_cons] at h
    rw [Assoc.get?_cons]
    cases value with
    | none =>
      change Assoc.get? key (present rest) = _
      by_cases hk : k = key
      · subst hk
        rw [if_pos rfl]
        exact Assoc.get?_eq_none_iff.mpr fun hmem => h.1 (map_fst_present.subset hmem)
      · rw [if_neg hk]
        exact ih h.2
    | some v =>
      change Assoc.get? key ((k, v) :: present rest) = _
      rw [Assoc.get?_cons]
      split
      · rfl
      · exact ih h.2

/-- A field is read back by its key. -/
theorem Codec.read_present {α : Type u} (c : Codec α) (h : (fields.map Prod.fst).Nodup)
    {key : String} {value : Option α} (hfield : Assoc.get? key fields = some (value.map c.enc)) :
    c.read key (present fields) = some value := by
  rw [Codec.read, get?_present h, hfield]
  cases value with
  | none => rfl
  | some a => simp [c.dec_enc]

theorem distinctKeysItems_iff {xs : List PyVal} :
    distinctKeysItems xs = true ↔ ∀ x ∈ xs, distinctKeys x = true := by
  induction xs with
  | nil => simp [distinctKeysItems]
  | cons x xs ih => simp [distinctKeysItems, ih]

theorem Codec.distinctKeys_list {α : Type u} (c : Codec α) {xs : List α}
    (h : ∀ x ∈ xs, distinctKeys (c.enc x) = true) : distinctKeys (c.list.enc xs) = true := by
  change distinctKeysItems (xs.map c.enc) = true
  rw [distinctKeysItems_iff]
  intro v hv
  obtain ⟨x, hx, rfl⟩ := List.mem_map.mp hv
  exact h x hx

theorem Codec.distinctKeys_nullable {α : Type u} {c : Codec α} {hc : ∀ a, c.enc a ≠ .none}
    {value : Option α} (h : ∀ a, value = some a → distinctKeys (c.enc a) = true) :
    distinctKeys ((c.nullable hc).enc value) = true := by
  cases value with
  | none => rfl
  | some a => exact h a rfl

theorem Codec.distinctKeys_field {α : Type u} (c : Codec α) (key : String) {value : Option α}
    (h : ∀ a, value = some a → distinctKeys (c.enc a) = true) :
    ∀ v, (c.field key value).2 = some v → distinctKeys v = true := by
  intro v hv
  obtain ⟨a, ha, rfl⟩ := Option.map_eq_some_iff.mp hv
  exact h a ha

/-- An object of fields has distinct keys when its values do. -/
theorem distinctKeys_present (h : (fields.map Prod.fst).Nodup)
    (hvalues : ∀ field ∈ fields, ∀ v, field.2 = some v → distinctKeys v = true) :
    distinctKeys (.dict (present fields)) = true := by
  rw [distinctKeys, Bool.and_eq_true, decide_eq_true_eq]
  refine ⟨h.sublist map_fst_present, ?_⟩
  clear h
  induction fields with
  | nil => rfl
  | cons field rest ih =>
    obtain ⟨key, value⟩ := field
    have hrest := ih fun f hf => hvalues f (List.mem_cons_of_mem _ hf)
    cases value with
    | none => exact hrest
    | some v =>
      change (distinctKeys v && distinctKeysEntries (present rest)) = true
      rw [hvalues _ List.mem_cons_self v rfl, hrest]
      rfl

/-! ## Values without objects -/

/-- A codec that writes no object with a key twice. -/
def Codec.Plain {α : Type u} (c : Codec α) : Prop := ∀ a, distinctKeys (c.enc a) = true

theorem Codec.plain_str : str.Plain := fun _ => rfl

theorem Codec.plain_int : int.Plain := fun _ => rfl

theorem Codec.plain_bool : bool.Plain := fun _ => rfl

theorem Codec.Plain.list {α : Type u} {c : Codec α} (hc : c.Plain) : c.list.Plain :=
  fun _ => c.distinctKeys_list fun x _ => hc x

theorem Codec.Plain.nullable {α : Type u} {c : Codec α} (hc : c.Plain)
    {h : ∀ a, c.enc a ≠ .none} : (c.nullable h).Plain :=
  fun _ => Codec.distinctKeys_nullable fun a _ => hc a

theorem Codec.Plain.field {α : Type u} {c : Codec α} (hc : c.Plain) (key : String)
    (value : Option α) : ∀ v, (c.field key value).2 = some v → distinctKeys v = true :=
  c.distinctKeys_field key fun a _ => hc a

end

end Json
