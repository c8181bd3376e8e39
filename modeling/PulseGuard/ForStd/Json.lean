import PulseGuard.ForStd.PyVal

/-!
# JSON texts

`json.dumps` and `json.loads` on the values of `PyVal`. A text is a list of tokens: how a
string is escaped and a number is spelt, on which the two functions agree, is left out. An
object that names a key twice keeps the later value, at the earlier place.
-/

namespace Json

/-- The tokens of a text, strings and numbers with their values. -/
inductive Token where
  | lbrace | rbrace | lbracket | rbracket | colon | comma
  | null
  | bool (b : Bool)
  | int (n : Int)
  | float (x : PyFloat)
  | str (s : String)

/-! ## Writing -/

mutual

/-- `json.dumps(v)` -/
def dumps : PyVal → List Token
  | .none => [.null]
  | .bool b => [.bool b]
  | .int n => [.int n]
  | .float x => [.float x]
  | .str s => [.str s]
  | .list [] => [.lbracket, .rbracket]
  | .list (x :: xs) => .lbracket :: (dumps x ++ dumpsItems xs)
  | .dict [] => [.lbrace, .rbrace]
  | .dict ((k, v) :: rest) => .lbrace :: .str k :: .colon :: (dumps v ++ dumpsEntries rest)

/-- The further items of an array, and its closing bracket. -/
def dumpsItems : List PyVal → List Token
  | [] => [.rbracket]
  | x :: xs => .comma :: (dumps x ++ dumpsItems xs)

/-- The further entries of an object, and its closing brace. -/
def dumpsEntries : List (String × PyVal) → List Token
  | [] => [.rbrace]
  | (k, v) :: rest => .comma :: .str k :: .colon :: (dumps v ++ dumpsEntries rest)

end

/-! ## Reading -/

/-- The dictionary of the entries of an object. -/
def object (entries : List (String × PyVal)) : PyVal := .dict (Dict.ofList entries).entries

mutual

/-- A value at the front of some tokens, and the tokens after it. -/
def parseValue : (fuel : Nat) → List Token → Option (PyVal × List Token)
  | _ + 1, .null :: rest => some (.none, rest)
  | _ + 1, .bool b :: rest => some (.bool b, rest)
  | _ + 1, .int n :: rest => some (.int n, rest)
  | _ + 1, .float x :: rest => some (.float x, rest)
  | _ + 1, .str s :: rest => some (.str s, rest)
  | _ + 1, .lbracket :: .rbracket :: rest => some (.list [], rest)
  | fuel + 1, .lbracket :: rest => do
    let (x, rest) ← parseValue fuel rest
    let (xs, rest) ← parseItems fuel rest
    return (.list (x :: xs), rest)
  | _ + 1, .lbrace :: .rbrace :: rest => some (.dict [], rest)
  | fuel + 1, .lbrace :: .str k :: .colon :: rest => do
    let (v, rest) ← parseValue fuel rest
    let (entries, rest) ← parseEntries fuel rest
    return (object ((k, v) :: entries), rest)
  | _, _ => none

/-- The further items of an array. -/
def parseItems : (fuel : Nat) → List Token → Option (List PyVal × List Token)
  | _ + 1, .rbracket :: rest => some ([], rest)
  | fuel + 1, .comma :: rest => do
    let (x, rest) ← parseValue fuel rest
    let (xs, rest) ← parseItems fuel rest
    return (x :: xs, rest)
  | _, _ => none

/-- The further entries of an object. -/
def parseEntries : (fuel : Nat) → List Token → Option (List (String × PyVal) × List Token)
  | _ + 1, .rbrace :: rest => some ([], rest)
  | fuel + 1, .comma :: .str k :: .colon :: rest => do
    let (v, rest) ← parseValue fuel rest
    let (entries, rest) ← parseEntries fuel rest
    return ((k, v) :: entries, rest)
  | _, _ => none

end

/-- `json.loads(text)`: the value that all of the text spells, `none` where it raises. -/
def loads (text : List Token) : Option PyVal :=
  match parseValue text.length text with
  | some (v, []) => some v
  | _ => none

/-! ## The round trip -/

mutual

/-- No dictionary inside a value has a key twice, as none in Python has. -/
def distinctKeys : PyVal → Bool
  | .list xs => distinctKeysItems xs
  | .dict entries => decide (entries.map Prod.fst).Nodup && distinctKeysEntries entries
  | _ => true

def distinctKeysItems : List PyVal → Bool
  | [] => true
  | x :: xs => distinctKeys x && distinctKeysItems xs

def distinctKeysEntries : List (String × PyVal) → Bool
  | [] => true
  | (_, v) :: rest => distinctKeys v && distinctKeysEntries rest

end

theorem dumps_ne_nil (v : PyVal) : dumps v ≠ [] := by
  cases v with
  | list xs => cases xs <;> simp [dumps]
  | dict entries => cases entries <;> simp [dumps]
  | _ => simp [dumps]

/-- No value starts with a closing bracket. -/
theorem dumps_append_ne {v : PyVal} {more rest : List Token} :
    dumps v ++ more ≠ .rbracket :: rest := by
  cases v with
  | list xs => cases xs <;> simp [dumps]
  | dict entries => cases entries <;> simp [dumps]
  | _ => simp [dumps]

mutual

/-- A value is read back from its text, whatever follows. -/
theorem parseValue_dumps (v : PyVal) (hv : distinctKeys v = true) (fuel : Nat)
    (hfuel : (dumps v).length ≤ fuel) (rest : List Token) :
    parseValue fuel (dumps v ++ rest) = some (v, rest) := by
  have hpos := List.length_pos_iff.mpr (dumps_ne_nil v)
  obtain ⟨fuel, rfl⟩ := Nat.exists_eq_succ_of_ne_zero (show fuel ≠ 0 by omega)
  match v with
  | .none => rfl
  | .bool b => rfl
  | .int n => rfl
  | .float x => rfl
  | .str s => rfl
  | .list [] => rfl
  | .list (x :: xs) =>
    simp only [distinctKeys, distinctKeysItems, Bool.and_eq_true] at hv
    simp only [dumps, List.length_cons, List.length_append] at hfuel
    have hx := parseValue_dumps x hv.1 fuel (by omega) (dumpsItems xs ++ rest)
    have hxs := parseItems_dumpsItems xs hv.2 fuel (by omega) rest
    simp only [dumps, List.cons_append, List.append_assoc]
    rw [parseValue]
    · simp [hx, hxs]
    · exact fun _ heq => dumps_append_ne heq
  | .dict [] => rfl
  | .dict ((k, w) :: entries) =>
    simp only [distinctKeys, distinctKeysEntries, Bool.and_eq_true, decide_eq_true_eq] at hv
    simp only [dumps, List.length_cons, List.length_append] at hfuel
    have hw := parseValue_dumps w hv.2.1 fuel (by omega) (dumpsEntries entries ++ rest)
    have hentries := parseEntries_dumpsEntries entries hv.2.2 fuel (by omega) rest
    simp only [dumps, List.cons_append, List.append_assoc]
    rw [parseValue]
    simp [hw, hentries, object, Dict.entries_ofList hv.1]

theorem parseItems_dumpsItems (xs : List PyVal) (hxs : distinctKeysItems xs = true) (fuel : Nat)
    (hfuel : (dumpsItems xs).length ≤ fuel) (rest : List Token) :
    parseItems fuel (dumpsItems xs ++ rest) = some (xs, rest) := by
  match xs with
  | [] =>
    obtain ⟨fuel, rfl⟩ := Nat.exists_eq_succ_of_ne_zero
      (show fuel ≠ 0 by simp only [dumpsItems, List.length_singleton] at hfuel; omega)
    rfl
  | x :: xs =>
    simp only [dumpsItems, List.length_cons, List.length_append] at hfuel
    obtain ⟨fuel, rfl⟩ := Nat.exists_eq_succ_of_ne_zero (show fuel ≠ 0 by omega)
    simp only [distinctKeysItems, Bool.and_eq_true] at hxs
    have hx := parseValue_dumps x hxs.1 fuel (by omega) (dumpsItems xs ++ rest)
    have hrest := parseItems_dumpsItems xs hxs.2 fuel (by omega) rest
    simp only [dumpsItems, List.cons_append, List.append_assoc]
    rw [parseItems]
    simp [hx, hrest]

theorem parseEntries_dumpsEntries (entries : List (String × PyVal))
    (h : distinctKeysEntries entries = true) (fuel : Nat)
    (hfuel : (dumpsEntries entries).length ≤ fuel) (rest : List Token) :
    parseEntries fuel (dumpsEntries entries ++ rest) = some (entries, rest) := by
  match entries with
  | [] =>
    obtain ⟨fuel, rfl⟩ := Nat.exists_eq_succ_of_ne_zero
      (show fuel ≠ 0 by simp only [dumpsEntries, List.length_singleton] at hfuel; omega)
    rfl
  | (k, v) :: entries =>
    simp only [dumpsEntries, List.length_cons, List.length_append] at hfuel
    obtain ⟨fuel, rfl⟩ := Nat.exists_eq_succ_of_ne_zero (show fuel ≠ 0 by omega)
    simp only [distinctKeysEntries, Bool.and_eq_true] at h
    have hv := parseValue_dumps v h.1 fuel (by omega) (dumpsEntries entries ++ rest)
    have hrest := parseEntries_dumpsEntries entries h.2 fuel (by omega) rest
    simp only [dumpsEntries, List.cons_append, List.append_assoc]
    rw [parseEntries]
    simp [hv, hrest]

end

/-- `json.loads` gives back what `json.dumps` wrote. -/
theorem loads_dumps {v : PyVal} (h : distinctKeys v = true) : loads (dumps v) = some v := by
  have hparse := parseValue_dumps v h (dumps v).length (le_refl _) []
  rw [List.append_nil] at hparse
  unfold loads
  rw [hparse]

end Json
