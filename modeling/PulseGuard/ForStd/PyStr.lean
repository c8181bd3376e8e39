import Mathlib.Data.List.Infix

/-!
# Python string methods

`str.split`, `str.split(sep)`, `str.lower`, `str.upper`, the substring test and
`int(text)`, on Lean strings. A Python `str` is a sequence of code points, so every
function works on the list of characters. `int?_toString` reads a printed number back.
-/

namespace PyStr

/-- Code points `str.isspace` accepts; `split()` separates on runs of them. -/
def isSpace (c : Char) : Bool :=
  let n := c.toNat
  (9 ≤ n && n ≤ 13) || (28 ≤ n && n ≤ 32) || n == 0x85 || n == 0xA0 || n == 0x1680 ||
    (0x2000 ≤ n && n ≤ 0x200A) || n == 0x2028 || n == 0x2029 || n == 0x202F ||
    n == 0x205F || n == 0x3000

/-- `text.split()`: the maximal runs of non-space characters. -/
def split (text : String) : List String :=
  ((text.toList.splitOnP isSpace).filter (!·.isEmpty)).map String.ofList

/-- `text.split(sep)` for a one-character separator: empty pieces are kept. -/
def splitOn (sep : Char) (text : String) : List String :=
  (text.toList.splitOnP (· == sep)).map String.ofList

/-- `text.strip()` -/
def strip (text : String) : String :=
  String.ofList (((text.toList.dropWhile isSpace).reverse.dropWhile isSpace).reverse)

/-- The first and the last item of `text.partition(sep)` for a one-character separator. -/
def partition (sep : Char) (text : String) : String × String :=
  let before := text.toList.takeWhile (· != sep)
  (String.ofList before, String.ofList (text.toList.drop (before.length + 1)))

/-- `text.lower()`. Only the ASCII letters are mapped. -/
def lower (text : String) : String := String.ofList (text.toList.map Char.toLower)

/-- The code points outside ASCII whose upper case is made of ASCII letters. -/
def upperToAscii : List (Nat × String) :=
  [(0xDF, "SS"), (0x131, "I"), (0x17F, "S"), (0xFB00, "FF"), (0xFB01, "FI"), (0xFB02, "FL"),
    (0xFB03, "FFI"), (0xFB04, "FFL"), (0xFB05, "ST"), (0xFB06, "ST")]

/-- `text.upper()`. ASCII letters, and the characters whose upper case is ASCII;
    every other character is kept. -/
def upper (text : String) : String :=
  String.ofList <| text.toList.flatMap fun c =>
    match upperToAscii.lookup c.toNat with
    | some u => u.toList
    | none => [c.toUpper]

/-- `needle in text` -/
def contains (text needle : String) : Bool := decide (needle.toList <:+: text.toList)

/-- The zero digit of every run of ten decimal digits (Unicode category `Nd`). -/
def decimalZeros : List Nat :=
  [0x30, 0x660, 0x6f0, 0x7c0, 0x966, 0x9e6, 0xa66, 0xae6, 0xb66, 0xbe6, 0xc66, 0xce6,
    0xd66, 0xde6, 0xe50, 0xed0, 0xf20, 0x1040, 0x1090, 0x17e0, 0x1810, 0x1946, 0x19d0,
    0x1a80, 0x1a90, 0x1b50, 0x1bb0, 0x1c40, 0x1c50, 0xa620, 0xa8d0, 0xa900, 0xa9d0, 0xa9f0,
    0xaa50, 0xabf0, 0xff10, 0x104a0, 0x10d30, 0x11066, 0x110f0, 0x11136, 0x111d0, 0x112f0,
    0x11450, 0x114d0, 0x11650, 0x116c0, 0x11730, 0x118e0, 0x11950, 0x11c50, 0x11d50,
    0x11da0, 0x16a60, 0x16ac0, 0x16b50, 0x1d7ce, 0x1d7d8, 0x1d7e2, 0x1d7ec, 0x1d7f6,
    0x1e140, 0x1e2f0, 0x1e950, 0x1fbf0]

/-- The value of a decimal digit in any script. -/
def digit? (c : Char) : Option Nat :=
  (decimalZeros.find? fun z => z ≤ c.toNat && c.toNat < z + 10).map (c.toNat - ·)

/-- Digits with single underscores between them, read onto the value `acc`; `open_`
    says that a digit must come next (at the start, or after an underscore). -/
def digits? (acc : Nat) (open_ : Bool) : List Char → Option Nat
  | [] => if open_ then none else some acc
  | c :: cs =>
    match digit? c with
    | some d => digits? (10 * acc + d) false cs
    | none => if c == '_' && !open_ then digits? acc true cs else none

/-- `int(text)` for a text without surrounding space: an optional sign and a
    decimal literal; `none` where Python raises `ValueError`. -/
def int? (text : String) : Option Int :=
  match text.toList with
  | '+' :: cs => (digits? 0 true cs).map Int.ofNat
  | '-' :: cs => (digits? 0 true cs).map fun n => -Int.ofNat n
  | cs => (digits? 0 true cs).map Int.ofNat

example : split " 15  Minutes" = ["15", "Minutes"] := by decide

example : int? "-1_0" = some (-10) := by decide

theorem isDigit_iff {c : Char} : c.isDigit = true ↔ 48 ≤ c.toNat ∧ c.toNat ≤ 57 := by
  have hzero : '0'.val.toNat = 48 := rfl
  have hnine : '9'.val.toNat = 57 := rfl
  have hval : c.toNat = c.val.toNat := rfl
  unfold Char.isDigit
  simp only [Bool.and_eq_true, decide_eq_true_eq, ge_iff_le, UInt32.le_iff_toNat_le]
  omega

theorem digit?_of_isDigit {c : Char} (h : c.isDigit = true) : digit? c = some (c.toNat - '0'.toNat) := by
  have hrange := isDigit_iff.mp h
  have hzero : '0'.toNat = 48 := rfl
  unfold digit? decimalZeros
  rw [List.find?_cons_of_pos]
  · rfl
  · simp only [Bool.and_eq_true, decide_eq_true_eq]
    omega

theorem digits?_eq {cs : List Char} (h : ∀ c ∈ cs, c.isDigit = true) (acc : Nat) :
    digits? acc false cs = some (Nat.ofDigitChars 10 cs acc) := by
  induction cs generalizing acc with
  | nil => rw [Nat.ofDigitChars_nil]; rfl
  | cons c rest ih =>
    rw [List.forall_mem_cons] at h
    rw [digits?, digit?_of_isDigit h.1, Nat.ofDigitChars_cons]
    exact ih h.2 _

theorem isDigit_toDigits {n : Nat} {c : Char} (h : c ∈ Nat.toDigits 10 n) : c.isDigit = true :=
  Nat.isDigit_of_mem_toDigits (by decide) (by decide) h

theorem digits?_toDigits (n : Nat) : digits? 0 true (Nat.toDigits 10 n) = some n := by
  have hdigits : ∀ c ∈ Nat.toDigits 10 n, c.isDigit = true := fun c hc => isDigit_toDigits hc
  have hvalue := digits?_eq hdigits 0
  rw [Nat.ofDigitChars_ten_toDigits] at hvalue
  cases hcs : Nat.toDigits 10 n with
  | nil => exact absurd hcs Nat.toDigits_ne_nil
  | cons c rest =>
    rw [hcs] at hdigits hvalue
    have hc := digit?_of_isDigit (hdigits c List.mem_cons_self)
    rw [digits?, hc] at hvalue ⊢
    exact hvalue

theorem int?_toString (n : Int) : int? (toString n) = some n := by
  rw [Int.toString_eq_repr, Int.repr_eq_if]
  by_cases hn : 0 ≤ n
  · rw [if_pos hn]
    have hdigits : ∀ c ∈ Nat.toDigits 10 n.toNat, c.isDigit = true := fun c hc => isDigit_toDigits hc
    have hvalue := digits?_toDigits n.toNat
    unfold int?
    rw [Nat.toList_repr]
    generalize Nat.toDigits 10 n.toNat = cs at hdigits hvalue
    split
    · exact absurd (hdigits '+' List.mem_cons_self) (by decide)
    · exact absurd (hdigits '-' List.mem_cons_self) (by decide)
    · rw [hvalue, Option.map_some]
      congr 1
      exact Int.toNat_of_nonneg hn
  · rw [if_neg hn]
    have hlist : ("-" ++ (-n).toNat.repr).toList = '-' :: Nat.toDigits 10 (-n).toNat := by
      rw [String.toList_append, Nat.toList_repr]
      rfl
    unfold int?
    rw [hlist]
    simp only [digits?_toDigits, Option.map_some]
    congr 1
    simp only [Int.ofNat_eq_natCast]
    omega

/-- The text is a number in ASCII digits, with a minus sign if it is negative. -/
structure Decimal (text : String) (n : Int) : Prop where
  digits : ∀ c ∈ text.toList, c.isDigit = true ∨ c = '-'
  value : int? text = some n

theorem decimal_toString (n : Int) : Decimal (toString n) n := by
  refine ⟨fun c hc => ?_, int?_toString n⟩
  rw [Int.toString_eq_repr, Int.repr_eq_if] at hc
  split at hc
  · rw [Nat.toList_repr] at hc
    exact Or.inl (isDigit_toDigits hc)
  · rw [String.toList_append, Nat.toList_repr, List.mem_append] at hc
    cases hc with
    | inl hsign => exact Or.inr (List.mem_singleton.mp hsign)
    | inr hdigit => exact Or.inl (isDigit_toDigits hdigit)

section Decimal

variable {text : String} {n : Int} (h : Decimal text n)

include h

/-- A number has no space and no letter. -/
theorem Decimal.char {c : Char} (hc : c ∈ text.toList) :
    isSpace c = false ∧ c.toLower = c ∧ c ≠ 'h' := by
  rcases h.digits c hc with hdigit | rfl
  · have hall : ∀ k < 10, isSpace (Char.ofNat (48 + k)) = false ∧
        (Char.ofNat (48 + k)).toLower = Char.ofNat (48 + k) ∧ Char.ofNat (48 + k) ≠ 'h' := by decide
    have hrange := isDigit_iff.mp hdigit
    have hdigit := hall (c.toNat - 48) (by omega)
    have hcode : 48 + (c.toNat - 48) = c.toNat := by omega
    rwa [hcode, Char.ofNat_toNat] at hdigit
  · decide

/-- The first word of a text that starts with a number and a space is the number. -/
theorem Decimal.split (rest : String) : split (text ++ " " ++ rest) = text :: PyStr.split rest := by
  have hne : text.toList ≠ [] := by
    intro hnil
    have hvalue := h.value
    unfold int? at hvalue
    rw [hnil] at hvalue
    cases hvalue
  have hlist : (text ++ " " ++ rest).toList = text.toList ++ ' ' :: rest.toList := by
    rw [String.toList_append, String.toList_append, List.append_assoc]
    rfl
  unfold PyStr.split
  rw [hlist, List.splitOnP_append_cons_of_forall_mem (fun c hc => (h.char hc).1) ' ' rfl,
    List.filter_cons_of_pos (by simpa using hne), List.map_cons, String.ofList_toList]

/-- A number in front of a text in lower case leaves it in lower case. -/
theorem Decimal.lower {rest : String} (hrest : PyStr.lower rest = rest) :
    PyStr.lower (text ++ rest) = text ++ rest := by
  have hnumber : text.toList.map Char.toLower = text.toList := by
    rw [List.map_congr_left fun c hc => (h.char hc).2.1, List.map_id']
  have hlower : PyStr.lower (text ++ rest) =
      String.ofList (text.toList.map Char.toLower) ++ PyStr.lower rest := by
    unfold PyStr.lower
    rw [String.toList_append, List.map_append, String.ofList_append]
  rw [hlower, hnumber, hrest, String.ofList_toList]

end Decimal

end PyStr
