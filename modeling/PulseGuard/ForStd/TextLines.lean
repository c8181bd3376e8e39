import PulseGuard.ForStd.PyStr

/-!
# Lines of a text

The lines of a text file as Python reads it, and `str.splitlines`. Lines that are written with
their ends are found again (`lines_unlines_append`), and a text that ends a line can be read apart
from what is appended to it (`lines_append_newline`, `readText_append_newline`).
-/

namespace PyStr

/-- What a file opened as text gives for its characters: `\r\n` and `\r` end lines as `\n` does. -/
def readText : List Char → List Char
  | [] => []
  | '\r' :: '\n' :: cs => '\n' :: readText cs
  | '\r' :: cs => '\n' :: readText cs
  | c :: cs => c :: readText cs

/-- The pieces between the `\n`, the one after the last included. -/
def lines (cs : List Char) : List (List Char) := cs.splitOnP (· == '\n')

/-- Lines, each with its end. -/
def unlines (ls : List (List Char)) : List Char := ls.flatMap (· ++ ['\n'])

/-- The characters that end a line for `str.splitlines`. -/
def endsLine (c : Char) : Bool :=
  let n := c.toNat
  (10 ≤ n && n ≤ 13) || (28 ≤ n && n ≤ 30) || n == 0x85 || n == 0x2028 || n == 0x2029

/-- The loop of `str.splitlines`, over an open line, kept in reverse. -/
def splitlinesFrom (line : List Char) : List Char → List (List Char)
  | [] => if line.isEmpty then [] else [line.reverse]
  | '\r' :: '\n' :: cs => line.reverse :: splitlinesFrom [] cs
  | c :: cs =>
    if endsLine c then line.reverse :: splitlinesFrom [] cs else splitlinesFrom (c :: line) cs

/-- `text.splitlines()` -/
def splitlines (cs : List Char) : List (List Char) := splitlinesFrom [] cs

/-! ## Lines -/

theorem lines_append_newline (cs more : List Char) :
    lines (cs ++ '\n' :: more) = lines cs ++ lines more :=
  List.splitOnP_append_cons cs more rfl

@[simp] theorem lines_nil : lines [] = [[]] := rfl

/-- Lines that hold no line end are found again. -/
theorem lines_unlines_append {ls : List (List Char)} (h : ∀ l ∈ ls, '\n' ∉ l) (more : List Char) :
    lines (unlines ls ++ more) = ls ++ lines more := by
  induction ls with
  | nil => rfl
  | cons l ls ih =>
    obtain ⟨hl, hls⟩ := List.forall_mem_cons.mp h
    have hline : lines l = [l] := List.splitOnP_eq_singleton (by
      intro c hc
      simpa using fun heq : c = '\n' => hl (heq ▸ hc))
    have hcons : unlines (l :: ls) ++ more = l ++ '\n' :: (unlines ls ++ more) := by
      simp [unlines]
    rw [hcons, lines_append_newline, hline, ih hls]
    rfl

/-- The first line ends before the first `\n`. -/
theorem exists_lines_eq (cs : List Char) : ∃ first others, lines cs = first :: others :=
  List.exists_cons_of_ne_nil (List.splitOnP_ne_nil _ _)

/-- Characters in front of the first line. -/
theorem lines_append {l : List Char} (h : '\n' ∉ l) (more : List Char) :
    lines (l ++ more) = (lines more).modifyHead (l ++ ·) := by
  induction l with
  | nil =>
    obtain ⟨first, others, hlines⟩ := exists_lines_eq more
    simp [hlines]
  | cons c l ih =>
    have hc : (c == '\n') = false := by
      simpa using fun heq : c = '\n' => h (heq ▸ List.mem_cons_self)
    have hrest := ih fun hmem => h (List.mem_cons_of_mem _ hmem)
    unfold lines at hrest ⊢
    rw [List.cons_append, List.splitOnP_cons_eq_if_modifyHead, hrest]
    simp [hc, List.modifyHead_modifyHead, Function.comp_def]

@[simp] theorem unlines_nil : unlines [] = [] := rfl

@[simp] theorem unlines_cons (l : List Char) (ls : List (List Char)) :
    unlines (l :: ls) = l ++ '\n' :: unlines ls := by
  simp [unlines]

@[simp] theorem unlines_append (ls ls' : List (List Char)) :
    unlines (ls ++ ls') = unlines ls ++ unlines ls' := by
  simp [unlines]

/-! ## Words -/

/-- The pieces between separators hold none. -/
theorem not_sep_of_mem_splitOnP {p : Char → Bool} {cs l : List Char} (hl : l ∈ cs.splitOnP p)
    {c : Char} (hc : c ∈ l) : p c = false := by
  -- By induction on the text: a character goes to the first piece or opens a new one.
  induction cs generalizing l with
  | nil =>
    rw [List.splitOnP_nil, List.mem_singleton] at hl
    rw [hl] at hc
    cases hc
  | cons d cs ih =>
    rw [List.splitOnP_cons_eq_if_modifyHead] at hl
    obtain ⟨first, others, hfirst⟩ := List.exists_cons_of_ne_nil (List.splitOnP_ne_nil p cs)
    split at hl
    · rcases List.mem_cons.mp hl with rfl | hl
      · cases hc
      · exact ih hl hc
    · rename_i hd
      rw [hfirst, List.modifyHead_cons] at hl
      rw [hfirst] at ih
      rcases List.mem_cons.mp hl with rfl | hl
      · rcases List.mem_cons.mp hc with rfl | hc
        · simpa using hd
        · exact ih List.mem_cons_self hc
      · exact ih (List.mem_cons_of_mem _ hl) hc

/-- The words of a text with single spaces between them hold no other space. -/
theorem mem_join_split {text : String} {c : Char}
    (hc : c ∈ (String.intercalate " " (split text)).toList) : c = ' ' ∨ isSpace c = false := by
  -- The words have no space in them, and the joints are single spaces.
  have hjoin : ∀ words : List String, (∀ w ∈ words, ∀ c ∈ w.toList, isSpace c = false) →
      ∀ c ∈ (String.intercalate " " words).toList, c = ' ' ∨ isSpace c = false := by
    intro words hwords
    induction words with
    | nil => simp
    | cons word words ih =>
      obtain ⟨hword, hrest⟩ := List.forall_mem_cons.mp hwords
      cases words with
      | nil =>
        rw [String.intercalate_singleton]
        exact fun c hc => .inr (hword c hc)
      | cons word' words =>
        intro c hc
        rw [String.intercalate_cons_cons, String.toList_append, String.toList_append,
          List.mem_append, List.mem_append] at hc
        rcases hc with (hc | hc) | hc
        · exact .inr (hword c hc)
        · have hspace : " ".toList = [' '] := by decide
          rw [hspace] at hc
          exact .inl (List.mem_singleton.mp hc)
        · exact ih hrest c hc
  refine hjoin (split text) ?_ c hc
  intro word hword c hc
  obtain ⟨piece, hpiece, rfl⟩ := List.mem_map.mp hword
  rw [String.toList_ofList] at hc
  exact not_sep_of_mem_splitOnP (List.mem_of_mem_filter hpiece) hc

/-! ## Text mode -/

/-- The text ends a line. -/
def EndsLine (cs : List Char) : Prop := cs.getLast? = some '\n'

theorem EndsLine.exists_eq {cs : List Char} (h : EndsLine cs) : ∃ ds, cs = ds ++ ['\n'] :=
  List.getLast?_eq_some_iff.mp h

theorem endsLine_append_newline (cs : List Char) : EndsLine (cs ++ ['\n']) := by
  simp [EndsLine]

theorem EndsLine.append (cs : List Char) {more : List Char} (h : EndsLine more) :
    EndsLine (cs ++ more) := by
  obtain ⟨ds, rfl⟩ := h.exists_eq
  rw [← List.append_assoc]
  exact endsLine_append_newline _

@[simp] theorem readText_nil : readText [] = [] := rfl

theorem readText_cons {c : Char} (h : c ≠ '\r') (cs : List Char) :
    readText (c :: cs) = c :: readText cs :=
  readText.eq_4 c cs (fun _ hc _ => h hc) h

theorem readText_return_cons {d : Char} (h : d ≠ '\n') (cs : List Char) :
    readText ('\r' :: d :: cs) = '\n' :: readText (d :: cs) :=
  readText.eq_3 (d :: cs) fun _ heq => h (List.cons.inj heq).1

/-- Characters without `\r` are read as they are. -/
theorem readText_append_of_not_mem {cs : List Char} (h : '\r' ∉ cs) (more : List Char) :
    readText (cs ++ more) = cs ++ readText more := by
  induction cs with
  | nil => rfl
  | cons c cs ih =>
    have hc : c ≠ '\r' := fun heq => h (heq ▸ List.mem_cons_self)
    rw [List.cons_append, readText_cons hc, ih fun hmem => h (List.mem_cons_of_mem _ hmem)]
    rfl

/-- What is appended to a text that ends a line is read on its own. -/
theorem readText_append {cs : List Char} (h : EndsLine cs) (more : List Char) :
    readText (cs ++ more) = readText cs ++ readText more := by
  obtain ⟨ds, rfl⟩ := h.exists_eq
  clear h
  have hend : readText ('\n' :: more) = '\n' :: readText more := readText_cons (by decide) more
  induction ds using readText.induct with
  | case1 => simp [readText, hend]
  | case2 ds ih =>
    simp only [List.cons_append, readText] at ih ⊢
    rw [ih]
  | case3 ds hpair ih =>
    -- A `\r` before the end of the line makes one line end with it.
    cases ds with
    | nil => simp [readText]
    | cons d ds =>
      have hd : d ≠ '\n' := fun hd => hpair ds (by rw [hd])
      simp only [List.cons_append] at ih ⊢
      rw [readText_return_cons hd, readText_return_cons hd, ih]
      rfl
  | case4 c ds _ hsingle ih =>
    simp only [List.cons_append] at ih ⊢
    rw [readText_cons hsingle, readText_cons hsingle, ih]
    rfl

/-- And reads as one that ends a line. -/
theorem EndsLine.readText {cs : List Char} (h : EndsLine cs) : EndsLine (readText cs) := by
  obtain ⟨ds, rfl⟩ := h.exists_eq
  clear h
  induction ds using readText.induct with
  | case1 => rfl
  | case2 ds ih =>
    rw [List.cons_append, List.cons_append, PyStr.readText]
    exact EndsLine.append ['\n'] ih
  | case3 ds hpair ih =>
    cases ds with
    | nil => rfl
    | cons d ds =>
      have hd : d ≠ '\n' := fun hd => hpair ds (by rw [hd])
      rw [List.cons_append, List.cons_append, readText_return_cons hd]
      exact EndsLine.append ['\n'] ih
  | case4 c ds _ hsingle ih =>
    rw [List.cons_append, readText_cons hsingle]
    exact EndsLine.append [c] ih

/-! ## `str.splitlines` -/

/-- The pieces of `str.splitlines` hold no character that ends a line. -/
theorem endsLine_splitlines {cs l : List Char} (hl : l ∈ splitlines cs) {c : Char} (hc : c ∈ l) :
    endsLine c = false := by
  -- The line that is being read has no character that ends one; this is what the induction
  -- carries.
  have hfrom : ∀ line, (∀ c ∈ line, endsLine c = false) → ∀ l ∈ splitlinesFrom line cs, ∀ c ∈ l,
      endsLine c = false := by
    intro line hline
    clear hl hc
    have hreverse : ∀ {line : List Char}, (∀ c ∈ line, endsLine c = false) →
        ∀ c ∈ line.reverse, endsLine c = false :=
      fun hline c hc => hline c (List.mem_reverse.mp hc)
    induction line, cs using splitlinesFrom.induct with
    | case1 line hempty => simp [splitlinesFrom, hempty]
    | case2 line hempty =>
      rw [splitlinesFrom, if_neg hempty]
      exact List.forall_mem_singleton.mpr (hreverse hline)
    | case3 line cs ih =>
      rw [splitlinesFrom]
      exact List.forall_mem_cons.mpr ⟨hreverse hline, ih (by simp)⟩
    | case4 line c cs hpair hend ih =>
      rw [splitlinesFrom, if_pos hend]
      · exact List.forall_mem_cons.mpr ⟨hreverse hline, ih (by simp)⟩
      · exact hpair
    | case5 line c cs hpair hend ih =>
      rw [splitlinesFrom, if_neg hend]
      · exact ih (List.forall_mem_cons.mpr ⟨by simpa using hend, hline⟩)
      · exact hpair
  exact hfrom [] (by simp) l hl c hc

end PyStr
