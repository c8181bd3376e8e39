import PulseGuard.ForStd.Except
import PulseGuard.Native.UsageLog

/-!
# The log of AI calls numbers its entries

Every entry is under a greater number than all before it, whatever the texts that are logged
(`numbers_increase`): they can hold lines that read as headings, which only leaves numbers out.
The prompt cannot, as each of its lines is quoted, and the calls of a provider log no other text
with line breaks; so their entries are numbered one by one, and the wrapper changes nothing of
what the provider answers (`providerCalls_numbered`).
-/

namespace PulseGuard

namespace UsageLog

open PyStr

/-! ## Headings -/

/-- The value of a run of decimal digits. -/
def value (digits : List Char) : Nat := (digits? 0 true digits).getD 0

/-- The digits in the headings of a text. -/
def headings (text : List Char) : List (List Char) := findHeadings (readText text)

/-- The numbers in the headings of a text. -/
def numbers (text : List Char) : List Nat := (headings text).map value

/-- What a line without the sign of a heading is to the scan. -/
theorem headingDigits_eq_none {line : List Char} (h : line.head? ≠ some '#') :
    headingDigits line = none := by
  unfold headingDigits
  rw [if_neg]
  intro hprefix
  obtain ⟨rest, rfl⟩ := List.isPrefixOf_iff_prefix.mp hprefix
  exact h rfl

/-- A heading is found with its number. -/
theorem headingDigits_heading {digits : List Char} (hne : digits ≠ [])
    (hdigits : ∀ c ∈ digits, c.isDigit = true) (rest : List Char) :
    headingDigits (heading ++ (digits ++ ' ' :: rest)) = some digits := by
  have hspace : (digit? ' ').isSome = false := by decide +kernel
  have htake : (digits ++ ' ' :: rest).takeWhile (fun c => (digit? c).isSome) = digits := by
    have hall : ∀ c ∈ digits, (digit? c).isSome = true := by
      intro c hc
      rw [digit?_of_isDigit (hdigits c hc)]
      rfl
    rw [List.takeWhile_append_of_pos hall, List.takeWhile_cons_of_neg (by simp [hspace])]
    simp
  unfold headingDigits
  rw [if_pos (List.isPrefixOf_iff_prefix.mpr (List.prefix_append _ _)), List.drop_left]
  simp only [htake]
  rw [if_neg (by simpa using hne)]

/-- What is appended to a text that ends a line adds its headings. -/
theorem headings_append {text : List Char} (h : EndsLine text) (more : List Char) :
    headings (text ++ more) = headings text ++ headings more := by
  obtain ⟨ds, hds⟩ := h.readText.exists_eq
  have hempty : headingDigits [] = none := headingDigits_eq_none (by simp)
  unfold headings findHeadings
  rw [readText_append h, hds, List.append_assoc, List.singleton_append, lines_append_newline,
    lines_append_newline]
  simp [hempty]

theorem numbers_append {text : List Char} (h : EndsLine text) (more : List Char) :
    numbers (text ++ more) = numbers text ++ numbers more := by
  unfold numbers
  rw [headings_append h, List.map_append]

/-- A text that starts with a heading has its digits. -/
theorem mem_headings {digits : List Char} (hne : digits ≠ [])
    (hdigits : ∀ c ∈ digits, c.isDigit = true) (rest : List Char) :
    digits ∈ headings (heading ++ (digits ++ ' ' :: rest)) := by
  -- Neither the heading nor the digits end a line, so they stay in front of what comes after
  -- them.
  have hplain : ∀ c ∈ heading ++ (digits ++ [' ']), c ≠ '\r' ∧ c ≠ '\n' := by
    intro c hc
    rcases List.mem_append.mp hc with hc | hc
    · have hsigns : '\r' ∉ heading ∧ '\n' ∉ heading := by decide
      exact ⟨fun heq => hsigns.1 (heq ▸ hc), fun heq => hsigns.2 (heq ▸ hc)⟩
    · rcases List.mem_append.mp hc with hc | hc
      · have hdigit := hdigits c hc
        constructor <;> (rintro rfl; exact absurd hdigit (by decide))
      · rw [List.mem_singleton.mp hc]
        decide
  have htext : heading ++ (digits ++ ' ' :: rest) = (heading ++ (digits ++ [' '])) ++ rest := by simp
  obtain ⟨first, others, hlines⟩ := exists_lines_eq (readText rest)
  have hread : lines (readText (heading ++ (digits ++ ' ' :: rest))) =
      (heading ++ (digits ++ ' ' :: first)) :: others := by
    rw [htext, readText_append_of_not_mem fun hmem => (hplain _ hmem).1 rfl,
      lines_append fun hmem => (hplain _ hmem).2 rfl, hlines]
    simp
  unfold headings findHeadings
  rw [hread, List.filterMap_cons_some (headingDigits_heading hne hdigits first)]
  exact List.mem_cons_self

/-- The headings among lines. -/
theorem headings_unlines {ls : List (List Char)} (h : ∀ l ∈ ls, '\n' ∉ l ∧ '\r' ∉ l) :
    headings (unlines ls) = ls.filterMap headingDigits := by
  have hreturn : '\r' ∉ unlines ls := by
    intro hmem
    obtain ⟨l, hl, hc⟩ := List.mem_flatMap.mp hmem
    rcases List.mem_append.mp hc with hc | hc
    · exact (h l hl).2 hc
    · exact absurd (List.mem_singleton.mp hc) (by decide)
  -- Reading the text and cutting it into lines gives these lines back, with an empty one at the
  -- end.
  have hread := readText_append_of_not_mem hreturn []
  have hlines := lines_unlines_append (fun l hl => (h l hl).1) []
  have hempty : headingDigits [] = none := headingDigits_eq_none (by simp)
  rw [List.append_nil, readText_nil, List.append_nil] at hread
  rw [List.append_nil] at hlines
  unfold headings findHeadings
  rw [hread, hlines]
  simp [hempty]

/-- A new log has no entry. -/
theorem headings_logHeader : headings logHeader.toList = [] := by decide +kernel

/-! ## Numbers -/

theorem toList_toString (n : Nat) : (toString n).toList = Nat.toDigits 10 n := by
  simp [Nat.repr]

theorem value_toDigits (n : Nat) : value (Nat.toDigits 10 n) = n := by
  rw [value, digits?_toDigits]
  rfl

theorem printNumber_ok {n : Nat} {printed : String} (h : printNumber n = .ok printed) :
    printed.toList = Nat.toDigits 10 n := by
  unfold printNumber at h
  simp only at h
  split at h
  · cases h
  · cases h
    exact toList_toString n

theorem readNumber_ok {digits : List Char} {n : Nat} (h : readNumber digits = .ok n) :
    n = value digits := by
  unfold readNumber at h
  split at h
  · cases h
  · cases h
    rfl

/-- The next number is the one after the greatest. -/
theorem nextEntryNumber_ok {text : String} {n : Nat} (h : nextEntryNumber (some text) = .ok n) :
    n = (numbers text.toList).foldl max 0 + 1 := by
  obtain ⟨found, hfound, h⟩ := Except.bind_ok_iff.mp h
  have hvalues : found = numbers text.toList := by
    have hall := Except.mapM_ok_iff.mp hfound
    unfold numbers headings
    clear hfound h
    generalize findHeadings (readText text.toList) = digits at hall ⊢
    induction hall with
    | nil => rfl
    | cons hread _ ih => rw [readNumber_ok hread, ih, List.map_cons]
  rw [hvalues] at h
  cases h
  rfl

theorem le_foldl_max {ns : List Nat} {a m : Nat} (h : m ≤ a ∨ m ∈ ns) : m ≤ ns.foldl max a := by
  induction ns generalizing a with
  | nil => simpa using h
  | cons n ns ih =>
    apply ih
    rcases h with hle | hmem
    · omega
    · rcases List.mem_cons.mp hmem with rfl | hmem
      · omega
      · exact .inr hmem

/-! ## Entries -/

/-- What is appended for an entry. -/
def appended (written : String) : String := written ++ "\n---\n\n"

/-- A call of the logger appends an entry, or leaves the file as it was read. -/
theorem logEntry_cases (env : Env) (entry : Entry) (file : Option String) :
    (∃ e, logEntry env entry file = (.error e, some (file.getD logHeader))) ∨
    ∃ n written, nextEntryNumber (some (file.getD logHeader)) = .ok n ∧
      formatEntry n entry (orElse entry.author (env.author.getD "unknown"))
        (orElse entry.timestamp env.now) = .ok written ∧
      logEntry env entry file = (.ok n, some (file.getD logHeader ++ appended written)) := by
  unfold logEntry
  simp only
  cases hnext : nextEntryNumber (some (file.getD logHeader)) with
  | error e => exact .inl ⟨e, rfl⟩
  | ok n =>
    cases hformat : formatEntry n entry (orElse entry.author (env.author.getD "unknown"))
        (orElse entry.timestamp env.now) with
    | error e => exact .inl ⟨e, by simp [bind, Except.bind, hformat]⟩
    | ok written => exact .inr ⟨n, written, rfl, hformat, by simp [bind, Except.bind, hformat, pure, Except.pure, appended]⟩

theorem endsLine_appended (written : String) : EndsLine (appended written).toList := by
  unfold appended
  rw [String.toList_append]
  apply EndsLine.append
  show "\n---\n\n".toList.getLast? = some '\n'
  decide

/-- An entry starts with its heading. -/
theorem toList_appended {n : Nat} {entry : Entry} {author timestamp written : String}
    (h : formatEntry n entry author timestamp = .ok written) :
    ∃ rest, (appended written).toList = heading ++ (Nat.toDigits 10 n ++ ' ' :: rest) := by
  obtain ⟨printed, hprinted, h⟩ := Except.bind_ok_iff.mp h
  rw [Except.pure_ok_iff] at h
  subst h
  have hdash : " — ".toList = ' ' :: ['—', ' '] := by decide
  unfold appended
  simp only [String.toList_append, List.append_assoc, printNumber_ok hprinted, hdash,
    List.cons_append]
  exact ⟨_, rfl⟩

/-- And has its own number in it. -/
theorem mem_numbers_appended {n : Nat} {entry : Entry} {author timestamp written : String}
    (h : formatEntry n entry author timestamp = .ok written) :
    n ∈ numbers (appended written).toList := by
  obtain ⟨rest, hrest⟩ := toList_appended h
  have hmem : Nat.toDigits 10 n ∈ headings (heading ++ (Nat.toDigits 10 n ++ ' ' :: rest)) :=
    mem_headings Nat.toDigits_ne_nil (fun c hc => isDigit_toDigits hc) rest
  rw [hrest]
  exact List.mem_map.mpr ⟨_, hmem, value_toDigits n⟩

/-! ## Runs -/

/-- The text that the next entry is appended to. -/
def fileText (file : Option String) : List Char := (file.getD logHeader).toList

theorem endsLine_logHeader : EndsLine logHeader.toList := by
  show logHeader.toList.getLast? = some '\n'
  decide +kernel

/-- One call: the file grows at its end, and a number that is given is greater than all before
    it, and in the file. -/
theorem logEntry_grows (env : Env) (entry : Entry) {file : Option String}
    (hfile : EndsLine (fileText file)) :
    let logged := logEntry env entry file
    EndsLine (fileText logged.2) ∧ fileText file <+: fileText logged.2 ∧
      (∀ m ∈ numbers (fileText file), m ∈ numbers (fileText logged.2)) ∧
      ∀ n, logged.1 = .ok n →
        (∀ m ∈ numbers (fileText file), m < n) ∧ n ∈ numbers (fileText logged.2) := by
  intro logged
  subst logged
  rcases logEntry_cases env entry file with ⟨e, hlog⟩ | ⟨n, written, hnext, hformat, hlog⟩
  · rw [hlog]
    refine ⟨hfile, List.prefix_refl _, fun m hm => hm, ?_⟩
    intro n hn
    cases hn
  · rw [hlog]
    have hafter : fileText (some (file.getD logHeader ++ appended written)) =
        fileText file ++ (appended written).toList := String.toList_append
    -- The file ends with a line, so the entry adds its headings and joins none.
    have hnumbers := numbers_append hfile (appended written).toList
    refine ⟨?_, ?_, ?_, ?_⟩
    · rw [hafter]
      exact EndsLine.append _ (endsLine_appended written)
    · rw [hafter]
      exact List.prefix_append _ _
    · intro m hm
      rw [hafter, hnumbers]
      exact List.mem_append_left _ hm
    · intro n' hn
      cases hn
      refine ⟨?_, ?_⟩
      · intro m hm
        have hle := le_foldl_max (a := 0) (.inr hm)
        have hnext := nextEntryNumber_ok hnext
        unfold fileText at hle
        omega
      · rw [hafter, hnumbers]
        exact List.mem_append_right _ (mem_numbers_appended hformat)

/-- The numbers that were given. -/
def given (results : List (Except PyError Nat)) : List Nat := results.filterMap Except.toOption

/-- Entries are never given a number twice: whatever is logged, in any order and with any texts,
    on a file that ends its last line, the file only grows at its end, every number that is given
    is greater than all those given before it, and than all that the file had in headings. -/
theorem numbers_increase (calls : List (Env × Entry)) {file : Option String}
    (hfile : EndsLine (fileText file)) :
    let logged := logEntries calls file
    fileText file <+: fileText logged.2 ∧ (given logged.1).Pairwise (· < ·) ∧
      ∀ n ∈ given logged.1, ∀ m ∈ numbers (fileText file), m < n := by
  -- By induction on the entries, over the file that each one finds.
  induction calls generalizing file with
  | nil => exact ⟨List.prefix_refl _, .nil, by simp [given, logEntries]⟩
  | cons call calls ih =>
    obtain ⟨env, entry⟩ := call
    obtain ⟨hends, hgrown, hkept, hnumber⟩ := logEntry_grows env entry hfile
    obtain ⟨hgrown', hpairwise, hgreater⟩ := ih hends
    have hgiven : given (logEntries ((env, entry) :: calls) file).1 =
        (logEntry env entry file).1.toOption.toList ++
          given (logEntries calls (logEntry env entry file).2).1 := by
      unfold given
      rw [logEntries, List.filterMap_cons]
      cases (logEntry env entry file).1 <;> rfl
    have hfirst : ∀ n ∈ (logEntry env entry file).1.toOption.toList,
        (logEntry env entry file).1 = .ok n := by
      intro n hn
      cases hresult : (logEntry env entry file).1 with
      | error e => simp [hresult, Except.toOption] at hn
      | ok m => simpa [hresult, Except.toOption, eq_comm] using hn
    refine ⟨hgrown.trans hgrown', ?_, ?_⟩
    · rw [hgiven, List.pairwise_append]
      refine ⟨?_, hpairwise, ?_⟩
      · cases (logEntry env entry file).1 <;> simp [Except.toOption]
      · -- The number of this entry is in the file that the later ones find.
        intro n hn n' hn'
        exact hgreater n' hn' n (hnumber n (hfirst n hn)).2
    · rw [hgiven]
      intro n hn m hm
      rcases List.mem_append.mp hn with hnow | hlater
      · exact (hnumber n (hfirst n hnow)).1 m hm
      · exact hgreater n hlater m (hkept m hm)

/-- An entry with a title. -/
def entryTitled (title : String) : Env × Entry :=
  (⟨none, "2025-01-01 00:00 UTC"⟩,
    { title, aiTool := "", taskModule := "", prompt := "", outputSummary := "" })

/-- Three entries, the second with a title that goes on with a heading of its own. -/
def forgedEntries : List (Env × Entry) :=
  [entryTitled "first", entryTitled "second\n### Entry #7", entryTitled "third"]

/-- The three have three numbers, as a new log gives them. -/
theorem numbers_increase_forged :
    (given (logEntries forgedEntries none).1).Pairwise (· < ·) ∧
      logHeader.toList <+: fileText (logEntries forgedEntries none).2 :=
  have h := @numbers_increase forgedEntries none endsLine_logHeader
  ⟨h.2.1, h.1⟩

/-! ## Entries without line breaks -/

/-- A text that is on one line. -/
def OneLine (text : String) : Prop := '\n' ∉ text.toList ∧ '\r' ∉ text.toList

theorem OneLine.append {text text' : String} (h : OneLine text) (h' : OneLine text') :
    OneLine (text ++ text') := by
  unfold OneLine at *
  rw [String.toList_append]
  simp [h.1, h.2, h'.1, h'.2]

/-- The texts of an entry, but for its prompt, are each on one line. -/
structure Entry.Flat (env : Env) (entry : Entry) : Prop where
  title : OneLine entry.title
  aiTool : OneLine entry.aiTool
  taskModule : OneLine entry.taskModule
  outputSummary : OneLine entry.outputSummary
  decision : OneLine entry.decision
  modifiedReason : OneLine entry.modifiedReason
  validation : OneLine entry.validation
  bugsFound : OneLine entry.bugsFound
  author : OneLine (orElse entry.author (env.author.getD "unknown"))
  timestamp : OneLine (orElse entry.timestamp env.now)

/-- The lines of an entry after its heading. -/
def entryLines (entry : Entry) (author timestamp : String) : List String :=
  ["- *Timestamp / author:* " ++ timestamp ++ " — " ++ author,
    "- *AI tool + model:* " ++ entry.aiTool,
    "- *Task / module:* " ++ entry.taskModule,
    "- *Prompt (verbatim):*"] ++
  quotedPrompt entry.prompt ++
  ["- *AI output summary:* " ++ entry.outputSummary,
    "- *Decision:* " ++ entry.decision,
    "- *If modified/rejected, why:* " ++
      (if entry.modifiedReason.isEmpty then "n/a" else entry.modifiedReason),
    "- *How it was validated:* " ++ entry.validation,
    "- *Bugs found (if any) and resolution:* " ++ entry.bugsFound,
    "", "---", ""]

/-- Lines that are joined, with an end for the last. -/
theorem intercalate_newline {ls : List String} (h : ls ≠ []) (more : List Char) :
    (String.intercalate "\n" ls).toList ++ '\n' :: more =
      unlines (ls.map String.toList) ++ more := by
  induction ls with
  | nil => exact absurd rfl h
  | cons l ls ih =>
    cases ls with
    | nil => simp
    | cons l' ls =>
      have hrest := ih (List.cons_ne_nil _ _)
      have hnewline : "\n".toList = ['\n'] := by decide
      rw [String.intercalate_cons_cons, String.toList_append, String.toList_append, hnewline,
        List.append_assoc, List.append_assoc, hrest]
      simp

theorem quotedPrompt_ne_nil (prompt : String) : quotedPrompt prompt ≠ [] := by
  unfold quotedPrompt
  simp only
  split
  · simp
  · rename_i hne
    simpa using hne

/-- A line of a quoted prompt is on one line, and no heading. -/
theorem quotedPrompt_flat {prompt line : String} (h : line ∈ quotedPrompt prompt) :
    OneLine line ∧ line.toList.head? ≠ some '#' := by
  obtain ⟨piece, hpiece, rfl⟩ := List.mem_map.mp h
  have hplain : OneLine piece := by
    split at hpiece
    · rw [List.mem_singleton.mp hpiece]
      exact ⟨by decide, by decide⟩
    · obtain ⟨cs, hcs, rfl⟩ := List.mem_map.mp hpiece
      unfold OneLine
      rw [String.toList_ofList]
      -- `splitlines` ends a line at both characters.
      constructor <;> (intro hmem; exact absurd (endsLine_splitlines hcs hmem) (by decide))
  split
  · exact ⟨⟨by decide, by decide⟩, by decide⟩
  · refine ⟨OneLine.append ⟨by decide, by decide⟩ hplain, ?_⟩
    have hquote : "  > ".toList = ' ' :: [' ', '>', ' '] := by decide
    rw [String.toList_append, hquote]
    simp

/-- An entry is its heading, and its lines. -/
theorem toList_appended_lines {n : Nat} {entry : Entry} {author timestamp written : String}
    (h : formatEntry n entry author timestamp = .ok written) :
    (appended written).toList =
      unlines ((heading ++ (Nat.toDigits 10 n ++ (" — ".toList ++ entry.title.toList))) ::
        (entryLines entry author timestamp).map String.toList) := by
  obtain ⟨printed, hprinted, h⟩ := Except.bind_ok_iff.mp h
  rw [Except.pure_ok_iff] at h
  subst h
  have hnewline : "\n".toList = ['\n'] := by decide
  have hend : "\n---\n\n".toList = ['\n', '-', '-', '-', '\n', '\n'] := by decide
  have hrule : "---".toList = ['-', '-', '-'] := by decide
  have hprompt : "- *Prompt (verbatim):*\n".toList = "- *Prompt (verbatim):*".toList ++ ['\n'] := by
    decide
  unfold appended entryLines heading
  simp only [String.toList_append, List.append_assoc, printNumber_ok hprinted, hnewline, hend,
    List.cons_append, List.nil_append, hprompt, intercalate_newline (quotedPrompt_ne_nil _), List.map_append,
    List.map_cons, List.map_nil, unlines_cons, unlines_append, unlines_nil, hrule, String.toList_empty]

instance (text : String) : Decidable (OneLine text) :=
  inferInstanceAs (Decidable (_ ∧ _))

/-- A label and a text on one line. -/
theorem flat_of_label {label text : String} (hlabel : OneLine label)
    (hhead : label.toList.head? = some '-') (htext : OneLine text) :
    OneLine (label ++ text) ∧ (label ++ text).toList.head? ≠ some '#' := by
  refine ⟨hlabel.append htext, ?_⟩
  rw [String.toList_append, List.head?_append, hhead]
  simp

/-- The lines of a flat entry are on one line each, and no headings. -/
theorem entryLines_flat {env : Env} {entry : Entry} (h : entry.Flat env) :
    ∀ line ∈ entryLines entry (orElse entry.author (env.author.getD "unknown"))
      (orElse entry.timestamp env.now), OneLine line ∧ line.toList.head? ≠ some '#' := by
  -- Every line of the entry starts with a label or with the sign of a quotation.
  have hreason : OneLine (if entry.modifiedReason.isEmpty then "n/a" else entry.modifiedReason) := by
    split
    · decide
    · exact h.modifiedReason
  have hstamp : OneLine (orElse entry.timestamp env.now ++
      (" — " ++ orElse entry.author (env.author.getD "unknown"))) :=
    h.timestamp.append (OneLine.append (by decide) h.author)
  intro line hline
  simp only [entryLines, List.mem_append, List.mem_cons, List.not_mem_nil, or_false] at hline
  rcases hline with (hfirst | hquoted) | hlast
  · rcases hfirst with rfl | rfl | rfl | rfl
    · rw [String.append_assoc, String.append_assoc]
      exact flat_of_label (by decide) (by decide) hstamp
    · exact flat_of_label (by decide) (by decide) h.aiTool
    · exact flat_of_label (by decide) (by decide) h.taskModule
    · decide
  · exact quotedPrompt_flat hquoted
  · rcases hlast with rfl | rfl | rfl | rfl | rfl | rfl | rfl | rfl
    · exact flat_of_label (by decide) (by decide) h.outputSummary
    · exact flat_of_label (by decide) (by decide) h.decision
    · exact flat_of_label (by decide) (by decide) hreason
    · exact flat_of_label (by decide) (by decide) h.validation
    · exact flat_of_label (by decide) (by decide) h.bugsFound
    · decide
    · decide
    · decide

/-- A flat entry has its own heading and no other. -/
theorem headings_appended {env : Env} {n : Nat} {entry : Entry} {written : String}
    (h : formatEntry n entry (orElse entry.author (env.author.getD "unknown"))
      (orElse entry.timestamp env.now) = .ok written) (hflat : entry.Flat env) :
    headings (appended written).toList = [Nat.toDigits 10 n] := by
  have hdash : " — ".toList = ' ' :: ['—', ' '] := by decide
  have hlines := entryLines_flat hflat
  rw [toList_appended_lines h, headings_unlines, List.filterMap_cons, hdash, List.cons_append,
    headingDigits_heading Nat.toDigits_ne_nil (fun c hc => isDigit_toDigits hc)]
  · have hnone : ((entryLines entry (orElse entry.author (env.author.getD "unknown"))
        (orElse entry.timestamp env.now)).map String.toList).filterMap headingDigits = [] := by
      rw [List.filterMap_eq_nil_iff, List.forall_mem_map]
      exact fun line hline => headingDigits_eq_none (hlines line hline).2
    simp [hnone]
  · intro l hl
    rcases List.mem_cons.mp hl with rfl | hl
    · -- The heading is made of signs, digits and the title.
      have hsigns : '\n' ∉ heading ∧ '\r' ∉ heading := by decide
      have hsigns' : '\n' ∉ " — ".toList ∧ '\r' ∉ " — ".toList := by decide
      have hall : ∀ c ∈ heading ++ (Nat.toDigits 10 n ++ (" — ".toList ++ entry.title.toList)),
          c ≠ '\n' ∧ c ≠ '\r' := by
        intro c hc
        simp only [List.mem_append] at hc
        rcases hc with hc | hc | hc | hc
        · exact ⟨fun heq => hsigns.1 (heq ▸ hc), fun heq => hsigns.2 (heq ▸ hc)⟩
        · have hdigit := isDigit_toDigits hc
          constructor <;> (rintro rfl; exact absurd hdigit (by decide))
        · exact ⟨fun heq => hsigns'.1 (heq ▸ hc), fun heq => hsigns'.2 (heq ▸ hc)⟩
        · exact ⟨fun heq => hflat.title.1 (heq ▸ hc), fun heq => hflat.title.2 (heq ▸ hc)⟩
      exact ⟨fun hmem => (hall _ hmem).1 rfl, fun hmem => (hall _ hmem).2 rfl⟩
    · obtain ⟨line, hline, rfl⟩ := List.mem_map.mp hl
      exact (hlines line hline).1

/-! ## Numbered entries -/

/-- The log has the entries up to a number. -/
structure Numbered (file : Option String) (count : Nat) : Prop where
  ends : EndsLine (fileText file)
  headings : headings (fileText file) = (List.range' 1 count).map (Nat.toDigits 10)

/-- A log that is still to be made has none. -/
theorem numbered_none : Numbered none 0 where
  ends := endsLine_logHeader
  headings := headings_logHeader

theorem length_toDigits {n : Nat} (h : n < 10 ^ maxStrDigits) :
    (Nat.toDigits 10 n).length ≤ maxStrDigits :=
  (Nat.length_toDigits_le_iff (by decide) (by decide)).mpr h

theorem readNumber_toDigits {n : Nat} (h : n < 10 ^ maxStrDigits) :
    readNumber (Nat.toDigits 10 n) = .ok n := by
  unfold readNumber
  rw [if_neg (Nat.not_lt.mpr (length_toDigits h))]
  exact congrArg Except.ok (value_toDigits n)

theorem printNumber_eq {n : Nat} (h : n < 10 ^ maxStrDigits) :
    printNumber n = .ok (toString n) := by
  unfold printNumber
  simp only
  rw [if_neg]
  rw [← String.length_toList, toList_toString]
  exact Nat.not_lt.mpr (length_toDigits h)

theorem foldl_max_range' (count : Nat) : (List.range' 1 count).foldl max 0 = count := by
  induction count with
  | zero => rfl
  | succ count ih =>
    rw [List.range'_1_concat, List.foldl_append, ih]
    simp
    omega

/-- The number after those that the log has. -/
theorem Numbered.next {file : Option String} {count : Nat} (h : Numbered file count)
    (hcount : count < 10 ^ maxStrDigits) :
    nextEntryNumber (some (file.getD logHeader)) = .ok (count + 1) := by
  have hfound : ((List.range' 1 count).map (Nat.toDigits 10)).mapM readNumber =
      .ok (List.range' 1 count) := by
    rw [Except.mapM_ok_iff, List.forall₂_map_left_iff, List.forall₂_same]
    intro n hn
    have hle := List.mem_range'_1.mp hn
    exact readNumber_toDigits (lt_of_le_of_lt (by omega) hcount)
  have hheadings : findHeadings (readText (file.getD logHeader).toList) = _ := h.headings
  unfold nextEntryNumber
  simp only [hheadings, hfound, bind, Except.bind, foldl_max_range']
  rfl

/-- One flat entry is under the next number. -/
theorem Numbered.logEntry {file : Option String} {count : Nat} (h : Numbered file count)
    (hcount : count + 1 < 10 ^ maxStrDigits) {env : Env} {entry : Entry} (hflat : entry.Flat env) :
    ∃ after, UsageLog.logEntry env entry file = (.ok (count + 1), after) ∧
      Numbered after (count + 1) := by
  have hnext := h.next (Nat.lt_of_succ_lt hcount)
  obtain ⟨written, hformat⟩ : ∃ written, formatEntry (count + 1) entry
      (orElse entry.author (env.author.getD "unknown")) (orElse entry.timestamp env.now) =
        .ok written := by
    unfold formatEntry
    rw [printNumber_eq hcount]
    exact ⟨_, rfl⟩
  rcases logEntry_cases env entry file with ⟨e, hlog⟩ | ⟨n, written', hn, hformat', hlog⟩
  · -- Neither reading the numbers nor printing the next one can fail.
    unfold UsageLog.logEntry at hlog
    simp [hnext, hformat, bind, Except.bind, pure, Except.pure] at hlog
  · rw [hnext] at hn
    cases hn
    have hafter : fileText (some (file.getD logHeader ++ appended written')) =
        fileText file ++ (appended written').toList := String.toList_append
    refine ⟨_, hlog, ?_, ?_⟩
    · rw [hafter]
      exact EndsLine.append _ (endsLine_appended written')
    · rw [hafter, headings_append h.ends, h.headings, headings_appended hformat' hflat,
        List.range'_1_concat, List.map_append, Nat.add_comm 1 count]
      rfl

/-- Flat entries are under one number after the other. -/
theorem Numbered.logEntries {calls : List (Env × Entry)}
    (hflat : ∀ call ∈ calls, call.2.Flat call.1) {file : Option String} {count : Nat}
    (h : Numbered file count) (hcount : count + calls.length < 10 ^ maxStrDigits) :
    (UsageLog.logEntries calls file).1 = (List.range' (count + 1) calls.length).map Except.ok ∧
      Numbered (UsageLog.logEntries calls file).2 (count + calls.length) := by
  -- By induction on the entries; each leaves a file that is numbered up to it.
  induction calls generalizing file count with
  | nil => exact ⟨rfl, h⟩
  | cons call calls ih =>
    obtain ⟨env, entry⟩ := call
    obtain ⟨hhead, hrest⟩ := List.forall_mem_cons.mp hflat
    rw [List.length_cons] at hcount
    obtain ⟨after, hlog, hafter⟩ := h.logEntry (lt_of_le_of_lt (by omega) hcount) hhead
    obtain ⟨hnumbers, hnumbered⟩ := ih hrest hafter (lt_of_le_of_lt (by omega) hcount)
    simp only [UsageLog.logEntries, hlog, hnumbers, List.length_cons]
    refine ⟨?_, ?_⟩
    · rw [List.range'_succ, List.map_cons]
    · have hsum : count + (calls.length + 1) = count + 1 + calls.length := by omega
      rw [hsum]
      exact hnumbered

/-! ## The calls of a provider -/

/-- What is cut to a limit is on one line. -/
theorem oneLine_truncate (text : String) (limit : Nat) : OneLine (truncate text limit) := by
  have hplain : ∀ c ∈ (String.intercalate " " (PyStr.split text)).toList, c ≠ '\n' ∧ c ≠ '\r' := by
    intro c hc
    rcases mem_join_split hc with rfl | hspace
    · decide
    · constructor <;> (rintro rfl; exact absurd hspace (by decide))
  unfold truncate
  simp only
  split
  · exact ⟨fun hmem => (hplain _ hmem).1 rfl, fun hmem => (hplain _ hmem).2 rfl⟩
  · refine OneLine.append ?_ (by decide)
    unfold OneLine
    rw [String.toList_ofList]
    exact ⟨fun hmem => (hplain _ (List.mem_of_mem_take hmem)).1 rfl,
      fun hmem => (hplain _ (List.mem_of_mem_take hmem)).2 rfl⟩

variable {β : Type}

/-- The names and settings around a call are on one line. -/
structure ProviderCall.Flat (call : ProviderCall β) : Prop where
  providerClass : OneLine call.providerClass
  label : ∀ label, call.label = .ok label → OneLine label
  author : ∀ author, call.env.author = some author → OneLine author
  now : OneLine call.env.now

theorem oneLine_orElse {text : Option String} {default : String}
    (htext : ∀ t, text = some t → OneLine t) (hdefault : OneLine default) :
    OneLine (orElse text default) := by
  unfold orElse
  cases text with
  | none => exact hdefault
  | some t =>
    rw [Option.filter_some]
    split
    · exact htext t rfl
    · exact hdefault

/-- The entry of such a call is flat, whatever was asked and answered. -/
theorem ProviderCall.Flat.entry {call : ProviderCall β} (h : call.Flat) {result : β} {entry : Entry}
    (hentry : call.entry result = .ok entry) : entry.Flat call.env := by
  obtain ⟨label, hlabel, hentry⟩ := Except.bind_ok_iff.mp hentry
  obtain ⟨prompt, -, hentry⟩ := Except.bind_ok_iff.mp hentry
  obtain ⟨summary, -, hentry⟩ := Except.bind_ok_iff.mp hentry
  rw [Except.pure_ok_iff] at hentry
  subst hentry
  have htitle : OneLine call.method.title := by cases call.method <;> decide
  have hname : OneLine call.method.name := by cases call.method <;> decide
  have hvalidation : OneLine liveValidation := by decide +kernel
  have hauthor : ∀ default, OneLine default → OneLine (call.env.author.getD default) := by
    intro default hdefault
    cases hcall : call.env.author with
    | none => exact hdefault
    | some author => exact h.author author hcall
  exact {
    title := htitle
    aiTool := h.label label hlabel
    taskModule := ((OneLine.append (by decide) h.providerClass).append (by decide)).append
      hname |>.append (by decide)
    outputSummary := oneLine_truncate summary 500
    decision := (by decide : OneLine "Accepted as-is")
    modifiedReason := (by decide : OneLine "")
    validation := hvalidation
    bugsFound := (by decide : OneLine "None reported.")
    author := oneLine_orElse
      (fun t ht => Option.some.inj ht ▸ hauthor "system" (by decide))
      (hauthor "unknown" (by decide))
    timestamp := h.now }

/-- The call is logged: it answers, and its texts are found. -/
def ProviderCall.logged (call : ProviderCall β) : Bool :=
  match call.result with
  | .error _ => false
  | .ok result => (call.entry result).isOk

/-- One call: the answer is the provider's, and a call that is logged has the next number. -/
theorem Numbered.run {file : Option String} {count : Nat} (h : Numbered file count)
    (hcount : count + 1 < 10 ^ maxStrDigits) {call : ProviderCall β} (hflat : call.Flat) :
    (call.run file).1 = call.result ∧
      Numbered (call.run file).2 (if call.logged then count + 1 else count) := by
  -- A call that raises logs nothing, and so does one whose entry cannot be made.
  cases hresult : call.result with
  | error e =>
    have hrun : call.run file = (.error e, file) := by simp only [ProviderCall.run, hresult]
    have hlogged : call.logged = false := by simp only [ProviderCall.logged, hresult]
    rw [hrun, hlogged]
    exact ⟨rfl, h⟩
  | ok result =>
    cases hentry : call.entry result with
    | error e =>
      have hrun : call.run file = (.ok result, file) := by
        simp only [ProviderCall.run, hresult, hentry]
      have hlogged : call.logged = false := by
        simp only [ProviderCall.logged, hresult, hentry]
        rfl
      rw [hrun, hlogged]
      exact ⟨rfl, h⟩
    | ok entry =>
      obtain ⟨after, hlog, hafter⟩ := h.logEntry hcount (hflat.entry hentry)
      have hrun : call.run file = (.ok result, after) := by
        simp only [ProviderCall.run, hresult, hentry, hlog]
      have hlogged : call.logged = true := by
        simp only [ProviderCall.logged, hresult, hentry]
        rfl
      rw [hrun, hlogged]
      exact ⟨rfl, hafter⟩

/-- The calls of a provider are logged one by one: whatever is asked and answered, in any order,
    when the names and settings around the calls are on one line, every call returns what the
    provider answers or raises, and the headings of the log, which was not there before, are the
    numbers from one to the number of calls that are logged. -/
theorem providerCalls_numbered {calls : List (ProviderCall β)} (hflat : ∀ call ∈ calls, call.Flat)
    (hcount : calls.length < 10 ^ maxStrDigits) :
    (runCalls calls none).1 = calls.map ProviderCall.result ∧
      numbers (fileText (runCalls calls none).2) = List.range' 1 (calls.countP ProviderCall.logged) := by
  -- By induction on the calls, from a file that is numbered up to any number.
  have hrun : ∀ file count, Numbered file count → count + calls.length < 10 ^ maxStrDigits →
      (runCalls calls file).1 = calls.map ProviderCall.result ∧
        Numbered (runCalls calls file).2 (count + calls.countP ProviderCall.logged) := by
    clear hcount
    induction calls with
    | nil =>
      intro file count h _
      exact ⟨rfl, h⟩
    | cons call calls ih =>
      intro file count h hcount
      obtain ⟨hhead, hrest⟩ := List.forall_mem_cons.mp hflat
      rw [List.length_cons] at hcount
      obtain ⟨hanswer, hnumbered⟩ := h.run (lt_of_le_of_lt (by omega) hcount) hhead
      have hnext : (if call.logged then count + 1 else count) + calls.length <
          10 ^ maxStrDigits := by
        refine lt_of_le_of_lt ?_ hcount
        split <;> omega
      obtain ⟨hanswers, hafter⟩ := ih hrest _ _ hnumbered hnext
      have hsum : count + (call :: calls).countP ProviderCall.logged =
          (if call.logged then count + 1 else count) + calls.countP ProviderCall.logged := by
        rw [List.countP_cons]
        split <;> omega
      have hstep : runCalls (call :: calls) file =
          ((call.run file).1 :: (runCalls calls (call.run file).2).1,
            (runCalls calls (call.run file).2).2) := rfl
      rw [hstep, hsum, hanswer, hanswers]
      exact ⟨rfl, hafter⟩
  obtain ⟨hanswers, hnumbered⟩ := hrun none 0 numbered_none (by omega)
  refine ⟨hanswers, ?_⟩
  unfold numbers
  rw [hnumbered.headings, List.map_map]
  simp [Function.comp_def, value_toDigits]

/-- A call that answers a text, to a prompt that reads as a heading. -/
def forgingCall (result : Except PyError String) : ProviderCall String where
  method := .generateRule
  providerClass := "StubAIProvider"
  label := .ok "StubAIProvider (provider=stub, model=stub)"
  result := result
  promptText := .ok "### Entry #7\n### Entry #8"
  resultText := .ok
  env := ⟨none, "2025-01-01 00:00 UTC"⟩

/-- Of three calls one raises, and the others have the numbers one and two. -/
theorem providerCalls_numbered_forging :
    let calls := [forgingCall (.ok "a"), forgingCall (.error (.valueError "")), forgingCall (.ok "b")]
    (runCalls calls none).1 = calls.map ProviderCall.result ∧
      numbers (fileText (runCalls calls none).2) = List.range' 1 (calls.countP ProviderCall.logged) := by
  have hflat : ∀ result, (forgingCall result).Flat := by
    intro result
    refine ⟨(by decide : OneLine "StubAIProvider"), ?_, ?_,
      (by decide : OneLine "2025-01-01 00:00 UTC")⟩
    · intro label hlabel
      cases hlabel
      decide +kernel
    · intro author hauthor
      cases hauthor
  refine providerCalls_numbered ?_ ?_
  · intro call hcall
    simp only [List.mem_cons, List.not_mem_nil, or_false] at hcall
    rcases hcall with rfl | rfl | rfl <;> exact hflat _
  · exact lt_of_lt_of_le (by decide : 3 < 10 ^ 1) (Nat.pow_le_pow_right (by decide) (by decide))

end UsageLog

end PulseGuard
