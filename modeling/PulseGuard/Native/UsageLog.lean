import PulseGuard.ForStd.PyVal
import PulseGuard.ForStd.TextLines

/-!
# The log of AI calls

`AIUsageLogger` and the wrapper that logs the calls of an AI provider
(`app/infrastructure/ai/usage_logger.py`). An entry is appended to a text file under the number
after the greatest that the file has in a heading. The lock makes a call of `log_entry` one step.
The file is `none` while there is none; it can be read and written.
-/

namespace PulseGuard

namespace UsageLog

/-- `sys.get_int_max_str_digits()`, by default. -/
def maxStrDigits : Nat := 4300

/-- `int(m)` of decimal digits. -/
def readNumber (digits : List Char) : Except PyError Nat :=
  if maxStrDigits < digits.length then
    .error (.valueError ("Exceeds the limit (4300 digits) for integer string conversion: value has " ++
      toString digits.length ++ " digits; use sys.set_int_max_str_digits() to increase the limit"))
  else .ok ((PyStr.digits? 0 true digits).getD 0)

/-- `f"{number}"` -/
def printNumber (number : Nat) : Except PyError String :=
  let digits := toString number
  if maxStrDigits < digits.length then
    .error (.valueError ("Exceeds the limit (4300 digits) for integer string conversion; " ++
      "use sys.set_int_max_str_digits() to increase the limit"))
  else .ok digits

/-! ## Reading -/

/-- What a heading starts with. -/
def heading : List Char := "### Entry #".toList

/-- The group of `_ENTRY_HEADER_RE` at the start of a line: `^### Entry #(\d+)`. -/
def headingDigits (line : List Char) : Option (List Char) :=
  if heading.isPrefixOf line then
    let digits := (line.drop heading.length).takeWhile fun c => (PyStr.digit? c).isSome
    if digits.isEmpty then none else some digits
  else none

/-- `_ENTRY_HEADER_RE.findall(text)` -/
def findHeadings (text : List Char) : List (List Char) :=
  (PyStr.lines text).filterMap headingDigits

/-- `_next_entry_number` -/
def nextEntryNumber : (file : Option String) → Except PyError Nat
  | none => .ok 1
  | some text => do
    let numbers ← (findHeadings (PyStr.readText text.toList)).mapM readNumber
    return numbers.foldl max 0 + 1

/-! ## Writing -/

/-- `_LOG_HEADER` -/
def logHeader : String :=
  "# AI Usage Log\n\n" ++
  "Structured, per-interaction record of AI-assisted work on this " ++
  "project. Entries are appended automatically by " ++
  "`app/infrastructure/ai/usage_logger.py`.\n\n---\n\n"

/-- The arguments of `log_entry`. -/
structure Entry where
  title : String
  aiTool : String
  taskModule : String
  prompt : String
  outputSummary : String
  decision : String := "Accepted as-is"
  modifiedReason : String := ""
  validation : String := "Not yet validated."
  bugsFound : String := "None reported."
  author : Option String := none
  timestamp : Option String := none

/-- `prompt.strip().splitlines() or [""]`, each line quoted. -/
def quotedPrompt (prompt : String) : List String :=
  let lines := (PyStr.splitlines (PyStr.strip prompt).toList).map String.ofList
  let lines := if lines.isEmpty then [""] else lines
  lines.map fun line => if line.isEmpty then "  >" else "  > " ++ line

/-- `_format_entry` -/
def formatEntry (number : Nat) (entry : Entry) (author timestamp : String) :
    Except PyError String := do
  return "### Entry #" ++ (← printNumber number) ++ " — " ++ entry.title ++ "\n" ++
    "- *Timestamp / author:* " ++ timestamp ++ " — " ++ author ++ "\n" ++
    "- *AI tool + model:* " ++ entry.aiTool ++ "\n" ++
    "- *Task / module:* " ++ entry.taskModule ++ "\n" ++
    "- *Prompt (verbatim):*\n" ++
    String.intercalate "\n" (quotedPrompt entry.prompt) ++ "\n" ++
    "- *AI output summary:* " ++ entry.outputSummary ++ "\n" ++
    "- *Decision:* " ++ entry.decision ++ "\n" ++
    "- *If modified/rejected, why:* " ++
      (if entry.modifiedReason.isEmpty then "n/a" else entry.modifiedReason) ++ "\n" ++
    "- *How it was validated:* " ++ entry.validation ++ "\n" ++
    "- *Bugs found (if any) and resolution:* " ++ entry.bugsFound ++ "\n"

/-- `os.environ.get("AI_LOG_AUTHOR")`, and the clock as `strftime` prints it. -/
structure Env where
  author : Option String
  now : String

/-- `text or default` -/
def orElse (text : Option String) (default : String) : String :=
  (text.filter (!·.isEmpty)).getD default

/-- `AIUsageLogger.log_entry`: the number of the entry, and the file it leaves. -/
def logEntry (env : Env) (entry : Entry) (file : Option String) :
    Except PyError Nat × Option String :=
  let author := orElse entry.author (env.author.getD "unknown")
  let timestamp := orElse entry.timestamp env.now
  let text := file.getD logHeader
  let result : Except PyError (Nat × String) := do
    let number ← nextEntryNumber (some text)
    return (number, ← formatEntry number entry author timestamp)
  match result with
  | .error e => (.error e, some text)
  | .ok (number, written) => (.ok number, some (text ++ (written ++ "\n---\n\n")))

/-- The numbers of entries that are logged one after another, and the file they leave. -/
def logEntries : List (Env × Entry) → Option String → List (Except PyError Nat) × Option String
  | [], file => ([], file)
  | (env, entry) :: calls, file =>
    let (number, file) := logEntry env entry file
    let (numbers, file) := logEntries calls file
    (number :: numbers, file)

/-! ## The calls of a provider -/

/-- The methods that are logged. -/
inductive Method where
  | generateRule
  | documentRule
  | explainDecision

namespace Method

def name : Method → String
  | generateRule => "generate_rule"
  | documentRule => "document_rule"
  | explainDecision => "explain_decision"

/-- `_METHOD_META`, but for the argument that holds the prompt. -/
def title : Method → String
  | generateRule => "AI rule generation"
  | documentRule => "AI rule documentation"
  | explainDecision => "AI decision explanation"

end Method

/-- `_truncate`, from the text of the value on: its words with single spaces, cut off at the
    limit. -/
def truncate (text : String) (limit : Nat) : String :=
  let text := String.intercalate " " (PyStr.split text)
  if text.length ≤ limit then text
  else String.ofList (text.toList.take (limit - 1)) ++ "…"

/-- One call of a provider that is wrapped: what the method makes of its arguments, the label and
    the class of the provider, and the texts that `_truncate` finds for the prompt and the result,
    which are the values themselves or their `json.dumps`. -/
structure ProviderCall (β : Type) where
  method : Method
  providerClass : String
  label : Except PyError String
  result : Except PyError β
  promptText : Except PyError String
  resultText : β → Except PyError String
  env : Env

variable {β : Type}

/-- What the wrapper says about the validation of an answer. -/
def liveValidation : String :=
  "Runtime call -- output returned to the caller for human " ++
  "review per this project's AI safety model (see " ++
  "docs/ai-assist.md); not independently validated by the logger."

/-- The entry that the wrapper logs. -/
def ProviderCall.entry (call : ProviderCall β) (result : β) : Except PyError Entry := do
  return {
    title := call.method.title
    aiTool := ← call.label
    taskModule := "app.infrastructure.ai (live call via " ++ call.providerClass ++ "." ++
      call.method.name ++ ")"
    prompt := truncate (← call.promptText) 1000
    outputSummary := truncate (← call.resultText result) 500
    decision := "Accepted as-is"
    validation := liveValidation
    bugsFound := "None reported."
    author := some (call.env.author.getD "system") }

/-- `wrapper`: a call that raises is not logged, and a log that fails is passed over. -/
def ProviderCall.run (call : ProviderCall β) (file : Option String) :
    Except PyError β × Option String :=
  match call.result with
  | .error e => (.error e, file)
  | .ok result =>
    match call.entry result with
    | .error _ => (.ok result, file)
    | .ok entry => (.ok result, (logEntry call.env entry file).2)

/-- What a list of calls returns, and the file it leaves. -/
def runCalls : List (ProviderCall β) → Option String → List (Except PyError β) × Option String
  | [], file => ([], file)
  | call :: calls, file =>
    let (result, file) := call.run file
    let (results, file) := runCalls calls file
    (result :: results, file)

end UsageLog

end PulseGuard
