import FindSelect.Command.Answer
import FindSelect.Command.Reference

namespace FindSelect

/-- The flags of the command line. -/
inductive Flag where
  | verbose
  | pretty
  | version
  deriving DecidableEq, Repr

namespace Flag

def ofLetter? : Char → Option Flag
  | 'v' => some .verbose
  | 'p' => some .pretty
  | 'V' => some .version
  | _ => none

def ofName? : String → Option Flag
  | "--verbose" => some .verbose
  | "--pretty" => some .pretty
  | "--version" => some .version
  | _ => none

end Flag

/-- Why a command line is refused. -/
inductive UsageError where
  | unexpected (argument : String)
  | repeated (argument : String)
  | noCommand
  deriving DecidableEq, Repr

def UsageError.message : UsageError → String
  | .unexpected argument => "error: unexpected argument '" ++ argument ++ "'"
  | .repeated argument => "error: the argument '" ++ argument ++ "' cannot be used multiple times"
  | .noCommand =>
    "Usage: mongo2sql [-v] translate [CALL] | parse [CALL] [-p] | operators | --version"

/-- What a command line asks for. A call that is not given is read from the
    input. -/
inductive Action where
  | translate (call : Option String)
  | parse (call : Option String) (pretty : Bool)
  | operators
  | version
  deriving DecidableEq, Repr

structure Invocation where
  verbose : Bool
  action : Action
  deriving DecidableEq, Repr

namespace Invocation

/-- Notes a flag, which must be an allowed one and new. -/
def addFlag (allowed seen : List Flag) (argument : String) :
    Option Flag → Except UsageError (List Flag)
  | none => .error (.unexpected argument)
  | some flag =>
    if flag ∉ allowed then .error (.unexpected argument)
    else if flag ∈ seen then .error (.repeated argument)
    else .ok (flag :: seen)

/-- Notes the flags of an argument such as `-pv`. The question for the version is
    answered at once, whatever follows it. -/
def addLetters (allowed seen : List Flag) (argument : String) :
    List Char → Except UsageError (List Flag)
  | [] => .ok seen
  | letter :: letters => do
    let seen ← addFlag allowed seen argument (Flag.ofLetter? letter)
    if .version ∈ seen then return seen else addLetters allowed seen argument letters

/-- Notes the flags of an argument; `none` for an argument that is a word. A
    single dash is a word. -/
def addFlags? (allowed seen : List Flag) (argument : String) :
    Option (Except UsageError (List Flag)) :=
  match argument.toList with
  | '-' :: '-' :: _ => some (addFlag allowed seen argument (Flag.ofName? argument))
  | '-' :: letter :: letters => some (addLetters allowed seen argument (letter :: letters))
  | _ => none

/-- Sorts arguments into flags and at most `limit` words. After `--` all
    arguments are words. -/
def sortArguments (allowed : List Flag) (limit : Nat) (seen : List Flag) (words : List String) :
    List String → Except UsageError (List Flag × List String)
  | [] => .ok (seen, words)
  | argument :: arguments =>
    if argument = "--" then
      match arguments.drop (limit - words.length) with
      | [] => .ok (seen, words ++ arguments)
      | word :: _ => .error (.unexpected word)
    else match addFlags? allowed seen argument with
      | some (.ok seen) => sortArguments allowed limit seen words arguments
      | some (.error error) => .error error
      | none =>
        if words.length < limit then sortArguments allowed limit seen (words ++ [argument]) arguments
        else .error (.unexpected argument)

/-- The action that a command word and the arguments after it ask for. -/
def ofCommand (verbose : Bool) (command : String) (arguments : List String) :
    Except UsageError Invocation := do
  match command with
  | "translate" =>
    let (seen, words) ← sortArguments [.verbose] 1 [] [] arguments
    return ⟨verbose || .verbose ∈ seen, .translate words.head?⟩
  | "parse" =>
    let (seen, words) ← sortArguments [.verbose, .pretty] 1 [] [] arguments
    return ⟨verbose || .verbose ∈ seen, .parse words.head? (.pretty ∈ seen)⟩
  | "operators" =>
    let (seen, _) ← sortArguments [.verbose] 0 [] [] arguments
    return ⟨verbose || .verbose ∈ seen, .operators⟩
  | _ => throw (.unexpected command)

/-- Reads the flags in front of the command word. -/
def ofArgumentsFrom (seen : List Flag) : List String → Except UsageError Invocation
  | [] => .error .noCommand
  | argument :: arguments =>
    if argument = "--" then .error .noCommand
    else match addFlags? [.verbose, .version] seen argument with
      | some (.error error) => .error error
      | some (.ok seen) =>
        if .version ∈ seen then .ok ⟨.verbose ∈ seen, .version⟩ else ofArgumentsFrom seen arguments
      | none => ofCommand (.verbose ∈ seen) argument arguments

def ofArguments (arguments : List String) : Except UsageError Invocation :=
  ofArgumentsFrom [] arguments

/-- Whether the call has to be read from the input. -/
def needsInput (invocation : Invocation) : Bool :=
  match invocation.action with
  | .translate none | .parse none _ => true
  | _ => false

end Invocation

/-- What a run of the program prints, and its exit status. -/
structure Outcome where
  exit : UInt32
  stdout : String
  stderr : String
  deriving DecidableEq, Repr

/-- The line that a log shows for an event. The table of a call stands in
    quotes. -/
def Event.logLine (event : Event) : String :=
  let level := match event.level with
    | .debug => "DEBUG"
    | .trace => "TRACE"
  let fields := event.fields.map fun (name, text) =>
    " " ++ name ++ "=" ++ if name = "table" then "\"" ++ text ++ "\"" else text
  level ++ " " ++ event.message ++ String.join fields ++ "\n"

namespace Invocation

/-- The given call, or the one in the input, which must be UTF-8. -/
def receiveCall (call : Option String) (input : ByteArray) : Traced RequestError String :=
  match call with
  | some call => pure call
  | none =>
    match String.fromUTF8? input with
    | none => throw (.input "stream did not contain valid UTF-8")
    | some text => do
      Traced.emit (.receivedCall input.size)
      return text

/-- The text that an action prints. -/
def output (action : Action) (input : ByteArray) : Traced RequestError String := do
  match action with
  | .version => return "mongo2sql 0.2.0\n"
  | .operators => return Reference.text
  | .translate call =>
    let text ← receiveCall call input
    match ← Request.statement.answer (some text) with
    | .statement sql => return sql ++ "\n"
    | .reading json => return json.compact ++ "\n"
  | .parse call pretty =>
    let text ← receiveCall call input
    match ← Request.reading.answer (some text) with
    | .statement sql => return sql ++ "\n"
    | .reading json => return (if pretty then json.pretty else json.compact) ++ "\n"

/-- Runs an invocation on an input. A verbose run logs the events on the debug
    level; an error is printed after them. -/
def run (invocation : Invocation) (input : ByteArray) : Outcome :=
  let traced := output invocation.action input
  let shown := traced.events.filter fun event => invocation.verbose && event.level == .debug
  let log := String.join (shown.map (·.logLine))
  match traced.result with
  | .ok stdout => ⟨0, stdout, log⟩
  | .error error => ⟨1, "", log ++ error.message ++ "\n"⟩

end Invocation

/-- Runs the program with its arguments on an input. -/
def runProgram (arguments : List String) (input : ByteArray) : Outcome :=
  match Invocation.ofArguments arguments with
  | .ok invocation => invocation.run input
  | .error error => ⟨2, "", error.message ++ "\n"⟩

end FindSelect
