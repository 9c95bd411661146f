import ContractAudit.FilePath

/-!
# Command lines

The command is `verify`, with an optional file. Some options belong to it; the others may also stand
before it, and count there unless they are given again behind it. At either place an option is given
at most once. Arguments are read from left to right, and the first that asks for help, for the
version or is wrong decides; only the value of an option that stands straight before the command is
judged after what follows.
-/

namespace ContractAudit.Command

/-- How results are written. -/
inductive Format where
  | text
  | json
  deriving DecidableEq, Repr

def Format.ofString? : String → Option Format
  | "text" => some .text
  | "json" => some .json
  | _ => none

/-- The options given at one place, and the file. -/
structure Options where
  format : Option Format := none
  noColour : Bool := false
  logJson : Bool := false
  quiet : Bool := false
  file : Option FilePath := none
  impact : Option String := none
  root : Option FilePath := none
  deriving DecidableEq, Repr

/-- Options at two places together; those behind the command count first. -/
def Options.merge (before behind : Options) : Options where
  format := behind.format <|> before.format
  noColour := behind.noColour || before.noColour
  logJson := behind.logJson || before.logJson
  quiet := behind.quiet || before.quiet
  file := behind.file
  impact := behind.impact
  root := behind.root

/-- Why arguments are no command to run. -/
inductive Stop where
  | help
  | version
  | usage
  deriving DecidableEq, Repr

/-! ## Single arguments -/

inductive Shape where
  | long (name : List Char) (value : Option (List Char))
  | short (letters : List Char)
  | escape
  | plain
  deriving DecidableEq, Repr

def shapeOf (arg : String) : Shape :=
  match arg.toList with
  | ['-', '-'] => .escape
  | '-' :: '-' :: body =>
    match body.span (· != '=') with
    | (name, '=' :: value) => .long name (some value)
    | (name, _) => .long name none
  | '-' :: c :: letters => .short (c :: letters)
  | _ => .plain

/-- A path argument, which is never empty. -/
def pathArgument (s : String) : Except Stop FilePath := if s.isEmpty then .error .usage else .ok ⟨s⟩

/-- Sets what has not been set at this place. -/
def setOnce {α : Type} (old : Option α) (new : α) : Except Stop (Option α) :=
  if old.isSome then .error .usage else .ok (some new)

/-- Sets a switch that has not been set at this place. -/
def switchOnce (old : Bool) : Except Stop Bool := if old then .error .usage else .ok true

/-- An option as it is named: a switch, or one that takes a value. -/
inductive Flag where
  | switch (set : Options → Except Stop Options)
  | valued (set : Options → String → Except Stop Options)
  | stop (why : Stop)

/-- The options that may stand on either side of the command. -/
def globalFlag? (name : String) : Option Flag :=
  match name with
  | "format" => some (.valued fun o s =>
    match Format.ofString? s with
    | some f => do return { o with format := ← setOnce o.format f }
    | none => .error .usage)
  | "no-color" => some (.switch fun o => do return { o with noColour := ← switchOnce o.noColour })
  | "log-json" => some (.switch fun o => do return { o with logJson := ← switchOnce o.logJson })
  | "quiet" => some (.switch fun o => do return { o with quiet := ← switchOnce o.quiet })
  | "help" => some (.stop .help)
  | _ => none

/-- The options of the command. -/
def verifyFlag? (name : String) : Option Flag :=
  match name with
  | "impact" => some (.valued fun o s => do return { o with impact := ← setOnce o.impact s })
  | "root" => some (.valued fun o s => do return { o with root := ← setOnce o.root (← pathArgument s) })
  | _ => globalFlag? name

/-- The options in front of the command. -/
def topFlag? (name : String) : Option Flag :=
  match name with
  | "version" => some (.stop .version)
  | _ => globalFlag? name

/-- The first of several letters behind one dash decides, since none takes a value. -/
def stopOfLetters (version : Bool) : List Char → Stop
  | 'h' :: _ => .help
  | 'V' :: _ => if version then .version else .usage
  | _ => .usage

/-! ## The command's own arguments -/

def setFile (o : Options) (arg : String) : Except Stop Options := do
  return { o with file := ← setOnce o.file (← pathArgument arg) }

def readVerify : Options → List String → Except Stop Options
  | o, [] => .ok o
  | o, arg :: rest =>
    match shapeOf arg with
    | .escape => rest.foldlM setFile o
    | .short letters => .error (stopOfLetters false letters)
    | .plain => do readVerify (← setFile o arg) rest
    | .long name value =>
      match verifyFlag? (String.ofList name), value with
      | some (.switch set), none => do readVerify (← set o) rest
      | some (.valued set), some v => do readVerify (← set o (String.ofList v)) rest
      | some (.valued set), none =>
        match rest with
        | [] => .error .usage
        | v :: rest =>
          if shapeOf v = .plain then do readVerify (← set o v) rest else .error .usage
      | some (.stop why), none => .error why
      | _, _ => .error .usage

/-! ## All arguments -/

def commandName : String := "verify"

/-- The command behind the options that stand before it. -/
def readCommand (before : Except Stop Options) (rest : List String) : Except Stop Options := do
  let behind ← readVerify {} rest
  return (← before).merge behind

/-- All arguments. -/
def readArguments : Options → List String → Except Stop Options
  | _, [] => .error .usage
  | o, arg :: rest =>
    if arg = commandName then readCommand (.ok o) rest
    else match shapeOf arg with
      | .escape | .plain => .error .usage
      | .short letters => .error (stopOfLetters true letters)
      | .long name value =>
        match topFlag? (String.ofList name), value with
        | some (.switch set), none => do readArguments (← set o) rest
        | some (.valued set), some v => do readArguments (← set o (String.ofList v)) rest
        | some (.valued set), none =>
          match rest with
          | [] => .error .usage
          | v :: rest =>
            if shapeOf v = .plain then
              match rest with
              | [] => .error .usage
              | next :: behind =>
                if next = commandName then readCommand (set o v) behind
                else do readArguments (← set o v) (next :: behind)
            else .error .usage
        | some (.stop why), none => .error why
        | _, _ => .error .usage

/-- The options of a command line, or why there is no command to run. -/
def parseArguments (args : List String) : Except Stop Options := readArguments {} args

end ContractAudit.Command
