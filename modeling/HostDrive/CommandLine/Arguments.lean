/-!
# Arguments

What a user can ask for on the command line. Options come before the command; a command knows no
option but the one for help.

- An option takes its value from behind an equals sign or from the next argument, which then must
  not look like an option itself. A single dash is a value.
- Short options can be written together, up to one that takes a value; the rest is its value.
- No option may be given twice, and a path must not be empty.
- Behind two dashes everything is a value.
-/

namespace HostDrive.CommandLine

/-! ## Requests -/

/-- A command with its argument. -/
inductive Command where
  /-- Lists the entries that match a pattern. -/
  | dir (pattern? : Option String)
  | vol
  /-- Changes the current directory and shows it. -/
  | cd (path : String)
  deriving DecidableEq, Repr

/-- The options with their values. -/
structure Options where
  config : Option String := none
  /-- Directory to serve, in place of the one in the settings. -/
  directory : Option String := none
  /-- Volume label, in place of the one in the settings. -/
  label : Option String := none
  /-- Whether to log every call. -/
  trace : Bool := false
  deriving DecidableEq, Repr

/-- What help can be asked about. -/
inductive Topic where
  | program
  | dir
  | vol
  | cd
  | help
  deriving DecidableEq, Repr

/-- What the user asks for. -/
inductive Request where
  | run (options : Options) (command : Command)
  | help (topic : Topic)
  /-- The arguments make no sense. -/
  | unusable
  deriving DecidableEq, Repr

/-! ## Options -/

/-- The options that take a value. -/
inductive ValueOption where
  | config
  | directory
  | label
  deriving DecidableEq, Repr

namespace ValueOption

def ofName? (name : List Char) : Option ValueOption :=
  if name = "config".toList then some config
  else if name = "dir".toList then some directory
  else if name = "label".toList then some label
  else none

def ofLetter? : Char → Option ValueOption
  | 'c' => some config
  | 'd' => some directory
  | 'l' => some label
  | _ => none

end ValueOption

/-- Sets an option that takes a value. -/
def Options.set? (o : Options) (option : ValueOption) (value : List Char) : Option Options :=
  let text := String.ofList value
  match option with
  | .config =>
    if o.config.isSome || value.isEmpty then none else some { o with config := some text }
  | .directory =>
    if o.directory.isSome || value.isEmpty then none else some { o with directory := some text }
  | .label => if o.label.isSome then none else some { o with label := some text }

def Options.setTrace? (o : Options) : Option Options :=
  if o.trace then none else some { o with trace := true }

/-- Whether an argument is taken for an option. -/
def looksLikeOption (argument : List Char) : Bool :=
  match argument with
  | '-' :: _ :: _ => true
  | _ => false

/-- What one argument with options does. -/
inductive OptionStep where
  | done (options : Options)
  /-- The next argument is the value of an option. -/
  | needsValue (options : Options) (option : ValueOption)
  | help
  | unusable
  deriving DecidableEq, Repr

/-- The step after an attempt to set options. -/
def OptionStep.ofOptions : Option Options → OptionStep
  | some o => done o
  | none => unusable

/-- An argument that starts with two dashes, without these. -/
def longOption (o : Options) (argument : List Char) : OptionStep :=
  let name := argument.takeWhile (· != '=')
  match argument.dropWhile (· != '='), ValueOption.ofName? name with
  | [], some option => .needsValue o option
  | _ :: value, some option => .ofOptions (o.set? option value)
  | [], none =>
    if name = "trace".toList then .ofOptions o.setTrace?
    else if name = "help".toList then .help
    else .unusable
  | _ :: _, none => .unusable

/-- Short options written together, without their dash. -/
def shortOptions (o : Options) : List Char → OptionStep
  | [] => .done o
  | 't' :: rest =>
    match o.setTrace? with
    | some o => shortOptions o rest
    | none => .unusable
  | 'h' :: _ => .help
  | c :: rest =>
    match ValueOption.ofLetter? c, rest with
    | some option, [] => .needsValue o option
    | some option, '=' :: value => .ofOptions (o.set? option value)
    | some option, value => .ofOptions (o.set? option value)
    | none, _ => .unusable

/-- What an argument that looks like an option does. -/
def optionStep (o : Options) : List Char → OptionStep
  | '-' :: '-' :: rest => longOption o rest
  | '-' :: rest => shortOptions o rest
  | _ => .unusable

/-! ## Commands -/

def topicOf? (name : String) : Option Topic :=
  if name = "dir" then some .dir
  else if name = "vol" then some .vol
  else if name = "cd" then some .cd
  else if name = "help" then some .help
  else none

/-- What is read behind a command: its values, or a request for help. -/
inductive CommandStep where
  | values (found : List String)
  | help
  | unusable
  deriving DecidableEq, Repr

/-- Reads the arguments behind a command that takes at most `most` values. -/
def commandValues (most : Nat) : List String → List String → CommandStep
  | found, [] => .values found
  | found, argument :: rest =>
    if argument = "--" then
      if (found ++ rest).length ≤ most then .values (found ++ rest) else .unusable
    else if argument = "--help" then .help
    else if looksLikeOption argument.toList then
      if argument.toList[1]? = some 'h' then .help else .unusable
    else if found.length < most then commandValues most (found ++ [argument]) rest
    else .unusable

/-- The request of a command with its arguments. -/
def commandRequest (o : Options) (name : String) (arguments : List String) : Request :=
  match topicOf? name with
  | some .dir =>
    match commandValues 1 [] arguments with
    | .values found => .run o (.dir found.head?)
    | .help => .help .dir
    | .unusable => .unusable
  | some .vol =>
    match commandValues 0 [] arguments with
    | .values _ => .run o .vol
    | .help => .help .vol
    | .unusable => .unusable
  | some .cd =>
    match commandValues 1 [] arguments with
    | .values [path] => .run o (.cd path)
    | .values _ => .unusable
    | .help => .help .cd
    | .unusable => .unusable
  | some .help =>
    match arguments with
    | [] => .help .program
    | [topic] =>
      match topicOf? topic with
      | some topic => .help topic
      | none => .unusable
    | _ => .unusable
  | _ => .unusable

/-! ## All arguments -/

/-- The request of the arguments that follow a value which its option cannot take. The value of an
option is looked at after the command behind it, so help about a command is still given. -/
def requestAfterFault : List String → Request
  | [] => .unusable
  | argument :: rest =>
    match commandRequest {} argument rest with
    | .help topic => .help topic
    | _ => .unusable

/-- The request of the arguments that follow some options. -/
def requestAfter (o : Options) : List String → Request
  | [] => .unusable
  | argument :: rest =>
    if !looksLikeOption argument.toList then commandRequest o argument rest
    else if argument = "--" then .unusable
    else match optionStep o argument.toList, rest with
      | .done o, rest => requestAfter o rest
      | .help, _ => .help .program
      | .needsValue o option, value :: rest =>
        if looksLikeOption value.toList then .unusable
        else match o.set? option value.toList with
          | some o => requestAfter o rest
          | none => requestAfterFault rest
      | _, _ => .unusable

def request (arguments : List String) : Request := requestAfter {} arguments

end HostDrive.CommandLine
