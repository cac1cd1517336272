import PackageInstaller.Text

/-!
Reading a command line: options, which may be written long or short and in any order, and the words
that are none.
-/

namespace PackageInstaller.CommandLine

inductive Choice where
  | verbose
  | url
  | version
  | target
  | projectFolder
  | executable
  | noBuild
  deriving DecidableEq, Repr

def Choice.takesValue : Choice → Bool
  | .verbose => false
  | .noBuild => false
  | _ => true

structure OptionTable where
  long : List (Text × Choice)
  short : List (Char × Choice)

/-- The options given, in order, with their values, and the other words. -/
structure Arguments where
  options : List (Choice × Text)
  words : List Text
  deriving DecidableEq, Repr

/-- What one word gives; the last option may still need the next word for its value. -/
inductive Reading where
  | given (options : List (Choice × Text))
  | awaiting (options : List (Choice × Text)) (choice : Choice)

def readShort (table : OptionTable) : Text → Option Reading
  | [] => some (.given [])
  | c :: t =>
    match table.short.lookup c with
    | none => none
    | some choice =>
      if choice.takesValue then
        if t.isEmpty then some (.awaiting [] choice) else some (.given [(choice, t)])
      else
        (readShort table t).map fun reading =>
          match reading with
          | .given options => .given ((choice, []) :: options)
          | .awaiting options last => .awaiting ((choice, []) :: options) last

/-- A word that begins with a dash. The value of a long option may follow an equals sign. -/
def readOption (table : OptionTable) (word : Text) : Option Reading :=
  let name := word.takeWhile (· ≠ '=')
  match table.long.lookup name, word.drop name.length with
  | some choice, [] => some (if choice.takesValue then .awaiting [] choice else .given [(choice, [])])
  | some choice, _ :: value => if choice.takesValue then some (.given [(choice, value)]) else none
  | none, _ => if ['-', '-'].isPrefixOf word then none else readShort table (word.drop 1)

def isOption (word : Text) : Bool := word.head? = some '-' && 1 < word.length

def Arguments.withOptions (options : List (Choice × Text)) (a : Arguments) : Arguments :=
  { a with options := options ++ a.options }

def Arguments.withWord (word : Text) (a : Arguments) : Arguments :=
  { a with words := word :: a.words }

/-- Reads on with an option whose value is the next word, or with none. -/
def readFrom (table : OptionTable) (mixed : Bool) : Option Choice → List Text → Option Arguments
  | none, [] => some ⟨[], []⟩
  | some _, [] => none
  | some choice, value :: rest => (readFrom table mixed none rest).map (·.withOptions [(choice, value)])
  | none, word :: rest =>
    if word = ['-', '-'] then some ⟨[], rest⟩
    else if isOption word then
      match readOption table word with
      | some (.given options) => (readFrom table mixed none rest).map (·.withOptions options)
      | some (.awaiting options choice) =>
        (readFrom table mixed (some choice) rest).map (·.withOptions options)
      | none => none
    else if mixed then (readFrom table mixed none rest).map (·.withWord word)
    else some ⟨[], word :: rest⟩

/-- Reads the words of a command line. Two dashes end the options; so does the first other word,
unless `mixed` allows options after it. -/
def readArguments (table : OptionTable) (mixed : Bool) (words : List Text) : Option Arguments :=
  readFrom table mixed none words

namespace Arguments

def has (a : Arguments) (choice : Choice) : Bool := a.options.any fun o => o.1 = choice

def values (a : Arguments) (choice : Choice) : List Text :=
  (a.options.filter fun o => o.1 = choice).map (·.2)

/-- The value of an option that was given; of several the last counts. -/
def value? (a : Arguments) (choice : Choice) : Option Text := (a.values choice).getLast?

end Arguments

def mainTable : OptionTable := ⟨[("--verbose".toList, .verbose)], [('v', .verbose)]⟩

def installTable : OptionTable where
  long := [("--url".toList, .url), ("--version".toList, .version), ("--target".toList, .target),
    ("--project-dir".toList, .projectFolder), ("--swift".toList, .executable),
    ("--no-build".toList, .noBuild)]
  short := [('t', .target)]

structure Invocation where
  name : Text
  url : Option Text
  version : Option Text
  targets : List Text
  projectFolder : Option Text
  executable : Option Text
  build : Bool
  deriving DecidableEq, Repr

def installWord : Text := "install".toList

/-- The words after the command's name and whether log output is wanted, if there is a command. -/
def readMain? (words : List Text) : Option (Bool × List Text) := do
  let arguments ← readArguments mainTable false words
  match arguments.words with
  | command :: rest =>
    guard (command = installWord)
    return (arguments.has .verbose, rest)
  | [] => none

/-- An invocation names exactly one package. -/
def readInstall? (words : List Text) : Option Invocation := do
  let arguments ← readArguments installTable true words
  match arguments.words with
  | [name] =>
    return {
      name := name
      url := arguments.value? .url
      version := arguments.value? .version
      targets := arguments.values .target
      projectFolder := arguments.value? .projectFolder
      executable := arguments.value? .executable
      build := !arguments.has .noBuild }
  | _ => none

end PackageInstaller.CommandLine
