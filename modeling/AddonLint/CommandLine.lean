import AddonLint.Rule.Listing
import AddonLint.Validate

/-!
# The command line

A command line names a command with its options. Options have a long name; their value follows a
sign of equality or is the next argument, which must not look like an option then. Every option but
the one for more messages may be given once at each level. Options for messages and for the
configuration file may stand on both sides of the command.
-/
namespace AddonLint.CommandLine

/-- An option. -/
inductive Opt where
  | verbose
  | logJson
  | config
  | environment
  | version
  | disabled
  | enabled
  | bundleCache
  | timeout
  | jobs
  | format
  deriving DecidableEq, Repr

namespace Opt

def name : Opt → String
  | .verbose => "verbose"
  | .logJson => "log-json"
  | .config => "config"
  | .environment => "env"
  | .version => "version"
  | .disabled => "disabled"
  | .enabled => "enabled"
  | .bundleCache => "bundle-cache"
  | .timeout => "timeout"
  | .jobs => "jobs"
  | .format => "format"

def takesValue : Opt → Bool
  | .verbose | .logJson => false
  | _ => true

/-- Whether a value fits the option. Paths are not empty. -/
def accepts : Opt → String → Bool
  | .config, value | .bundleCache, value => value ≠ ""
  | .timeout, value | .jobs, value => (Numeral.unsigned64? value).isSome
  | .format, value => (OutputFormat.ofName? value).isSome
  | _, _ => true

end Opt

/-- A level of the command line: before the command, or behind one. -/
inductive Level where
  | program
  | validate
  | list
  deriving DecidableEq, Repr

/-- The options that may stand at every level. -/
def globalOptions : List Opt := [.verbose, .logJson, .config]

def Level.options : Level → List Opt
  | .program => globalOptions
  | .validate =>
    globalOptions ++
      [.environment, .version, .disabled, .enabled, .bundleCache, .timeout, .jobs, .format]
  | .list => globalOptions ++ [.format]

/-- Why a command line is not run: it is wrong, or it only asks for the version of the program. -/
inductive Stop where
  | wrongUsage
  | showVersion
  deriving DecidableEq, Repr

/-- The options that have been given, with their values, the last one first. -/
abbrev Given := List (Opt × String)

def give (given : Given) (opt : Opt) (value : String) : Except Stop Given :=
  if !opt.accepts value || (opt ≠ .verbose && (given.lookup opt).isSome) then .error .wrongUsage
  else .ok ((opt, value) :: given)

/-- Options of one letter behind a hyphen. -/
def giveLetters (level : Level) : Given → List Char → Except Stop Given
  | given, [] => .ok given
  | given, 'v' :: rest => do giveLetters level (← give given .verbose "") rest
  | _, 'V' :: _ => .error (if level = .program then .showVersion else .wrongUsage)
  | _, _ => .error .wrongUsage

/-- How an argument reads. -/
inductive Shape where
  | endOfOptions
  | long (name : String) (value : Option String)
  | letters (cs : List Char)
  | word
  deriving DecidableEq, Repr

/-- The shape of an argument. A single hyphen is a word. -/
def shape (arg : String) : Shape :=
  match arg.toList with
  | ['-', '-'] => .endOfOptions
  | '-' :: '-' :: cs =>
    let name := cs.takeWhile (· ≠ '=')
    match cs.dropWhile (· ≠ '=') with
    | [] => .long (String.ofList name) none
    | _ :: value => .long (String.ofList name) (some (String.ofList value))
  | '-' :: c :: cs => .letters (c :: cs)
  | _ => .word

/-- Whether an argument is not taken as the value of the option before it. -/
def looksLikeOption (arg : String) : Bool := shape arg ≠ .word

/-- What has been read of a level: its options, its words, and what follows its first word. -/
structure Reading where
  given : Given
  words : List String
  rest : List String

/-- Read the arguments of a level. Before the command, reading ends at the first word. -/
def read (level : Level) : (given : Given) → (words args : List String) → Except Stop Reading
  | given, words, [] => .ok ⟨given, words, []⟩
  | given, words, arg :: rest =>
    match shape arg with
    | .endOfOptions =>
      if level = .program then .error .wrongUsage else .ok ⟨given, words ++ rest, []⟩
    | .letters cs => do read level (← giveLetters level given cs) words rest
    | .word =>
      if level = .program then .ok ⟨given, [arg], rest⟩ else read level given (words ++ [arg]) rest
    | .long name value =>
      match level.options.find? fun opt => opt.name = name, value, rest with
      | none, none, _ =>
        if level = .program && name = "version" then .error .showVersion else .error .wrongUsage
      | none, some _, _ => .error .wrongUsage
      | some opt, some value, rest =>
        if opt.takesValue then do read level (← give given opt value) words rest
        else .error .wrongUsage
      | some opt, none, rest =>
        if !opt.takesValue then do read level (← give given opt "") words rest
        else
          match rest with
          | [] => .error .wrongUsage
          | value :: rest =>
            if looksLikeOption value then .error .wrongUsage
            else do read level (← give given opt value) words rest

/-- What a command line asks for. -/
inductive Command where
  | validate (request : ValidateRequest)
  | list (format : OutputFormat)
  deriving DecidableEq, Repr

/-- A command with its configuration file. -/
structure Invocation where
  config : Option String
  command : Command
  deriving DecidableEq, Repr

/-- The format that has been given, or text. -/
def formatOf (given : Given) : OutputFormat :=
  ((given.lookup .format).bind OutputFormat.ofName?).getD .text

/-- The number of an option. -/
def numberOf? (given : Given) (opt : Opt) : Option UInt64 :=
  (given.lookup opt).bind Numeral.unsigned64?

def requestOf (given : Given) (directory : String) : ValidateRequest :=
  let base := ValidateRequest.ofDirectory directory
  { base with
    environment := (given.lookup .environment).getD base.environment
    version := (given.lookup .version).getD base.version
    disabled := (given.lookup .disabled).getD base.disabled
    enabled := (given.lookup .enabled).getD base.enabled
    overrides :=
      ⟨given.lookup .bundleCache, numberOf? given .timeout, numberOf? given .jobs⟩
    format := formatOf given }

/-- Read the words of a command line without the name of the program. -/
def parse (args : List String) : Except Stop Invocation := do
  let outer ← read .program [] [] args
  let config (inner : Reading) : Option String :=
    inner.given.lookup .config <|> outer.given.lookup .config
  match outer.words with
  | ["validate"] =>
    let inner ← read .validate [] [] outer.rest
    match inner.words with
    | [directory] =>
      if directory = "" then throw .wrongUsage
      return ⟨config inner, .validate (requestOf inner.given directory)⟩
    | _ => throw .wrongUsage
  | ["list"] =>
    let inner ← read .list [] [] outer.rest
    if inner.words ≠ [] then throw .wrongUsage
    return ⟨config inner, .list (formatOf inner.given)⟩
  | _ => throw .wrongUsage

def versionText : String := "amv 0.1.0\n"

def usage : String :=
  "usage: amv [-v] [--log-json] [--config FILE] validate [OPTIONS] DIRECTORY\n" ++
  "       amv [-v] [--log-json] [--config FILE] list [--format text|json]"

def Invocation.output (i : Invocation) (fs : FileSystem) (lookup : String → Option String)
    (now : Instant) : Output :=
  match i.command with
  | .list format =>
    match Rules.registry with
    | .ok registry => ⟨0, registry.list format, none⟩
    | .error e => ⟨1, "", some e.message⟩
  | .validate request =>
    match Validate.run fs i.config lookup now request with
    | .ok output => output
    | .error e => ⟨1, "", some e.message⟩

/-- The output of the program. An error leaves the standard output empty. -/
def output (fs : FileSystem) (lookup : String → Option String) (now : Instant)
    (args : List String) : Output :=
  match parse args with
  | .ok invocation => invocation.output fs lookup now
  | .error .showVersion => ⟨0, versionText, none⟩
  | .error .wrongUsage => ⟨2, "", some usage⟩

/-- The directories that a command line has the program read: the addon's and the cache of its
bundles, which is known once the configuration file is. -/
def directories (fs : FileSystem) (lookup : String → Option String) (args : List String) :
    List String :=
  match parse args with
  | .ok ⟨config, .validate request⟩ =>
    match Validate.settings fs config lookup request with
    | .ok settings => [request.directory, settings.cacheFor request.directory]
    | .error _ => [request.directory]
  | _ => []

def configFile? (args : List String) : Option String := (parse args).toOption.bind (·.config)

end AddonLint.CommandLine
