import DemoPages.Site

/-!
# The command line

`Request.ofArguments` reads the words of a command line, and `run` answers them: `transform`
builds the pages at a path, and `inspect` lists the components that a page would make without
writing anything. What a user can mend is reported in words on the error stream; any other fault
escapes.
-/

namespace DemoPages.Cli

/-! ## Requests -/

/-- What a command does. -/
inductive Verb where
  | transform
  | inspect
  deriving DecidableEq, Repr

/-- The verb of a name. -/
def Verb.ofName? : String → Option Verb
  | "transform" => some .transform
  | "inspect" => some .inspect
  | _ => none

/-- The options of a command, and the settings that they override. -/
def Verb.options : Verb → List (String × Settings.Field)
  | .transform =>
    [("--root", .root), ("--out-dir", .output), ("--lang", .language),
      ("--parser-config", .dialect)]
  | .inspect => [("--root", .root), ("--lang", .language)]

/-- A command: its verb, the path it works on, and the values of its options. -/
structure Command where
  verb : Verb
  path : String
  values : List (Settings.Field × String) := []
  deriving DecidableEq, Repr

/-- What the words of a command line ask for. -/
inductive Request where
  | command (command : Command)
  | help
  /-- The words make no sense. -/
  | misuse
  deriving DecidableEq, Repr

/-- The words behind the name of a command: values of options, the last given first, other words,
and whether help is wanted. -/
structure Arguments where
  values : List (Settings.Field × String) := []
  words : List String := []
  wantsHelp : Bool := false
  deriving DecidableEq, Repr

/-- Does a word begin like an option? A hyphen alone does not. -/
def isOption (word : String) : Bool :=
  match word.toList with
  | '-' :: _ :: _ => true
  | _ => false

/-- A value for an option, in front of all else that was given. -/
def Arguments.give (field : Settings.Field) (value : String) (a : Arguments) : Arguments :=
  { a with values := a.values ++ [(field, value)] }

/-- Reads the words behind the name of a command. The value of an option stands behind an equals
sign or is the next word, which `pending` waits for; two hyphens end the options. -/
def Arguments.ofWords? (options : List (String × Settings.Field)) :
    (pending : Option Settings.Field) → List String → Option Arguments
  | none, [] => some {}
  | some _, [] => none
  | some field, value :: rest => (ofWords? options none rest).map (give field value)
  | none, word :: rest =>
    if word = "--" then some { words := rest }
    else if isOption word then
      let (name, value?) := Text.cut '=' word.toList
      match options.lookup (String.ofList name), value? with
      | some field, some value =>
        (ofWords? options none rest).map (give field (String.ofList value))
      | some field, none => ofWords? options (some field) rest
      | none, _ =>
        if word = "--help" then (ofWords? options none rest).map ({ · with wantsHelp := true })
        else none
    else (ofWords? options none rest).map fun a => { a with words := word :: a.words }

/-- Reads the name of a command and the words behind it. -/
def Request.ofCommand : List String → Request
  | [] => .misuse
  | name :: rest =>
    match Verb.ofName? name with
    | none => .misuse
    | some verb =>
      match Arguments.ofWords? verb.options none rest with
      | none => .misuse
      | some a =>
        if a.wantsHelp then .help
        else
          match a.words with
          | [path] => .command { verb, path, values := a.values }
          | _ => .misuse

/-- Reads the words in front of the name of a command; `wantsHelp` says whether help was asked
for. -/
def Request.ofWords (wantsHelp : Bool) : List String → Request
  | [] => if wantsHelp then .help else .misuse
  | word :: rest =>
    if word = "--" then if wantsHelp then .help else .ofCommand rest
    else if word = "--help" then ofWords true rest
    else if isOption word then .misuse
    else if wantsHelp then .help
    else .ofCommand (word :: rest)

/-- Reads the words of a command line. -/
def Request.ofArguments (words : List String) : Request := .ofWords false words

/-! ## Answers -/

/-- A fault that no command reports. -/
inductive Escape where
  | settings (fault : Settings.Fault)
  | site (fault : Fault)
  deriving DecidableEq, Repr

/-- The words for a fault that no command reports. -/
def Escape.message : Escape → String
  | .settings fault => fault.message
  | .site fault => fault.message

/-- How a command ends: with a status, what it prints on the two streams, and a fault if one
escaped. -/
structure Outcome where
  status : Nat := 0
  out : String := ""
  err : String := ""
  escaped : Option Escape := none
  deriving DecidableEq, Repr

namespace Outcome

/-- Success, with some lines of output. -/
def printing (lines : List String) : Outcome :=
  { out := Text.joinWith "" (lines.map fun l => l ++ "\n") }

/-- A failure that is reported in words, with its cause below. -/
def failing (message : String) (cause : Option String := none) : Outcome :=
  { status := 1
    err := "Error: " ++ message ++ "\n" ++ (cause.map fun c => "  " ++ c ++ "\n").getD "" }

/-- A failure that is not reported. -/
def escaping (e : Escape) : Outcome := { status := 1, escaped := some e }

end Outcome

/-- The overrides that a command gives: one for each of its options, open if the option was not
used. -/
def Command.overrides (c : Command) : List (String × Option Settings.Given) :=
  c.verb.options.map fun o => (o.2.key, (c.values.lookup o.2).map .text)

/-- The line that tells of a page that was built. -/
def resultLine (r : Site.Result) : String :=
  "  " ++ r.source.toString ++ " -> " ++ r.written.toString ++ " (" ++ Nat.repr r.names.length ++
    " component(s))"

/-- Builds the pages at a path. -/
def transform (tools : Tools) (s : Settings) (path : String) (d : Disk) : Outcome × Disk :=
  let output := Path.ofString s.output
  match Site.run tools s path { depot := { store := { output := some output }, disk := d } } with
  | .error (.page p cause) t => (.failing (Fault.page p cause).message, t.depot.disk)
  | .error f t => (.escaping (.site f), t.depot.disk)
  | .ok results t =>
    (.printing (results.map resultLine ++
      ["Transformed " ++ Nat.repr results.length ++ " document(s), " ++
        Nat.repr t.depot.store.names.length ++ " component(s) to " ++ output.toString ++ "/"]),
      t.depot.disk)

/-- The components that the page at a path makes, kept in memory. -/
def components (tools : Tools) (s : Settings) (path : Path) : Site.Action (List Artifact) := do
  let d := (← get).depot.disk
  let source := Place.resolve d.here path
  let blocks ← MonadExcept.ofExcept (Page.read tools.reader source.toPath s.dialect d)
  let root ← MonadExcept.ofExcept (Site.root s d)
  let _ ← Site.extract (Site.extractor tools s root source) blocks
  return (← get).depot.store.artifacts.entries.map Prod.snd

/-- The line that tells of a component. -/
def componentLine (a : Artifact) : String := "  " ++ a.name ++ " -> " ++ a.path

/-- Lists the components that the page at a path makes. -/
def inspect (tools : Tools) (s : Settings) (path : String) (d : Disk) : Outcome :=
  if d.isFile (.ofString path) then
    match components tools s (.ofString path) { depot := { disk := d } } with
    | .error f _ => .failing ("Failed to transform " ++ path) (some f.message)
    | .ok [] _ => .printing ["No components found."]
    | .ok artifacts _ => .printing (artifacts.map componentLine)
  else .failing ("Not a file: " ++ path)

/-- How the program is called. -/
def usage : String := "Usage: demo-pages [--help] transform|inspect [OPTIONS] PATH\n"

/-- Answers the words of a command line, given the environment and the disk. -/
def run (tools : Tools) (environment : List (String × Settings.Given)) (words : List String)
    (d : Disk) :
    Outcome × Disk :=
  match Request.ofArguments words with
  | .help => ({ out := usage }, d)
  | .misuse => ({ status := 2, err := usage }, d)
  | .command c =>
    match Settings.load tools.configuration d environment c.overrides with
    | .error f =>
      (if f.isReported then .failing f.message else .escaping (.settings f), d)
    | .ok s =>
      match c.verb with
      | .transform => transform tools s c.path d
      | .inspect => (inspect tools s c.path d, d)

end DemoPages.Cli
