import DemoPages.Configuration
import DemoPages.Page
import DemoPages.Text.Word

/-!
# Settings

Eleven texts say how a site is built. `Settings.load` puts the entries of the configuration file,
the variables of the environment that are not empty, and the overrides into one collection of
values, each over what stands there under its key, and then reads the fields off it; a field that is
not there has its default. `Settings.ofValues` refuses values that are taken for no text and a bad
extension, all at once and in the order of the fields. A variable may also be no text, if its bytes
encode none; the words of a command line are texts.
-/

namespace DemoPages

/-- How a site is built. -/
structure Settings where
  /-- The language of the demos. -/
  language : String := "vue"
  /-- What the names of components begin with. -/
  namePrefix : String := "VueCode"
  /-- The component that shows a demo which names none. -/
  wrapper : String := "VueCode"
  /-- The attribute that names the component which shows a demo. -/
  previewKey : String := "preview"
  /-- The component that lays out demos in columns. -/
  layout : String := "VueMarkdown"
  /-- The extension of the files of components. -/
  extension : String := ".vue"
  /-- The directory that the paths of components start from. -/
  root : String := "."
  /-- The directory that pages and components are written to. -/
  output : String := "dist"
  /-- The dialect of the pages. -/
  dialect : String := "gfm-like"
  /-- The language in which the shown code is highlighted. -/
  shading : String := "html"
  /-- The style of the highlighting. -/
  style : String := "default"
  deriving DecidableEq, Repr

namespace Settings

/-- The settings one by one. -/
inductive Field where
  | language
  | namePrefix
  | wrapper
  | previewKey
  | layout
  | extension
  | root
  | output
  | dialect
  | shading
  | style
  deriving DecidableEq, Repr

namespace Field

/-- All fields, in order. -/
def all : List Field :=
  [.language, .namePrefix, .wrapper, .previewKey, .layout, .extension, .root, .output, .dialect,
    .shading, .style]

/-- The key of a field in a configuration file. -/
def key : Field → String
  | .language => "language"
  | .namePrefix => "name_prefix"
  | .wrapper => "default_wrapper"
  | .previewKey => "preview_key"
  | .layout => "layout_component"
  | .extension => "extension"
  | .root => "root"
  | .output => "output_dir"
  | .dialect => "parser_config"
  | .shading => "highlight_language"
  | .style => "style"

/-- The variable of a field in the environment. -/
def variableName (f : Field) : String := "MDVUE_" ++ String.ofList (f.key.toList.map Char.toUpper)

theorem mem_all (f : Field) : f ∈ all := by cases f <;> simp [all]

end Field

/-- The value of a field. -/
def get (s : Settings) : Field → String
  | .language => s.language
  | .namePrefix => s.namePrefix
  | .wrapper => s.wrapper
  | .previewKey => s.previewKey
  | .layout => s.layout
  | .extension => s.extension
  | .root => s.root
  | .output => s.output
  | .dialect => s.dialect
  | .shading => s.shading
  | .style => s.style

/-- The settings with the value of each field. -/
def ofFields (value : Field → String) : Settings where
  language := value .language
  namePrefix := value .namePrefix
  wrapper := value .wrapper
  previewKey := value .previewKey
  layout := value .layout
  extension := value .extension
  root := value .root
  output := value .output
  dialect := value .dialect
  shading := value .shading
  style := value .style

theorem get_ofFields (value : Field → String) (f : Field) : (ofFields value).get f = value f := by
  cases f <;> rfl

theorem ofFields_get (s : Settings) : ofFields s.get = s := rfl

/-! ## Checking values -/

/-- A dot, and one word character or more. -/
def isExtension (s : String) : Bool :=
  match s.toList with
  | '.' :: c :: cs => (c :: cs).all Text.isExtensionChar
  | _ => false

/-- The text of a value for a field. -/
def check (f : Field) (v : Given) : Except Flaw String := do
  let s ← v.read
  if f = .extension ∧ !isExtension s then throw .badExtension else return s

/-- The text of a field. A default is not checked. -/
def valueOf (f : Field) : Option Given → Except Flaw String
  | none => .ok (({} : Settings).get f)
  | some v => check f v

/-- The flaws of some values, in the order of the fields. -/
def flaws (given : Field → Option Given) : List (Field × Flaw) :=
  Field.all.filterMap fun f =>
    match valueOf f (given f) with
    | .ok _ => none
    | .error w => some (f, w)

/-- The settings with these values; the default stands in for a value that is not given. -/
def ofValues (given : Field → Option Given) : Except (List (Field × Flaw)) Settings :=
  match flaws given with
  | [] => .ok (ofFields fun f => (valueOf f (given f)).toOption.getD "")
  | w :: ws => .error (w :: ws)

/-! ## Loading -/

/-- The file of the configuration. -/
def configFile : Path := .ofString "config.yaml"

/-- Why there are no settings. -/
inductive Fault where
  | disk (fault : Disk.Fault)
  | undecodable (fault : Text.Utf8.Fault)
  | document (fault : Document.Fault)
  /-- The configuration is no mapping. -/
  | noMapping
  /-- The configuration is no mapping, and there are values to put into it. -/
  | noTarget
  /-- The configuration has a key that is no string. -/
  | badKey
  /-- Some fields have bad values. -/
  | flaws (list : List (Field × Flaw))
  deriving DecidableEq, Repr

/-- The words for a fault. -/
def Fault.message : Fault → String
  | .disk fault => fault.message
  | .undecodable fault => fault.message
  | .document (.malformed details) => "Invalid config.yaml: " ++ details
  | .document (.badValue message) => message
  | .document (.unprepared message) => message
  | .noMapping => "the configuration is no mapping"
  | .noTarget => "the configuration cannot be overridden"
  | .badKey => "a key of the configuration is no string"
  | .flaws [_] => "1 validation error for Settings"
  | .flaws list => Nat.repr list.length ++ " validation errors for Settings"

/-- Is this a bad value of what the user has written, rather than a failure of what it is used
for? -/
def Fault.isReported : Fault → Bool
  | .undecodable _ => true
  | .document (.malformed _) => true
  | .document (.badValue _) => true
  | .flaws _ => true
  | _ => false

/-- The document of the configuration file; it is nothing if there is no file. -/
def config (reader : Reader) (d : Disk) : Except Fault Document :=
  if (d.find? configFile).isNone then .ok .nothing
  else
    match Disk.readBytes configFile d with
    | .error f _ => .error (.disk f)
    | .ok bytes _ =>
      match Page.decode bytes with
      | .error f => .error (.undecodable f)
      | .ok text => (reader text).mapError .document

/-- What the variable of a field gives, unless it is empty. -/
def fromVariable? (environment : List (String × Given)) (f : Field) : Option Given :=
  (environment.lookup f.variableName).filter (· ≠ .text "")

/-- What the variables of the environment give, under the keys of their fields. -/
def fromVariables (environment : List (String × Given)) : List (String × Given) :=
  Field.all.filterMap fun f => (fromVariable? environment f).map fun v => (f.key, v)

/-- The overrides that were not left open. -/
def chosen (overrides : List (String × Option Given)) : List (String × Given) :=
  overrides.filterMap fun o => o.2.map fun v => (o.1, v)

/-- The entries under texts, if all keys are strings. -/
def texts? (entries : List (Key × Given)) : Option (List (String × Given)) :=
  if entries.any fun e => e.1 = .other then none
  else some (entries.filterMap fun e => e.1.text?.map fun key => (key, e.2))

/-- The settings for a document of the configuration file, an environment and overrides, which may
be left open. -/
def ofDocument (environment : List (String × Given)) (overrides : List (String × Option Given))
    (document : Document) : Except Fault Settings :=
  match document.entries? with
  | none =>
    .error (if document = .other ∧ overrides ≠ [] ∧ fromVariables environment = [] then .noTarget
      else .noMapping)
  | some entries =>
    match texts? entries with
    | none => .error .badKey
    | some texts =>
      let values :=
        ((Keyed.putAll {} texts).putAll (fromVariables environment)).putAll (chosen overrides)
      (ofValues fun f => values.get? f.key).mapError .flaws

/-- The settings for a disk, an environment and overrides, which may be left open. -/
def load (reader : Reader) (d : Disk) (environment : List (String × Given))
    (overrides : List (String × Option Given)) : Except Fault Settings :=
  match config reader d with
  | .error f => .error f
  | .ok document => ofDocument environment overrides document

end Settings

end DemoPages
