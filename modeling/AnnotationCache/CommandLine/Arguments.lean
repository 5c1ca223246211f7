/-
  AnnotationCache.CommandLine.Arguments
  ─────────────────────────────────────
  **READING ARGUMENTS.**

  Arguments name settings, which take a value, and switches, which take none.
  A name is written out after two dashes, or it is a letter after one dash;
  letters may be joined, and the last of them may be a setting.  The value of
  a setting follows its name, behind an equals sign, directly behind its
  letter, or as the next argument, which then must not begin with a dash
  unless it is nothing else.

  A value in an argument of its own is looked at when the next name is
  accepted, or at the end.  So a name that is not known is reported first.
-/
import AnnotationCache.CommandLine.Options

namespace AnnotationCache.CommandLine

/-! ## §1. Names. -/

/-- What takes a value. -/
inductive Setting where
  | manifest
  | className
  | method
  | property
  | cacheFolder
  | format
  deriving DecidableEq, Repr, Inhabited

/-- What takes none. -/
inductive Switch where
  | noCache
  | clearCache
  | debug
  | verbose
  | quiet
  | help
  deriving DecidableEq, Repr, Inhabited

/-- What an argument may name. -/
inductive Named where
  | setting (s : Setting)
  | switch (s : Switch)
  deriving DecidableEq, Repr, Inhabited

/-- What is known by a name. -/
def Named.ofName? (name : String) : Option Named :=
  List.lookup name
    [("manifest", Named.setting .manifest), ("class", .setting .className),
     ("method", .setting .method), ("property", .setting .property),
     ("cache-dir", .setting .cacheFolder), ("format", .setting .format),
     ("no-cache", .switch .noCache), ("clear-cache", .switch .clearCache),
     ("debug", .switch .debug), ("verbose", .switch .verbose), ("quiet", .switch .quiet),
     ("help", .switch .help)]

/-- What is known by a letter. -/
def Named.ofLetter? : Char → Option Named
  | 'f' => some (.setting .format)
  | 'v' => some (.switch .verbose)
  | 'q' => some (.switch .quiet)
  | 'h' => some (.switch .help)
  | _ => none

/-! ## §2. Reading. -/

/-- Why a command line is not run. -/
inductive UsageError where
  /-- A setting that every run needs is left out. -/
  | missingArgument
  /-- Two arguments exclude each other, or one is repeated. -/
  | conflict
  /-- A setting has no value or one that it cannot take. -/
  | invalidValue
  | unknownArgument
  /-- A switch is given a value. -/
  | tooManyValues
  /-- Help is asked for. -/
  | helpWanted
  deriving DecidableEq, Repr, Inhabited

/-- What was read so far, and the setting whose value is not looked at yet. -/
structure Arguments where
  settings : List (Setting × String) := []
  switches : List Switch := []
  /-- How often more notes were asked for. -/
  verbose : Nat := 0
  pending : Option (Setting × Option String) := none
  deriving DecidableEq, Repr, Inhabited

namespace Arguments

/-- The greatest number of requests that is told from a greater one. -/
def maxVerbose : Nat := 255

/-- The value of a setting. -/
def value? (a : Arguments) (s : Setting) : Option String :=
  a.settings.lookup s

/-- Is a switch set? -/
def has (a : Arguments) (s : Switch) : Bool :=
  a.switches.contains s

/-- The form of reports that goes by a word. -/
def formatOf? (word : String) : Option ReportFormat :=
  [ReportFormat.json, .text].find? (fun f => f.word = word)

/-- Is this a value that a setting can take?  Paths are never empty. -/
def accepts (s : Setting) (value : String) : Bool :=
  match s with
  | .manifest | .cacheFolder => value ≠ ""
  | .format => (formatOf? value).isSome
  | .className | .method | .property => true

/-- Gives a setting its value. -/
def assign (a : Arguments) (s : Setting) (value : String) : Except UsageError Arguments :=
  if (a.value? s).isSome then .error .conflict
  else if accepts s value then .ok { a with settings := (s, value) :: a.settings }
  else .error .invalidValue

/-- Looks at the value that is pending. -/
def settle (a : Arguments) : Except UsageError Arguments :=
  match a.pending with
  | none => .ok a
  | some (_, none) => .error .invalidValue
  | some (s, some value) => assign { a with pending := none } s value

/-- Sets a switch. -/
def turnOn (a : Arguments) (s : Switch) : Except UsageError Arguments := do
  let a ← a.settle
  match s with
  | .help => throw .helpWanted
  | .verbose => return { a with verbose := min maxVerbose (a.verbose + 1) }
  | s => if a.has s then throw .conflict else return { a with switches := s :: a.switches }

/-- Takes a setting, with its value if that is at hand. -/
def take (a : Arguments) (s : Setting) (value : Option String) : Except UsageError Arguments := do
  let a ← a.settle
  match value with
  | some value => a.assign s value
  | none => return { a with pending := some (s, none) }

/-- Reads an argument that begins with two dashes, after these. -/
def readName (a : Arguments) (text : List Char) : Except UsageError Arguments :=
  let name := text.takeWhile (· ≠ '=')
  let value :=
    match text.dropWhile (· ≠ '=') with
    | [] => none
    | _ :: value => some (String.ofList value)
  match Named.ofName? (String.ofList name), value with
  | none, _ => .error .unknownArgument
  | some (.setting s), value => a.take s value
  | some (.switch _), some _ => .error .tooManyValues
  | some (.switch s), none => a.turnOn s

/-- Reads the letters of an argument that begins with one dash. -/
def readLetters (a : Arguments) : List Char → Except UsageError Arguments
  | [] => .ok a
  | c :: rest =>
      match Named.ofLetter? c with
      | none => .error .unknownArgument
      | some (.switch s) => do readLetters (← a.turnOn s) rest
      | some (.setting s) =>
          match rest with
          | [] => a.take s none
          | '=' :: value => a.take s (some (String.ofList value))
          | value => a.take s (some (String.ofList value))

/-- Reads an argument that names nothing. -/
def readValue (a : Arguments) (text : String) : Except UsageError Arguments :=
  match a.pending with
  | some (s, none) => .ok { a with pending := some (s, some text) }
  | _ => .error .unknownArgument

/-- Reads arguments.  Two dashes alone end them; nothing may follow. -/
def readAll (a : Arguments) : List String → Except UsageError Arguments
  | [] => a.settle
  | text :: rest =>
      match text.toList with
      | ['-', '-'] => if rest.isEmpty then a.settle else .error .unknownArgument
      | '-' :: '-' :: name => do readAll (← a.readName name) rest
      | '-' :: c :: letters => do readAll (← a.readLetters (c :: letters)) rest
      | _ => do readAll (← a.readValue text) rest

/-! ## §3. Options. -/

/-- Do any arguments exclude each other? -/
def conflicting (a : Arguments) : Bool :=
  ((a.value? .method).isSome && (a.value? .property).isSome) ||
    (a.has .noCache && ((a.value? .cacheFolder).isSome || a.has .clearCache))

/-- The options that arguments stand for. -/
def options (a : Arguments) : Except UsageError Options :=
  if a.conflicting then .error .conflict
  else
    match a.value? .manifest, a.value? .className with
    | some manifest, some className =>
        .ok
          { manifest := manifest
            className := className
            method := a.value? .method
            property := a.value? .property
            cacheFolder := a.value? .cacheFolder
            noCache := a.has .noCache
            clearCache := a.has .clearCache
            debug := a.has .debug
            format := ((a.value? .format).bind formatOf?).getD .json
            verbose := a.verbose
            quiet := a.has .quiet }
    | _, _ => .error .missingArgument

end Arguments

/-- **The options of a command line**, without the name of the program. -/
def Options.ofArguments (arguments : List String) : Except UsageError Options := do
  (← Arguments.readAll {} arguments).options

end AnnotationCache.CommandLine
