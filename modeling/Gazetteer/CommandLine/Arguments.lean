import Gazetteer.Field.Basic
import Gazetteer.Text.Blank

/-!
# Command lines

    geocoder [-v] geocode TEXT [options]
    geocoder [-v] reverse COORDINATES [options]
    geocoder [-v] providers | dumpers | configure PROVIDER | cache info | cache clear

Options may stand before and after what they belong to, and have their values attached or as the
next argument.  Nothing but a repeatable option may be given twice.  After `--` everything is
taken as it is.  The coordinates of a reverse lookup may begin with a dash, so until they have
been given an argument that is no known option is taken for them.
-/

namespace Gazetteer

/-- The options of a lookup. -/
structure LookupOptions where
  /-- Providers to ask instead of the configured ones. -/
  providers : List String := []
  format : Option String := none
  noCache : Bool := false
  /-- Show all addresses instead of the first. -/
  all : Bool := false
deriving DecidableEq, Repr

inductive Command where
  | lookup (direction : Direction) (text : String) (options : LookupOptions)
  | providers
  | formats
  | configure (provider : String)
  | cacheInfo
  | cacheClear
deriving DecidableEq, Repr

/-- What a command line asks for. -/
inductive Invocation where
  | command (c : Command)
  | version
  | help
  /-- The command line makes no sense. -/
  | refused
deriving DecidableEq, Repr

namespace CommandLine

/-- The options of subcommands. -/
inductive Switch where
  | provider
  | format
  | noCache
  | all
  /-- Log lines, which are no part of the outcome. -/
  | verbose
  | help
deriving DecidableEq, Repr

def Switch.takesValue : Switch → Bool
  | provider | format => true
  | _ => false

/-- What a subcommand takes. -/
structure Shape where
  /-- The options of a lookup. -/
  lookup : Bool := false
  /-- How many arguments, all required. -/
  arguments : Nat := 0
  /-- An argument may begin with a dash. -/
  dashed : Bool := false

def Shape.long? (shape : Shape) (name : List Char) : Option Switch :=
  match String.ofList name with
  | "verbose" => some .verbose
  | "help" => some .help
  | "provider" => if shape.lookup then some .provider else none
  | "dumper" => if shape.lookup then some .format else none
  | "no-cache" => if shape.lookup then some .noCache else none
  | "all" => if shape.lookup then some .all else none
  | _ => none

def Shape.short? (shape : Shape) : Char → Option Switch
  | 'v' => some .verbose
  | 'h' => some .help
  | 'p' => if shape.lookup then some .provider else none
  | 'd' => if shape.lookup then some .format else none
  | _ => none

/-- What has been read of a subcommand's arguments. -/
structure Given where
  arguments : List String := []
  options : LookupOptions := {}
  verbose : Bool := false

/-- A flag, given once. -/
def Given.flag? (g : Given) : Switch → Option Given
  | .noCache =>
    if g.options.noCache then none
    else some { g with options := { g.options with noCache := true } }
  | .all =>
    if g.options.all then none else some { g with options := { g.options with all := true } }
  | .verbose => if g.verbose then none else some { g with verbose := true }
  | _ => none

/-- An option with its value. -/
def Given.value? (g : Given) (value : List Char) : Switch → Option Given
  | .provider =>
    let providers := g.options.providers ++ [String.ofList value]
    some { g with options := { g.options with providers } }
  | .format =>
    if g.options.format.isSome then none
    else some { g with options := { g.options with format := some (String.ofList value) } }
  | _ => none

/-- How far reading has come: an option may wait for its value. -/
inductive Reading where
  | going (g : Given) (waiting : Option Switch)
  | help
  | refused

/-- Options after one dash, up to one that takes the rest as its value. -/
def readShort (shape : Shape) (g : Given) : List Char → Reading
  | [] => .going g none
  | c :: rest =>
    match shape.short? c with
    | none => .refused
    | some .help => .help
    | some s =>
      if s.takesValue then
        match rest with
        | [] => .going g (some s)
        | '=' :: value => (g.value? value s).elim .refused (.going · none)
        | value => (g.value? value s).elim .refused (.going · none)
      else
        match g.flag? s with
        | some g => readShort shape g rest
        | none => .refused

/-- An option after two dashes. -/
def readLong (g : Given) (s : Switch) (value : Option (List Char)) : Reading :=
  match s, value with
  | .help, none => .help
  | s, some value => (g.value? value s).elim .refused (.going · none)
  | s, none =>
    if s.takesValue then .going g (some s) else (g.flag? s).elim .refused (.going · none)

/-- An option at the front of the arguments; none if the argument is none and may be taken for
something else. -/
def readOption? (shape : Shape) (g : Given) (arg : List Char) : Option Reading :=
  let free := shape.dashed && g.arguments.isEmpty
  match arg with
  | '-' :: '-' :: long =>
    let (name, value) := match Text.splitOnce '=' long with
      | some (name, value) => (name, some value)
      | none => (long, none)
    match shape.long? name with
    | some s => some (readLong g s value)
    | none => if free then none else some .refused
  | '-' :: c :: short =>
    if free && (c :: short).any fun c => (shape.short? c).isNone then none
    else some (readShort shape g (c :: short))
  | _ => none

/-- Reads the arguments of a subcommand. -/
def read (shape : Shape) (g : Given) (waiting : Option Switch) : List String → Reading
  | [] => if waiting.isSome then .refused else .going g none
  | arg :: rest =>
    if arg = "--" then
      if waiting.isSome then .refused else .going { g with arguments := g.arguments ++ rest } none
    else
      match readOption? shape g arg.toList, waiting with
      | some _, some _ => .refused
      | some (.going g waiting), none => read shape g waiting rest
      | some stop, none => stop
      | none, some s =>
        match g.value? arg.toList s with
        | some g => read shape g none rest
        | none => .refused
      | none, none =>
        if g.arguments.length < shape.arguments then
          read shape { g with arguments := g.arguments ++ [arg] } none rest
        else .refused

/-- A subcommand of a shape, with what it makes of its arguments. -/
def subcommand (shape : Shape) (args : List String)
    (command : List String → LookupOptions → Option Command) : Invocation :=
  match read shape {} none args with
  | .going g _ =>
    if g.arguments.length = shape.arguments then
      match command g.arguments g.options with
      | some c => .command c
      | none => .refused
    else .refused
  | .help => .help
  | .refused => .refused

/-- A lookup in a direction. -/
def lookupCommand (direction : Direction) : List String → LookupOptions → Option Command
  | [text], options => some (.lookup direction text options)
  | _, _ => none

/-! ## Subcommands -/

/-- The subcommands of the program. -/
def programNames : List String :=
  ["geocode", "reverse", "providers", "dumpers", "configure", "cache", "help"]

/-- The subcommands of `cache`. -/
def cacheNames : List String := ["info", "clear", "help"]

/-- Help on a subcommand of `cache`, or on all. -/
def cacheHelp : List String → Invocation
  | [] => .help
  | [name] => if cacheNames.contains name then .help else .refused
  | _ => .refused

/-- Help on a subcommand of the program, or on all.  Only `cache` has subcommands in turn. -/
def programHelp : List String → Invocation
  | [] => .help
  | "cache" :: path => cacheHelp path
  | [name] => if programNames.contains name then .help else .refused
  | _ => .refused

/-- Reads the arguments of `cache`. -/
def cacheCommand (verbose : Bool) : List String → Invocation
  | [] => .refused
  | arg :: rest =>
    match arg with
    | "info" => subcommand {} rest fun _ _ => some .cacheInfo
    | "clear" => subcommand {} rest fun _ _ => some .cacheClear
    | "help" => cacheHelp rest
    | "-h" | "--help" | "-vh" => .help
    | "-v" | "--verbose" => if verbose then .refused else cacheCommand true rest
    | _ => .refused

/-- Flags before the subcommand: whether they let reading go on. -/
inductive TopFlags where
  | going (verbose : Bool)
  | stop (i : Invocation)

def topFlags (verbose : Bool) : List Char → TopFlags
  | [] => .going verbose
  | 'v' :: rest => if verbose then .stop .refused else topFlags true rest
  | 'V' :: _ => .stop .version
  | 'h' :: _ => .stop .help
  | _ => .stop .refused

/-- Reads a whole command line. -/
def parse (verbose : Bool) : List String → Invocation
  | [] => .refused
  | arg :: rest =>
    match arg with
    | "geocode" =>
      subcommand { lookup := true, arguments := 1 } rest (lookupCommand .geocode)
    | "reverse" =>
      subcommand { lookup := true, arguments := 1, dashed := true } rest (lookupCommand .reverse)
    | "providers" => subcommand {} rest fun _ _ => some .providers
    | "dumpers" => subcommand {} rest fun _ _ => some .formats
    | "configure" => subcommand { arguments := 1 } rest fun args _ => args.head?.map .configure
    | "cache" => cacheCommand false rest
    | "help" => programHelp rest
    | "--verbose" => if verbose then .refused else parse true rest
    | "--version" => .version
    | "--help" => .help
    | arg =>
      match arg.toList with
      | '-' :: c :: flags =>
        match topFlags verbose (c :: flags) with
        | .going verbose => parse verbose rest
        | .stop i => i
      | _ => .refused

end CommandLine

end Gazetteer
