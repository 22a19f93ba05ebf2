import NaturalDeduction.Text.Blank
import NaturalDeduction.Text.Numeral
import NaturalDeduction.Text.Quoted

/-!
# Command line options

The options of the program and how they are found among its arguments. An option has a long name
and may have a short one. A long name may be shortened as long as only one option is meant. A
short name may be followed in the same argument by its value or by further short names. A value
may also follow an equals sign, or be the next argument, unless that looks like an option.

## Main definitions

* `Flag`: the options by name
* `Options`: what was chosen
* `UsageError`: why the arguments cannot be understood
* `Argument.classify`: what an argument is on its own
* `Options.parse`: what the arguments choose
-/

namespace NaturalDeduction

inductive Flag where
  | help
  | script
  | strict
  | ascii
  | graph
  | graphFormat
  | stopOnError
  | verbose
  | debug
deriving DecidableEq

namespace Flag

def all : List Flag :=
  [help, script, strict, ascii, graph, graphFormat, stopOnError, verbose, debug]

/-- The names of an option, the short one first. -/
def names : Flag → List String
  | help => ["-h", "--help"]
  | script => ["-s", "--script"]
  | strict => ["--strict"]
  | ascii => ["--ascii"]
  | graph => ["-g", "--graph"]
  | graphFormat => ["--graph-format"]
  | stopOnError => ["--stop-on-error"]
  | verbose => ["-v", "--verbose"]
  | debug => ["--debug"]

/-- All names with their options, in the order of definition. -/
def table : List (String × Flag) :=
  all.flatMap fun flag => flag.names.map fun name => (name, flag)

def takesValue : Flag → Bool
  | script | graph | graphFormat => true
  | _ => false

end Flag

structure Options where
  script : Option String
  strict : Bool
  ascii : Bool
  graph : Option String
  graphFormat : Option String
  stopOnError : Bool
  verbose : Bool
  debug : Bool
deriving DecidableEq

namespace Options

/-- What holds if no argument is given. -/
def default : Options := ⟨none, false, false, none, some "png", false, false, false⟩

/-- The value that a text gives to an option: two minus signs stand for no value. -/
def valueOf (text : String) : Option String := if text = "--" then none else some text

/-- Choose an option; the last choice counts. -/
def set (o : Options) (flag : Flag) (value : String) : Options :=
  match flag with
  | .help => o
  | .script => { o with script := valueOf value }
  | .strict => { o with strict := true }
  | .ascii => { o with ascii := true }
  | .graph => { o with graph := valueOf value }
  | .graphFormat => { o with graphFormat := valueOf value }
  | .stopOnError => { o with stopOnError := true }
  | .verbose => { o with verbose := true }
  | .debug => { o with debug := true }

end Options

inductive UsageError where
  | ambiguous (argument : String) (candidates : List String)
  | missingValue (flag : Flag)
  | ignoredValue (flag : Flag) (value : String)
  | unrecognized (arguments : List String)
deriving DecidableEq

def UsageError.wording : UsageError → String
  | ambiguous argument candidates =>
    "ambiguous option: " ++ argument ++ " could match " ++ ", ".intercalate candidates
  | missingValue flag => "argument " ++ "/".intercalate flag.names ++ ": expected one argument"
  | ignoredValue flag value =>
    "argument " ++ "/".intercalate flag.names ++ ": ignored explicit argument " ++
      Text.quote value
  | unrecognized arguments => "unrecognized arguments: " ++ " ".intercalate arguments

/-- The wording without the blanks at its ends, which come from the arguments. -/
def UsageError.message (e : UsageError) : String := String.ofList (Text.strip e.wording.toList)

/-! ## Single arguments -/

/-- What an argument is on its own. -/
inductive Argument where
  /-- No option, but possibly the value of one. -/
  | plain
  /-- An option that does not exist. -/
  | unknown
  /-- An option, whether it has its short name, and what is attached to it. -/
  | option (flag : Flag) (isShort : Bool) (attached : Option String)
deriving DecidableEq

namespace Argument

/-- Whether a text is a negative number: a minus sign and digits, possibly with a point before
the last of them. One line feed may follow. -/
def isNegativeNumber (cs : List Char) : Bool :=
  let isDigit (c : Char) := (Text.digit? c).isSome
  match cs with
  | '-' :: rest =>
    let body := if rest.getLast? = some '\n' then rest.dropLast else rest
    let after := body.dropWhile isDigit
    match after with
    | [] => !body.isEmpty
    | '.' :: decimals => !decimals.isEmpty && decimals.all isDigit
    | _ => false
  | _ => false

/-- Divide a text at its first equals sign. -/
def splitAtEquals (cs : List Char) : List Char × Option (List Char) :=
  match cs.dropWhile (· ≠ '=') with
  | [] => (cs, none)
  | _ :: value => (cs.takeWhile (· ≠ '='), some value)

def isShortName (name : String) : Bool :=
  match name.toList with
  | '-' :: c :: _ => c ≠ '-'
  | _ => false

/-- The options that a text can mean which is no name followed by nothing or by an equals sign:
for a long name the options whose names it starts, for a short one the option of its first
letter. -/
def candidates (cs : List Char) : List (String × Argument) :=
  match cs with
  | '-' :: '-' :: _ =>
    let (name, value) := splitAtEquals cs
    (Flag.table.filter fun (full, _) => name.isPrefixOf full.toList).map fun (full, flag) =>
      (full, option flag false (value.map String.ofList))
  | dash :: letter :: rest =>
    (Flag.table.filter fun (full, _) => full.toList = [dash, letter]).map fun (full, flag) =>
      (full, option flag true (some (String.ofList rest)))
  | _ => []

/-- What an argument that starts with a minus sign is on its own. -/
def classifyDashed (text : String) : Except UsageError Argument :=
  let (name, value) := splitAtEquals text.toList
  match Flag.table.lookup text, Flag.table.lookup (String.ofList name), value with
  | some flag, _, _ => .ok (option flag (isShortName text) none)
  | none, some flag, some value =>
    .ok (option flag (isShortName (String.ofList name)) (some (String.ofList value)))
  | none, _, _ =>
    match candidates text.toList with
    | [(_, argument)] => .ok argument
    | [] =>
      .ok (if text = "-" ∨ isNegativeNumber text.toList ∨ ' ' ∈ text.toList then plain
        else unknown)
    | found => .error (.ambiguous text (found.map (·.1)))

def classify (text : String) : Except UsageError Argument :=
  match text.toList with
  | '-' :: _ => classifyDashed text
  | _ => .ok plain

/-- What the arguments are on their own. After two minus signs nothing is an option. -/
def classifyAll : List String → Except UsageError (List (String × Argument))
  | [] => .ok []
  | "--" :: rest => .ok (("--", unknown) :: rest.map fun text => (text, plain))
  | text :: rest => do
    let argument ← classify text
    let others ← classifyAll rest
    return (text, argument) :: others

end Argument

/-! ## All arguments -/

/-- What the arguments ask for. -/
inductive Request where
  | help
  | run (o : Options)
deriving DecidableEq

namespace Options

/-- The options in an argument that starts with a short name: the letters after a short name
without a value are short names again, and the text after one with a value is its value. -/
def bundle (flag : Flag) : List Char → Except UsageError (List (Flag × Option String))
  | [] => .ok [(flag, none)]
  | letter :: letters =>
    if flag.takesValue then .ok [(flag, some (String.ofList (letter :: letters)))]
    else
      match Flag.table.lookup (String.ofList ['-', letter]) with
      | some next => (bundle next letters).map ((flag, none) :: ·)
      | none => .error (.ignoredValue flag (String.ofList (letter :: letters)))

/-- The options in one argument, with the values that are attached to them. -/
def unbundle (flag : Flag) (isShort : Bool) :
    Option String → Except UsageError (List (Flag × Option String))
  | none => .ok [(flag, none)]
  | some value =>
    if isShort ∧ value ≠ "" then bundle flag value.toList
    else if flag.takesValue then .ok [(flag, some value)]
    else .error (.ignoredValue flag value)

/-- Give each option its value. A value that is not attached is the next argument, if that is not
an option itself. The arguments that are left come last. -/
def supply : List (Flag × Option String) → List (String × Argument) →
    Except UsageError (List (Flag × String) × List (String × Argument))
  | [], rest => .ok ([], rest)
  | (flag, some value) :: choices, rest =>
    (supply choices rest).map fun (chosen, after) => ((flag, value) :: chosen, after)
  | (flag, none) :: choices, rest =>
    if flag.takesValue then
      match rest with
      | (value, .plain) :: rest =>
        (supply choices rest).map fun (chosen, after) => ((flag, value) :: chosen, after)
      | _ => .error (.missingValue flag)
    else (supply choices rest).map fun (chosen, after) => ((flag, "") :: chosen, after)

theorem length_supply_le {choices : List (Flag × Option String)} {chosen : List (Flag × String)}
    {rest after : List (String × Argument)} (h : supply choices rest = .ok (chosen, after)) :
    after.length ≤ rest.length := by
  fun_induction supply choices rest generalizing chosen with
  | case1 => simp_all
  | case2 flag value choices rest ih | case5 flag choices rest _ ih =>
    cases hs : supply choices rest <;> grind [Except.map]
  | case3 flag choices _ value rest ih =>
    cases hs : supply choices rest <;> grind [Except.map]
  | case4 => simp at h

/-- Carry out choices up to the first that asks for help. -/
def choose (o : Options) : List (Flag × String) → Request
  | [] => .run o
  | (.help, _) :: _ => .help
  | (flag, value) :: choices => (o.set flag value).choose choices

/-- Go through the arguments from left to right. The arguments that are neither options nor their
values are collected. -/
def process (o : Options) (leftover : List String) (arguments : List (String × Argument)) :
    Except UsageError Request :=
  match arguments with
  | [] => if leftover = [] then .ok (.run o) else .error (.unrecognized leftover.reverse)
  | (_, .option flag isShort attached) :: rest =>
    match unbundle flag isShort attached with
    | .error e => .error e
    | .ok choices =>
      match _h : supply choices rest with
      | .error e => .error e
      | .ok (chosen, after) =>
        match o.choose chosen with
        | .help => .ok .help
        | .run o => o.process leftover after
  | (text, _) :: rest => o.process (text :: leftover) rest
termination_by arguments.length
decreasing_by
  · exact Nat.lt_succ_of_le (length_supply_le _h)
  · simp

/-- What the arguments of the program ask for. -/
def parse (arguments : List String) : Except UsageError Request := do
  let classified ← Argument.classifyAll arguments
  default.process [] classified

end Options

end NaturalDeduction
