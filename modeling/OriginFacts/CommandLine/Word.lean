import OriginFacts.CommandLine.Flag
import OriginFacts.Text.Digit

/-!
The forms of arguments. Options may be shortened as long as one option is meant; `--` ends them.
-/

namespace OriginFacts.CommandLine

/-- An argument by its form: a plain value, the end of options, an option with the value attached to
it, or an unknown option. -/
inductive Word where
  | plain (text : String)
  | separator
  | flag (flag : Flag) (spelling : String) (attached : Option String)
  | unknown (text : String)
deriving DecidableEq, Repr

/-- The parts of an argument before and behind its first equals sign. -/
def splitAtEquals (cs : List Char) : Option (String × String) :=
  match cs.span (· != '=') with
  | (_, []) => none
  | (name, _ :: value) => some (String.ofList name, String.ofList value)

/-- A text without the line feed that may end it. -/
def withoutLastLineFeed (cs : List Char) : List Char :=
  if cs.getLast? = some '\n' then cs.dropLast else cs

/-- Whether a text is a decimal number: digits, or a point with digits behind it and perhaps some in
front. The digits may be of any script. -/
def isDecimalNumber (cs : List Char) : Bool :=
  match cs.span Text.isDecimal with
  | (whole, []) => !whole.isEmpty
  | (_, '.' :: fraction) => !fraction.isEmpty && fraction.all Text.isDecimal
  | _ => false

/-- Whether an argument has the form of a negative number. A line feed may follow it. -/
def isNegativeNumber : List Char → Bool
  | '-' :: cs => isDecimalNumber (withoutLastLineFeed cs)
  | _ => false

/-- The options that a shortened spelling can mean, each with the value attached to it. Behind two
dashes a spelling may be cut anywhere and a value follows an equals sign; behind one dash a value
follows the letter. -/
def candidates (argument : String) : List (Flag × String × Option String) :=
  let cs := argument.toList
  match cs with
  | '-' :: '-' :: _ =>
    let (start, attached) :=
      match splitAtEquals cs with
      | some (name, value) => (name, some value)
      | none => (argument, none)
    Flag.table.filterMap fun (spelling, flag) =>
      if start.toList.isPrefixOf spelling.toList then some (flag, spelling, attached) else none
  | _ =>
    let short := String.ofList (cs.take 2)
    Flag.table.filterMap fun (spelling, flag) =>
      if spelling == short then some (flag, spelling, some (String.ofList (cs.drop 2)))
      else if cs.isPrefixOf spelling.toList then some (flag, spelling, none)
      else none

/-- An argument that starts with a dash and is no full spelling. -/
def classifyDashed (argument : String) : Except UsageError Word :=
  let full : Option Word := do
    let (name, value) ← splitAtEquals argument.toList
    let flag ← Flag.ofSpelling? name
    return .flag flag name (some value)
  match full with
  | some word => .ok word
  | none =>
    match candidates argument with
    | [(flag, spelling, attached)] => .ok (.flag flag spelling attached)
    | [] =>
      if isNegativeNumber argument.toList || argument.toList.contains ' ' then .ok (.plain argument)
      else .ok (.unknown argument)
    | several => .error (.ambiguous argument (several.map (·.2.1)))

/-- The form of an argument in front of the end of options. -/
def classify (argument : String) : Except UsageError Word :=
  match argument.toList with
  | '-' :: _ :: _ =>
    match Flag.ofSpelling? argument with
    | some flag => .ok (.flag flag argument none)
    | none => classifyDashed argument
  | _ => .ok (.plain argument)

/-- The forms of all arguments. Everything behind the separator is plain. -/
def classifyAll : List String → Except UsageError (List Word)
  | [] => .ok []
  | argument :: rest =>
    if argument == "--" then .ok (.separator :: rest.map .plain)
    else do
      let word ← classify argument
      let words ← classifyAll rest
      return word :: words

end OriginFacts.CommandLine
