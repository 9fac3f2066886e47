import TernaryMachine.Text.Decimal

/-!
# Command line arguments

Arguments are cut into pieces by a grammar that lists the options of a command.  An option has
a long name, written behind two dashes, and perhaps a letter, written behind one.  A value
follows as the next argument or in the same one: `--size 27`, `--size=27`, `-s 27`, `-s27`,
`-s=27`.  Letters of options without a value can be written together.  Two dashes alone end the
options.  A value on its own does not start with a dash, unless it is the dash alone, and there
is one at most.

A grammar may be open: then there can be any number of values, arguments that start with a dash
but are no options are values, and after the first value everything is.

Arguments are read from left to right.  The option that asks for help ends the reading, so that
what stands behind it is not looked at, but a fault in front of it counts.
-/

set_option autoImplicit false

namespace TernaryMachine

/-- What an option takes as its value. -/
inductive OptionValue where
  | nothing
  | text
  | number
  deriving DecidableEq, Repr

/-- Whether a text can be the value of an option. -/
def OptionValue.admits : OptionValue → String → Bool
  | nothing, given => given.isEmpty
  | text, _ => true
  | number, given => (Text.readUnsigned? given.toList).isSome

/-- An option of a command. -/
structure OptionSpec where
  /-- The name behind two dashes. -/
  name : String
  /-- The letter behind one dash. -/
  letter : Option Char := none
  /-- What the option takes as its value. -/
  value : OptionValue := .text
  /-- Whether the option can be given more than once. -/
  repeatable : Bool := false
  deriving Repr

/-- The options of a command and the form of its values. -/
structure ArgumentGrammar where
  /-- The options. -/
  options : List OptionSpec
  /-- Whether values may start with a dash. -/
  isOpen : Bool := false
  deriving Repr

/-- A piece of a command line. -/
inductive ArgumentPiece where
  /-- An option and its value, empty for an option without one. -/
  | option (name : String) (value : String)
  /-- A value of its own. -/
  | positional (text : String)
  deriving DecidableEq, Repr

namespace ArgumentGrammar

/-- The option that asks for help; every command has it. -/
def help : OptionSpec := { name := "help", letter := some 'h', value := .nothing }

/-- The option with a name. -/
def named? (g : ArgumentGrammar) (name : String) : Option OptionSpec :=
  (help :: g.options).find? fun spec => spec.name == name

/-- The option with a letter. -/
def lettered? (g : ArgumentGrammar) (letter : Char) : Option OptionSpec :=
  (help :: g.options).find? fun spec => spec.letter == some letter

/-- Whether an argument starts with a dash and is more than the dash. -/
def isDashed (arg : String) : Bool :=
  match arg.toList with
  | '-' :: _ :: _ => true
  | _ => false

/-- The values of an option, in the order in which they were given. -/
def valuesOf (pieces : List ArgumentPiece) (name : String) : List String :=
  pieces.filterMap fun
    | .option other value => if other = name then some value else none
    | .positional _ => none

/-- The values that stand on their own. -/
def positionalsOf (pieces : List ArgumentPiece) : List String :=
  pieces.filterMap fun
    | .positional text => some text
    | .option _ _ => none

/-- Whether an option is given. -/
def isGiven (pieces : List ArgumentPiece) (name : String) : Bool :=
  !(valuesOf pieces name).isEmpty

/-- Whether help is asked for. -/
def asksHelp (pieces : List ArgumentPiece) : Bool := isGiven pieces help.name

/-- The pieces of the letters behind a dash, as far as the one that asks for help; the name is
that of a last option that still needs its value. -/
def letters (g : ArgumentGrammar) : List Char → Option (List ArgumentPiece × Option String)
  | [] => some ([], none)
  | c :: rest =>
    match g.lettered? c with
    | none => none
    | some spec =>
      if spec.value = .nothing then
        if spec.name = help.name then some ([.option spec.name ""], none)
        else
          (g.letters rest).map fun (pieces, waiting) => (.option spec.name "" :: pieces, waiting)
      else
        match rest with
        | [] => some ([], some spec.name)
        | '=' :: value => some ([.option spec.name (String.ofList value)], none)
        | value => some ([.option spec.name (String.ofList value)], none)

/-- A long option cut at its equals sign. -/
def longParts (body : List Char) : String × Option String :=
  let name := body.takeWhile (· != '=')
  let behind := body.drop name.length
  (String.ofList name, if behind.isEmpty then none else some (String.ofList (behind.drop 1)))

/-- The pieces of one argument in front of which `started` tells whether a value came, or the
name of the option that waits for its value; `none` for an argument out of place. -/
def pieces (g : ArgumentGrammar) (started : Bool) (arg : String) :
    Option (List ArgumentPiece × Option String) :=
  let value : Option (List ArgumentPiece × Option String) := some ([.positional arg], none)
  match arg.toList with
  | '-' :: '-' :: body =>
    if g.isOpen && started then value
    else
      let (name, attached) := longParts body
      match g.named? name with
      | none => if g.isOpen then value else none
      | some spec =>
        match spec.value, attached with
        | .nothing, some _ => none
        | .nothing, none => some ([.option spec.name ""], none)
        | _, some text => some ([.option spec.name text], none)
        | _, none => some ([], some spec.name)
  | '-' :: c :: rest =>
    if g.isOpen && (started || (c :: rest).any fun d => (g.lettered? d).isNone) then value
    else g.letters (c :: rest)
  | _ => value

/-- The pieces of a command line, as far as the one that asks for help; `waiting` is the option
whose value comes next. -/
def scanFrom (g : ArgumentGrammar) (started : Bool) (waiting : Option String) :
    List String → Option (List ArgumentPiece)
  | [] => if waiting.isSome then none else some []
  | arg :: rest =>
    match waiting with
    | some name =>
      if isDashed arg then none
      else (g.scanFrom started none rest).map (.option name arg :: ·)
    | none =>
      if arg = "--" ∧ !(g.isOpen && started) then some (rest.map .positional)
      else
        match g.pieces started arg with
        | none => none
        | some (pieces, waiting) =>
          if asksHelp pieces then some pieces
          else
            let started := started || !(positionalsOf pieces).isEmpty
            (g.scanFrom started waiting rest).map (pieces ++ ·)

/-- Whether the values of an option are of its kind, and no more than it may have. -/
def isObserved (pieces : List ArgumentPiece) (spec : OptionSpec) : Bool :=
  let values := valuesOf pieces spec.name
  (spec.repeatable || values.length ≤ 1) && values.all spec.value.admits

/-- Whether pieces are what the grammar allows. -/
def allows (g : ArgumentGrammar) (pieces : List ArgumentPiece) : Bool :=
  g.options.all (isObserved pieces) && (g.isOpen || (positionalsOf pieces).length ≤ 1)

/-- The pieces of a command line, as far as the one that asks for help; `none` if the grammar
rejects them. -/
def scan (g : ArgumentGrammar) (args : List String) : Option (List ArgumentPiece) :=
  (g.scanFrom false none args).filter g.allows

end ArgumentGrammar

/-- The unsigned numbers that texts spell, if all of them do. -/
def unsignedAll (texts : List String) : Option (List UInt64) :=
  texts.mapM fun text => Text.readUnsigned? text.toList

/-- The number given for an option, if it is given; `none` if what is given is no number. -/
def unsignedOf (pieces : List ArgumentPiece) (name : String) : Option (Option UInt64) :=
  match ArgumentGrammar.valuesOf pieces name with
  | [] => some none
  | text :: _ => (Text.readUnsigned? text.toList).map some

end TernaryMachine
