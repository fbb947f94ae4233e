/-!
# Arguments on a command line

An argument is an option or a word.  An option has a long name after two dashes, and may have a letter after one dash;
it takes a value or is a notice, such as the one for help.  The value of an option is joined to it or is the next
argument, which must not look like an option itself.  After two dashes alone every argument is an operand.

The arguments are read from left to right.  A notice, a fault or the name of a command ends the reading, and what came
before it has been read.
-/
namespace TableAccess
namespace CommandLine

/-- What an option is for. -/
inductive Use where
  | value
  | help
  | version
  deriving DecidableEq, Repr

structure Opt where
  long  : String
  short : Option Char
  use   : Use
  deriving DecidableEq, Repr

structure Grammar where
  options     : List Opt
  /-- A word is the name of a command, and not an operand. -/
  hasCommands : Bool
  deriving DecidableEq, Repr

inductive Item where
  | option (long : String) (value : String)
  | operand (text : String)
  deriving DecidableEq, Repr

inductive Ending where
  | done
  | command (name : String) (rest : List String)
  | help
  | version
  | fault (complaint : String)
  deriving DecidableEq, Repr

/-- What an argument is, seen alone. -/
inductive Sign where
  /-- Two dashes alone. -/
  | separator
  | word
  /-- An option that takes the next argument as its value. -/
  | awaits (long : String)
  | item (i : Item)
  | ending (e : Ending)
  deriving DecidableEq, Repr

def Opt.sign (o : Opt) : Option String → Sign
  | none =>
    match o.use with
    | .value => .awaits o.long
    | .help => .ending .help
    | .version => .ending .version
  | some v =>
    if o.use == .value then .item (.option o.long v)
    else .ending (.fault ("--" ++ o.long ++ " takes no value"))

/-- An argument with two dashes, given without them.  A value may be joined by an equals sign. -/
def Grammar.longSign (g : Grammar) (cs : List Char) : Sign :=
  let name := String.ofList (cs.takeWhile (· != '='))
  let joined := match cs.dropWhile (· != '=') with
    | [] => none
    | _ :: v => some (String.ofList v)
  match g.options.find? (·.long == name) with
  | some o => o.sign joined
  | none => .ending (.fault ("unexpected argument '--" ++ name ++ "'"))

/-- An argument with one dash: a letter and what follows it.  What follows the letter of a notice is not looked at. -/
def Grammar.shortSign (g : Grammar) (letter : Char) (after : List Char) : Sign :=
  match g.options.find? (·.short == some letter) with
  | some o =>
    match o.use, after with
    | .value, '=' :: v => o.sign (some (String.ofList v))
    | .value, c :: v => o.sign (some (String.ofList (c :: v)))
    | _, _ => o.sign none
  | none => .ending (.fault ("unexpected argument '-" ++ letter.toString ++ "'"))

def Grammar.sign (g : Grammar) (arg : String) : Sign :=
  match arg.toList with
  | ['-', '-'] => .separator
  | '-' :: '-' :: cs => g.longSign cs
  | '-' :: letter :: after => g.shortSign letter after
  | _ => .word

/-- Whether an argument is no word, so that it is not the value of the option before it. -/
def looksLikeOption (arg : String) : Bool :=
  match arg.toList with
  | '-' :: _ :: _ => true
  | _ => false

def scan (g : Grammar) : List String → List Item × Ending
  | [] => ([], .done)
  | arg :: rest =>
    match g.sign arg with
    | .separator => (rest.map .operand, .done)
    | .ending e => ([], e)
    | .item i =>
      let (items, e) := scan g rest
      (i :: items, e)
    | .word =>
      if g.hasCommands then ([], .command arg rest)
      else
        let (items, e) := scan g rest
        (.operand arg :: items, e)
    | .awaits long =>
      match rest with
      | [] => ([], .fault ("--" ++ long ++ " needs a value"))
      | v :: rest =>
        if looksLikeOption v then ([], .fault ("--" ++ long ++ " needs a value"))
        else
          let (items, e) := scan g rest
          (.option long v :: items, e)

end CommandLine
end TableAccess
