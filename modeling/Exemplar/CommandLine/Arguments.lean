import Exemplar.Json.Layout
import Exemplar.Text.Digit
/-!
# Arguments

What the arguments of the command line ask for. Options may stand before and behind the words that
they go with; long ones may be cut short as long as they stay unique, their values may follow an
equals sign, and behind two dashes everything is a word. Two dashes in the place of a value empty
it: what the option gets is an empty list.
-/
namespace Exemplar.CommandLine

inductive Opt where
  | help
  | version
  | space
  | progress
  | type
  | indent
  deriving DecidableEq, Repr

def Opt.takesValue : Opt → Bool
  | .space => true
  | .type => true
  | .indent => true
  | _ => false

abbrev Spellings := List (String × Opt)

def generalOptions : Spellings := [("-h", .help), ("--help", .help), ("--version", .version)]

def sourceOptions : Spellings :=
  [("-h", .help), ("--help", .help), ("-n", .space), ("--namespace", .space),
    ("--progress", .progress)]

def typeOptions : Spellings := sourceOptions ++ [("-t", .type), ("--type", .type)]

def formatOptions : Spellings :=
  [("-h", .help), ("--help", .help), ("-i", .indent), ("--indent", .indent)]

/-- Why no command is run: an option asks for help, or the arguments make no sense. -/
inductive Refusal where
  | help
  | misuse
  deriving DecidableEq, Repr

/-- An option as it is given: which one, whether its short spelling is used, and the value that
stands in the same argument. -/
structure Given where
  option : Opt
  short : Bool
  value : Option String
  deriving DecidableEq, Repr

/-- What an argument is: a word, two dashes, an option, or something like an option that is none. -/
inductive Token where
  | word (text : String)
  | separator
  | option (given : Given)
  | unknown
  deriving DecidableEq, Repr

namespace Token

def atEquals (s : List Char) : List Char × Option (List Char) :=
  match s.dropWhile (· ≠ '=') with
  | _ :: value => (s.takeWhile (· ≠ '='), some value)
  | [] => (s, none)

def spelled? (spellings : Spellings) (s : List Char) : Option Opt :=
  (spellings.find? fun e => e.1.toList = s).map Prod.snd

def isShort (s : List Char) : Bool := (s.drop 1).head? ≠ some '-'

/-- The options that an argument may mean if it is no exact spelling. -/
def candidates (spellings : Spellings) (s : List Char) : List Given :=
  if isShort s then
    spellings.filterMap fun (spelling, o) =>
      if spelling.toList = s.take 2 then some ⟨o, true, some (String.ofList (s.drop 2))⟩
      else none
  else
    let (name, value) := atEquals s
    spellings.filterMap fun (spelling, o) =>
      if name.isPrefixOf spelling.toList then some ⟨o, false, value.map String.ofList⟩
      else none

/-- What an argument with a leading dash that is no exact spelling is. -/
def ofCandidates (spellings : Spellings) (text : String) : Except Refusal Token :=
  let s := text.toList
  match candidates spellings s with
  | [given] => .ok (.option given)
  | [] =>
    if Text.isNegativeNumber s || s.contains ' ' then .ok (.word text) else .ok .unknown
  | _ => .error .misuse

/-- What an argument is, before the two dashes. -/
def ofText (spellings : Spellings) (text : String) : Except Refusal Token :=
  let s := text.toList
  if s.head? ≠ some '-' then .ok (.word text)
  else
    match spelled? spellings s with
    | some o => .ok (.option ⟨o, isShort s, none⟩)
    | none =>
      if s.length = 1 then .ok (.word text)
      else
        match atEquals s with
        | (name, some value) =>
          match spelled? spellings name with
          | some o => .ok (.option ⟨o, isShort name, some (String.ofList value)⟩)
          | none => ofCandidates spellings text
        | (_, none) => ofCandidates spellings text

def ofTexts (spellings : Spellings) : List String → Except Refusal (List Token)
  | [] => .ok []
  | "--" :: rest => .ok (.separator :: rest.map .word)
  | text :: rest => do return (← ofText spellings text) :: (← ofTexts spellings rest)

end Token

inductive Arity where
  | one
  | many
  deriving DecidableEq, Repr

/-- Where the reading of words stands: none was taken yet, two dashes were seen before any, words
are being taken, or no more are taken. -/
inductive Phase where
  | before
  | separated
  | taking
  | done
  deriving DecidableEq, Repr

/-- What was read from the arguments of a command so far. -/
structure Reading where
  arity : Arity
  phase : Phase := .before
  words : List String := []
  space : Option String := none
  /-- The type that was asked for: none inside if its name was emptied. -/
  type : Option (Option String) := none
  indent : Indent := .none
  /-- Something is there that the command does not take. -/
  excess : Bool := false

namespace Reading

def takeWord (r : Reading) (w : String) : Reading :=
  match r.phase, r.arity with
  | .before, _ => { r with phase := .taking, words := [w] }
  | .separated, _ => { r with phase := .taking, words := [w] }
  | .taking, .many => { r with words := r.words ++ [w] }
  | .taking, .one => { r with phase := .done, excess := true }
  | .done, _ => { r with excess := true }

def takeSeparator (r : Reading) : Reading :=
  match r.phase, r.arity with
  | .before, _ => { r with phase := .separated }
  | .taking, .many => r
  | .taking, .one => { r with phase := .done }
  | _, _ => { r with excess := true }

def atOption (r : Reading) : Reading :=
  match r.phase with
  | .taking => { r with phase := .done }
  | _ => r

def emptied : String := "--"

def apply (r : Reading) (option : Opt) (value : String) : Except Refusal Reading :=
  match option with
  | .help => .error .help
  | .space => .ok { r with space := some (if value = emptied then "[]" else value) }
  | .type => .ok { r with type := some (if value = emptied then none else some value) }
  | .indent =>
    if value = emptied then .ok { r with indent := .unusable }
    else match Text.integer? value with
      | some i => .ok { r with indent := .blanks i }
      | none => .error .misuse
  | _ => .ok r

/-- The options of an argument that begins with a short option, given what is attached to that: its
value, or the letters of more short options. Only the value of the last option may be missing. -/
def cluster (spellings : Spellings) (option : Opt) (attached : List Char) :
    Except Refusal (List (Opt × Option String)) :=
  if option.takesValue then .ok [(option, some (String.ofList attached))]
  else
    match attached with
    | [] => .error .misuse
    | c :: rest =>
      match Token.spelled? spellings ['-', c], rest with
      | none, _ => .error .misuse
      | some next, [] => .ok [(option, none), (next, none)]
      | some next, d :: more => do
        return (option, none) :: (← cluster spellings next (d :: more))
termination_by attached.length

/-- The options that an argument gives, the last one maybe without its value. -/
def optionsOf (spellings : Spellings) (g : Given) : Except Refusal (List (Opt × Option String)) :=
  match g.value with
  | none => .ok [(g.option, none)]
  | some value =>
    if g.option.takesValue then .ok [(g.option, some value)]
    else if g.short then cluster spellings g.option value.toList
    else .error .misuse

def applyAll (r : Reading) : List (Opt × String) → Except Refusal Reading
  | [] => .ok r
  | (option, value) :: rest => do applyAll (← r.apply option value) rest

/-- The options with their values, the last of them with the word that follows if it lacks one, and
whether that word was used. -/
def complete (options : List (Opt × Option String)) (next : Option String) :
    Except Refusal (List (Opt × String) × Bool) :=
  match options with
  | [] => .ok ([], false)
  | [(option, none)] =>
    if option.takesValue then
      match next with
      | some w => .ok ([(option, w)], true)
      | none => .error .misuse
    else .ok ([(option, "")], false)
  | (option, value) :: rest => do
    let (values, used) ← complete rest next
    return ((option, value.getD "") :: values, used)

def read (spellings : Spellings) (r : Reading) : List Token → Except Refusal Reading
  | [] => .ok (if r.phase = .separated then { r with excess := true } else r)
  | .word w :: rest => read spellings (r.takeWord w) rest
  | .separator :: rest => read spellings r.takeSeparator rest
  | .unknown :: rest => read spellings { r.atOption with excess := true } rest
  | .option g :: .word w :: rest => do
    let (values, used) ← complete (← optionsOf spellings g) (some w)
    let r ← r.atOption.applyAll values
    if used then read spellings r rest else read spellings (r.takeWord w) rest
  | .option g :: rest => do
    let (values, _) ← complete (← optionsOf spellings g) none
    read spellings (← r.atOption.applyAll values) rest

/-- The words that were read; a command takes at least one. -/
def wordsTaken (r : Reading) : Except Refusal (List String) :=
  if r.words.isEmpty then .error .misuse else .ok r.words

end Reading

/-- Paths of sources, and the namespace for files among them. -/
structure Selection where
  paths : List String
  space : String
  deriving DecidableEq, Repr

/-- What can be asked for; without any command the program tells how it is called. -/
inductive Command where
  | usage
  | version
  | types (sources : Selection)
  | show (sources : Selection) (type : Option String)
  | errors (sources : Selection)
  | format (file : String) (indent : Indent)
  deriving DecidableEq, Repr

namespace Command

def defaultSpace : String := "schema"

def selection (r : Reading) : Except Refusal Selection :=
  r.wordsTaken.map fun paths => ⟨paths, r.space.getD defaultSpace⟩

def reading (spellings : Spellings) (arity : Arity) (args : List String) :
    Except Refusal Reading := do
  Reading.read spellings { arity } (← Token.ofTexts spellings args)

/-- The command of a name, and whether there are arguments that it does not take. -/
def ofName (name : String) (args : List String) : Except Refusal (Command × Bool) :=
  match name with
  | "types" => do
    let r ← reading sourceOptions .many args
    return (.types (← selection r), r.excess)
  | "show" => do
    let r ← reading typeOptions .many args
    match r.type with
    | some type => return (.show (← selection r) type, r.excess)
    | none => .error .misuse
  | "errors" => do
    let r ← reading sourceOptions .many args
    return (.errors (← selection r), r.excess)
  | "format" => do
    let r ← reading formatOptions .one args
    return (.format ((← r.wordsTaken).headD "") r.indent, r.excess)
  | _ => .error .misuse

/-- Read the options before the command, and the command. The first word is its name, and everything
behind it belongs to it. -/
def readGeneral (version excess : Bool) : List (Token × String) → Except Refusal Command
  | [] =>
    if excess then .error .misuse else if version then .ok .version else .ok .usage
  | (.word name, _) :: rest => do
    let (command, more) ← ofName name (rest.map Prod.snd)
    if excess || more then .error .misuse
    else return if version then .version else command
  | (.separator, _) :: _ => .error .misuse
  | (.unknown, _) :: rest => readGeneral version true rest
  | (.option g, _) :: rest => do
    let options ← Reading.optionsOf generalOptions g
    if options.any fun o => o.1 = .help then .error .help else readGeneral true excess rest

def ofArguments (args : List String) : Except Refusal Command := do
  readGeneral false false ((← Token.ofTexts generalOptions args).zip args)

end Command
end Exemplar.CommandLine
