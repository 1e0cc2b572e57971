import Scanout.Log.Filter

/-!
# Trial runs: options

A trial run is asked for by the words of a command line. `Request.ofWords` reads them: every option
may be given once, and every option but the switch `fast` has a value, in the word after it or in
the same word after an equals sign.
-/

namespace Scanout.Trial

/-- What can be chosen for a trial run. -/
structure Options where
  /-- the rate of the game -/
  gameRate : Nat
  /-- the rate to present at, in place of the configured one -/
  targetRate : Option Nat
  /-- the number of frames -/
  workloads : Nat
  width : Nat
  height : Nat
  /-- the word for the level of the log -/
  logLevel : String
  logFile : Option String
  /-- the messages of a category allowed in a second -/
  logRateLimit : Nat
  config : Option String
  report : Option String
  snapshot : Option String
  /-- do not keep to the rate of the game -/
  fast : Bool
  deriving DecidableEq, Repr

namespace Options

def default : Options where
  gameRate := 30
  targetRate := none
  workloads := 60
  width := 320
  height := 240
  logLevel := "warn"
  logFile := none
  logRateLimit := 60
  config := none
  report := none
  snapshot := none
  fast := false

instance : Inhabited Options := ⟨default⟩

end Options

/-- The number that decimal digits stand for. -/
def digitsValue? (digits : List Char) : Option Nat :=
  if digits.isEmpty ∨ !digits.all Char.isDigit then none
  else some (digits.foldl (fun n c => n * 10 + (c.toNat - '0'.toNat)) 0)

/-- A whole number with or without a sign. -/
def integer? : List Char → Option Int
  | '-' :: digits => (digitsValue? digits).map fun n => -(n : Int)
  | '+' :: digits => (digitsValue? digits).map Int.ofNat
  | digits => (digitsValue? digits).map Int.ofNat

/-- An unsigned word of 32 bits. -/
def word? (value : List Char) : Option Nat := do
  let i ← integer? value
  if 0 ≤ i ∧ i < 0x100000000 then some i.toNat else none

/-- An unsigned word of 64 bits; not even a zero may have a minus sign. -/
def longWord? (value : List Char) : Option Nat := do
  let i ← integer? value
  if value.head? ≠ some '-' ∧ i < 0x10000000000000000 then some i.toNat else none

/-- The name of a file, which is not empty. -/
def path? (value : List Char) : Option (Option String) :=
  if value.isEmpty then none else some (some (String.ofList value))

/-- The options that have a value. -/
inductive Setting where
  | gameRate
  | targetRate
  | workloads
  | width
  | height
  | logLevel
  | logFile
  | logRateLimit
  | config
  | report
  | snapshot
  deriving DecidableEq, Repr

namespace Setting

/-- Choose a value, if it is one for the option. -/
def choose? (o : Options) (value : List Char) : Setting → Option Options
  | gameRate => (word? value).map fun n => { o with gameRate := n }
  | targetRate => (word? value).map fun n => { o with targetRate := some n }
  | workloads => (word? value).map fun n => { o with workloads := n }
  | width => (word? value).map fun n => { o with width := n }
  | height => (word? value).map fun n => { o with height := n }
  | logLevel => some { o with logLevel := String.ofList value }
  | logFile => (path? value).map fun p => { o with logFile := p }
  | logRateLimit => (longWord? value).map fun n => { o with logRateLimit := n }
  | config => (path? value).map fun p => { o with config := p }
  | report => (path? value).map fun p => { o with report := p }
  | snapshot => (path? value).map fun p => { o with snapshot := p }

end Setting

/-- What a word asks for. -/
inductive Switch where
  | setting (s : Setting)
  | fast
  | help
  deriving DecidableEq, Repr

/-- The switches by their names. -/
def switches : List (String × Switch) :=
  [("original-rate", .setting .gameRate), ("target-rate", .setting .targetRate),
    ("workloads", .setting .workloads), ("width", .setting .width), ("height", .setting .height),
    ("log-level", .setting .logLevel), ("log-file", .setting .logFile),
    ("log-rate-limit", .setting .logRateLimit), ("config", .setting .config),
    ("report", .setting .report), ("snapshot", .setting .snapshot), ("fast", .fast),
    ("help", .help)]

/-- A word split into a switch and the value after an equals sign. A word of one dash is a series of
letters, of which only `h` is a switch; help is given before the other letters are looked at. -/
def split? (word : List Char) : Option (Switch × Option (List Char)) :=
  match word with
  | '-' :: 'h' :: _ => some (.help, none)
  | '-' :: '-' :: body => do
    let switch ← switches.lookup (String.ofList (body.takeWhile (· ≠ '=')))
    match body.dropWhile (· ≠ '=') with
    | _ :: value => return (switch, some value)
    | [] => return (switch, none)
  | _ => none

/-- The word can only be a switch. A dash alone is a value. -/
def isSwitch (word : List Char) : Bool := word.head? = some '-' && word ≠ ['-']

/-- Two dashes end the switches. -/
def isEnd (word : List Char) : Bool := word = ['-', '-']

/-- A switch with its value, if that is where it belongs. -/
def choice? : Switch × Option (List Char) → Option (Switch × List Char)
  | (.setting s, some value) => some (.setting s, value)
  | (.setting _, none) => none
  | (switch, none) => some (switch, [])
  | (_, some _) => none

/-- The switches that words name, with their values; `none` stands for a word that is out of place,
and nothing is read after it. -/
def choices : List (List Char) → List (Option (Switch × List Char))
  | [] => []
  | [word] => if isEnd word then [] else [(split? word).bind choice?]
  | word :: next :: words =>
    if isEnd word then [none]
    else match split? word with
      | some (.setting s, none) =>
        if isSwitch next then [none] else some (.setting s, next) :: choices words
      | split =>
        match split.bind choice? with
        | some choice => some choice :: choices (next :: words)
        | none => [none]

/-- What the words of a command line ask for. -/
inductive Request where
  | run (o : Options)
  | help
  | malformed
  deriving DecidableEq, Repr

namespace Request

/-- Make choices, after some switches were given. -/
def ofChoices (o : Options) (given : List Switch) : List (Option (Switch × List Char)) → Request
  | [] => run o
  | none :: _ => malformed
  | some (switch, value) :: rest =>
    if switch ∈ given then malformed
    else match switch with
      | .help => help
      | .fast => ofChoices { o with fast := true } (switch :: given) rest
      | .setting s =>
        match s.choose? o value with
        | some o => ofChoices o (switch :: given) rest
        | none => malformed

/-- Read the words of a command line. -/
def ofWords (words : List String) : Request :=
  ofChoices .default [] (choices (words.map String.toList))

end Request

end Scanout.Trial
