/-!
# Options on a command line

**Reading options.** An option has a long name, written after two hyphens, and may have a letter,
written after one. It is a flag or takes a value: that of a long name follows after `=` or as the
next argument, whatever it looks like, and that of a letter is the rest of its argument or the next
one. The letters of flags may share an argument. Two hyphens alone end the options; all other
arguments are operands.

`Scribe.CommandLine.readArguments` reads the arguments of a command, given its options, and gives
what the options came to and the operands.
-/

namespace Scribe.CommandLine

/-- **What is wrong** with a command line. -/
inductive UsageError where
  | noArguments
  | missingCommand
  | unknownCommand (name : String)
  | unknownOption (name : String)
  /-- The option takes a value, and there is none. -/
  | missingValue (name : String)
  /-- The option is a flag, and there is a value. -/
  | unexpectedValue (name : String)
  | missingOperand
  | extraOperands (operands : List String)
  deriving Repr, DecidableEq

/-- **What an option does** to what the options come to. -/
inductive Effect (σ : Type) where
  | flag (apply : σ → σ)
  | value (apply : String → σ → σ)

/-- **An option.** -/
structure OptionSpec (σ : Type) where
  /-- Its name after two hyphens. -/
  long : String
  /-- Its letter after one hyphen. -/
  letter : Option Char := none
  /-- What it does. -/
  effect : Effect σ

/-- **What arguments come to.** -/
structure Arguments (σ : Type) where
  /-- What the options came to. -/
  options : σ
  /-- The operands, in order. -/
  operands : List String := []

variable {σ : Type}

/-- What one argument asks for. -/
inductive Reading (σ : Type) where
  /-- It is done. -/
  | done (options : σ)
  /-- The next argument is the value of the option. -/
  | needsValue (name : String) (apply : String → σ)

/-- The option with a long name. -/
def byName (specs : List (OptionSpec σ)) (name : String) : Option (OptionSpec σ) :=
  specs.find? (·.long == name)

/-- The option with a letter. -/
def byLetter (specs : List (OptionSpec σ)) (c : Char) : Option (OptionSpec σ) :=
  specs.find? (·.letter == some c)

/-- Reads what follows two hyphens. -/
def readLong (specs : List (OptionSpec σ)) (s : σ) (body : List Char) :
    Except UsageError (Reading σ) :=
  let name := String.ofList (body.takeWhile (· != '='))
  match byName specs name, body.dropWhile (· != '=') with
  | none, _ => .error (.unknownOption name)
  | some ⟨_, _, .flag apply⟩, [] => .ok (.done (apply s))
  | some ⟨_, _, .flag _⟩, _ :: _ => .error (.unexpectedValue name)
  | some ⟨_, _, .value apply⟩, [] => .ok (.needsValue name fun v => apply v s)
  | some ⟨_, _, .value apply⟩, _ :: value => .ok (.done (apply (String.ofList value) s))

/-- Reads the letters after one hyphen. -/
def readLetters (specs : List (OptionSpec σ)) (s : σ) : List Char → Except UsageError (Reading σ)
  | [] => .ok (.done s)
  | c :: rest =>
    match byLetter specs c with
    | none => .error (.unknownOption c.toString)
    | some ⟨_, _, .flag apply⟩ => readLetters specs (apply s) rest
    | some ⟨_, _, .value apply⟩ =>
      if rest.isEmpty then .ok (.needsValue c.toString fun v => apply v s)
      else .ok (.done (apply (String.ofList rest) s))

/-- Reads an argument as an option; `none` if it is an operand. -/
def readOption (specs : List (OptionSpec σ)) (s : σ) (arg : String) :
    Option (Except UsageError (Reading σ)) :=
  match arg.toList with
  | '-' :: '-' :: body => some (readLong specs s body)
  | '-' :: c :: body => some (readLetters specs s (c :: body))
  | _ => none

/-- **Reads arguments.** If `mixed`, options may follow operands; otherwise the first operand and
all that follows are operands. -/
def readArguments (specs : List (OptionSpec σ)) (mixed : Bool) (s : σ) :
    List String → Except UsageError (Arguments σ)
  | [] => .ok ⟨s, []⟩
  | "--" :: rest => .ok ⟨s, rest⟩
  | arg :: rest =>
    match readOption specs s arg with
    | none =>
      if mixed then
        (readArguments specs mixed s rest).map fun a => { a with operands := arg :: a.operands }
      else .ok ⟨s, arg :: rest⟩
    | some (.error e) => .error e
    | some (.ok (.done s)) => readArguments specs mixed s rest
    | some (.ok (.needsValue name apply)) =>
      match rest with
      | [] => .error (.missingValue name)
      | value :: rest => readArguments specs mixed (apply value) rest

end Scribe.CommandLine
