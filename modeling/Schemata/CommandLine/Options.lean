import Schemata.Text.Split

/-!
# Command lines — options

Reading the arguments of a command.  An option is named by two hyphens and a word, of which any
beginning will do that belongs to no other option, or by one hyphen and a letter.  A value follows
its option as the next argument, after an equals sign, or, with a single letter, at once; letters
that take no value may be written together.  After two hyphens alone nothing is an option.

Everything that looks like an option is first matched with the options there are
(`Word.ofArgument`), so that an ambiguous beginning is wrong wherever it stands; then the words are
taken in their order (`take`).  Who asks for help gets it, unless something before was wrong.
-/

namespace Schemata

/-- An option: its names, and whether it takes a value, and of which ones. -/
structure OptionSpec where
  names : List String
  takesValue : Bool := false
  choices : Option (List String) := none
  deriving DecidableEq, Repr

/-- What an option is known by. -/
def OptionSpec.key (o : OptionSpec) : String := o.names.headD ""

/-- Why the arguments are not taken: something is wrong with them, or help is asked for. -/
inductive ArgumentStop where
  | misuse
  | help
  deriving DecidableEq, Repr

/-- An option that was given, and its value. -/
structure Given where
  key : String
  value : Option String
  deriving DecidableEq, Repr

/-- What is written after the name of an option in the same argument, and whether an equals sign
stands before it. -/
structure Attached where
  text : List Char
  isAssigned : Bool
  deriving DecidableEq, Repr

/-- What an argument looks like. -/
inductive Word where
  | plain
  | separator
  | unknown
  | option (spec : OptionSpec) (name : String) (attached : Option Attached)
  deriving DecidableEq, Repr

/-- The option that asks for help. -/
def helpOption : OptionSpec := { names := ["--help", "-h"] }

namespace Word

/-- The option of a name. -/
def named (specs : List OptionSpec) (name : String) : Option OptionSpec :=
  specs.find? fun o => o.names.contains name

/-- The options that begin with a text, each with its name. -/
def beginningWith (specs : List OptionSpec) (front : List Char) : List (OptionSpec × String) :=
  specs.flatMap fun o =>
    (o.names.filter fun name => front.isPrefixOf name.toList).map fun name => (o, name)

/-- A negative number, which is no option. -/
def isNegative (cs : List Char) : Bool :=
  match cs with
  | '-' :: ds =>
    let (whole, hasPoint, places) := Text.cut '.' ds
    whole.all Char.isDigit && places.all Char.isDigit &&
      (if hasPoint then !places.isEmpty else !whole.isEmpty)
  | _ => false

/-- The options that an argument may mean, if none is named by it in full. -/
def candidates (specs : List OptionSpec) (cs : List Char) : List Word :=
  match cs with
  | '-' :: '-' :: _ =>
    let (front, isAssigned, text) := Text.cut '=' cs
    (beginningWith specs front).map fun (o, name) =>
      .option o name (if isAssigned then some ⟨text, true⟩ else none)
  | '-' :: letter :: text =>
    let short := String.ofList ['-', letter]
    ((named specs short).toList.map fun o => .option o short (some ⟨text, false⟩)) ++
      ((beginningWith specs cs).filter fun (_, name) => name != short).map fun (o, name) =>
        .option o name none
  | _ => []

/-- What an argument looks like before the two hyphens; one that may mean several options is
misuse. -/
def ofArgument (specs : List OptionSpec) (s : String) : Except ArgumentStop Word :=
  let cs := s.toList
  if cs.head? != some '-' then .ok .plain
  else
    match named specs s with
    | some o => .ok (.option o s none)
    | none =>
      if cs.length = 1 then .ok .plain
      else
        let (name, isAssigned, text) := Text.cut '=' cs
        match if isAssigned then named specs (String.ofList name) else none with
        | some o => .ok (.option o (String.ofList name) (some ⟨text, true⟩))
        | none =>
          match candidates specs cs with
          | [] => .ok (if isNegative cs || cs.contains ' ' then .plain else .unknown)
          | [w] => .ok w
          | _ => .error .misuse

/-- What arguments look like, each with the argument. -/
def ofArguments (specs : List OptionSpec) : List String → Except ArgumentStop (List (Word × String))
  | [] => .ok []
  | s :: rest =>
    if s = "--" then .ok ((.separator, s) :: rest.map fun t => (.plain, t))
    else do
      let w ← ofArgument specs s
      let words ← ofArguments specs rest
      pure ((w, s) :: words)

end Word

/-- Whether an option may have a value, and the option with it. -/
def OptionSpec.give (o : OptionSpec) (value : Option String) : Except ArgumentStop Given :=
  if o = helpOption then .error .help
  else
    match o.choices, value with
    | some choices, some v => if choices.contains v then .ok ⟨o.key, value⟩ else .error .misuse
    | _, _ => .ok ⟨o.key, value⟩

/-- What an argument with an option in it comes to: the options that take no value, then the one
that takes one, if it is still to come, and whether something is left that is no option. -/
structure Cluster where
  flags : List OptionSpec := []
  valued : Option (OptionSpec × Option String) := none
  hasExtra : Bool := false

/-- The options in an argument, from an option and what is attached to it. -/
def cluster (specs : List OptionSpec) (o : OptionSpec) (isLetter isAssigned : Bool) :
    List Char → Except ArgumentStop Cluster
  | [] =>
    if o.takesValue then .ok { valued := some (o, some "") }
    else .error .misuse
  | c :: text =>
    if o.takesValue then .ok { valued := some (o, some (String.ofList (c :: text))) }
    else if !isLetter || isAssigned || c = '-' then .error .misuse
    else
      match Word.named specs (String.ofList ['-', c]) with
      | none => .ok { flags := [o], hasExtra := true }
      | some next =>
        match text with
        | [] =>
          if next.takesValue then .ok { flags := [o], valued := some (next, none) }
          else .ok { flags := [o, next] }
        | d :: more => do
          let rest ←
            if d = '=' then cluster specs next true true more
            else cluster specs next true false (d :: more)
          pure { rest with flags := o :: rest.flags }

/-- What an option comes to: the options that it gives, whether the next argument is the value of
the last of them, and whether something is left that is no option. -/
structure Reach where
  given : List Given
  usesNext : Bool := false
  hasExtra : Bool := false

/-- What an option comes to, before another argument perhaps. -/
def reach (specs : List OptionSpec) (o : OptionSpec) (name : String) (attached : Option Attached)
    (next : Option (Word × String)) : Except ArgumentStop Reach := do
  let c ←
    match attached with
    | some a => cluster specs o (!"--".toList.isPrefixOf name.toList) a.isAssigned a.text
    | none => pure (if o.takesValue then { valued := some (o, none) } else { flags := [o] })
  match c.valued, next with
  | none, _ =>
    let flags ← c.flags.mapM (·.give none)
    pure { given := flags, hasExtra := c.hasExtra }
  | some (v, some value), _ =>
    let flags ← c.flags.mapM (·.give none)
    let last ← v.give (some value)
    pure { given := flags ++ [last], hasExtra := c.hasExtra }
  | some (v, none), some (.plain, value) =>
    let flags ← c.flags.mapM (·.give none)
    let last ← v.give (some value)
    pure { given := flags ++ [last], usesNext := true, hasExtra := c.hasExtra }
  | some (_, none), _ => throw .misuse

/-- What was taken of the words: the options, whether something was passed over that is none, and
the arguments that were not looked at. -/
structure Taken where
  given : List Given := []
  hasExtra : Bool := false
  rest : List String := []

/-- Takes options, up to the first argument that is none or passing over such arguments. -/
def take (specs : List OptionSpec) (passesOver : Bool) :
    List (Word × String) → Except ArgumentStop Taken
  | [] => .ok {}
  | (.option o name attached, _) :: words => do
    let r ← reach specs o name attached words.head?
    let taken ← take specs passesOver (words.drop (if r.usesNext then 1 else 0))
    pure { taken with given := r.given ++ taken.given, hasExtra := r.hasExtra || taken.hasExtra }
  | (.unknown, _) :: words => do
    let taken ← take specs passesOver words
    pure { taken with hasExtra := true }
  | (_, s) :: words =>
    if passesOver then do
      let taken ← take specs passesOver words
      pure { taken with hasExtra := true }
    else .ok { rest := s :: words.map Prod.snd }
termination_by words => words.length
decreasing_by all_goals simp only [List.length_drop, List.length_cons]; omega

/-- Reads the options of arguments. -/
def readOptions (specs : List OptionSpec) (passesOver : Bool) (arguments : List String) :
    Except ArgumentStop Taken := do
  let specs := helpOption :: specs
  let words ← Word.ofArguments specs arguments
  take specs passesOver words

namespace Taken

/-- Whether an option was given. -/
def has (t : Taken) (key : String) : Bool := t.given.any fun g => g.key == key

/-- The value of an option; of several the last one counts. -/
def value? (t : Taken) (key : String) : Option String :=
  ((t.given.filter fun g => g.key == key).getLast?).bind Given.value

end Taken

end Schemata
