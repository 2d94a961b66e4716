import Historian.Text.Cut

/-!
Arguments of commands. Values stand in their places; options go by their names, each with a value of
its own unless it is a flag. Two dashes end the options. An option stands where values stand, so a
value that begins with a dash has to follow its option after an equals sign, or come after the two
dashes.
-/
namespace Historian.Command

inductive Arity
  /-- An option without a value. -/
  | flag
  /-- An option with a value, given at most once. -/
  | one
  /-- An option that can be given again and again. -/
  | many
deriving DecidableEq, Repr

/-- An option that a command knows. -/
structure Known where
  name : String
  short : Option Char := none
  arity : Arity := .one
deriving DecidableEq, Repr

/-- What a command takes: so many values at most, and its options. -/
structure Form where
  places : Nat
  options : List Known := []
deriving Repr

/-- The values and the options that were given, in their order; a flag has an empty value. -/
structure Arguments where
  values : List String := []
  options : List (String × String) := []
deriving DecidableEq, Repr

namespace Arguments

/-- Adds a value, if there is a place for it. -/
def place? (form : Form) (a : Arguments) (value : String) : Option Arguments :=
  if a.values.length < form.places then some { a with values := a.values ++ [value] } else none

/-- Adds an option; one that is given at most once must be new. -/
def add? (a : Arguments) (o : Known) (value : String) : Option Arguments :=
  if o.arity ≠ .many ∧ (a.options.lookup o.name).isSome then none
  else some { a with options := a.options ++ [(o.name, value)] }

/-- Whether an argument is taken for an option: a dash and something after it. -/
def looksLikeOption (arg : String) : Bool :=
  match arg.toList with
  | '-' :: _ :: _ => true
  | _ => false

/-- An option that an argument names, with the value attached to it. -/
structure Mention where
  option : Known
  attached : Option String

/-- The option that an argument names: by its whole name after two dashes, or by one letter after a
single dash. -/
def mention? (form : Form) (arg : String) : Option Mention := do
  match arg.toList with
  | '-' :: '-' :: cs =>
    let (name, value) := Text.cut (· == '=') cs
    let option ← form.options.find? (·.name == String.ofList name)
    return ⟨option, value.map String.ofList⟩
  | '-' :: letter :: cs =>
    let option ← form.options.find? (·.short == some letter)
    let value := match cs with
      | [] => none
      | '=' :: cs => some (String.ofList cs)
      | cs => some (String.ofList cs)
    return ⟨option, value⟩
  | _ => none

/-- Takes in the option that `arg` names, and says which of the arguments after it are left. -/
def takeOption? (form : Form) (a : Arguments) (arg : String) (args : List String) :
    Option (Arguments × List String) := do
  let ⟨o, attached⟩ ← mention? form arg
  match o.arity, attached with
  | .flag, none => return (← a.add? o "", args)
  | .flag, some _ => none
  | _, some value => return (← a.add? o value, args)
  | _, none =>
    match args with
    | value :: rest => if looksLikeOption value then none else return (← a.add? o value, rest)
    | [] => none

theorem length_le_of_takeOption? {form : Form} {a : Arguments} {arg : String} {args : List String}
    {r : Arguments × List String} (h : takeOption? form a arg args = some r) :
    r.2.length ≤ args.length := by
  simp only [takeOption?, bind, Option.bind_eq_some_iff] at h
  obtain ⟨⟨o, attached⟩, -, h⟩ := h
  split at h
  · obtain ⟨_, -, h⟩ := Option.bind_eq_some_iff.1 h
    cases h; simp
  · simp at h
  · obtain ⟨_, -, h⟩ := Option.bind_eq_some_iff.1 h
    cases h; simp
  · split at h
    · split at h
      · simp at h
      · obtain ⟨_, -, h⟩ := Option.bind_eq_some_iff.1 h
        cases h; simp
    · simp at h

/-- Takes in the options at the front, and says what follows them. -/
def takeOptions? (form : Form) (a : Arguments) : List String → Option (Arguments × List String)
  | [] => some (a, [])
  | arg :: args =>
    if looksLikeOption arg then
      match h : takeOption? form a arg args with
      | none => none
      | some r =>
        have := length_le_of_takeOption? h
        takeOptions? form r.1 r.2
    else some (a, arg :: args)
termination_by args => args.length

/-- Reads arguments after those in `a`. -/
def readAfter (form : Form) (a : Arguments) : List String → Option Arguments
  | [] => some a
  | "--" :: args => args.foldlM (place? form) a
  | arg :: args =>
    if looksLikeOption arg then
      match h : takeOption? form a arg args with
      | none => none
      | some r =>
        have := length_le_of_takeOption? h
        readAfter form r.1 r.2
    else
      match a.place? form arg with
      | none => none
      | some a => readAfter form a args
termination_by args => args.length

/-- Reads the arguments of a command. -/
def read? (form : Form) (args : List String) : Option Arguments := readAfter form {} args

/-- The value in a place. -/
def value? (a : Arguments) (i : Nat) : Option String := a.values[i]?

/-- The value of an option. -/
def option? (a : Arguments) (name : String) : Option String := a.options.lookup name

/-- The values of an option, in their order. -/
def all (a : Arguments) (name : String) : List String :=
  (a.options.filter (·.1 == name)).map (·.2)

def has (a : Arguments) (name : String) : Bool := (a.options.lookup name).isSome

end Arguments

end Historian.Command
