/-! # Arguments

Arguments are read from left to right: switches with or without a value, values that stand alone,
and the name of a command, which ends the part in front of it. Asking for help ends the reading at
once, but not before an argument that is wrong.
-/

namespace LinkGuard.CommandLine

structure Switch where
  long : String
  short : Option Char
  takesValue : Bool
  accepts : String → Bool

/-- A switch with a long name and a value. -/
def Switch.valued (long : String) (accepts : String → Bool) : Switch := ⟨long, none, true, accepts⟩

structure Grammar where
  switches : List Switch
  /-- How many values may stand alone. -/
  operands : Nat
  commands : List String
  hasVersion : Bool

inductive Stop where
  | help
  | version
  | misuse
deriving DecidableEq

/-- A switch whose value stands apart from it, and that value once it has been read. -/
structure Waiting where
  switch : Switch
  value : Option String

structure Found where
  values : List (String × String)
  operands : List String
  waiting : Option Waiting
  /-- Everything that follows stands alone. -/
  trailing : Bool

namespace Found

def empty : Found := ⟨[], [], none, false⟩

def value? (f : Found) (long : String) : Option String := f.values.lookup long

/-- Takes a switch with its value. No switch may come twice. -/
def take (f : Found) (switch : Switch) (value : String) : Except Stop Found :=
  if (f.value? switch.long).isSome || !switch.accepts value then .error .misuse
  else .ok { f with values := (switch.long, value) :: f.values }

/-- Takes the switch that has been waiting. -/
def settle (f : Found) : Except Stop Found :=
  match f.waiting with
  | none => .ok f
  | some ⟨_, none⟩ => .error .misuse
  | some ⟨switch, some value⟩ => { f with waiting := none }.take switch value

/-- Whether the next argument may be a value of the last switch. -/
def expectsValue (f : Found) : Bool := f.waiting.any fun w => w.value.isNone

end Found

namespace Grammar

/-- A switch without a value, or what ends the reading. -/
def flag (f : Found) (switch : Switch) : Except Stop Found := do
  let f ← f.settle
  f.take switch ""

def stop (f : Found) (reason : Stop) : Except Stop Found := do
  let _ ← f.settle
  throw reason

/-- A switch with a value: the one attached to it, or else the next argument. -/
def valued (f : Found) (switch : Switch) (attached : Option String) : Except Stop Found := do
  let f ← f.settle
  match attached with
  | some value => f.take switch value
  | none => return { f with waiting := some ⟨switch, none⟩ }

/-- An argument behind two hyphens: a long name, and the value behind an equals sign. -/
def long (g : Grammar) (f : Found) (text : List Char) : Except Stop Found :=
  let name := String.ofList (text.takeWhile (· ≠ '='))
  let attached := match text.dropWhile (· ≠ '=') with
    | _ :: value => some (String.ofList value)
    | [] => none
  match g.switches.find? fun s => s.long = name with
  | some switch =>
    if switch.takesValue then valued f switch attached
    else if attached.isSome then .error .misuse
    else flag f switch
  | none =>
    if attached.isSome then .error .misuse
    else if name = "help" then stop f .help
    else if name = "version" && g.hasVersion then stop f .version
    else .error .misuse

/-- The value that is attached to a short name. -/
def attachedTo : List Char → Option String
  | [] => none
  | '=' :: value => some (String.ofList value)
  | value => some (String.ofList value)

/-- An argument behind one hyphen: short names, of which the last may have a value attached. -/
def short (g : Grammar) (f : Found) : List Char → Except Stop Found
  | [] => .ok f
  | c :: rest =>
    match g.switches.find? fun s => s.short = some c with
    | some switch =>
      if switch.takesValue then valued f switch (attachedTo rest)
      else do short g (← flag f switch) rest
    | none =>
      if c = 'h' then stop f .help
      else if c = 'V' && g.hasVersion then stop f .version
      else .error .misuse

/-- A value that stands alone. -/
def operand (g : Grammar) (f : Found) (arg : String) : Except Stop Found := do
  let f ← f.settle
  if f.operands.length < g.operands then return { f with operands := f.operands ++ [arg] }
  else throw .misuse

/-- One argument that is no command. -/
def argument (g : Grammar) (f : Found) (arg : String) : Except Stop Found :=
  if f.trailing then g.operand f arg
  else match arg.toList with
    | ['-', '-'] => .ok { f with trailing := true }
    | '-' :: '-' :: text => g.long f text
    | '-' :: c :: text => g.short f (c :: text)
    | _ =>
      match f.waiting with
      | some ⟨switch, none⟩ => .ok { f with waiting := some ⟨switch, some arg⟩ }
      | _ => g.operand f arg

/-- Reads arguments up to a command. The results are what was found, and the command with the
arguments behind it. -/
def read (g : Grammar) : Found → List String → Except Stop (Found × Option (String × List String))
  | f, [] => .ok (f, none)
  | f, arg :: rest =>
    if !f.trailing && !f.expectsValue && g.commands.contains arg then .ok (f, some (arg, rest))
    else do read g (← g.argument f arg) rest

def readAll (g : Grammar) (args : List String) : Except Stop Found := do
  let (f, _) ← g.read .empty args
  f.settle

end Grammar

end LinkGuard.CommandLine
