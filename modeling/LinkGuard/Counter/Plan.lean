import LinkGuard.Counter.Basic

/-! # Commands, plans and handlers

A store understands three commands, each of which it carries out at one stroke. A plan says which
commands to give, one after the other, and what to make of the answers; it does not know the store.
A handler is a store: it answers a command in a state and moves to the next state.

Two plans can be run side by side. A list of turns says which of them gives its next command;
whoever waits for a store lets the other go on, so every order of the commands is some list of
turns.
-/

namespace LinkGuard

inductive Command where
  /-- Count the key up, opening its window if it has none. -/
  | increment (key : String) (window : Span)
  /-- Let the key's window end after `window`. -/
  | arm (key : String) (window : Span)
  /-- Say how long the key's window still runs. -/
  | remaining (key : String)
deriving DecidableEq

/-- What a command is answered with when nothing goes wrong. -/
def Command.Answer : Command → Type
  | increment _ _ => Hit
  | arm _ _ => Unit
  | remaining _ => Ttl

def Command.key : Command → String
  | increment key _ => key
  | arm key _ => key
  | remaining key => key

/-- Commands to give until there is a result. -/
inductive Plan (α : Type) where
  | done (result : α)
  | ask (command : Command) (next : Except StoreError command.Answer → Plan α)

/-- A store with states in `σ`. -/
abbrev Handler (σ : Type) := (command : Command) → σ → Except StoreError command.Answer × σ

/-- Which of two plans gives its next command. -/
inductive Turn where
  | first
  | second
deriving DecidableEq

namespace Plan

variable {α β σ : Type}

/-- Gives all commands of a plan. -/
def run (handler : Handler σ) : Plan α → σ → α × σ
  | done result, s => (result, s)
  | ask command next, s =>
    let (answer, s) := handler command s
    (next answer).run handler s

/-- Gives the next command of a plan, if it has one left. -/
def step (handler : Handler σ) : Plan α → σ → Plan α × σ
  | done result, s => (done result, s)
  | ask command next, s =>
    let (answer, s) := handler command s
    (next answer, s)

/-- Runs two plans side by side: by turns first, then the first to its end and the second to its
    end. -/
def runBoth (left right : Handler σ) : List Turn → Plan α → Plan β → σ → (α × β) × σ
  | [], p, q, s =>
    let (a, s) := p.run left s
    let (b, s) := q.run right s
    ((a, b), s)
  | .first :: turns, p, q, s =>
    let (p, s) := p.step left s
    runBoth left right turns p q s
  | .second :: turns, p, q, s =>
    let (q, s) := q.step right s
    runBoth left right turns p q s

end Plan

/-- The turns of two plans that both wait for a remote store: one command each, again and again. -/
def Turn.alternating : Nat → List Turn
  | 0 => []
  | n + 1 => .first :: .second :: alternating n

end LinkGuard
