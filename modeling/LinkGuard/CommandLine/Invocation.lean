import LinkGuard.CommandLine.Arguments
import LinkGuard.Text.Numeral

/-! # Invocations

What the program can be asked on its command line: to mint or verify a token, to try the limiter or
look at its cooldown, or to make a secret.
-/

namespace LinkGuard.CommandLine

inductive Action where
  /-- Mint a token, perhaps with a lifetime in seconds of its own. -/
  | mint (identity : String) (ttl : Option Nat)
  | verify (token : String)
  /-- Ask the limiter a number of times. -/
  | check (address identity : String) (times : Nat)
  | cooldown (address identity : String)
  | newSecret
deriving DecidableEq

structure Invocation where
  /-- The path of the settings file. -/
  config : Option String
  jsonLogs : Bool
  action : Action
deriving DecidableEq

namespace Invocation

def anyText (_ : String) : Bool := true

/-- A whole number of 64 bits without a sign. -/
def seconds? (s : String) : Option Nat := (Numeral.unsigned? 10 s.toList).filter (· < UInt64.size)

/-- A whole number of 32 bits; zero may have a minus sign. -/
def count? (s : String) : Option Nat :=
  match Numeral.word? 10 s.toList with
  | some (.ofNat n) => if n < UInt32.size then some n else none
  | _ => none

/-- The arguments in front of a command. -/
def front : Grammar where
  switches := [⟨"config", some 'c', true, anyText⟩, ⟨"json-logs", none, false, anyText⟩]
  operands := 0
  commands := ["mint", "verify", "check", "cooldown", "gen-secret", "help"]
  hasVersion := true

/-- The switches for a pair of address and identity. -/
def pairSwitches : List Switch := [.valued "address" anyText, .valued "identity" anyText]

/-- The arguments behind a command. -/
def behind (command : String) : Grammar :=
  match command with
  | "mint" => ⟨[.valued "ttl-secs" fun s => (seconds? s).isSome], 1, [], false⟩
  | "verify" => ⟨[], 1, [], false⟩
  | "check" => ⟨pairSwitches ++ [.valued "repeat" fun s => (count? s).isSome], 0, [], false⟩
  | "cooldown" => ⟨pairSwitches, 0, [], false⟩
  | _ => ⟨[], 0, [], false⟩

/-- The action that a command and what was found behind it ask for. -/
def action? (command : String) (f : Found) : Option Action :=
  match command, f.operands with
  | "mint", [identity] => some (.mint identity ((f.value? "ttl-secs").bind seconds?))
  | "verify", [token] => some (.verify token)
  | "check", [] => do
    let times := ((f.value? "repeat").bind count?).getD 1
    return .check (← f.value? "address") (← f.value? "identity") times
  | "cooldown", [] => do return .cooldown (← f.value? "address") (← f.value? "identity")
  | "gen-secret", [] => some .newSecret
  | _, _ => none

def help : List String → Stop
  | [] => .help
  | [command] => if front.commands.contains command then .help else .misuse
  | _ => .misuse

/-- The invocation that arguments and the environment make. A path on the command line goes before
the one in the environment. -/
def parse (args : List String) (environment : List (String × String)) : Except Stop Invocation := do
  let (f, rest) ← front.read .empty args
  match rest with
  | none => throw .misuse
  | some ("help", topics) => throw (help topics)
  | some (command, args) =>
    let some action := action? command (← (behind command).readAll args) | throw .misuse
    let f ← f.settle
    let config := (f.value? "config").or (environment.lookup "VERIGATE_CONFIG")
    return ⟨config, (f.value? "json-logs").isSome, action⟩

def usage : List String :=
  ["Usage: verigate [OPTIONS] <COMMAND>",
    "",
    "Commands:",
    "  mint IDENTITY [--ttl-secs N]     Mint a verification token for an identity",
    "  verify TOKEN                     Verify a token and print the identity it proves",
    "  check --address A --identity I [--repeat N]",
    "                                   Ask the rate limiter whether an address may send to an identity",
    "  cooldown --address A --identity I",
    "                                   Show the current cooldown without counting a hit",
    "  gen-secret                       Generate a random signing secret",
    "  help                             Print this message",
    "",
    "Options:",
    "  -c, --config PATH                Path to a YAML configuration file",
    "      --json-logs                  Emit logs as JSON",
    "  -h, --help                       Print help",
    "  -V, --version                    Print version"]

end Invocation

end LinkGuard.CommandLine
