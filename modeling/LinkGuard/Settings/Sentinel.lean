import LinkGuard.Settings.Basic
import LinkGuard.Text.Fields

/-! # Sentinel addresses

An address is a host and a port, parted by its last colon. A list of addresses is read in order, and
the first one that is no address decides.
-/

namespace LinkGuard

structure Endpoint where
  host : String
  port : Nat
deriving DecidableEq

namespace Endpoint

/-- Continues a port number whose digits so far are worth `value`. The first digit that is none or
that makes the number too large decides. -/
def continuePort (value : Nat) : List Char → Except PortFault Nat
  | [] => .ok value
  | c :: rest =>
    match Numeral.digit? 10 c with
    | none => .error .badDigit
    | some d =>
      if value * 10 + d < 65536 then continuePort (value * 10 + d) rest else .error .tooLarge

/-- A port number, which a plus sign may precede. -/
def readPort : List Char → Except PortFault Nat
  | [] => .error .empty
  | ['+'] => .error .badDigit
  | '+' :: rest => continuePort 0 rest
  | text => continuePort 0 text

def parse (address : String) : Except SettingsFault Endpoint :=
  match Text.splitLast ':' address.toList with
  | none => .error (.portMissing address)
  | some (host, port) =>
    match readPort port with
    | .error fault => .error (.portInvalid address fault)
    | .ok port => .ok ⟨String.ofList host, port⟩

def parseAll : List String → Except SettingsFault (List Endpoint)
  | [] => .ok []
  | address :: rest => do
    let endpoint ← parse address
    return endpoint :: (← parseAll rest)

end Endpoint

end LinkGuard
