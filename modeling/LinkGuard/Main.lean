import LinkGuard.CommandLine.Course
import LinkGuard.Text.Utf8
import Std.Time.DateTime

/-! # The program

Reads arguments, the environment, the settings file, the clock and random bytes, and prints what the
invocation comes to. No network is reached from here, so a store on a server is always out of reach.
-/

namespace LinkGuard.Program

open CommandLine

def environment : IO (List (String × String)) := do
  let bytes ← try IO.FS.readBinFile "/proc/self/environ" catch _ => pure .empty
  let entries := (Text.ofBytes bytes.toList).splitToList (· = '\x00')
  return entries.filterMap fun entry =>
    match entry.toList.dropWhile (· ≠ '=') with
    | _ :: value => some (String.ofList (entry.toList.takeWhile (· ≠ '=')), String.ofList value)
    | [] => none

/-- The first readable file among some paths. -/
def firstFile : List String → IO BaseFile
  | [] => return .missing
  | path :: rest => do
    try
      let bytes ← IO.FS.readBinFile path
      return .holding (Text.ofBytes bytes.toList)
    catch _ => firstFile rest

/-- The settings file at a path, whose extension may be left out. -/
def baseFile : Option String → IO BaseFile
  | none => return .unused
  | some path => firstFile [path, path ++ ".yaml", path ++ ".yml"]

def clock : IO Instant := do
  let now ← Std.Time.Timestamp.now
  return (Instant.ofNanos? now.toNanosecondsSinceUnixEpoch.val).getD .epoch

def report (ending : Ending) : IO UInt32 := do
  for line in ending.lines do IO.println line
  if let some complaint := ending.complaint then IO.eprintln complaint
  return ending.code.toUInt32

/-- Makes attempts one after the other, each at its own time. -/
def attempt (trial : Trial) (site : Site) (times : Nat) : IO UInt32 := do
  let mut site := site
  for i in [0:times] do
    let now ← clock
    let (line, next) := trial.attempt (i + 1) { site with now }
    IO.println line
    site := next
  return 0

def run (invocation : Invocation) (environment : List (String × String)) : IO UInt32 := do
  let file ← baseFile invocation.config
  let random ← IO.getRandomBytes Secret.size.toUSize
  let surroundings : Surroundings :=
    ⟨← clock, file, environment, random.toList, .isolated, .empty⟩
  match Course.ofAction surroundings invocation.action with
  | .ended ending => report ending
  | .trial trial site times => attempt trial site times

end LinkGuard.Program

def main (args : List String) : IO UInt32 := do
  let environment ← LinkGuard.Program.environment
  match LinkGuard.CommandLine.Invocation.parse args environment with
  | .error stop => LinkGuard.Program.report (.ofStop stop)
  | .ok invocation => LinkGuard.Program.run invocation environment
