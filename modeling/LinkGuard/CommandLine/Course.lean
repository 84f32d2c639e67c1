import LinkGuard.CommandLine.Invocation
import LinkGuard.Deployment
import LinkGuard.Json
import LinkGuard.Settings.Layers

/-! # The course of an invocation

What an invocation prints and how it ends. Asking the limiter over and over goes on attempt by
attempt, so that each one can be made at its own time.
-/

namespace LinkGuard.CommandLine

/-- How the program ends: the lines it prints, its exit code, and what it says on the way out. -/
structure Ending where
  lines : List String
  code : Nat
  complaint : Option String
deriving DecidableEq

namespace Ending

def printed (lines : List String) : Ending := ⟨lines, 0, none⟩

def failed (message : String) : Ending := ⟨[], 1, some ("Error: " ++ message)⟩

/-- The program cannot go on. -/
def aborted : Ending := ⟨[], 101, none⟩

def version : String := "verigate 0.1.0"

/-- The end of a reading that stopped early. -/
def ofStop : Stop → Ending
  | .help => printed Invocation.usage
  | .version => printed [version]
  | .misuse => ⟨[], 2, some "error: see --help"⟩

end Ending

structure Surroundings where
  now : Instant
  /-- The settings file that the invocation names. -/
  file : BaseFile
  environment : List (String × String)
  /-- Bytes to make a secret of. -/
  random : List UInt8
  network : Remote.Network
  server : Remote.Server

/-- A limiter that is asked over and over. -/
structure Trial where
  placed : PlacedLimiter
  address : String
  identity : String

/-- The line of one attempt, and the site behind it. -/
def Trial.attempt (trial : Trial) (number : Nat) (site : Site) : String × Site :=
  let (decision, site) := trial.placed.allow trial.address trial.identity site
  let line := Json.object [("allowed", .bool decision.allowed), ("attempt", .integer number),
    ("retry_after_secs", .integer decision.retryAfter.seconds)]
  (line.render, site)

/-- The lines of the next `n` attempts, of which the first has a given number. -/
def Trial.lines (trial : Trial) : Nat → Nat → Site → List String
  | 0, _, _ => []
  | n + 1, number, site =>
    let (line, site) := trial.attempt number site
    line :: trial.lines n (number + 1) site

inductive Course where
  | ended (ending : Ending)
  | trial (attempts : Trial) (site : Site) (times : Nat)

namespace Course

def printed (lines : List String) : Course := .ended (.printed lines)

def failed (message : String) : Course := .ended (.failed message)

def withCodec (settings : Settings) (go : Codec → Course) : Course :=
  match Codec.ofSecret (Text.bytes settings.token.secret) with
  | .error e => failed e.message
  | .ok codec => go codec

/-- Mints a token that lives for a span from now on. -/
def mint (codec : Codec) (now : Instant) (identity : String) (ttl : Span) : Course :=
  if Span.longestStep < ttl then failed "Source duration value is out of range for the target type"
  else match now.add? ttl with
    | none => .ended .aborted
    | some expiry =>
      match codec.mint identity expiry with
      | .error e => failed e.message
      | .ok token => printed [token]

/-- The verdict on a token as one line. -/
def verdict (r : Except TokenError String) : String :=
  Json.render <| match r with
    | .ok identity => .object [("identity", .text identity), ("valid", .bool true)]
    | .error e => .object [("reason", .text e.reason), ("valid", .bool false)]

/-- Goes on with a limiter on a site of its own. -/
def withLimiter (s : Surroundings) (settings : Settings) (go : PlacedLimiter → Site → Course) :
    Course :=
  match settings.openLimiter s.network { Site.start s.now with server := s.server } with
  | .error f => failed f.message
  | .ok (placed, site) => go placed site

def withSettings (s : Surroundings) (go : Settings → Course) : Course :=
  match Settings.load s.file s.environment with
  | .aborted => .ended .aborted
  | .refused fault => failed (Failure.settings fault).message
  | .settings settings => go settings

def ofAction (s : Surroundings) : Action → Course
  | .newSecret => printed [Secret.ofRandom s.random]
  | .mint identity ttl =>
    withSettings s fun settings => withCodec settings fun codec =>
      mint codec s.now identity ((ttl.map Span.ofSeconds).getD settings.linkTtl)
  | .verify token =>
    withSettings s fun settings => withCodec settings fun codec =>
      printed [verdict (codec.verify token s.now)]
  | .check address identity times =>
    withSettings s fun settings => withLimiter s settings fun placed site =>
      .trial ⟨placed, address, identity⟩ site times
  | .cooldown address identity =>
    withSettings s fun settings => withLimiter s settings fun placed site =>
      let (span, _) := placed.cooldown address identity site
      printed [(Json.object [("retry_after_secs", .integer span.seconds)]).render]

/-- The end of a course on which no time passes. -/
def ending : Course → Ending
  | .ended ending => ending
  | .trial attempts site times => .printed (attempts.lines times 1 site)

end Course

end LinkGuard.CommandLine
