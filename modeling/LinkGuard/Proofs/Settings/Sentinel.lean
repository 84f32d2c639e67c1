import LinkGuard.Counter.Connect
import LinkGuard.Proofs.Text.Fields
import LinkGuard.Proofs.Text.Written

/-! # Sentinel addresses read

An address is cut at its last colon, and what stands behind it has to count a port: digits, perhaps
with a plus sign, whose worth fits into sixteen bits. The host is whatever stands before. A list of
addresses is refused for the first one that is none, and an empty list for being empty; nothing of
the network comes into either.
-/

namespace LinkGuard.Endpoint

open Numeral

/-! ## Ports -/

/-- A port that has become too large does not become small again. -/
theorem continuePort_eq_ok_iff {value n : Nat} {text : List Char} (small : value < 65536) :
    continuePort value text = .ok n ↔ continue? 10 value text = some n ∧ n < 65536 := by
  induction text generalizing value with
  | nil =>
      simp only [continuePort, continue?, Except.ok.injEq, Option.some.injEq]
      constructor
      · rintro rfl
        exact ⟨rfl, small⟩
      · exact And.left
  | cons c rest ih =>
      simp only [continuePort, continue?]
      cases digit? 10 c with
      | none => simp
      | some d =>
          simp only [Option.bind_eq_bind, Option.bind_some]
          split
          case isTrue fits => exact ih fits
          case isFalse large =>
            simp only [reduceCtorEq, false_iff, not_and, Nat.not_lt]
            intro read
            rw [continue?_of_decimal (decimal_of_continue? read), Option.some.injEq] at read
            have grown : value * 10 + d ≤ (value * 10 + d) * 10 ^ rest.length :=
              Nat.le_mul_of_pos_right _ (Nat.pow_pos (by decide))
            omega

theorem readPort_eq_ok_iff {text : List Char} {n : Nat} :
    readPort text = .ok n ↔ Counts text n ∧ n < 65536 := by
  rw [← unsigned?_eq_some_iff]
  unfold readPort
  split
  case h_1 => simp [unsigned?, natural?]
  case h_2 => simp [unsigned?, natural?]
  case h_3 rest alone =>
    obtain ⟨c, more, rfl⟩ := List.exists_cons_of_ne_nil alone
    exact continuePort_eq_ok_iff (by decide)
  case h_4 some alone signed =>
    have bare : unsigned? 10 text = natural? 10 text := by
      unfold unsigned?
      split
      case h_1 rest => exact (signed rest rfl).elim
      case h_2 => rfl
    obtain ⟨c, more, rfl⟩ := List.exists_cons_of_ne_nil some
    rw [bare]
    exact continuePort_eq_ok_iff (by decide)

/-! ## Addresses -/

/-- The text is an address of that host and port. -/
def Written (address : String) (endpoint : Endpoint) : Prop :=
  ∃ port, address = endpoint.host ++ ":" ++ String.ofList port ∧ Counts port endpoint.port ∧
    endpoint.port ≤ 65535

theorem colon_not_mem_of_counts {port : List Char} {n : Nat} (counts : Counts port n) :
    ':' ∉ port := by
  have free {digits : List Char} (decimal : Decimal digits) : ':' ∉ digits := fun colon =>
    absurd (decimal.2 ':' colon) (by decide)
  cases counts with
  | bare decimal => exact free decimal
  | plus decimal =>
      rw [List.mem_cons, not_or]
      exact ⟨by decide, free decimal⟩

theorem toList_address (host : String) (port : List Char) :
    (host ++ ":" ++ String.ofList port).toList = host.toList ++ ':' :: port := by
  simp [String.toList_append]

theorem parse_eq_ok_iff {address : String} {endpoint : Endpoint} :
    parse address = .ok endpoint ↔ Written address endpoint := by
  constructor
  · intro read
    unfold parse at read
    split at read
    case h_1 => cases read
    case h_2 host port cut =>
      split at read
      case h_1 => cases read
      case h_2 n count =>
        obtain rfl := Except.ok.inj read
        obtain ⟨whole, _⟩ := Text.splitLast_eq_some_iff.mp cut
        obtain ⟨counts, small⟩ := readPort_eq_ok_iff.mp count
        refine ⟨port, ?_, counts, Nat.le_of_lt_succ small⟩
        rw [← String.toList_inj, toList_address, String.toList_ofList, whole]
  · rintro ⟨port, rfl, counts, small⟩
    have cut : Text.splitLast ':' (endpoint.host ++ ":" ++ String.ofList port).toList =
        some (endpoint.host.toList, port) :=
      Text.splitLast_eq_some_iff.mpr ⟨toList_address endpoint.host port,
        colon_not_mem_of_counts counts⟩
    have count : readPort port = .ok endpoint.port :=
      readPort_eq_ok_iff.mpr ⟨counts, Nat.lt_succ_of_le small⟩
    simp only [parse, cut, count, String.ofList_toList]

theorem written_of_host (host : String) (port : UInt16) :
    Written (host ++ ":" ++ Numeral.ofNat port.toNat) ⟨host, port.toNat⟩ := by
  obtain ⟨decimal, worth⟩ := natural?_eq_some_iff.mp (natural?_digits port.toNat)
  have counts := Counts.bare decimal
  rw [worth] at counts
  exact ⟨digits port.toNat, rfl, counts, Nat.le_of_lt_succ port.toNat_lt⟩

/-! ## Lists of addresses -/

variable {first : String} {rest addresses : List String} {fault fault' : SettingsFault}
  {endpoint : Endpoint}

/-- The first address of the list that is refused is refused for that fault. -/
def FirstRefused (addresses : List String) (fault : SettingsFault) : Prop :=
  ∃ before address after, addresses = before ++ address :: after ∧
    (∀ earlier ∈ before, ∃ endpoint, parse earlier = .ok endpoint) ∧ parse address = .error fault

theorem firstRefused_nil : ¬ FirstRefused [] fault := by
  rintro ⟨before, address, after, none, _⟩
  cases before <;> cases none

theorem firstRefused_cons_of_error (refused : parse first = .error fault) :
    FirstRefused (first :: rest) fault' ↔ fault = fault' := by
  constructor
  · rintro ⟨before, address, after, split, readable, refused'⟩
    cases before with
    | nil =>
        obtain ⟨rfl, _⟩ := List.cons.inj split
        exact Except.error.inj (refused.symm.trans refused')
    | cons b before =>
        obtain ⟨rfl, _⟩ := List.cons.inj split
        obtain ⟨endpoint, read⟩ := readable first List.mem_cons_self
        cases refused.symm.trans read
  · rintro rfl
    exact ⟨[], first, rest, rfl, List.forall_mem_nil _, refused⟩

theorem firstRefused_cons_of_ok (read : parse first = .ok endpoint) :
    FirstRefused (first :: rest) fault ↔ FirstRefused rest fault := by
  constructor
  · rintro ⟨before, address, after, split, readable, refused⟩
    cases before with
    | nil =>
        obtain ⟨rfl, _⟩ := List.cons.inj split
        cases read.symm.trans refused
    | cons b before =>
        obtain ⟨rfl, rfl⟩ := List.cons.inj split
        exact ⟨before, address, after, rfl, (List.forall_mem_cons.mp readable).2, refused⟩
  · rintro ⟨before, address, after, rfl, readable, refused⟩
    exact ⟨first :: before, address, after, rfl,
      List.forall_mem_cons.mpr ⟨⟨endpoint, read⟩, readable⟩, refused⟩

theorem parseAll_eq_error_iff :
    parseAll addresses = .error fault ↔ FirstRefused addresses fault := by
  induction addresses with
  | nil => exact ⟨nofun, fun refused => (firstRefused_nil refused).elim⟩
  | cons first rest ih =>
      cases read : parse first with
      | error e =>
          have gives : parseAll (first :: rest) = .error e := by
            simp only [parseAll, read, bind, Except.bind]
          rw [gives, Except.error.injEq, firstRefused_cons_of_error read]
      | ok endpoint =>
          have gives : parseAll (first :: rest) = .error fault ↔ parseAll rest = .error fault := by
            simp only [parseAll, read, bind, Except.bind]
            cases parseAll rest <;> simp [pure, Except.pure]
          rw [gives, ih, firstRefused_cons_of_ok read]

theorem parseAll_eq_ok_nil_iff : parseAll addresses = .ok [] ↔ addresses = [] := by
  cases addresses with
  | nil => exact iff_of_true rfl rfl
  | cons first rest =>
      simp only [parseAll, bind, Except.bind, reduceCtorEq, iff_false]
      cases parse first with
      | error => simp only [reduceCtorEq, not_false_eq_true]
      | ok => cases parseAll rest <;> simp [pure, Except.pure]

theorem exists_firstRefused_iff :
    (∃ fault, FirstRefused addresses fault) ↔
    ∃ address ∈ addresses, ¬ ∃ endpoint, parse address = .ok endpoint := by
  induction addresses with
  | nil =>
      refine iff_of_false ?_ (by simp)
      rintro ⟨_, refused⟩
      exact firstRefused_nil refused
  | cons first rest ih =>
      cases read : parse first with
      | error e =>
          simp only [firstRefused_cons_of_error read, List.mem_cons, exists_eq_or_imp, read,
            reduceCtorEq, exists_false, not_false_eq_true, true_or, exists_eq']
      | ok endpoint =>
          simp only [firstRefused_cons_of_ok read, ih, List.mem_cons, exists_eq_or_imp, read,
            Except.ok.injEq, exists_eq', not_true_eq_false, false_or]

variable {network : Remote.Network} {settings : RemoteSettings} {server : Remote.Server}

theorem sentinels_ne_nil : Remote.sentinels settings ≠ .ok [] := by
  unfold Remote.sentinels
  split
  case h_1 | h_2 => exact nofun
  case h_3 endpoints listed _ =>
    rintro ⟨⟩
    exact listed rfl

theorem sentinels_eq_error_iff :
    Remote.sentinels settings = .error fault ↔
      settings.sentinel.hosts = [] ∧ fault = .noSentinel ∨
      FirstRefused settings.sentinel.hosts fault := by
  rw [← parseAll_eq_error_iff, ← parseAll_eq_ok_nil_iff]
  unfold Remote.sentinels
  cases parseAll settings.sentinel.hosts with
  | error e => simp
  | ok endpoints => cases endpoints <;> simp [eq_comm]

theorem connect_eq_settings_iff :
    Remote.connect network settings .redisSentinel server = .error (.settings fault) ↔
      Remote.sentinels settings = .error fault := by
  simp only [Remote.connect, Remote.attempt]
  cases Remote.sentinels settings with
  | error e => simp only [Except.error.injEq, Failure.settings.injEq]
  | ok endpoints =>
      simp only [reduceCtorEq, iff_false]
      intro failed
      split at failed <;> cases failed

theorem asked_locate_ne_nil (sentinel : Endpoint) (others : List Endpoint) :
    (Remote.locate network settings (sentinel :: others)).asked ≠ [] := by
  simp only [Remote.locate]
  split
  case h_1 | h_2 => exact List.cons_ne_nil _ _
  case h_3 | h_4 => split <;> exact List.cons_ne_nil _ _

/-- Only a fault of the settings keeps the first sentinel from being asked. -/
theorem asked_eq_nil_iff :
    (Remote.attempt network settings .redisSentinel server).asked = [] ↔
      ∃ fault, Remote.sentinels settings = .error fault := by
  simp only [Remote.attempt]
  cases listed : Remote.sentinels settings with
  | error e => exact iff_of_true rfl ⟨e, rfl⟩
  | ok endpoints =>
      cases endpoints with
      | nil => exact absurd listed sentinels_ne_nil
      | cons sentinel others =>
          refine iff_of_false ?_ nofun
          dsimp only
          split <;> exact asked_locate_ne_nil sentinel others

/-- An address is read if and only if it is written as a host, a colon and a port of sixteen bits,
    and then as that host and port. Connecting through sentinels fails for the settings if and only
    if no sentinel is listed or one of them is no address, and the first one that is none decides.
    That holds on every network, and then, and only then, no sentinel was asked. -/
theorem addresses_exact :
    (∀ address endpoint, parse address = .ok endpoint ↔ Written address endpoint) ∧
    (∀ (host : String) (port : UInt16),
      parse (host ++ ":" ++ Numeral.ofNat port.toNat) = .ok ⟨host, port.toNat⟩) ∧
    ∀ (network : Remote.Network) (settings : RemoteSettings) (server : Remote.Server),
      let hosts := settings.sentinel.hosts
      let connected := Remote.connect network settings .redisSentinel server
      ((∃ fault, connected = .error (.settings fault)) ↔
        hosts = [] ∨ ∃ address ∈ hosts, ¬ ∃ endpoint, Written address endpoint) ∧
      (∀ fault, connected = .error (.settings fault) ↔
        hosts = [] ∧ fault = .noSentinel ∨ FirstRefused hosts fault) ∧
      ((∃ fault, connected = .error (.settings fault)) ↔
        (Remote.attempt network settings .redisSentinel server).asked = []) := by
  refine ⟨fun _ _ => parse_eq_ok_iff,
    fun host port => parse_eq_ok_iff.mpr (written_of_host host port), ?_⟩
  intro network settings server hosts connected
  have fails (fault : SettingsFault) : connected = .error (.settings fault) ↔
      hosts = [] ∧ fault = .noSentinel ∨ FirstRefused hosts fault :=
    connect_eq_settings_iff.trans sentinels_eq_error_iff
  refine ⟨?_, fails, by simp only [connected, connect_eq_settings_iff, asked_eq_nil_iff]⟩
  simp only [fails, exists_or, exists_and_left, exists_eq, and_true, exists_firstRefused_iff,
    parse_eq_ok_iff]

/-- The port of the first address is too large and the second one has none: the first one is
    told. -/
example : parseAll ["a:65536", "b"] = .error (.portInvalid "a:65536" .tooLarge) := by decide +kernel

end LinkGuard.Endpoint
