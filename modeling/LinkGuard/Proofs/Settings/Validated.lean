import LinkGuard.Proofs.Settings.Opened

/-! # What is left to go wrong with validated settings

A gate on tables is put together out of a codec, two policies and the lifetime of its links.
Settings that pass the checks have both policies and a lifetime, so with a secret that the codec
accepts one refusal is left: the gate takes no lifetime above a year, and the checks look at
lifetimes from below only.
-/

namespace LinkGuard

namespace Gate

variable {codec : Codec} {limiter : PairLimiter} {linkTtl : Span}

theorem make_of_le (positive : .zero < linkTtl) (short : linkTtl ≤ longestLinkTtl) :
    make codec limiter linkTtl = .ok ⟨codec, limiter, linkTtl, positive, short⟩ :=
  dif_pos ⟨positive, short⟩

theorem make_of_long (long : ¬ linkTtl ≤ longestLinkTtl) :
    make codec limiter linkTtl = .error (.linkTtlOutOfRange linkTtl) :=
  dif_neg fun both => long both.2

end Gate

namespace Settings

variable {settings : Settings} {network : Remote.Network} {site : Site} {codec : Codec}
  {address identity : Policy}

theorem validate_eq_ok_iff : settings.validate = .ok () ↔
    (∃ identity, settings.limits.identity.policy = .ok identity) ∧
    (∃ address, settings.limits.address.policy = .ok address) ∧
    settings.token.linkTtl ≠ 0 ∧ settings.remote.commandTimeout ≠ 0 ∧
    settings.remote.reconnectMinDelay ≤ settings.remote.reconnectMaxDelay := by
  unfold validate
  cases settings.limits.identity.policy with
  | error => simp [bind, Except.bind]
  | ok identity =>
    cases settings.limits.address.policy with
    | error => simp [bind, Except.bind]
    | ok address =>
      simp only [bind, Except.bind, throw, throwThe, MonadExceptOf.throw, pure, Except.pure]
      split
      case isTrue none => simp [none]
      case isFalse some =>
        split
        case isTrue none => simp [none]
        case isFalse some' =>
          split
          case isTrue crossed => simp [UInt32.not_le.mpr crossed]
          case isFalse ordered => simp [some, some', UInt32.not_lt.mp ordered]

theorem openLimiter_of_policies (network : Remote.Network) (site : Site)
    (memory : settings.limits.backend = .memory)
    (hasAddress : settings.limits.address.policy = .ok address)
    (hasIdentity : settings.limits.identity.policy = .ok identity) :
    settings.openLimiter network site =
      .ok (⟨⟨address, identity, settings.limits.cooldown⟩, site.stores.length, site.stores.length⟩,
        { site with stores := site.stores ++ [.table .empty] }) := by
  simp only [openLimiter, openStore, memory, hasAddress, hasIdentity, mapError_ok, bind,
    Except.bind, pure, Except.pure, Site.add]

theorem openGate_of_openLimiter {placed : PlacedLimiter} {site' : Site}
    (accepted : Codec.ofSecret (Text.bytes settings.token.secret) = .ok codec)
    (opened : settings.openLimiter network site = .ok (placed, site')) :
    settings.openGate network site =
      match Gate.make codec placed.limiter settings.linkTtl with
      | .ok gate => .ok (⟨gate, placed.addressPlace, placed.identityPlace⟩, site')
      | .error fault => .error (.settings fault) := by
  rw [openGate, accepted, opened, mapError_ok, ok_bind, ok_bind]
  dsimp only
  cases Gate.make codec placed.limiter settings.linkTtl <;> rfl

theorem linkTtl_pos (some : settings.token.linkTtl ≠ 0) : .zero < settings.linkTtl := by
  have positive : 0 < settings.token.linkTtl.toNat :=
    Nat.pos_of_ne_zero fun zero => some (UInt64.toNat_inj.mp zero)
  exact Nat.mul_pos positive (by decide)

theorem linkTtl_le_iff : settings.linkTtl ≤ longestLinkTtl ↔ settings.token.linkTtl ≤ 31536000 := by
  have year : (31536000 : UInt64).toNat = 31536000 := rfl
  rw [UInt64.le_iff_toNat_le, year]
  exact Nat.mul_le_mul_right_iff (by decide)

/-- The gate has the codec, and all else as the settings say. -/
structure Describes (settings : Settings) (codec : Codec) (gate : Gate) : Prop where
  codec : gate.codec = codec
  address : settings.limits.address.policy = .ok gate.limiter.address
  identity : settings.limits.identity.policy = .ok gate.limiter.identity
  cooldown : gate.limiter.storeErrorCooldown = settings.limits.cooldown
  linkTtl : gate.linkTtl = settings.linkTtl

theorem openGate_of_short (network : Remote.Network) (site : Site)
    (memory : settings.limits.backend = .memory) (valid : settings.validate = .ok ())
    (accepted : Codec.ofSecret (Text.bytes settings.token.secret) = .ok codec)
    (short : settings.token.linkTtl ≤ 31536000) :
    ∃ gate site', settings.openGate network site = .ok (gate, site') ∧
      settings.Describes codec gate.gate := by
  obtain ⟨⟨identity, hasIdentity⟩, ⟨address, hasAddress⟩, some, _⟩ := validate_eq_ok_iff.mp valid
  have opened := openGate_of_openLimiter accepted
    (openLimiter_of_policies network site memory hasAddress hasIdentity)
  rw [Gate.make_of_le (linkTtl_pos some) (linkTtl_le_iff.mpr short)] at opened
  exact ⟨_, _, opened, rfl, hasAddress, hasIdentity, rfl, rfl⟩

theorem openGate_of_long (network : Remote.Network) (site : Site)
    (memory : settings.limits.backend = .memory) (valid : settings.validate = .ok ())
    (accepted : Codec.ofSecret (Text.bytes settings.token.secret) = .ok codec)
    (long : 31536000 < settings.token.linkTtl) :
    settings.openGate network site = .error (.settings (.linkTtlOutOfRange settings.linkTtl)) := by
  obtain ⟨⟨identity, hasIdentity⟩, ⟨address, hasAddress⟩, _⟩ := validate_eq_ok_iff.mp valid
  have refused := openGate_of_openLimiter accepted
    (openLimiter_of_policies network site memory hasAddress hasIdentity)
  rw [Gate.make_of_long (mt linkTtl_le_iff.mp (UInt64.not_le.mpr long))] at refused
  exact refused

/-- Settings for tables that pass the checks, with a secret that the codec accepts, make a gate if
    and only if links last no longer than a year, and then the one that they describe. Otherwise the
    lifetime is refused when the gate is put together. -/
theorem gate_opens_iff (settings : Settings) (network : Remote.Network) (site : Site)
    (codec : Codec) (memory : settings.limits.backend = .memory)
    (valid : settings.validate = .ok ())
    (accepted : Codec.ofSecret (Text.bytes settings.token.secret) = .ok codec) :
    let opened := settings.openGate network site
    ((∃ gate site', opened = .ok (gate, site')) ↔ settings.token.linkTtl ≤ 31536000) ∧
    (∀ gate site', opened = .ok (gate, site') → settings.Describes codec gate.gate) ∧
    (31536000 < settings.token.linkTtl →
      opened = .error (.settings (.linkTtlOutOfRange settings.linkTtl))) := by
  intro opened
  rcases UInt64.le_or_lt settings.token.linkTtl 31536000 with short | long
  · obtain ⟨gate, site', succeeds, describes⟩ :=
      openGate_of_short network site memory valid accepted short
    refine ⟨iff_of_true ⟨gate, site', succeeds⟩ short, fun gate' site'' succeeds' => ?_,
      fun long => absurd short (UInt64.not_le.mpr long)⟩
    obtain ⟨rfl, rfl⟩ := Prod.mk.inj (Except.ok.inj (succeeds.symm.trans succeeds'))
    exact describes
  · have fails := openGate_of_long network site memory valid accepted long
    refine ⟨iff_of_false ?_ (UInt64.not_le.mpr long), ?_, fun _ => fails⟩
    · rintro ⟨gate, site', succeeds⟩
      cases fails.symm.trans succeeds
    · intro gate site' succeeds
      cases fails.symm.trans succeeds

/-- Settings that name a secret and let links last that many seconds. -/
def lasting (seconds : UInt64) : Settings := { token := { secret := "k", linkTtl := seconds } }

theorem lasting_accepted (seconds : UInt64) :
    ∃ codec, Codec.ofSecret (Text.bytes (lasting seconds).token.secret) = .ok codec := ⟨_, rfl⟩

theorem gate_opens_for_a_year :
    (lasting 31536000).limits.backend = .memory ∧ (lasting 31536000).validate = .ok () ∧
      ∃ codec, Codec.ofSecret (Text.bytes (lasting 31536000).token.secret) = .ok codec ∧
        ∃ gate site', (lasting 31536000).openGate .isolated (.start .epoch) =
          .ok (gate, site') := by
  obtain ⟨codec, accepted⟩ := lasting_accepted 31536000
  exact ⟨rfl, rfl, codec, accepted, (gate_opens_iff _ _ _ codec rfl rfl accepted).1.mpr (by decide)⟩

/-- One second more than a year passes the checks, and no gate opens. -/
theorem valid_may_be_refused :
    ¬ ∀ (settings : Settings) (network : Remote.Network) (site : Site) (codec : Codec),
      settings.limits.backend = .memory → settings.validate = .ok () →
      Codec.ofSecret (Text.bytes settings.token.secret) = .ok codec →
      ∃ gate site', settings.openGate network site = .ok (gate, site') := by
  intro complete
  obtain ⟨codec, accepted⟩ := lasting_accepted 31536001
  obtain ⟨gate, site', succeeds⟩ :=
    complete (lasting 31536001) .isolated (.start .epoch) codec rfl rfl accepted
  have fails := @openGate_of_long (lasting 31536001) codec .isolated (.start .epoch) rfl rfl
    accepted (by decide)
  cases fails.symm.trans succeeds

end Settings

end LinkGuard
