import LinkGuard.Proofs.Except
import LinkGuard.Proofs.Limiter.Pair

/-! # Limiters and gates out of settings

What is set up for the backend of this process sits on tables, whatever else the settings say and
whatever stores the site had before.
-/

namespace LinkGuard

theorem Site.hasTable_add (site : Site) (table : Table) :
    (site.add (.table table)).2.HasTable (site.add (.table table)).1 := by
  simp [add, HasTable, table?]

namespace Settings

variable {settings : Settings} {network : Remote.Network} {site site' : Site}

theorem openLimiter_onTables {placed : PlacedLimiter} (memory : settings.limits.backend = .memory)
    (opened : settings.openLimiter network site = .ok (placed, site')) : placed.OnTables site' := by
  simp only [openLimiter, openStore, memory, bind, bind_eq_ok, pure, Except.pure, Except.ok.injEq,
    Prod.mk.injEq, Prod.exists] at opened
  obtain ⟨store, server, ⟨rfl, rfl⟩, address, _, identity, _, rfl, rfl⟩ := opened
  intro d
  have has := Site.hasTable_add site .empty
  cases d with
  | address => exact has
  | identity => exact has

theorem openGate_onTables {gate : PlacedGate} (memory : settings.limits.backend = .memory)
    (opened : settings.openGate network site = .ok (gate, site')) : gate.placed.OnTables site' := by
  simp only [openGate, bind, bind_eq_ok, pure, Except.pure, Except.ok.injEq, Prod.mk.injEq,
    Prod.exists] at opened
  obtain ⟨codec, _, placed, between, limiterOpened, made, _, rfl, rfl⟩ := opened
  have tables := openLimiter_onTables memory limiterOpened
  intro d
  cases d with
  | address => exact tables .address
  | identity => exact tables .identity

end Settings

end LinkGuard
