import LinkGuard.Proofs.Except
import LinkGuard.Settings.Layers

/-! # Settings that are loaded

Loading gives settings if the layers make a table, settings are read from it, and these pass the
checks. The three are told apart here, whatever the layers are.
-/

namespace LinkGuard.Settings

open Layer

variable {settings : Settings}

theorem checked_eq_ok_iff {fault : SettingsFault} {read : Option Settings} :
    checked fault read = .ok settings ↔ read = some settings ∧ settings.validate = .ok () := by
  cases read with
  | none => exact iff_of_false nofun nofun
  | some s =>
      rw [checked, Option.some.injEq]
      constructor
      · intro passed
        obtain ⟨_, valid, same⟩ := bind_eq_ok.mp passed
        obtain rfl := Except.ok.inj same
        exact ⟨rfl, valid⟩
      · rintro ⟨rfl, valid⟩
        rw [valid]
        rfl

theorem load_eq_settings_iff {file : BaseFile} {environment : List (String × String)} :
    load file environment = .settings settings ↔
      ∃ root, layers file environment = .ok root ∧ Value.reading.settings root = some settings ∧
        settings.validate = .ok () := by
  rw [load]
  cases layers file environment with
  | error fault => cases fault <;> simp
  | ok root =>
      simp only [Except.ok.injEq, exists_eq_left', ← @checked_eq_ok_iff _ .unloadable]
      cases checked .unloadable (Value.reading.settings root) <;> simp

end LinkGuard.Settings
