import LinkGuard.Proofs.Decimal.Form
import LinkGuard.Proofs.Layer.Scalars
import LinkGuard.Proofs.Settings.Fields
import LinkGuard.Proofs.Settings.Loaded

/-! # Texts told by the environment

A value of the environment is taken for a truth value or a number if it reads like one, and where a
setting asks for a text, the value is written as a text again. What comes out is the text that went
in only if that was written the same way: a truth value in lower case, a whole number without
needless marks, a double with the fewest digits and without an exponent.
-/

namespace LinkGuard

theorem Text.lowerChar_digit {c : Char} (decimal : c.isDigit) : Text.lowerChar c = c := by
  obtain ⟨small, same⟩ := Numeral.digit_of_isDigit decimal
  have all : ∀ d < 10, Text.lowerChar (Numeral.digit d) = Numeral.digit d := by decide
  rw [← same]
  exact all _ small

namespace Layer.Environment

/-! ## From a text to a text -/

/-- A truth value, in letters of any case. -/
def IsTruth (s : String) : Prop := Text.lower s = "true" ∨ Text.lower s = "false"

instance (s : String) : Decidable (IsTruth s) := inferInstanceAs (Decidable (_ ∨ _))

/-- What a setting becomes that asks for a text. -/
def told (s : String) : String :=
  if IsTruth s then Text.lower s
  else
    match Numeral.word? 10 s.toList, Binary64.parse? s.toList with
    | some n, _ => Numeral.ofInt n
    | none, some x => x.text
    | none, none => s

theorem text?_value {key : String} (single : key ≠ listKey) (s : String) :
    (value key s).text? = some (told s) := by
  unfold value told
  split
  case h_1 truth => rw [if_pos (.inl truth), truth]; rfl
  case h_2 truth => rw [if_pos (.inr truth), truth]; rfl
  case h_3 notTrue notFalse =>
    have plain : ¬ IsTruth s := not_or.mpr ⟨notTrue, notFalse⟩
    rw [if_neg plain]
    cases Numeral.word? 10 s.toList with
    | some n => rfl
    | none =>
        cases Binary64.parse? s.toList with
        | some x => rfl
        | none => simp only [if_neg single, Value.text?]

/-- The form in which a text is not changed by being taken for something else. -/
structure Settled (s : String) : Prop where
  truth : IsTruth s → s = "true" ∨ s = "false"
  whole : ∀ n, Numeral.Names s.toList n → Numeral.fitsWord n → Numeral.Canonical s.toList
  real : (∀ n, Numeral.Names s.toList n → ¬ Numeral.fitsWord n) →
    ∀ x, Binary64.parse? s.toList = some x → x.text = s

theorem not_real_of_truth {s : String} (truth : IsTruth s) :
    ¬ Binary64.Real s.toList := by
  simp only [IsTruth, Text.lower, ← String.toList_inj, String.toList_ofList] at truth
  intro real
  cases text : s.toList with
  | nil => simp [text] at truth
  | cons c rest =>
      have letter : Text.lowerChar c = 't' ∨ Text.lowerChar c = 'f' := by
        rw [text, List.map_cons] at truth
        exact truth.imp (fun whole => (List.cons.inj whole).1) fun whole => (List.cons.inj whole).1
      rw [text] at real
      rcases real.head with rfl | rfl | rfl | digit | word
      · revert letter; decide
      · revert letter; decide
      · revert letter; decide
      · rw [Text.lowerChar_digit digit] at letter
        rcases letter with rfl | rfl <;> cases digit
      · unfold Text.lowerChar at letter
        split at letter
        · revert letter; decide
        · rcases letter with letter | letter <;> rw [letter] at word <;> revert word <;> decide

variable {s : String}

theorem settled_iff_of_plain (plain : ¬ Binary64.Real s.toList) :
    Settled s ↔ (IsTruth s → s = "true" ∨ s = "false") := by
  refine ⟨Settled.truth, fun truth => ⟨truth, ?_, ?_⟩⟩
  · exact fun n named => absurd (Binary64.real_of_names named) plain
  · exact fun _ x read =>
      absurd (Binary64.parse?_isSome_iff.mp (Option.isSome_of_eq_some read)) plain

theorem Settled.of_plain (truth : ¬ IsTruth s)
    (plain : ¬ Binary64.Real s.toList) : Settled s :=
  (settled_iff_of_plain plain).mpr fun is => absurd is truth

theorem settled_iff_of_whole {n : Int} (truth : ¬ IsTruth s)
    (named : Numeral.Names s.toList n) (fits : Numeral.fitsWord n) :
    Settled s ↔ Numeral.Canonical s.toList := by
  constructor
  · intro settled
    exact settled.whole n named fits
  · intro canonical
    exact ⟨fun is => absurd is truth, fun _ _ _ => canonical,
      fun large => absurd fits (large n named)⟩

theorem settled_iff_of_real {x : Binary64} (truth : ¬ IsTruth s)
    (large : ∀ n, Numeral.Names s.toList n → ¬ Numeral.fitsWord n)
    (read : Binary64.parse? s.toList = some x) :
    Settled s ↔ x.text = s := by
  constructor
  · intro settled
    exact settled.real large x read
  · intro same
    refine ⟨fun is => absurd is truth, fun n named fits => absurd fits (large n named),
      fun _ y again => ?_⟩
    obtain rfl := Option.some.inj (read.symm.trans again)
    exact same

/-- One case for each thing that a text can be taken for, in the order in which it is tried. -/
theorem told_eq_self_iff : told s = s ↔ Settled s := by
  by_cases truth : IsTruth s
  · rw [told, if_pos truth, settled_iff_of_plain (not_real_of_truth truth)]
    constructor
    · exact fun same _ => same ▸ truth
    · intro lowered
      rcases lowered truth with rfl | rfl <;> rfl
  · rw [told, if_neg truth]
    cases whole : Numeral.word? 10 s.toList with
    | some n =>
        obtain ⟨named, fits⟩ := Numeral.word?_eq_some_iff.mp whole
        rw [settled_iff_of_whole truth named fits, ← String.toList_inj,
          Numeral.toList_ofInt_eq_iff named]
    | none =>
        cases read : Binary64.parse? s.toList with
        | some x =>
            exact (settled_iff_of_real truth (Numeral.not_fits_of_word? whole) read).symm
        | none =>
            have plain : ¬ Binary64.Real s.toList := by
              rw [← Binary64.parse?_isSome_iff, read]
              exact Bool.false_ne_true
            exact iff_of_true rfl (.of_plain truth plain)

end Layer.Environment

theorem read_one {s : Section} {i : Nat} {f : Field s.Value} {a : s.Value} {v : Layer.Value}
    (found : s.fields[i]? = some f) (read : f.kind.read Layer.Value.reading v = some (f.get a))
    (others : ∀ g ∈ s.fields, g.name ≠ f.name → g.standard = some (g.get a)) :
    s.read Layer.Value.reading (.table [(f.name, v)]) = some a := by
  refine s.read_eq_some_iff.mpr ⟨.table [(f.name, v)], rfl, fun j g found' => ?_⟩
  by_cases same : g.name = f.name
  · obtain ⟨rfl, rfl⟩ := Section.eq_of_name found' found same
    have once : (Compound.table [(g.name, v)]).slot j g.name = some (some v) :=
      @Compound.slot_of_once _ _ _ _ [] [] List.not_mem_nil
    rw [Field.take_of_present once, read]
  · rw [Field.take_of_absent (Compound.slot_of_absent ?_),
      others g (List.mem_of_getElem? found') same]
    simpa using same

/-! ## One text setting in the environment -/

/-- The settings that hold a single text. -/
inductive TextSetting where
  | secret
  | host
  | username
  | password
  | space
  | masterName
deriving DecidableEq

namespace TextSetting

open Layer

def variableName : TextSetting → String
  | secret => "VERIGATE__TOKEN__SECRET"
  | host => "VERIGATE__REDIS__HOST"
  | username => "VERIGATE__REDIS__USERNAME"
  | password => "VERIGATE__REDIS__PASSWORD"
  | space => "VERIGATE__REDIS__NAMESPACE"
  | masterName => "VERIGATE__REDIS__SENTINEL__MASTER_NAME"

def key : TextSetting → String
  | secret => "token.secret"
  | host => "redis.host"
  | username => "redis.username"
  | password => "redis.password"
  | space => "redis.namespace"
  | masterName => "redis.sentinel.master_name"

/-- The settings of which only this one is not standard. -/
def only (setting : TextSetting) (s : String) : Settings :=
  match setting with
  | secret => { token := { secret := s } }
  | host => { remote := { host := s } }
  | username => { remote := { username := some s } }
  | password => { remote := { password := some s } }
  | space => { remote := { space := s } }
  | masterName => { remote := { sentinel := { masterName := s } } }

/-- The names on the way to the setting. -/
def path : TextSetting → List String
  | secret => ["token", "secret"]
  | host => ["redis", "host"]
  | username => ["redis", "username"]
  | password => ["redis", "password"]
  | space => ["redis", "namespace"]
  | masterName => ["redis", "sentinel", "master_name"]

variable (setting : TextSetting) {s t : String} {v : Value}

theorem only_inj (same : setting.only s = setting.only t) : s = t := by
  cases setting <;> simpa [only] using same

theorem members_variable (s : String) :
    Environment.members [(setting.variableName, s)] =
      [(setting.key, Environment.value setting.key s)] := by
  cases setting <;> rfl

theorem key_ne_listKey : setting.key ≠ Environment.listKey := by
  cases setting <;> decide

theorem ofKey_key : Path.ofKey setting.key = setting.path.map .member := by
  cases setting <;> rfl

theorem path_ne_nil : setting.path ≠ [] := by
  cases setting <;> exact List.cons_ne_nil _ _

theorem lower_of_mem_path : ∀ name ∈ setting.path, Text.lower name = name := by
  cases setting <;> decide

theorem read_nested (read : v.text? = some s) :
    Value.reading.settings (Value.nested setting.path v) = some (setting.only s) := by
  have optional : v.optionalText? = some (some s) := Datum.optionalText?_eq_some_iff.mpr read
  have whole {w : Value} {remote : RemoteSettings}
      (read : Section.remote.read Value.reading w = some remote) :
      Value.reading.settings (.table [("redis", w)]) = some { remote } :=
    read_one (s := .whole) (i := 2) rfl read (by simp [Section.fields])
  cases setting with
  | secret =>
      have token : Section.token.read Value.reading (.table [("secret", v)]) =
          some { secret := s } :=
        read_one (s := .token) (i := 0) rfl read (by simp [Section.fields])
      exact read_one (s := .whole) (i := 0) rfl token (by simp [Section.fields, only])
  | host => exact whole (read_one (s := .remote) (i := 0) rfl read (by simp [Section.fields]))
  | username =>
      exact whole (read_one (s := .remote) (i := 2) rfl optional (by simp [Section.fields]))
  | password =>
      exact whole (read_one (s := .remote) (i := 3) rfl optional (by simp [Section.fields]))
  | space => exact whole (read_one (s := .remote) (i := 4) rfl read (by simp [Section.fields]))
  | masterName =>
      have sentinel : Section.sentinel.read Value.reading (.table [("master_name", v)]) =
          some { masterName := s } :=
        read_one (s := .sentinel) (i := 1) rfl read (by simp [Section.fields])
      exact whole (read_one (s := .remote) (i := 9) rfl sentinel (by simp [Section.fields]))

theorem validate_standard : ({} : Settings).validate = .ok () := by decide

theorem validate_only (s : String) : (setting.only s).validate = .ok () := by
  cases setting <;> exact validate_standard

theorem load_variable (s : String) :
    Settings.load .unused [(setting.variableName, s)] =
      .settings (setting.only (Environment.told s)) := by
  have told := Environment.text?_value setting.key_ne_listKey s
  have single : ∀ members, Environment.value setting.key s ≠ .table members := by
    rintro members table
    rw [table] at told
    cases told
  have set : Value.setAt (Environment.value setting.key s) (setting.path.map .member) (.table []) =
      some (Value.nested setting.path (Environment.value setting.key s)) :=
    Value.setAt_of_empty single setting.lower_of_mem_path setting.path_ne_nil rfl
  have layers : Settings.layers .unused [(setting.variableName, s)] =
      .ok (Value.nested setting.path (Environment.value setting.key s)) := by
    simp only [Settings.layers, BaseFile.members, members_variable, bind, Except.bind, Value.lay,
      ofKey_key, set]
  exact Settings.load_eq_settings_iff.mpr ⟨_, layers, setting.read_nested told,
    setting.validate_only _⟩

/-- A text that the environment alone gives to a setting is the value of this setting, and all else
    is standard, if and only if taking it for something else would not change it. If it would, it is
    the changed text that is set. -/
theorem told_verbatim_iff (setting : TextSetting) (s : String) :
    Settings.load .unused [(setting.variableName, s)] =
      .settings (setting.only (Environment.told s)) ∧
    (Settings.load .unused [(setting.variableName, s)] = .settings (setting.only s) ↔
      Environment.Settled s) := by
  have told := setting.load_variable s
  refine ⟨told, ?_⟩
  rw [← Environment.told_eq_self_iff, told, Loaded.settings.injEq]
  exact ⟨setting.only_inj, congrArg setting.only⟩

/-- Not every text is its own: a secret of digits loses the zero in front. -/
theorem not_told_verbatim : ¬ ∀ (setting : TextSetting) (s : String), s ≠ "" →
    Settings.load .unused [(setting.variableName, s)] = .settings (setting.only s) := by
  intro every
  have kept := every secret "0123" (by decide)
  rw [load_variable, Loaded.settings.injEq] at kept
  exact absurd (secret.only_inj kept) (by decide +kernel)

end TextSetting

end LinkGuard
