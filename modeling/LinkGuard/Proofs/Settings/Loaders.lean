import LinkGuard.Proofs.Settings.Kept
import LinkGuard.Proofs.Settings.Loaded

/-! # A document on its own and as the only layer

The same text can be read as settings on its own, or as the only layer that settings are put
together from. The second way takes every scalar for what it looks like before a setting asks for
it. So settings that the first way gives are given by the second one too if and only if all their
scalars are kept.
-/

namespace LinkGuard

open Layer

/-- A document in which keys are texts in lower case that come once, and at the top no paths into
    others. -/
structure TidyDocument (document : Yaml.Node) : Prop where
  tidy : Tidy document
  names : ∀ pairs, document = .mapping pairs → ∀ p ∈ pairs, ∀ name, Named p.1 name →
    Path.ofKey name = [.member name]

namespace Settings

variable {text : String} {document : Yaml.Node} {settings : Settings}

theorem documents?_of_root? {d : Yaml.Dialect} {root : Option Yaml.Node}
    (read : Yaml.root? d text = some root) :
    Yaml.documents? d text = some root.toList := by
  rw [Yaml.root?] at read
  split at read
  · obtain rfl := Option.some.inj read
    assumption
  · obtain rfl := Option.some.inj read
    assumption
  · cases read

theorem readTable_eq_ok_iff {members : List (String × Value)}
    (root : Yaml.root? .layered text = some (some document)) :
    readTable text = .ok members ↔ Means document (.table members) := by
  rw [readTable, documents?_of_root? root]
  simp only [Option.toList, Means]
  cases Datum.ofNode document with
  | none => exact iff_of_false nofun nofun
  | some d =>
      cases value : d.value with
      | error fault => simp [value]
      | ok v => cases v <;> simp [value]

theorem lay_members {members : List (String × Value)} (tidy : TidyDocument document)
    (means : Means document (.table members)) :
    Value.lay members (.table []) = .ok (.table members) := by
  refine (tidy.tidy.lowered means).lay fun m member => ?_
  cases document with
  | mapping pairs =>
      obtain ⟨ws, same, _, each⟩ := means_mapping tidy.tidy means
      obtain rfl := Value.table.inj same
      obtain ⟨p, inside, named, _⟩ := exists_mem_of_forall₂ each member
      exact tidy.names pairs rfl p inside m.1 named
  | sequence items =>
      obtain ⟨vs, same, _⟩ := means_sequence means
      cases same
  | scalar style tag s => cases compound?_of_scalar means
  | absent => cases means_absent means
  | enclosing => cases means_enclosing means

theorem layers_eq_ok_iff {root : Value} (layered : Yaml.root? .layered text = some (some document))
    (tidy : TidyDocument document) :
    layers (.holding text) [] = .ok root ↔
    Means document root ∧ ∃ members, root = .table members := by
  have laid {members : List (String × Value)} (means : Means document (.table members)) :
      layers (.holding text) [] = .ok (.table members) := by
    rw [layers, BaseFile.members, (readTable_eq_ok_iff layered).mpr means]
    exact congrArg (· >>= Value.lay []) (lay_members tidy means)
  constructor
  · intro layers
    obtain ⟨members, read, _⟩ := bind_eq_ok.mp layers
    have means := (readTable_eq_ok_iff layered).mp read
    obtain rfl := Except.ok.inj ((laid means).symm.trans layers)
    exact ⟨means, members, rfl⟩
  · rintro ⟨means, members, rfl⟩
    exact laid means

theorem layers_of_no_document (layered : Yaml.root? .layered text = some none) :
    layers (.holding text) [] = .ok (.table []) := by
  rw [layers, BaseFile.members, readTable, documents?_of_root? layered]
  rfl

theorem ofYaml_eq_ok_iff {root : Option Yaml.Node} (plain : Yaml.root? .plain text = some root) :
    ofYaml text = .ok settings ↔
      Yaml.Node.reading.settings (root.getD .absent) = some settings ∧
      settings.validate = .ok () := by
  rw [ofYaml, plain, Option.bind_some, checked_eq_ok_iff]

/-- Of a text that both parsers take for the same tidy document, the second way gives the settings
    that the first way gives if and only if every scalar has a value and every scalar that a setting
    is read from is kept. As a text, a quoted scalar always is, and one without quotes and tags is
    unless it means nothing, has a mark in front, or is a number that is written in another way. As
    a number, one in digits is, up to 63 bits. -/
theorem loaded_alike_iff {root : Option Yaml.Node} (plain : Yaml.root? .plain text = some root)
    (layered : Yaml.root? .layered text = some root)
    (tidy : ∀ document ∈ root, TidyDocument document)
    (accepted : ofYaml text = .ok settings) :
    (load (.holding text) [] = .settings settings ↔
      ∀ document ∈ root, (∃ v, Means document v) ∧ (Kind.part .whole).Keeps document) ∧
    (∀ style tag s, style ≠ .plain → Kind.text.Keeps (.scalar style tag s)) ∧
    (∀ s, Kind.text.Keeps (.scalar .plain none s) ↔
      Datum.isNil s = false ∧ Datum.marked? s.toList = none ∧
      (∀ i, Numeral.Names s.toList i → Numeral.fitsWord i → Numeral.Canonical s.toList) ∧
      ((∀ i, Numeral.Names s.toList i → ¬ Numeral.fitsWord i) → Datum.isReal s →
        ∃ x, Binary64.parse? s.toList = some x ∧ x.text = s)) ∧
    ∀ s n, Yaml.natural? s.toList = some n → Numeral.Counts s.toList n → Numeral.fitsWord n →
      (Yaml.Node.scalar .plain none s).KeepsNumber := by
  refine ⟨?_, fun style tag s quoted => Kind.keeps_text_iff.mpr (Datum.written_of_quoted quoted),
    fun s => Kind.keeps_text_iff.trans Datum.written_guess_iff,
    fun s n => Yaml.Node.keepsNumber_of_counts⟩
  obtain ⟨read, valid⟩ := (ofYaml_eq_ok_iff plain).mp accepted
  rw [load_eq_settings_iff]
  cases root with
  | none =>
      refine iff_of_true ⟨.table [], layers_of_no_document layered, ?_, valid⟩ nofun
      exact read
  | some document =>
      have tidy := tidy document rfl
      simp only [layers_eq_ok_iff layered tidy, Option.mem_some_iff, forall_eq', valid, and_true]
      constructor
      · rintro ⟨root, ⟨means, _⟩, said⟩
        exact ⟨⟨root, means⟩,
          (Section.whole.readAlike document root settings tidy.tidy means read).mp said⟩
      · rintro ⟨⟨v, means⟩, keeps⟩
        have said := (Section.whole.readAlike document v settings tidy.tidy means read).mpr keeps
        cases keeps with
        | part =>
            obtain ⟨ws, rfl, _⟩ := means_mapping tidy.tidy means
            exact ⟨.table ws, ⟨means, ws, rfl⟩, said⟩

/-- A quoted secret is kept, whatever it looks like. -/
theorem loaded_alike_of_quoted :
    let text := "token: \x7bsecret: '0123'\x7d"
    let secret := Yaml.Node.mapping [(.scalar .plain none "secret", .scalar .quoted none "0123")]
    let document := Yaml.Node.mapping [(.scalar .plain none "token", secret)]
    let settings : Settings := { token := { secret := "0123" } }
    Yaml.root? .plain text = some (some document) ∧
      Yaml.root? .layered text = some (some document) ∧
      ofYaml text = .ok settings ∧ load (.holding text) [] = .settings settings ∧
      ((∃ v, Means document v) ∧ (Kind.part .whole).Keeps document) := by
  intro text secret document settings
  have plain : Yaml.root? .plain text = some (some document) := by decide +kernel
  have layered : Yaml.root? .layered text = some (some document) := by decide +kernel
  have accepted : ofYaml text = .ok settings := by decide +kernel
  have loaded : load (.holding text) [] = .settings settings := by decide +kernel
  have inner : Tidy secret :=
    .mapping (.cons ⟨⟨.plain, none, rfl, rfl⟩, by decide⟩ .nil) (by decide)
      (List.forall_mem_singleton.mpr (.scalar .quoted none "0123"))
  have tidy : TidyDocument document := by
    refine ⟨.mapping (.cons ⟨⟨.plain, none, rfl, rfl⟩, by decide⟩ .nil) (by decide)
      (List.forall_mem_singleton.mpr inner), ?_⟩
    rintro pairs same p member name ⟨⟨style, tag, key, _⟩, _⟩
    obtain rfl := Yaml.Node.mapping.inj same
    obtain rfl := List.mem_singleton.mp member
    cases key
    rfl
  refine ⟨plain, layered, accepted, loaded, ?_⟩
  refine (loaded_alike_iff plain layered ?_ accepted).1.mp loaded document rfl
  rintro _ ⟨⟩
  exact tidy

/-- Not every text that makes settings on its own makes the same settings as a layer: a secret of
    digits loses the zero in front. -/
theorem not_loaded_alike :
    ¬ ∀ text settings, ofYaml text = .ok settings →
      load (.holding text) [] = .settings settings := by
  intro every
  have alike :=
    every "token: \x7bsecret: 0123\x7d" { token := { secret := "0123" } } (by decide +kernel)
  have loaded : load (.holding "token: \x7bsecret: 0123\x7d") [] =
      .settings { token := { secret := "123" } } := by
    decide +kernel
  exact absurd (Loaded.settings.inj (loaded.symm.trans alike)) (by decide)

end Settings

end LinkGuard
