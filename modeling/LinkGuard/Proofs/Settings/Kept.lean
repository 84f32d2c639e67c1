import LinkGuard.Proofs.Layer.Scalars
import LinkGuard.Proofs.Settings.Fields
import LinkGuard.Settings.Yaml

/-! # What two readers make of one document

A document can be read as it is written, or as the values that its nodes stand for. Where the first
reader takes a text from a scalar, the second one writes down what the scalar was taken for; where
the first one takes a number, the second one counts what it was taken for. Told here is which
scalars that leaves alone, and that two readings agree if and only if it leaves alone all scalars
that settings are read from.
-/

namespace LinkGuard

open Layer

/-- The scalar is a number, and it is counted as that number. -/
def Yaml.Node.KeepsNumber (node : Yaml.Node) : Prop :=
  ∃ style tag s n, node = .scalar style tag s ∧ natural? s.toList = some n ∧
    (Datum.ofScalar style tag s).Counted n

/-- Nothing that is read from the node is changed by what its scalars are taken for. -/
inductive Kind.Keeps : Kind → Yaml.Node → Prop where
  | text {style : Yaml.Style} {tag : Option Yaml.Tag} {s : String}
      (written : (Datum.ofScalar style tag s).Written s) : Keeps .text (.scalar style tag s)
  | unset : Keeps .credential .absent
  | nothing {style : Yaml.Style} {tag : Option Yaml.Tag} {s : String}
      (said : (Yaml.Node.scalar style tag s).optionalText? = some none)
      (nothing : Datum.ofScalar style tag s = .nil ∨ Datum.ofScalar style tag s = .broken) :
      Keeps .credential (.scalar style tag s)
  | credential {style : Yaml.Style} {tag : Option Yaml.Tag} {s : String}
      (said : (Yaml.Node.scalar style tag s).optionalText? = some (some s))
      (written : (Datum.ofScalar style tag s).Written s) : Keeps .credential (.scalar style tag s)
  | texts {items : List Yaml.Node} (each : ∀ item ∈ items, Keeps .text item) :
    Keeps .texts (.sequence items)
  | backend {style : Yaml.Style} {tag : Option Yaml.Tag} {s : String}
      (named : (Backend.ofName? s).isSome)
      (text : Datum.ofScalar style tag s = .text s) :
    Keeps .backend (.scalar style tag s)
  | word16 {node : Yaml.Node} (number : node.KeepsNumber) : Keeps .word16 node
  | word32 {node : Yaml.Node} (number : node.KeepsNumber) : Keeps .word32 node
  | word64 {node : Yaml.Node} (number : node.KeepsNumber) : Keeps .word64 node
  | part {s : Section} {pairs : List (Yaml.Node × Yaml.Node)} {members : List (String × Yaml.Node)}
      (has : Yaml.Node.members? pairs = some members)
      (each : ∀ (i : Nat) (f : Field s.Value) (n : Yaml.Node), s.fields[i]? = some f →
        (Compound.table members).slot i f.name = some (some n) → Keeps f.kind n) :
    Keeps (.part s) (.mapping pairs)

section

variable {style : Yaml.Style} {tag : Option Yaml.Tag} {s : String}

theorem Kind.keeps_text_iff :
    Kind.text.Keeps (.scalar style tag s) ↔ (Datum.ofScalar style tag s).Written s :=
  ⟨fun | .text written => written, .text⟩

theorem Yaml.Node.keepsNumber_of_counts {n : Nat} (natural : natural? s.toList = some n)
    (counts : Numeral.Counts s.toList n) (fits : Numeral.fitsWord n) :
    (scalar .plain none s).KeepsNumber :=
  ⟨.plain, none, s, n, rfl, natural, Datum.counted_guess counts fits⟩

end

namespace Layer

variable {node : Yaml.Node} {v : Value} {style : Yaml.Style} {tag : Option Yaml.Tag} {s : String}

/-! ## Single values -/

theorem text_iff {a : String} (means : Means node v) (read : node.text? = some a) :
    v.text? = some a ↔ Kind.text.Keeps node := by
  cases node with
  | absent =>
      obtain rfl := means_absent means
      exact iff_of_false nofun nofun
  | scalar style tag s =>
      obtain rfl := Option.some.inj read
      rw [Datum.text?_eq_some_iff (single_ofScalar style tag s) (means_scalar means)]
      constructor
      · exact .text
      · rintro ⟨⟩
        assumption
  | _ => cases read

theorem mapM_text_iff {items : List Yaml.Node} {vs : List Value} {texts : List String}
    (means : List.Forall₂ Means items vs) (read : items.mapM Yaml.Node.text? = some texts) :
    vs.mapM Value.text? = some texts ↔ ∀ item ∈ items, Kind.text.Keeps item := by
  induction means generalizing texts with
  | nil =>
      obtain rfl := Option.some.inj read
      exact iff_of_true rfl (List.forall_mem_nil _)
  | cons here _ ih =>
      simp only [List.mapM_cons, Option.bind_eq_bind, Option.bind_eq_some_iff,
        Option.pure_def] at read
      obtain ⟨t, first, ts, later, same⟩ := read
      obtain rfl := Option.some.inj same
      rw [List.forall_mem_cons, ← text_iff here first, ← ih later]
      simp [List.mapM_cons, Option.bind_eq_some_iff]

theorem texts?_of_single (single : v.compound? = none) : v.texts? = none := by
  cases v with
  | list => cases single
  | _ => rfl

theorem texts_iff {a : List String} (means : Means node v) (read : node.texts? = some a) :
    v.texts? = some a ↔ Kind.texts.Keeps node := by
  cases node with
  | absent =>
      obtain rfl := means_absent means
      exact iff_of_false nofun nofun
  | scalar style tag s =>
      rw [texts?_of_single (compound?_of_scalar means)]
      exact iff_of_false nofun nofun
  | sequence items =>
      obtain ⟨vs, rfl, each⟩ := means_sequence means
      rw [Value.texts?, mapM_text_iff each read]
      constructor
      · exact .texts
      · rintro ⟨⟩
        assumption
  | _ => cases read

theorem optionalText?_eq_none_iff {d : Datum} (single : Datum.Single s d)
    (value : d.value = .ok v) :
    v.optionalText? = some none ↔ d = .nil ∨ d = .broken := by
  cases single with
  | real =>
      obtain ⟨x, _, rfl⟩ := value_real value
      exact iff_of_false nofun (not_or.mpr ⟨nofun, nofun⟩)
  | nil =>
      obtain rfl := Except.ok.inj value
      exact iff_of_true rfl (.inl rfl)
  | broken =>
      obtain rfl := Except.ok.inj value
      exact iff_of_true rfl (.inr rfl)
  | _ =>
      obtain rfl := Except.ok.inj value
      exact iff_of_false nofun (not_or.mpr ⟨nofun, nofun⟩)

theorem eq_of_optionalText? {t : String}
    (read : (Yaml.Node.scalar style tag s).optionalText? = some (some t)) : t = s := by
  unfold Yaml.Node.optionalText? at read
  grind

theorem credential_iff {a : Option String} (means : Means node v)
    (read : node.optionalText? = some a) :
    v.optionalText? = some a ↔ Kind.credential.Keeps node := by
  cases node with
  | absent =>
      obtain rfl := means_absent means
      obtain rfl := Option.some.inj read
      exact iff_of_true rfl .unset
  | scalar style tag s =>
      have single := single_ofScalar style tag s
      have value := means_scalar means
      cases a with
      | none =>
          rw [optionalText?_eq_none_iff single value]
          constructor
          · exact .nothing read
          · intro keeps
            cases keeps with
            | nothing _ nothing => exact nothing
            | credential said => cases read.symm.trans said
      | some t =>
          obtain rfl := eq_of_optionalText? read
          rw [Datum.optionalText?_eq_some_iff, Datum.text?_eq_some_iff single value]
          constructor
          · exact .credential read
          · intro keeps
            cases keeps with
            | nothing said => cases read.symm.trans said
            | credential _ written => exact written
  | _ => cases read

theorem lower_of_ofName? {b : Backend} (named : Backend.ofName? s = some b) : Text.lower s = s := by
  have all : ∀ entry ∈ Backend.names, Text.lower entry.1 = entry.1 := by decide
  obtain ⟨entry, member, same⟩ := List.lookup_isSome_iff.mp (Option.isSome_of_eq_some named)
  rw [beq_iff_eq] at same
  exact same ▸ all entry member

theorem ofName?_of_nothing (nothing : s.isEmpty ∨ Yaml.isNull s) :
    Backend.ofName? s = none ∧ Backend.ofName? (Text.lower s) = none := by
  have all : ∀ word ∈ ["", "null", "Null", "NULL", "~"],
      Backend.ofName? word = none ∧ Backend.ofName? (Text.lower word) = none := by decide
  refine all s ?_
  rcases nothing with empty | null
  · rw [String.isEmpty_iff.mp empty]
    exact List.mem_cons_self
  · exact List.mem_cons_of_mem _ (List.contains_iff_mem.mp null)

theorem named_or_nothing {b : Backend} (read : (Yaml.Node.scalar style tag s).backend? = some b) :
    Backend.ofName? s = some b ∨ s.isEmpty ∨ Yaml.isNull s := by
  unfold Yaml.Node.backend? at read
  grind

theorem backend?_of_named {d : Datum} {b : Backend} (single : Datum.Single s d)
    (value : d.value = .ok v) (named : Backend.ofName? s = some b) :
    v.backend? = some b ↔ d = .text s := by
  cases single with
  | real =>
      obtain ⟨x, _, rfl⟩ := value_real value
      exact iff_of_false nofun nofun
  | text =>
      obtain rfl := Except.ok.inj value
      refine iff_of_true ?_ rfl
      rw [Value.backend?, lower_of_ofName? named, named]
  | _ =>
      obtain rfl := Except.ok.inj value
      exact iff_of_false nofun nofun

theorem backend?_of_nothing {d : Datum} (single : Datum.Single s d) (value : d.value = .ok v)
    (nothing : s.isEmpty ∨ Yaml.isNull s) : v.backend? = none := by
  cases single with
  | real =>
      obtain ⟨x, _, rfl⟩ := value_real value
      rfl
  | text =>
      obtain rfl := Except.ok.inj value
      exact (ofName?_of_nothing nothing).2
  | _ =>
      obtain rfl := Except.ok.inj value
      rfl

theorem backend_iff {a : Backend} (means : Means node v) (read : node.backend? = some a) :
    v.backend? = some a ↔ Kind.backend.Keeps node := by
  cases node with
  | scalar style tag s =>
      have single := single_ofScalar style tag s
      have value := means_scalar means
      rcases named_or_nothing read with named | nothing
      · rw [backend?_of_named single value named]
        constructor
        · exact .backend (Option.isSome_of_eq_some named)
        · rintro ⟨⟩
          assumption
      · rw [backend?_of_nothing single value nothing]
        refine iff_of_false nofun fun keeps => ?_
        cases keeps with
        | backend named =>
            rw [(ofName?_of_nothing nothing).1] at named
            cases named
  | _ => cases read

theorem word_iff {W : Type} {size : Nat} {word : Nat → W} {a : W} (number : W → Nat)
    (back : ∀ n < size, number (word n) = n) (means : Means node v)
    (read : (node.below? size).map word = some a) :
    (v.below? size).map word = some a ↔ node.KeepsNumber := by
  cases node with
  | scalar style tag s =>
      obtain ⟨n, below, rfl⟩ := Option.map_eq_some_iff.mp read
      rw [Yaml.Node.below?] at below
      split at below
      case isFalse => cases below
      case isTrue =>
        rw [Option.filter_eq_some_iff, decide_eq_true_eq] at below
        obtain ⟨natural, small⟩ := below
        have counted :=
          Datum.number?_eq_some_iff (n := n) (single_ofScalar style tag s) (means_scalar means)
        constructor
        · intro said
          obtain ⟨m, below', same⟩ := Option.map_eq_some_iff.mp said
          rw [Value.below?, Option.filter_eq_some_iff, decide_eq_true_eq] at below'
          obtain rfl : m = n := by rw [← back m below'.2, same, back n small]
          exact ⟨style, tag, s, m, rfl, natural, counted.mp below'.1⟩
        · rintro ⟨_, _, _, m, same, natural', counted'⟩
          cases same
          obtain rfl := Option.some.inj (natural.symm.trans natural')
          rw [Value.below?, counted.mpr counted', Option.filter_some, if_pos (decide_eq_true small),
            Option.map_some]
  | _ => cases read

/-! ## Records -/

/-- A slot and what it holds in the other record. -/
abbrev Alike (slot : Option (Option Yaml.Node)) (slot' : Option (Option Value)) : Prop :=
  Option.Rel (Option.Rel fun n w => Tidy n ∧ Means n w) slot slot'

theorem alike_of_tables {members : List (String × Yaml.Node)} {ws : List (String × Value)}
    (alike : List.Forall₂ (fun m w => m.1 = w.1 ∧ Tidy m.2 ∧ Means m.2 w.2) members ws)
    (place : Nat) (name : String) :
    Alike ((Compound.table members).slot place name) ((Compound.table ws).slot place name) := by
  have filtered := List.rel_filter
    (p := fun m => decide (m.1 = name)) (q := fun w => decide (w.1 = name))
    (fun m w here => by simp [here.1]) alike
  simp only [Compound.slot]
  generalize members.filter (·.1 = name) = named at filtered
  generalize ws.filter (·.1 = name) = named' at filtered
  rcases filtered with _ | ⟨here, _ | _⟩
  · exact .some .none
  · exact .some (.some here.2)
  · exact .none

theorem record_of_single (single : v.compound? = none) (size : Nat) :
    Value.reading.record size v = none := by
  rw [Reading.record, show Value.reading.compound v = none from single]

theorem exists_members {pairs : List (Yaml.Node × Yaml.Node)} {c : Compound Yaml.Node} {size : Nat}
    (has : Yaml.Node.reading.record size (.mapping pairs) = some c) :
    ∃ members, Yaml.Node.members? pairs = some members ∧ c = .table members := by
  simp only [Reading.record, Yaml.Node.reading, Yaml.Node.compound?] at has
  cases members? : Yaml.Node.members? pairs with
  | none =>
      rw [members?] at has
      cases has
  | some members =>
      rw [members?] at has
      exact ⟨members, rfl, (Option.some.inj has).symm⟩

theorem forall₂_members {pairs : List (Yaml.Node × Yaml.Node)} {members : List (String × Yaml.Node)}
    {ws : List (String × Value)} (has : Yaml.Node.members? pairs = some members)
    (means : List.Forall₂ (fun p w => Tidy p.2 ∧ Named p.1 w.1 ∧ Means p.2 w.2) pairs ws) :
    List.Forall₂ (fun m w => m.1 = w.1 ∧ Tidy m.2 ∧ Means m.2 w.2) members ws := by
  induction means generalizing members with
  | nil =>
      obtain rfl := Option.some.inj has
      exact .nil
  | @cons p w _ _ here _ ih =>
      obtain ⟨tidy, ⟨⟨style, tag, written, _⟩, _⟩, means⟩ := here
      simp only [Yaml.Node.members?, List.mapM_cons, written, Yaml.Node.text?, Option.map_some,
        Option.bind_eq_bind, Option.bind_some, Option.bind_eq_some_iff, Option.pure_def] at has
      obtain ⟨rest, later, same⟩ := has
      obtain rfl := Option.some.inj same
      exact .cons ⟨rfl, tidy, means⟩ (ih later)

theorem exists_alike {pairs : List (Yaml.Node × Yaml.Node)} {members : List (String × Yaml.Node)}
    (tidy : Tidy (.mapping pairs)) (means : Means (.mapping pairs) v)
    (has : Yaml.Node.members? pairs = some members) :
    ∃ ws, v = .table ws ∧
      ∀ place name,
        Alike ((Compound.table members).slot place name) ((Compound.table ws).slot place name) := by
  obtain ⟨ws, rfl, _, each⟩ := means_mapping tidy means
  cases tidy with
  | mapping _ _ inner =>
      exact ⟨ws, rfl,
        alike_of_tables (forall₂_members has ((List.forall₂_and_left _ _).mpr ⟨inner, each⟩))⟩

end Layer

/-! ## Sections -/

/-- Where the section is read from a node, both readings agree if and only if the node keeps it. -/
def Section.ReadAlike (s : Section) : Prop :=
  ∀ (node : Yaml.Node) (v : Layer.Value) (a : s.Value), Tidy node → Means node v →
    s.read Yaml.Node.reading node = some a →
    (s.read Layer.Value.reading v = some a ↔ (Kind.part s).Keeps node)

theorem Kind.read_iff (k : Kind) (parts : ∀ t, k = .part t → t.ReadAlike) {node : Yaml.Node}
    {v : Layer.Value} {a : k.Value} (tidy : Tidy node) (means : Means node v)
    (read : k.read Yaml.Node.reading node = some a) :
    k.read Layer.Value.reading v = some a ↔ k.Keeps node := by
  cases k with
  | text => exact text_iff means read
  | credential => exact credential_iff means read
  | texts => exact texts_iff means read
  | backend => exact backend_iff means read
  | word16 =>
      have counted := word_iff UInt16.toNat (fun _ => UInt16.toNat_ofNat_of_lt') means read
      exact counted.trans ⟨.word16, fun | .word16 number => number⟩
  | word32 =>
      have counted := word_iff UInt32.toNat (fun _ => UInt32.toNat_ofNat_of_lt') means read
      exact counted.trans ⟨.word32, fun | .word32 number => number⟩
  | word64 =>
      have counted := word_iff UInt64.toNat (fun _ => UInt64.toNat_ofNat_of_lt') means read
      exact counted.trans ⟨.word64, fun | .word64 number => number⟩
  | part t => exact parts t rfl node v a tidy means read

theorem Field.take_iff {α : Type} {f : Field α} {b : f.kind.Value} {c : Compound Yaml.Node}
    {c' : Compound Layer.Value} {place : Nat} (parts : ∀ t, f.kind = .part t → t.ReadAlike)
    (alike : Alike (c.slot place f.name) (c'.slot place f.name))
    (taken : f.take Yaml.Node.reading c place = some b) :
    f.take Layer.Value.reading c' place = some b ↔
    ∀ n, c.slot place f.name = some (some n) → f.kind.Keeps n := by
  cases here : c.slot place f.name with
  | none =>
      rw [take_of_twice here] at taken
      cases taken
  | some slot =>
      rw [here] at alike
      cases there : c'.slot place f.name with
      | none =>
          rw [there] at alike
          cases alike
      | some slot' =>
          rw [there] at alike
          cases alike with
          | some alike =>
              cases alike with
              | none =>
                  rw [take_of_absent here] at taken
                  rw [take_of_absent there]
                  exact iff_of_true taken nofun
              | @some n w both =>
                  rw [take_of_present here] at taken
                  rw [take_of_present there, f.kind.read_iff parts both.1 both.2 taken]
                  constructor
                  · rintro keeps _ ⟨⟩
                    exact keeps
                  · intro every
                    exact every n rfl

theorem Section.readAlike (s : Section) : s.ReadAlike := by
  induction s using Section.induct_parts with
  | step s ih =>
      -- The sections inside are read alike by induction, so the fields can be compared one by one.
      intro node v a tidy means read
      obtain ⟨c, has, gives⟩ := s.read_eq_some_iff.mp read
      cases node with
      | mapping pairs =>
          obtain ⟨members, members?, rfl⟩ := exists_members has
          obtain ⟨ws, rfl, alike⟩ := exists_alike tidy means members?
          have fields (i : Nat) (f : Field s.Value) (found : s.fields[i]? = some f) :=
            f.take_iff (fun t part => ih t (Section.mem_parts (List.mem_of_getElem? found) part))
              (alike i f.name) (gives i f found)
          have reads : s.read Layer.Value.reading (.table ws) = some a ↔
              ∀ (i : Nat) (f : Field s.Value), s.fields[i]? = some f →
                f.take Layer.Value.reading (.table ws) i = some (f.get a) := by
            rw [s.read_eq_some_iff]
            constructor
            · rintro ⟨_, ⟨⟩, every⟩
              exact every
            · intro every
              exact ⟨_, rfl, every⟩
          rw [reads]
          constructor
          · intro every
            exact .part members? fun i f n found => (fields i f found).mp (every i f found) n
          · intro keeps i f found
            cases keeps with
            | part members?' each =>
                obtain rfl := Option.some.inj (members?.symm.trans members?')
                exact (fields i f found).mpr fun n => each i f n found
      -- An empty section is a record for the first reader, but stands for a single value.
      | absent =>
          obtain rfl := means_absent means
          rw [read_eq_none rfl]
          exact iff_of_false nofun nofun
      | scalar style tag t =>
          rw [read_eq_none (record_of_single (compound?_of_scalar means) _)]
          exact iff_of_false nofun nofun
      | _ => cases has

end LinkGuard
