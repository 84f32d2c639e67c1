import Mathlib.Data.List.Forall2
import LinkGuard.Layer.Datum
import LinkGuard.Proofs.Except
import LinkGuard.Proofs.Layer.Laid

/-! # What nodes stand for as values

A node of a document becomes a datum, and the datum a value. In a tidy document every key is a text
in lower case, and none comes twice in its mapping: then a mapping stands for the table of what
stands behind its keys, and a sequence for the list of what its items stand for.
-/

namespace LinkGuard.Layer

/-- The node stands for the value. -/
def Means (node : Yaml.Node) (v : Value) : Prop := ∃ d, Datum.ofNode node = some d ∧ d.value = .ok v

/-- The key is a text in lower case. -/
def Named (key : Yaml.Node) (name : String) : Prop :=
  (∃ style tag, key = .scalar style tag name ∧ Datum.ofScalar style tag name = .text name) ∧
    Text.lower name = name

/-- Every key is a text in lower case, and none comes twice in its mapping. -/
inductive Tidy : Yaml.Node → Prop where
  | absent : Tidy .absent
  | enclosing : Tidy .enclosing
  | scalar (style : Yaml.Style) (tag : Option Yaml.Tag) (s : String) : Tidy (.scalar style tag s)
  | sequence {items : List Yaml.Node} (each : ∀ item ∈ items, Tidy item) : Tidy (.sequence items)
  | mapping {pairs : List (Yaml.Node × Yaml.Node)} {names : List String}
      (named : List.Forall₂ (fun p name => Named p.1 name) pairs names) (distinct : names.Nodup)
      (each : ∀ p ∈ pairs, Tidy p.2) : Tidy (.mapping pairs)

/-! ## Single nodes -/

theorem means_absent {v : Value} (means : Means .absent v) : v = .nil := by
  obtain ⟨d, read, value⟩ := means
  obtain rfl := Option.some.inj read
  exact (Except.ok.inj value).symm

theorem means_enclosing {v : Value} (means : Means .enclosing v) : v = .nil := by
  obtain ⟨d, read, value⟩ := means
  obtain rfl := Option.some.inj read
  exact (Except.ok.inj value).symm

theorem means_scalar {style : Yaml.Style} {tag : Option Yaml.Tag} {s : String} {v : Value}
    (means : Means (.scalar style tag s) v) : (Datum.ofScalar style tag s).value = .ok v := by
  obtain ⟨d, read, value⟩ := means
  obtain rfl := Option.some.inj read
  exact value

/-! ## Sequences -/

theorem means_items {items : List Yaml.Node} {data : List Datum} {vs : List Value}
    (read : Datum.ofItems items = some data) (values : Datum.values data = .ok vs) :
    List.Forall₂ Means items vs := by
  induction items generalizing data vs with
  | nil =>
      obtain rfl := Option.some.inj read
      obtain rfl := Except.ok.inj values
      exact .nil
  | cons node rest ih =>
      simp only [Datum.ofItems, Option.bind_eq_bind, Option.bind_eq_some_iff] at read
      obtain ⟨d, first, later, others, same⟩ := read
      obtain rfl := Option.some.inj same
      obtain ⟨v, here, values⟩ := bind_eq_ok.mp values
      obtain ⟨ws, there, same⟩ := bind_eq_ok.mp values
      obtain rfl := Except.ok.inj same
      exact .cons ⟨d, first, here⟩ (ih others there)

theorem means_sequence {items : List Yaml.Node} {v : Value} (means : Means (.sequence items) v) :
    ∃ vs, v = .list vs ∧ List.Forall₂ Means items vs := by
  obtain ⟨d, read, value⟩ := means
  obtain ⟨data, items, rfl⟩ := Option.map_eq_some_iff.mp read
  obtain ⟨vs, values, same⟩ := bind_eq_ok.mp value
  obtain rfl := Except.ok.inj same
  exact ⟨vs, rfl, means_items items values⟩

/-! ## Mappings -/

namespace Datum

/-- Keys and values as they come in turn. -/
def inTurn (members : List (String × Datum)) : List Datum :=
  members.flatMap fun m => [text m.1, m.2]

def underTexts (members : List (String × Datum)) : List (Datum × Datum) :=
  members.map fun m => (text m.1, m.2)

theorem pairUp_inTurn (members : List (String × Datum)) :
    pairUp (inTurn members) = underTexts members := by
  induction members with
  | nil => rfl
  | cons m rest ih => exact congrArg ((text m.1, m.2) :: ·) ih

theorem same_text (a b : String) : same (text a) (text b) = decide (a = b) := by rw [same]

theorem hasTwice_underTexts {members : List (String × Datum)}
    (distinct : (members.map Prod.fst).Nodup) :
    hasTwice (underTexts members) = false := by
  induction members with
  | nil => rfl
  | cons m rest ih =>
      rw [List.map_cons, List.nodup_cons] at distinct
      have once : (underTexts rest).any (fun p => same (text m.1) p.1) = false := by
        refine List.any_eq_false.mpr fun p under => ?_
        obtain ⟨n, member, rfl⟩ := List.mem_map.mp under
        rw [same_text, decide_eq_true_eq]
        exact fun again => distinct.1 (again ▸ List.mem_map_of_mem member)
      exact Bool.or_eq_false_iff.mpr ⟨once, ih distinct.2⟩

theorem exists_of_members {data : List (String × Datum)} {before all : List (String × Value)}
    (distinct : ((before.map Prod.fst) ++ data.map Prod.fst).Nodup)
    (read : members before (underTexts data) = .ok all) :
    ∃ ws, all = before ++ ws ∧ ws.map Prod.fst = data.map Prod.fst ∧
      List.Forall₂ (fun m w => m.1 = w.1 ∧ m.2.value = .ok w.2) data ws := by
  induction data generalizing before with
  | nil =>
      obtain rfl := Except.ok.inj read
      exact ⟨[], (List.append_nil _).symm, rfl, .nil⟩
  | cons m rest ih =>
      have absent : m.1 ∉ before.map Prod.fst := by
        rw [List.map_cons, List.nodup_append] at distinct
        exact fun again => distinct.2.2 m.1 again m.1 List.mem_cons_self rfl
      obtain ⟨v, value, read⟩ := bind_eq_ok.mp read
      rw [Keyed.put_of_absent v absent] at read
      rw [List.map_cons, List.append_cons] at distinct
      have distinct' : ((before ++ [(m.1, v)]).map Prod.fst ++ rest.map Prod.fst).Nodup := by
        rw [List.map_append]
        exact distinct
      obtain ⟨ws, rfl, keys, each⟩ := ih distinct' read
      exact ⟨(m.1, v) :: ws, (List.append_cons before (m.1, v) ws).symm, congrArg (m.1 :: ·) keys,
        .cons ⟨rfl, value⟩ each⟩

theorem exists_of_ofPairs {pairs : List (Yaml.Node × Yaml.Node)} {names : List String}
    {data : List Datum} (named : List.Forall₂ (fun p name => Named p.1 name) pairs names)
    (read : ofPairs pairs = some data) :
    ∃ ms, data = inTurn ms ∧ ms.map Prod.fst = names ∧
      List.Forall₂ (fun p m => Named p.1 m.1 ∧ ofNode p.2 = some m.2) pairs ms := by
  induction named generalizing data with
  | nil =>
      obtain rfl := Option.some.inj read
      exact ⟨[], rfl, rfl, .nil⟩
  | @cons p name rest names named _ ih =>
      simp only [ofPairs, Option.bind_eq_bind, Option.bind_eq_some_iff] at read
      obtain ⟨k, key, d, value, later, others, same⟩ := read
      obtain rfl := Option.some.inj same
      obtain ⟨ms, rfl, rfl, each⟩ := ih others
      have key' : k = text name := by
        obtain ⟨⟨style, tag, written, text⟩, _⟩ := named
        rw [written, ofNode, text] at key
        exact (Option.some.inj key).symm
      exact ⟨(name, d) :: ms, by rw [key']; rfl, rfl, .cons ⟨named, value⟩ each⟩

end Datum

theorem means_pairs {pairs : List (Yaml.Node × Yaml.Node)} {ms : List (String × Datum)}
    {ws : List (String × Value)}
    (read : List.Forall₂ (fun p m => Named p.1 m.1 ∧ Datum.ofNode p.2 = some m.2) pairs ms)
    (values : List.Forall₂ (fun m w => m.1 = w.1 ∧ m.2.value = .ok w.2) ms ws) :
    List.Forall₂ (fun p w => Named p.1 w.1 ∧ Means p.2 w.2) pairs ws := by
  induction read generalizing ws with
  | nil =>
      cases values
      exact .nil
  | cons here _ ih =>
      cases values with
      | cons value later => exact .cons ⟨value.1 ▸ here.1, _, here.2, value.2⟩ (ih later)

theorem means_mapping {pairs : List (Yaml.Node × Yaml.Node)} {v : Value}
    (tidy : Tidy (.mapping pairs)) (means : Means (.mapping pairs) v) :
    ∃ ws, v = .table ws ∧ (ws.map Prod.fst).Nodup ∧
      List.Forall₂ (fun p w => Named p.1 w.1 ∧ Means p.2 w.2) pairs ws := by
  obtain ⟨d, read, value⟩ := means
  cases tidy with
  | mapping named distinct =>
      obtain ⟨data, read, table⟩ := Option.bind_eq_some_iff.mp read
      obtain ⟨ms, rfl, rfl, each⟩ := Datum.exists_of_ofPairs named read
      rw [Datum.table?, Datum.pairUp_inTurn, Datum.hasTwice_underTexts distinct] at table
      obtain rfl := Option.some.inj table
      obtain ⟨all, members, same⟩ := bind_eq_ok.mp value
      obtain rfl := Except.ok.inj same
      obtain ⟨ws, new, keys, each'⟩ := @Datum.exists_of_members ms [] _ distinct members
      exact ⟨ws, congrArg Value.table new, keys ▸ distinct, means_pairs each each'⟩

/-! ## Scalars -/

/-- What a scalar with that text can be taken for. -/
inductive Datum.Single (s : String) : Datum → Prop where
  | nil : Single s .nil
  | broken : Single s .broken
  | bool (b : Bool) : Single s (.bool b)
  | integer (n : Int) : Single s (.integer n)
  | real : Single s (.real s)
  | text : Single s (.text s)

theorem single_ofScalar (style : Yaml.Style) (tag : Option Yaml.Tag) (s : String) :
    Datum.Single s (Datum.ofScalar style tag s) := by
  have guess : Datum.Single s (Datum.guess s) := by
    unfold Datum.guess
    repeat' split
    all_goals constructor
  have tagged (name : String) : Datum.Single s (Datum.tagged name s) := by
    unfold Datum.tagged
    split
    · cases Datum.bool? s <;> constructor
    · cases Numeral.word? 10 s.toList <;> constructor
    all_goals repeat' split
    all_goals constructor
  unfold Datum.ofScalar
  split
  · exact guess
  · split
    · exact tagged _
    · exact .text
  · exact .text

theorem value_real {s : String} {v : Value} (value : (Datum.real s).value = .ok v) :
    ∃ x, Binary64.parse? s.toList = some x ∧ v = .real x := by
  rw [Datum.value] at value
  split at value
  · exact ⟨_, ‹_›, (Except.ok.inj value).symm⟩
  · cases value

theorem compound?_of_single {s : String} {d : Datum} {v : Value} (single : Datum.Single s d)
    (value : d.value = .ok v) :
    v.compound? = none := by
  cases single with
  | real =>
      obtain ⟨x, _, rfl⟩ := value_real value
      rfl
  | _ =>
      obtain rfl := Except.ok.inj value
      rfl

theorem compound?_of_scalar {style : Yaml.Style} {tag : Option Yaml.Tag} {s : String} {v : Value}
    (means : Means (.scalar style tag s) v) : v.compound? = none :=
  compound?_of_single (single_ofScalar style tag s) (means_scalar means)

/-! ## Documents -/

theorem exists_mem_of_forall₂ {α β : Type} {R : α → β → Prop} {as : List α} {bs : List β} {b : β}
    (alike : List.Forall₂ R as bs) (member : b ∈ bs) : ∃ a ∈ as, R a b := by
  induction alike with
  | nil => cases member
  | cons here _ ih =>
      rcases List.mem_cons.mp member with rfl | member
      · exact ⟨_, List.mem_cons_self, here⟩
      · obtain ⟨a, member, there⟩ := ih member
        exact ⟨a, List.mem_cons_of_mem _ member, there⟩

theorem Value.Lowered.of_compound? {v : Value} (none : v.compound? = .none) : v.Lowered := by
  refine .single fun members table => ?_
  rw [table] at none
  cases none

theorem Tidy.lowered {node : Yaml.Node} {v : Value} (tidy : Tidy node) (means : Means node v) :
    v.Lowered := by
  induction tidy generalizing v with
  | absent =>
      obtain rfl := means_absent means
      exact .of_compound? rfl
  | enclosing =>
      obtain rfl := means_enclosing means
      exact .of_compound? rfl
  | scalar => exact .of_compound? (compound?_of_scalar means)
  | sequence =>
      obtain ⟨vs, rfl, _⟩ := means_sequence means
      exact .single nofun
  | mapping named distinct each ih =>
      obtain ⟨ws, rfl, distinct', alike⟩ := means_mapping (.mapping named distinct each) means
      refine .table (fun w member => ?_) distinct' fun w member => ?_
      · obtain ⟨p, _, named, _⟩ := exists_mem_of_forall₂ alike member
        exact named.2
      · obtain ⟨p, member, _, means⟩ := exists_mem_of_forall₂ alike member
        exact ih p member means

end LinkGuard.Layer
