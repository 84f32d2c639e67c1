import LinkGuard.Layer.Path

/-! # What a layer leaves where there was nothing

A layer is laid upon a table name by name, and its tables are merged with those that are there
already. Where nothing is, all of it arrives as it came. That asks for names in lower case that come
once in their table; at the top, where names are paths, it also asks that a name leads nowhere
further.
-/

namespace LinkGuard

theorem Keyed.put_of_absent {α : Type} {key : String} {entries : List (String × α)} (value : α)
    (absent : key ∉ entries.map Prod.fst) : put key value entries = entries ++ [(key, value)] := by
  induction entries with
  | nil => rfl
  | cons e rest ih =>
      rw [List.map_cons, List.mem_cons, not_or] at absent
      rw [put, if_neg (Ne.symm absent.1), ih absent.2, List.cons_append]

namespace Layer.Value

/-! ## One value under a path -/

variable {v root : Value} {path : List String}

/-- The tables around a value that one path leads to. -/
def nested : List String → Value → Value
  | [], v => v
  | name :: path, v => table [(name, nested path v)]

theorem put_of_no_table (single : ∀ members, v ≠ .table members) (name : String) (root : Value) :
    put name v root = table (Keyed.put (Text.lower name) v root.members) := by
  cases v with
  | table members => exact absurd rfl (single members)
  | _ => simp only [put]

theorem setAt_of_empty (single : ∀ members, v ≠ .table members)
    (lowered : ∀ name ∈ path, Text.lower name = name) (some : path ≠ [])
    (empty : root.members = []) :
    setAt v (path.map .member) root = .some (nested path v) := by
  induction path generalizing root with
  | nil => exact absurd rfl some
  | cons name path ih =>
      cases path with
      | nil =>
          rw [List.map_singleton, setAt, put_of_no_table single,
            lowered name List.mem_cons_self, empty]
          rfl
      | cons next path =>
          have later : setAt v ((next :: path).map .member) nil = .some (nested (next :: path) v) :=
            ih (fun n member => lowered n (List.mem_cons_of_mem _ member))
              (List.cons_ne_nil _ _) rfl
          simp only [List.map_cons] at later ⊢
          simp only [setAt, empty, Keyed.find, Option.getD_none, later, Option.bind_eq_bind,
            Option.bind_some]
          rfl

/-! ## A whole table -/

variable {members before : List (String × Value)}

/-- In every table that lies in tables only, names are in lower case and come once. -/
inductive Lowered : Value → Prop where
  | single {v : Value} (single : ∀ members, v ≠ .table members) : Lowered v
  | table {members : List (String × Value)} (lower : ∀ m ∈ members, Text.lower m.1 = m.1)
      (distinct : (members.map Prod.fst).Nodup) (each : ∀ m ∈ members, Lowered m.2) :
      Lowered (.table members)

/-- Putting a value under a new name adds it behind the others. -/
def Arrives (m : String × Value) : Prop :=
  ∀ root : Value, m.1 ∉ root.members.map Prod.fst → put m.1 m.2 root = .table (root.members ++ [m])

theorem absent_of_distinct {m : String × Value} {rest : List (String × Value)}
    (distinct : ((before ++ m :: rest).map Prod.fst).Nodup) : m.1 ∉ before.map Prod.fst := by
  rw [List.map_append, List.map_cons, List.nodup_append] at distinct
  exact fun again => distinct.2.2 m.1 again m.1 List.mem_cons_self rfl

theorem putAll_of_arrives (each : ∀ m ∈ members, Arrives m)
    (distinct : ((before ++ members).map Prod.fst).Nodup) :
    putAll members (table before) = table (before ++ members) := by
  induction members generalizing before with
  | nil => rw [putAll, List.append_nil]
  | cons m rest ih =>
      have here : put m.1 m.2 (table before) = table (before ++ [m]) :=
        each m List.mem_cons_self (table before) (absent_of_distinct distinct)
      rw [List.append_cons] at distinct ⊢
      rw [putAll, here, ih (fun n member => each n (List.mem_cons_of_mem _ member)) distinct]

theorem Lowered.arrives {name : String} (lowered : Lowered v) (lower : Text.lower name = name) :
    Arrives (name, v) := by
  induction lowered generalizing name with
  | single single =>
      intro root absent
      rw [put_of_no_table single, lower, Keyed.put_of_absent _ absent]
  | @table members lowers distinct _ ih =>
      -- There is no table under the name yet, so the incoming one is merged into an empty one.
      intro root absent
      have merged : putAll members (.table []) = .table members :=
        putAll_of_arrives (fun m member => ih m member (lowers m member)) distinct
      simp only [put, lower, Keyed.find_eq_none absent, Option.getD_none, merged,
        Keyed.put_of_absent _ absent]

/-- A layer whose names are no paths into others is laid name by name. -/
theorem lay_of_arrives (each : ∀ m ∈ members, Arrives m)
    (names : ∀ m ∈ members, Path.ofKey m.1 = [.member m.1])
    (distinct : ((before ++ members).map Prod.fst).Nodup) :
    lay members (table before) = .ok (table (before ++ members)) := by
  induction members generalizing before with
  | nil => rw [lay, List.append_nil]
  | cons m rest ih =>
      have here : put m.1 m.2 (table before) = table (before ++ [m]) :=
        each m List.mem_cons_self (table before) (absent_of_distinct distinct)
      rw [List.append_cons] at distinct ⊢
      simp only [lay, names m List.mem_cons_self, setAt, here]
      exact ih (fun n member => each n (List.mem_cons_of_mem _ member))
        (fun n member => names n (List.mem_cons_of_mem _ member)) distinct

theorem Lowered.lay (lowered : Lowered (.table members))
    (names : ∀ m ∈ members, Path.ofKey m.1 = [.member m.1]) :
    Value.lay members (.table []) = .ok (.table members) := by
  cases lowered with
  | single single => exact absurd rfl (single members)
  | table lower distinct each =>
      exact lay_of_arrives (fun m member => (each m member).arrives (lower m member)) names distinct

end Layer.Value

end LinkGuard
