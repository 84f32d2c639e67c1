import LinkGuard.Proofs.Settings.RoundTrip

/-! # Edits that settings survive

What is done to the members of one table, however deep it lies, shows in the settings only as far as
the section there is read differently. Members of unknown names and the order of members make no
difference to it, nor does it matter whether a standard value is said.
-/

namespace LinkGuard

namespace Kind

variable {k : Kind} {s : Section} {v w : Json}

theorem read_congr_part (part : k = .part s)
    (alike : s.read Json.reading v = s.read Json.reading w) :
    k.read Json.reading v = k.read Json.reading w := by
  subst part
  exact alike

theorem part_of_read (part : k = .part s) {a : k.Value} (read : k.read Json.reading v = some a) :
    ∃ b, s.read Json.reading v = some b := by
  subst part
  exact ⟨a, read⟩

end Kind

/-- Where a section lies inside another one: what is filled in there is read as the inner one
    whenever the outer one is read. -/
inductive Place : Section → Section → (Json → Json) → Prop
  | here (s : Section) : Place s s id
  | member {s t u : Section} {fill : Json → Json} {f : Field s.Value}
      (before after : List (String × Json)) :
      f ∈ s.fields → f.kind = .part t → Place t u fill →
        Place s u fun v => .object (before ++ (f.name, fill v) :: after)
  | item {s t u : Section} {fill : Json → Json} {f : Field s.Value} (before after : List Json) :
      s.fields[before.length]? = some f → f.kind = .part t → Place t u fill →
        Place s u fun v => .array (before ++ fill v :: after)

namespace Section

variable {s t : Section} {f : Field s.Value} {before after : List (String × Json)} {v w : Json}

theorem read_object_congr {members members' : List (String × Json)}
    (alike : ∀ (i : Nat) (g : Field s.Value), s.fields[i]? = some g →
      g.take Json.reading (.table members) i = g.take Json.reading (.table members') i) :
    s.read Json.reading (.object members) = s.read Json.reading (.object members') :=
  read_congr (Json.record_object _ members) (Json.record_object _ members') alike

theorem read_unknown {name : String} (unknown : name ∉ s.names) :
    s.read Json.reading (.object (before ++ (name, v) :: after)) =
      s.read Json.reading (.object (before ++ after)) := by
  refine read_object_congr fun i g found => ?_
  have apart : name ≠ g.name := by
    rintro rfl
    exact unknown (List.mem_map_of_mem (List.mem_of_getElem? found))
  exact Field.take_congr (Compound.slot_of_other apart)

theorem read_perm {members members' : List (String × Json)} (perm : members.Perm members') :
    s.read Json.reading (.object members) = s.read Json.reading (.object members') :=
  read_object_congr fun _ _ _ => Field.take_congr (Compound.slot_of_perm perm)

/-- The value of one field may be exchanged for one that is read alike, or be left out for the
    standard value. -/
theorem read_exchanged (member : f ∈ s.fields) {members members' : List (String × Json)}
    (elsewhere : ∀ name place, f.name ≠ name →
      (Compound.table members).slot place name = (Compound.table members').slot place name)
    (here : ∀ place, f.take Json.reading (.table members) place =
      f.take Json.reading (.table members') place) :
    s.read Json.reading (.object members) = s.read Json.reading (.object members') := by
  obtain ⟨j, found⟩ := List.mem_iff_getElem?.mp member
  refine read_object_congr fun i g found' => ?_
  by_cases same : f.name = g.name
  · obtain ⟨_, rfl⟩ := eq_of_name found found' same
    exact here i
  · exact Field.take_congr (elsewhere g.name i same)

theorem read_member_congr (member : f ∈ s.fields)
    (alike : f.kind.read Json.reading v = f.kind.read Json.reading w) :
    s.read Json.reading (.object (before ++ (f.name, v) :: after)) =
      s.read Json.reading (.object (before ++ (f.name, w) :: after)) := by
  refine read_exchanged member (fun name place apart => ?_) fun place => ?_
  · rw [Compound.slot_of_other apart, Compound.slot_of_other apart]
  · by_cases again : f.name ∈ (before ++ after).map Prod.fst
    · rw [Field.take_of_twice (Compound.slot_of_twice again),
        Field.take_of_twice (Compound.slot_of_twice again)]
    · rw [Field.take_of_present (Compound.slot_of_once again),
        Field.take_of_present (Compound.slot_of_once again)]
      exact alike

theorem read_left_out (member : f ∈ s.fields) (absent : f.name ∉ (before ++ after).map Prod.fst)
    (standard : f.kind.read Json.reading v = f.standard) :
    s.read Json.reading (.object (before ++ (f.name, v) :: after)) =
      s.read Json.reading (.object (before ++ after)) := by
  refine read_exchanged member (fun name place apart => Compound.slot_of_other apart)
    fun place => ?_
  rw [Field.take_of_present (Compound.slot_of_once absent),
    Field.take_of_absent (Compound.slot_of_absent absent)]
  exact standard

theorem once_of_read (member : f ∈ s.fields) {a : s.Value}
    (read : s.read Json.reading (.object (before ++ (f.name, v) :: after)) = some a) :
    f.name ∉ (before ++ after).map Prod.fst ∧ ∃ b, f.kind.read Json.reading v = some b := by
  obtain ⟨i, found⟩ := List.mem_iff_getElem?.mp member
  obtain ⟨c, has, gives⟩ := s.read_eq_some_iff.mp read
  rw [Json.record_object] at has
  obtain rfl := Option.some.inj has
  have given := gives i f found
  by_cases again : f.name ∈ (before ++ after).map Prod.fst
  · rw [Field.take_of_twice (Compound.slot_of_twice again)] at given
    cases given
  · rw [Field.take_of_present (Compound.slot_of_once again)] at given
    exact ⟨again, _, given⟩

theorem read_item_congr {before after : List Json} (found : s.fields[before.length]? = some f)
    (alike : f.kind.read Json.reading v = f.kind.read Json.reading w) :
    s.read Json.reading (.array (before ++ v :: after)) =
      s.read Json.reading (.array (before ++ w :: after)) := by
  have same : (before ++ v :: after).length = (before ++ w :: after).length := by
    rw [List.length_append, List.length_append, List.length_cons, List.length_cons]
  rcases Nat.lt_or_ge s.fields.length (before ++ v :: after).length with long | fits
  · rw [read_eq_none (Json.record_array_of_long long),
      read_eq_none (Json.record_array_of_long (same ▸ long))]
  · refine read_congr (Json.record_array fits) (Json.record_array (same ▸ fits))
      fun i g found' => ?_
    by_cases here : i = before.length
    · subst here
      obtain rfl := Option.some.inj (found.symm.trans found')
      rw [Field.take_of_present (Compound.slot_here before after v),
        Field.take_of_present (Compound.slot_here before after w)]
      exact alike
    · exact Field.take_congr (Compound.slot_elsewhere here)

theorem item_of_read {before after : List Json}
    (found : s.fields[before.length]? = some f) {a : s.Value}
    (read : s.read Json.reading (.array (before ++ v :: after)) = some a) :
    ∃ b, f.kind.read Json.reading v = some b := by
  obtain ⟨c, has, gives⟩ := s.read_eq_some_iff.mp read
  rcases Nat.lt_or_ge s.fields.length (before ++ v :: after).length with long | fits
  · rw [Json.record_array_of_long long] at has
    cases has
  · rw [Json.record_array fits] at has
    obtain rfl := Option.some.inj has
    have given := gives before.length f found
    rw [Field.take_of_present (Compound.slot_here before after v)] at given
    exact ⟨_, given⟩

theorem read_empty (member : f ∈ s.fields) (part : f.kind = .part t) (optional : t ≠ .policy) :
    f.kind.read Json.reading (.object []) = f.standard := by
  cases s <;> simp only [fields, List.mem_cons, List.not_mem_nil, or_false] at member
  case whole => rcases member with rfl | rfl | rfl <;> rfl
  case token => rcases member with rfl | rfl <;> cases part
  case limits =>
    rcases member with rfl | rfl | rfl | rfl <;> cases part
    · exact absurd rfl optional
    · exact absurd rfl optional
  case policy => rcases member with rfl | rfl <;> cases part
  case remote =>
    rcases member with rfl | rfl | rfl | rfl | rfl | rfl | rfl | rfl | rfl | rfl <;> cases part
    rfl
  case sentinel => rcases member with rfl | rfl <;> cases part

end Section

namespace Place

variable {s u : Section} {fill : Json → Json} {v w : Json}

theorem read_congr (place : Place s u fill)
    (alike : u.read Json.reading v = u.read Json.reading w) :
    s.read Json.reading (fill v) = s.read Json.reading (fill w) := by
  induction place with
  | here => exact alike
  | member before after member part _ ih =>
      exact Section.read_member_congr member (Kind.read_congr_part part (ih alike))
  | item before after found part _ ih =>
      exact Section.read_item_congr found (Kind.read_congr_part part (ih alike))

theorem read_of_read (place : Place s u fill) {a : s.Value}
    (read : s.read Json.reading (fill v) = some a) :
    ∃ b, u.read Json.reading v = some b := by
  induction place with
  | here => exact ⟨a, read⟩
  | member before after member part _ ih =>
      obtain ⟨_, _, inner⟩ := Section.once_of_read member read
      obtain ⟨_, inner⟩ := Kind.part_of_read part inner
      exact ih inner
  | item before after found part _ ih =>
      obtain ⟨_, inner⟩ := Section.item_of_read found read
      obtain ⟨_, inner⟩ := Kind.part_of_read part inner
      exact ih inner

end Place

/-- Settings are read back as they were written, and they survive every edit that says nothing new.
    In any object that a section is read from, wherever it lies, members may be put in that name no
    field, and the members may stand in any order. A field may be left out if its standard value is
    said. Where a field is not there, it is as if its standard value were written; for a section
    other than a policy it is also as if that section were empty. -/
theorem Settings.read_back_despite_edits :
    (∀ settings : Settings, ofJson? settings.toJson = some settings) ∧
    ∀ (s : Section) (fill : Json → Json), Place .whole s fill →
    ∀ before after : List (String × Json),
      let left := ofJson? (fill (.object (before ++ after)))
      let put (name : String) (v : Json) := ofJson? (fill (.object (before ++ (name, v) :: after)))
      (∀ name v, name ∉ s.names → put name v = left) ∧
      (∀ members, members.Perm (before ++ after) → ofJson? (fill (.object members)) = left) ∧
      ∀ f ∈ s.fields, ∀ standard, f.standard = some standard →
        (∀ v settings, f.kind.read Json.reading v = some standard → put f.name v = some settings →
          left = some settings) ∧
        (f.name ∉ (before ++ after).map Prod.fst → left = put f.name (f.kind.write standard) ∧
          ∀ t, f.kind = .part t → t ≠ .policy → left = put f.name (.object [])) := by
  refine ⟨Section.whole.read_write, fun s fill place before after => ?_⟩
  refine ⟨fun name v unknown => place.read_congr (Section.read_unknown unknown),
    fun members perm => place.read_congr (Section.read_perm perm),
    fun f member standard is => ⟨?_, ?_⟩⟩
  · intro v settings said read
    obtain ⟨_, inner⟩ := place.read_of_read read
    obtain ⟨once, _⟩ := Section.once_of_read member inner
    have same := place.read_congr (Section.read_left_out member once (said.trans is.symm))
    exact same.symm.trans read
  · intro absent
    have written : f.kind.read Json.reading (f.kind.write standard) = some standard :=
      Kind.read_write (fun t _ => t.read_write) standard
    refine ⟨?_, fun t part optional => ?_⟩
    · exact (place.read_congr (Section.read_left_out member absent (written.trans is.symm))).symm
    · exact (place.read_congr
        (Section.read_left_out member absent (Section.read_empty member part optional))).symm

end LinkGuard
