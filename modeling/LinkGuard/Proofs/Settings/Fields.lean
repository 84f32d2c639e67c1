import LinkGuard.Proofs.Settings.Members

/-! # Sections as their fields

Settings come in sections, and a section is a record of fields: each has a name, a kind, and most
have a standard value. How a section is read is told here from the list of its fields alone. The
list is written out, so that the standard values of single fields and those of whole sections can be
compared.
-/

namespace LinkGuard

/-- The records that settings are made of. -/
inductive Section where
  | whole
  | token
  | limits
  | policy
  | remote
  | sentinel
deriving DecidableEq

/-- What a field holds. -/
inductive Kind where
  | text
  | credential
  | texts
  | backend
  | word16
  | word32
  | word64
  | part (s : Section)
deriving DecidableEq

@[reducible] def Section.Value : Section → Type
  | whole => Settings
  | token => TokenSettings
  | limits => LimitSettings
  | policy => PolicySettings
  | remote => RemoteSettings
  | sentinel => SentinelSettings

@[reducible] def Kind.Value : Kind → Type
  | text => String
  | credential => Option String
  | texts => List String
  | backend => Backend
  | word16 => UInt16
  | word32 => UInt32
  | word64 => UInt64
  | part s => s.Value

section

variable {ν : Type}

def Section.read (r : Reading ν) : (s : Section) → ν → Option s.Value
  | whole => r.settings
  | token => r.token
  | limits => r.limits
  | policy => r.policy
  | remote => r.remote
  | sentinel => r.sentinel

def Kind.read (r : Reading ν) : (k : Kind) → ν → Option k.Value
  | text => r.text
  | credential => r.text?
  | texts => r.texts
  | backend => r.backend
  | word16 => r.word16
  | word32 => r.word32
  | word64 => r.word64
  | part s => s.read r

end

/-- The section that a field of that kind holds. -/
def Kind.part? : Kind → Option Section
  | part s => some s
  | _ => none

structure Field (α : Type) where
  name : String
  kind : Kind
  /-- The value where nothing is said, if the field may be left out. -/
  standard : Option kind.Value
  get : α → kind.Value

/-- The fields of a section, in order. -/
def Section.fields : (s : Section) → List (Field s.Value)
  | whole =>
    [⟨"token", .part token, some {}, Settings.token⟩,
     ⟨"rate_limiting", .part limits, some {}, Settings.limits⟩,
     ⟨"redis", .part remote, some {}, Settings.remote⟩]
  | token =>
    [⟨"secret", .text, some "", TokenSettings.secret⟩,
     ⟨"link_ttl_secs", .word64, some 900, TokenSettings.linkTtl⟩]
  | limits =>
    [⟨"backend", .backend, some .memory, LimitSettings.backend⟩,
     ⟨"email", .part policy, some ⟨3, 1800⟩, LimitSettings.identity⟩,
     ⟨"ip", .part policy, some ⟨10, 1800⟩, LimitSettings.address⟩,
     ⟨"store_error_cooldown_secs", .word64, some 1800, LimitSettings.storeErrorCooldown⟩]
  | policy =>
    [⟨"limit", .word32, none, PolicySettings.limit⟩,
     ⟨"window_secs", .word64, some 1800, PolicySettings.window⟩]
  | remote =>
    [⟨"host", .text, some "127.0.0.1", RemoteSettings.host⟩,
     ⟨"port", .word16, some 6379, RemoteSettings.port⟩,
     ⟨"username", .credential, some none, RemoteSettings.username⟩,
     ⟨"password", .credential, some none, RemoteSettings.password⟩,
     ⟨"namespace", .text, some "verigate", RemoteSettings.space⟩,
     ⟨"command_timeout_ms", .word64, some 500, RemoteSettings.commandTimeout⟩,
     ⟨"reconnect_max_attempts", .word32, some 0, RemoteSettings.reconnectAttempts⟩,
     ⟨"reconnect_min_delay_ms", .word32, some 100, RemoteSettings.reconnectMinDelay⟩,
     ⟨"reconnect_max_delay_ms", .word32, some 30000, RemoteSettings.reconnectMaxDelay⟩,
     ⟨"sentinel", .part sentinel, some {}, RemoteSettings.sentinel⟩]
  | sentinel =>
    [⟨"hosts", .texts, some [], SentinelSettings.hosts⟩,
     ⟨"master_name", .text, some "mymaster", SentinelSettings.masterName⟩]

namespace Field

variable {ν α : Type} {r : Reading ν} {c c' : Compound ν} {place : Nat}

/-- What a record gives for the field in that place. -/
def take (f : Field α) (r : Reading ν) (c : Compound ν) (place : Nat) : Option f.kind.Value :=
  match f.standard with
  | some standard => c.defaulted place f.name standard (f.kind.read r)
  | none => c.required place f.name (f.kind.read r)

theorem take_of_present {f : Field α} {v : ν} (present : c.slot place f.name = some (some v)) :
    f.take r c place = f.kind.read r v := by
  cases has : f.standard with
  | none => simp only [take, has, Compound.required, present]
  | some standard => simp only [take, has, Compound.defaulted, present]

theorem take_of_absent {f : Field α} (absent : c.slot place f.name = some none) :
    f.take r c place = f.standard := by
  cases has : f.standard with
  | none => simp only [take, has, Compound.required, absent]
  | some standard => simp only [take, has, Compound.defaulted, absent]

theorem take_of_twice {f : Field α} (twice : c.slot place f.name = none) :
    f.take r c place = none := by
  cases has : f.standard with
  | none => simp only [take, has, Compound.required, twice]
  | some standard => simp only [take, has, Compound.defaulted, twice]

theorem take_congr {f : Field α} (alike : c.slot place f.name = c'.slot place f.name) :
    f.take r c place = f.take r c' place := by
  cases has : f.standard with
  | none => simp only [take, has, Compound.required, alike]
  | some standard => simp only [take, has, Compound.defaulted, alike]

/-- From that place on, a record gives what the fields of `a` are. -/
def Gives (r : Reading ν) (c : Compound ν) (a : α) : Nat → List (Field α) → Prop
  | _, [] => True
  | place, f :: rest => f.take r c place = some (f.get a) ∧ Gives r c a (place + 1) rest

theorem gives_iff {fields : List (Field α)} {a : α} :
    Gives r c a place fields ↔
      ∀ (i : Nat) (f : Field α), fields[i]? = some f → f.take r c (place + i) = some (f.get a) := by
  induction fields generalizing place with
  | nil => exact ⟨fun _ i f none => (Option.some_ne_none f none.symm).elim, fun _ => trivial⟩
  | cons first rest ih =>
      rw [Gives, ih]
      constructor
      · rintro ⟨here, later⟩ i f found
        cases i with
        | zero =>
            obtain rfl := Option.some.inj found
            exact here
        | succ i =>
            rw [← Nat.succ_add_eq_add_succ]
            exact later i f found
      · intro every
        refine ⟨every 0 first rfl, fun i f found => ?_⟩
        rw [Nat.succ_add_eq_add_succ]
        exact every (i + 1) f found

end Field

namespace Section

variable {ν : Type}

/-- A section is read field by field, and every field counts. -/
theorem read_eq_some_iff (s : Section) {r : Reading ν} {v : ν} {a : s.Value} :
    s.read r v = some a ↔ ∃ c, r.record s.fields.length v = some c ∧
      ∀ (i : Nat) (f : Field s.Value), s.fields[i]? = some f → f.take r c i = some (f.get a) := by
  have places : ∀ c,
      (∀ (i : Nat) (f : Field s.Value), s.fields[i]? = some f →
        f.take r c i = some (f.get a)) ↔ Field.Gives r c a 0 s.fields := by
    intro c
    simp only [Field.gives_iff, Nat.zero_add]
  simp only [places]
  cases s with
  | whole =>
      simp only [read, Reading.settings, bind, Option.bind_eq_some_iff, pure, Option.some.injEq]
      constructor
      · rintro ⟨c, has, _, h₀, _, h₁, _, h₂, rfl⟩
        exact ⟨c, has, h₀, h₁, h₂, trivial⟩
      · rintro ⟨c, has, h₀, h₁, h₂, _⟩
        exact ⟨c, has, _, h₀, _, h₁, _, h₂, rfl⟩
  | token =>
      simp only [read, Reading.token, bind, Option.bind_eq_some_iff, pure, Option.some.injEq]
      constructor
      · rintro ⟨c, has, _, h₀, _, h₁, rfl⟩
        exact ⟨c, has, h₀, h₁, trivial⟩
      · rintro ⟨c, has, h₀, h₁, _⟩
        exact ⟨c, has, _, h₀, _, h₁, rfl⟩
  | limits =>
      simp only [read, Reading.limits, bind, Option.bind_eq_some_iff, pure, Option.some.injEq]
      constructor
      · rintro ⟨c, has, _, h₀, _, h₁, _, h₂, _, h₃, rfl⟩
        exact ⟨c, has, h₀, h₁, h₂, h₃, trivial⟩
      · rintro ⟨c, has, h₀, h₁, h₂, h₃, _⟩
        exact ⟨c, has, _, h₀, _, h₁, _, h₂, _, h₃, rfl⟩
  | policy =>
      simp only [read, Reading.policy, bind, Option.bind_eq_some_iff, pure, Option.some.injEq]
      constructor
      · rintro ⟨c, has, _, h₀, _, h₁, rfl⟩
        exact ⟨c, has, h₀, h₁, trivial⟩
      · rintro ⟨c, has, h₀, h₁, _⟩
        exact ⟨c, has, _, h₀, _, h₁, rfl⟩
  | remote =>
      simp only [read, Reading.remote, bind, Option.bind_eq_some_iff, pure, Option.some.injEq]
      constructor
      · rintro ⟨c, has, _, h₀, _, h₁, _, h₂, _, h₃, _, h₄, _, h₅, _, h₆, _, h₇, _, h₈, _, h₉, rfl⟩
        exact ⟨c, has, h₀, h₁, h₂, h₃, h₄, h₅, h₆, h₇, h₈, h₉, trivial⟩
      · rintro ⟨c, has, h₀, h₁, h₂, h₃, h₄, h₅, h₆, h₇, h₈, h₉, _⟩
        exact ⟨c, has, _, h₀, _, h₁, _, h₂, _, h₃, _, h₄, _, h₅, _, h₆, _, h₇, _, h₈, _, h₉, rfl⟩
  | sentinel =>
      simp only [read, Reading.sentinel, bind, Option.bind_eq_some_iff, pure, Option.some.injEq]
      constructor
      · rintro ⟨c, has, _, h₀, _, h₁, rfl⟩
        exact ⟨c, has, h₀, h₁, trivial⟩
      · rintro ⟨c, has, h₀, h₁, _⟩
        exact ⟨c, has, _, h₀, _, h₁, rfl⟩

theorem read_eq_none {s : Section} {r : Reading ν} {v : ν}
    (none : r.record s.fields.length v = none) : s.read r v = .none := by
  refine Option.eq_none_iff_forall_ne_some.mpr fun a read => ?_
  obtain ⟨c, has, _⟩ := s.read_eq_some_iff.mp read
  rw [none] at has
  cases has

theorem read_congr {s : Section} {r : Reading ν} {v v' : ν} {c c' : Compound ν}
    (has : r.record s.fields.length v = some c) (has' : r.record s.fields.length v' = some c')
    (alike : ∀ (i : Nat) (f : Field s.Value), s.fields[i]? = some f →
      f.take r c i = f.take r c' i) :
    s.read r v = s.read r v' := by
  ext a
  rw [s.read_eq_some_iff, s.read_eq_some_iff, has, has']
  constructor
  · rintro ⟨_, same, gives⟩
    obtain rfl := Option.some.inj same
    exact ⟨c', rfl, fun i f found => (alike i f found).symm.trans (gives i f found)⟩
  · rintro ⟨_, same, gives⟩
    obtain rfl := Option.some.inj same
    exact ⟨c, rfl, fun i f found => (alike i f found).trans (gives i f found)⟩

def names (s : Section) : List String := s.fields.map Field.name

theorem names_distinct (s : Section) : s.names.Nodup := by
  cases s <;> decide

theorem eq_of_name {s : Section} {i j : Nat} {f g : Field s.Value} (found : s.fields[i]? = some f)
    (found' : s.fields[j]? = some g) (same : f.name = g.name) : i = j ∧ f = g := by
  have named : s.names[i]? = some f.name := by rw [names, List.getElem?_map, found, Option.map_some]
  have named' : s.names[j]? = some g.name := by
    rw [names, List.getElem?_map, found', Option.map_some]
  obtain ⟨inside, _⟩ := List.getElem?_eq_some_iff.mp named
  have together : s.names[i]? = s.names[j]? := by rw [named, named', same]
  obtain rfl := (List.getElem?_inj inside s.names_distinct).mp together
  exact ⟨rfl, Option.some.inj (found.symm.trans found')⟩

/-- The sections that the fields of a section hold. -/
def parts (s : Section) : List Section := s.fields.filterMap fun f => f.kind.part?

theorem mem_parts {s t : Section} {f : Field s.Value} (member : f ∈ s.fields)
    (part : f.kind = .part t) : t ∈ s.parts := by
  refine List.mem_filterMap.mpr ⟨f, member, ?_⟩
  rw [part, Kind.part?]

def depth : Section → Nat
  | whole => 2
  | limits | remote => 1
  | token | policy | sentinel => 0

theorem depth_lt_of_mem_parts {s t : Section} (member : t ∈ s.parts) : t.depth < s.depth := by
  revert t
  cases s <;> decide

/-- What holds of a section as soon as it holds of the sections in its fields, holds of every
    section. -/
theorem induct_parts {P : Section → Prop} (step : ∀ s, (∀ t ∈ s.parts, P t) → P s) (s : Section) :
    P s :=
  step s fun t _ => induct_parts step t
termination_by s.depth
decreasing_by exact depth_lt_of_mem_parts ‹_›

end Section

end LinkGuard
