import Mathlib.Data.List.Nodup
import LinkGuard.Proofs.Settings.Fields
import LinkGuard.Settings.Json

/-! # Settings written and read back

Each section is written as the table of its fields in order, and each kind of field is read as it
was written. A section is so too as soon as the sections in it are.
-/

namespace LinkGuard

def Section.write : (s : Section) → s.Value → Json
  | whole => Settings.toJson
  | token => TokenSettings.toJson
  | limits => LimitSettings.toJson
  | policy => PolicySettings.toJson
  | remote => RemoteSettings.toJson
  | sentinel => SentinelSettings.toJson

def Kind.write : (k : Kind) → k.Value → Json
  | text => .text
  | credential => .ofText?
  | texts => fun hosts => .array (hosts.map .text)
  | backend => fun b => .text b.name
  | word16 => fun n => .integer n.toNat
  | word32 => fun n => .integer n.toNat
  | word64 => fun n => .integer n.toNat
  | part s => s.write

namespace Json

theorem texts?_array (hosts : List String) : texts? (.array (hosts.map .text)) = some hosts := by
  rw [texts?]
  induction hosts with
  | nil => rfl
  | cons host rest ih => simp only [List.map_cons, List.mapM_cons, ih, text?]; rfl

theorem below?_integer {bound n : Nat} (small : n < bound) :
    below? bound (.integer n) = some n :=
  if_pos small

theorem record_object (size : Nat) (members : List (String × Json)) :
    reading.record size (.object members) = some (.table members) := rfl

theorem record_array {size : Nat} {items : List Json} (fits : items.length ≤ size) :
    reading.record size (.array items) = some (.row items) := by
  have inside : ¬ size < items.length := Nat.not_lt.mpr fits
  simp [Reading.record, reading, compound, inside]

theorem record_array_of_long {size : Nat} {items : List Json} (long : size < items.length) :
    reading.record size (.array items) = none := by
  simp [Reading.record, reading, compound, long]

end Json

namespace Kind

theorem read_write {k : Kind}
    (parts : ∀ s, k = .part s → ∀ a : s.Value, s.read Json.reading (s.write a) = some a)
    (a : k.Value) : k.read Json.reading (k.write a) = some a := by
  cases k with
  | text => rfl
  | credential => cases a <;> rfl
  | texts => exact Json.texts?_array a
  | backend => cases a <;> rfl
  | word16 =>
      have small : a.toNat < UInt16.size := a.toNat_lt
      simp only [read, write, Reading.word16, Json.reading, Json.below?_integer small,
        Option.map_some, UInt16.ofNat_toNat]
  | word32 =>
      have small : a.toNat < UInt32.size := a.toNat_lt
      simp only [read, write, Reading.word32, Json.reading, Json.below?_integer small,
        Option.map_some, UInt32.ofNat_toNat]
  | word64 =>
      have small : a.toNat < UInt64.size := a.toNat_lt
      simp only [read, write, Reading.word64, Json.reading, Json.below?_integer small,
        Option.map_some, UInt64.ofNat_toNat]
  | part s => exact parts s rfl a

end Kind

namespace Section

/-- The members that a section is written as. -/
def members (s : Section) (a : s.Value) : List (String × Json) :=
  s.fields.map fun f => (f.name, f.kind.write (f.get a))

theorem write_eq (s : Section) (a : s.Value) : s.write a = .object (s.members a) := by
  cases s <;> rfl

theorem slot_members {s : Section} {i : Nat} {f : Field s.Value}
    (found : s.fields[i]? = some f) (a : s.Value) (place : Nat) :
    (Compound.table (s.members a)).slot place f.name =
      some (some (f.kind.write (f.get a))) := by
  obtain ⟨before, after, split⟩ := List.append_of_mem (List.mem_of_getElem? found)
  have distinct := s.names_distinct
  rw [names, split, List.map_append, List.map_cons, List.nodup_middle, List.nodup_cons,
    ← List.map_append] at distinct
  rw [members, split, List.map_append, List.map_cons]
  refine Compound.slot_of_once fun again => distinct.1 ?_
  rw [← List.map_append, List.map_map] at again
  exact again

theorem read_write (s : Section) : ∀ a : s.Value, s.read Json.reading (s.write a) = some a := by
  induction s using induct_parts with
  | step s parts =>
      intro a
      refine s.read_eq_some_iff.mpr ⟨.table (s.members a), ?_, fun i f found => ?_⟩
      · rw [write_eq, Json.record_object]
      · rw [Field.take_of_present (slot_members found a i)]
        exact Kind.read_write
          (fun t part => parts t (mem_parts (List.mem_of_getElem? found) part)) _

end Section

end LinkGuard
