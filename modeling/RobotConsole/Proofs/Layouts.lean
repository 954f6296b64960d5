import Mathlib.Data.List.Forall2
import Mathlib.Data.List.Pairwise
import RobotConsole.Report.Schema

/-!
# Layouts of records

A layout says what a record is to be read from, without a reader: its slots, and for each slot the
names it goes by, what the values under these names say, and what it is when nothing is said.  A
value says a record if it is an object that has at most one member for each slot, or an array of
values for the first slots, and if every slot of the record is what is said about it.  A schema
whose fields fill the slots of a layout one by one accepts exactly the values that say a record, and
comes to the record that they say.
-/

set_option autoImplicit false

namespace RobotConsole.Report

/-! ## Values and what they say -/

/-- Which values are of some kind, and what each of them says. -/
abbrev Meaning (Value : Type) := Json → Value → Prop

def IsText : Meaning String := fun value text => value = .string text

def IsWhole (low high : Int) : Meaning Int :=
  fun value number => value = .integer number ∧ low ≤ number ∧ number ≤ high

def IsLong : Meaning Int := IsWhole (-0x8000000000000000) 0x7FFFFFFFFFFFFFFF

def IsCount : Meaning Nat := fun value count => IsWhole 0 0xFFFFFFFF value count

section Kinds

variable {Value : Type}

def OrNull (means : Meaning Value) : Meaning (Option Value)
  | value, none => value = .null
  | value, some found => means value found

def ListOf (means : Meaning Value) : Meaning (List Value) := fun value found =>
  ∃ items, value = .array items ∧ List.Forall₂ means items found

/-- A reader accepts the values of a kind, and reads what they say. -/
def Fit.Reads (fit : Fit Value) (means : Meaning Value) : Prop :=
  ∀ value found, fit value = .ok found ↔ means value found

theorem reads_text : Fit.Reads fitText IsText := by
  intro value found
  cases value <;> simp [fitText, wrongType, IsText]

theorem reads_integer (expected : String) (low high : Int) :
    Fit.Reads (fitInteger expected low high) (IsWhole low high) := by
  intro value found
  cases value with
  | integer number =>
      simp only [fitInteger, IsWhole, Json.integer.injEq]
      by_cases within : low ≤ number ∧ number ≤ high
      · rw [if_pos within, Except.ok.injEq]
        exact ⟨fun same => ⟨same, same ▸ within⟩, And.left⟩
      · rw [if_neg within]
        refine ⟨nofun, ?_⟩
        rintro ⟨rfl, inside⟩
        exact absurd inside within
  | null | boolean _ | double _ | string _ | array _ | object _ =>
      simp [fitInteger, wrongType, IsWhole]

theorem reads_long : Fit.Reads fitLong IsLong := reads_integer _ _ _

theorem reads_count : Fit.Reads fitCount IsCount := by
  intro value found
  have whole (number : Int) := reads_integer "u32" 0 0xFFFFFFFF value number
  unfold fitCount
  cases read : fitInteger "u32" 0 0xFFFFFFFF value with
  | error misfit =>
      refine ⟨nofun, ?_⟩
      intro means
      cases read.symm.trans ((whole found).mpr means)
  | ok number =>
      have means := (whole number).mp read
      rw [Except.ok.injEq]
      constructor
      · rintro rfl
        rwa [IsCount, Int.toNat_of_nonneg means.2.1]
      · intro again
        have same : Json.integer number = .integer found := means.1.symm.trans again.1
        cases same
        rfl

/-- Null is read first, so it must not say anything else. -/
theorem reads_optional {fit : Fit Value} {means : Meaning Value} (reads : fit.Reads means)
    (solid : ∀ found, ¬ means .null found) : Fit.Reads (fitOptional fit) (OrNull means) := by
  intro value found
  by_cases null : value = .null
  · cases null
    cases found with
    | none => simp [fitOptional, OrNull]
    | some inner => simp [fitOptional, OrNull, solid inner]
  · have skipped : fitOptional fit value = (fit value).map some := by
      cases value with
      | null => exact absurd rfl null
      | boolean _ | integer _ | double _ | string _ | array _ | object _ =>
          simp only [fitOptional]
          cases fit _ <;> rfl
    have inner (found : Value) := reads value found
    rw [skipped]
    cases read : fit value with
    | error misfit => cases found <;> simp [OrNull, null, ← inner, read, Except.map]
    | ok held => cases found <;> simp [OrNull, null, ← inner, read, Except.map]

theorem fitItems_eq_ok_iff {fit : Fit Value} {means : Meaning Value} (reads : fit.Reads means)
    (items : List Json)
    (found : List Value) : fitItems fit items = .ok found ↔ List.Forall₂ means items found := by
  induction items generalizing found with
  | nil => cases found <;> simp [fitItems]
  | cons item rest ih =>
      have first (held : Value) := reads item held
      simp only [fitItems]
      cases found with
      | nil =>
          cases fit item with
          | error misfit => simp
          | ok held => cases fitItems fit rest <;> simp
      | cons held others =>
          rw [List.forall₂_cons, ← ih, ← first]
          cases fit item with
          | error misfit => simp
          | ok _ => cases fitItems fit rest <;> simp

theorem reads_list {fit : Fit Value} {means : Meaning Value} (reads : fit.Reads means) :
    Fit.Reads (fitList fit) (ListOf means) := by
  intro value found
  cases value with
  | array items => simp [fitList, ListOf, fitItems_eq_ok_iff reads]
  | null | boolean _ | integer _ | double _ | string _ | object _ =>
      simp [fitList, wrongType, ListOf]

end Kinds

/-! ## Slots -/

structure Slot (Record : Type) where
  name : String
  /-- Other names that it goes by. -/
  aliases : List String
  Value : Type
  Means : Meaning Value
  /-- What it is when nothing is said about it. -/
  absent : Value
  get : Record → Value

namespace Slot

variable {Record : Type} (slot : Slot Record)

def names : List String :=
  slot.name :: slot.aliases

def valuesIn (members : List (String × Json)) : List Json :=
  (members.filter fun member => decide (member.1 ∈ slot.names)).map Prod.snd

/-- One value may be given for a slot that was `before`; if none is, the slot stays as it was. -/
def Takes (before : slot.Value) : List Json → slot.Value → Prop
  | [], after => after = before
  | [value], after => slot.Means value after
  | _ :: _ :: _, _ => False

/-- What is said about a slot by the values that are given for it. -/
def Told (values : List Json) (found : slot.Value) : Prop :=
  slot.Takes slot.absent values found

@[simp]
theorem valuesIn_nil : slot.valuesIn [] = [] := rfl

theorem valuesIn_cons_of_mem {key : String} (named : key ∈ slot.names) (value : Json)
    (rest : List (String × Json)) :
    slot.valuesIn ((key, value) :: rest) = value :: slot.valuesIn rest := by
  simp [valuesIn, named]

theorem valuesIn_cons_of_not_mem {key : String} (foreign : key ∉ slot.names) (value : Json)
    (rest : List (String × Json)) : slot.valuesIn ((key, value) :: rest) = slot.valuesIn rest := by
  simp [valuesIn, foreign]

end Slot

abbrev Layout (Record : Type) := List (Slot Record)

namespace Layout

variable {Record : Type} (layout : Layout Record)

/-- A value that says a record. -/
inductive Tells : Meaning Record
  | object {members : List (String × Json)} {record : Record}
      (told : ∀ slot ∈ layout, slot.Told (slot.valuesIn members) (slot.get record)) :
        Tells (.object members) record
  | array {values : List Json} {record : Record} (short : values.length ≤ layout.length)
      (told : ∀ (place : Nat) (slot : Slot Record), layout[place]? = some slot →
        slot.Told values[place]?.toList (slot.get record)) : Tells (.array values) record

theorem tells_object_iff (members : List (String × Json)) (record : Record) :
    layout.Tells (.object members) record ↔ ∀ slot ∈ layout,
      slot.Told (slot.valuesIn members) (slot.get record) := by
  refine ⟨?_, .object⟩
  rintro ⟨told⟩
  exact told

theorem tells_array_iff (values : List Json) (record : Record) :
    layout.Tells (.array values) record ↔ values.length ≤ layout.length ∧
      ∀ (place : Nat) (slot : Slot Record), layout[place]? = some slot →
        slot.Told values[place]?.toList (slot.get record) := by
  refine ⟨?_, fun ⟨short, told⟩ => .array short told⟩
  rintro (_ | ⟨short, told⟩)
  exact ⟨short, told⟩

theorem forall_mem_iff_getElem? {holds : Slot Record → Prop} :
    (∀ slot ∈ layout, holds slot) ↔ ∀ (place : Nat) slot, layout[place]? = some slot →
      holds slot := by
  simp only [List.mem_iff_getElem?]
  constructor
  · exact fun all place slot found => all slot ⟨place, found⟩
  · rintro all slot ⟨place, found⟩
    exact all place slot found

/-- The slots of a record are independent of each other, they are all there is to it, and they share
no names. -/
structure Covers : Prop where
  compose : ∀ found : (slot : Slot Record) → slot.Value, ∃ record, ∀ slot ∈ layout,
    slot.get record = found slot
  ext : ∀ one other : Record, (∀ slot ∈ layout, slot.get one = slot.get other) → one = other
  apart : layout.Pairwise fun one other => ∀ key ∈ one.names, key ∉ other.names

variable {layout}

theorem Covers.eq_of_mem (covers : layout.Covers) {one other : Slot Record} (first : one ∈ layout)
    (second : other ∈ layout) {key : String} (named : key ∈ one.names)
    (namedToo : key ∈ other.names) : one = other := by
  by_contra different
  have : Std.Symm fun one other : Slot Record => ∀ key ∈ one.names, key ∉ other.names :=
    ⟨fun _ _ apart key back front => apart key front back⟩
  exact covers.apart.forall first second different key named namedToo

theorem Covers.eq_of_name (covers : layout.Covers) {one other : Slot Record} (first : one ∈ layout)
    (second : other ∈ layout) (same : one.name = other.name) : one = other :=
  covers.eq_of_mem first second List.mem_cons_self (same ▸ List.mem_cons_self)

theorem Covers.nodup (covers : layout.Covers) : layout.Nodup := by
  apply covers.apart.imp
  rintro one other apart rfl
  exact apart one.name List.mem_cons_self List.mem_cons_self

theorem Covers.eq_iff (covers : layout.Covers) {one other : Record} :
    one = other ↔ ∀ slot ∈ layout, slot.get other = slot.get one := by
  constructor
  · rintro rfl
    exact fun _ _ => rfl
  · exact fun same => covers.ext _ _ fun slot inside => (same slot inside).symm

/-- Records may be chosen slot by slot. -/
theorem Covers.exists_record (covers : layout.Covers)
    {told : (slot : Slot Record) → slot.Value → Prop}
    (each : ∀ slot ∈ layout, ∃ found, told slot found) : ∃ record, ∀ slot ∈ layout,
      told slot (slot.get record) := by
  classical
  obtain ⟨record, composed⟩ := covers.compose fun slot =>
    if inside : slot ∈ layout then (each slot inside).choose else slot.absent
  refine ⟨record, ?_⟩
  intro slot inside
  rw [composed slot inside, dif_pos inside]
  exact (each slot inside).choose_spec

end Layout

/-! ## Fields that fill slots -/

section Fields

variable {Record : Type} {layout : Layout Record}

structure Field.Fills (layout : Layout Record) (field : Field Record) (slot : Slot Record) :
    Prop where
  name : field.name = slot.name
  named : ∀ key, field.isNamed key = true ↔ key ∈ slot.names
  fill : ∀ value record filled, field.fill value record = .ok filled ↔
    slot.Means value (slot.get filled) ∧ ∀ other ∈ layout, other.name ≠ slot.name →
      other.get filled = other.get record

theorem Field.fills_of (covers : layout.Covers) {name : String} {aliases : List String}
    {Value : Type} {fit : Fit Value}
    {means : Meaning Value} {absent : Value} {get : Record → Value} {put : Value → Record → Record}
    (reads : fit.Reads means) (get_put : ∀ value record, get (put value record) = value)
    (others : ∀ other ∈ layout, other.name ≠ name → ∀ value record,
      other.get (put value record) = other.get record)
    (inside : ⟨name, aliases, Value, means, absent, get⟩ ∈ layout) :
    Field.Fills layout (.of name fit put aliases) ⟨name, aliases, Value, means, absent, get⟩ where
  name := rfl
  named key := by simp [isNamed, Field.of, Slot.names]
  fill value record filled := by
    change _ ↔ means value (get filled) ∧ ∀ other ∈ layout, other.name ≠ name →
        other.get filled = other.get record
    rw [← reads]
    simp only [Field.of]
    cases fit value with
    | error misfit => simp
    | ok found =>
        simp only [Except.ok.injEq]
        constructor
        · rintro rfl
          exact ⟨(get_put found record).symm,
            fun other member apart => others other member apart found record⟩
        · rintro ⟨rfl, kept⟩
          apply covers.ext
          intro other member
          by_cases same : other.name = name
          · obtain rfl := covers.eq_of_name member inside same
            exact get_put _ _
          · rw [others other member same, kept other member same]

/-- Filling a slot can be followed by what `next` asks of every slot if `wanted` holds of every
slot, where for the slot that is filled this speaks of what the value means, and for the others of
what they hold already. -/
theorem Field.Fills.exists_fill_iff (covers : layout.Covers) {field : Field Record}
    {slot : Slot Record}
    (fills : field.Fills layout slot) (inside : slot ∈ layout) {value : Json} {record : Record}
    (next : (slot : Slot Record) → slot.Value → Prop) {wanted : Slot Record → Prop}
    (own : wanted slot ↔ ∃ found, slot.Means value found ∧ next slot found)
    (others : ∀ other ∈ layout, other.name ≠ slot.name →
      (wanted other ↔ next other (other.get record))) :
    (∃ filled, field.fill value record = .ok filled ∧ ∀ other ∈ layout,
      next other (other.get filled)) ↔
      ∀ other ∈ layout, wanted other := by
  constructor
  · rintro ⟨filled, done, onward⟩ other member
    obtain ⟨means, kept⟩ := (fills.fill value record filled).mp done
    by_cases same : other.name = slot.name
    · obtain rfl := covers.eq_of_name member inside same
      exact own.mpr ⟨_, means, onward other member⟩
    · rw [others other member same, ← kept other member same]
      exact onward other member
  · intro all
    have each : ∀ other ∈ layout, ∃ held : other.Value,
        next other held ∧ (other.name = slot.name → other.Means value held) ∧
          (other.name ≠ slot.name → held = other.get record) := by
      intro other member
      by_cases same : other.name = slot.name
      · obtain rfl := covers.eq_of_name member inside same
        obtain ⟨found, means, onward⟩ := own.mp (all other member)
        exact ⟨found, onward, fun _ => means, fun different => absurd rfl different⟩
      · exact ⟨other.get record, (others other member same).mp (all other member),
          fun other => absurd other same, fun _ => rfl⟩
    obtain ⟨filled, chosen⟩ := covers.exists_record each
    refine ⟨filled, (fills.fill value record filled).mpr ⟨?_, ?_⟩,
      fun other member => (chosen other member).1⟩
    · exact (chosen slot inside).2.1 rfl
    · exact fun other member => (chosen other member).2.2

end Fields

/-! ## Schemas that follow a layout -/

namespace Slot

variable {Record : Type} (slot : Slot Record)

def TakesOnce (filled : List String) (before : slot.Value) (values : List Json)
    (after : slot.Value) : Prop :=
  if slot.name ∈ filled then values = [] ∧ after = before else slot.Takes before values after

variable {slot}

theorem takesOnce_cons_iff {filled : List String} (fresh : slot.name ∉ filled) (value : Json)
    (rest : List Json) (before after : slot.Value) :
    slot.TakesOnce filled before (value :: rest) after ↔
      ∃ found, slot.Means value found ∧ slot.TakesOnce (slot.name :: filled) found rest after := by
  simp only [TakesOnce, if_neg fresh, if_pos List.mem_cons_self]
  cases rest with
  | nil => simp [Takes]
  | cons next others => simp [Takes]

theorem takesOnce_cons_of_ne {name : String} (other : slot.name ≠ name) (filled : List String)
    (before : slot.Value) (values : List Json) (after : slot.Value) :
    slot.TakesOnce (name :: filled) before values after ↔
      slot.TakesOnce filled before values after := by
  simp [TakesOnce, other]

end Slot

namespace Schema

variable {Record : Type} {schema : Schema Record} {layout : Layout Record}

/-- The fields of a schema fill the slots of a layout one by one, from a record on in which nothing
has been told. -/
structure Follows (schema : Schema Record) (layout : Layout Record) : Prop where
  covers : layout.Covers
  fills : List.Forall₂ (Field.Fills layout) schema.fields layout
  absent : ∀ slot ∈ layout, slot.get schema.default = slot.absent

/-- A key names no slot, or there is a field for the slot that it names. -/
theorem find?_cases {fields : List (Field Record)} {slots : Layout Record}
    (fills : List.Forall₂ (Field.Fills layout) fields slots) (key : String) :
    (fields.find? (fun field => field.isNamed key) = none ∧ ∀ slot ∈ slots, key ∉ slot.names) ∨
      ∃ field slot, fields.find? (fun field => field.isNamed key) = some field ∧ slot ∈ slots ∧
        field.Fills layout slot ∧ key ∈ slot.names := by
  induction fills with
  | nil => exact Or.inl ⟨rfl, nofun⟩
  | @cons field slot fields slots first rest ih =>
      by_cases named : key ∈ slot.names
      · exact Or.inr ⟨field, slot, List.find?_cons_of_pos ((first.named key).mpr named),
          List.mem_cons_self, first, named⟩
      · have skipped : ¬ field.isNamed key = true := fun same => named ((first.named key).mp same)
        have next : (field :: fields).find? (fun field => field.isNamed key) = fields.find? _ :=
          List.find?_cons_of_neg skipped
        rw [next]
        rcases ih with ⟨unknown, foreign⟩ | ⟨found, owner, known, inside, fills, within⟩
        · exact Or.inl ⟨unknown, List.forall_mem_cons.mpr ⟨named, foreign⟩⟩
        · exact Or.inr ⟨found, owner, known, List.mem_cons_of_mem _ inside, fills, within⟩

section Members

variable {key : String} {field : Field Record} {filled : List String} {value : Json}
    {rest : List (String × Json)}
  {record : Record}

theorem fillMembers_foreign (unknown : schema.field? key = none) :
    fillMembers schema filled ((key, value) :: rest) record =
      fillMembers schema filled rest record := by
  simp only [fillMembers, unknown]

theorem fillMembers_repeated (known : schema.field? key = some field)
    (again : field.name ∈ filled) :
    fillMembers schema filled ((key, value) :: rest) record = .error (.repeated field.name) := by
  simp only [fillMembers, known, List.contains_iff_mem.mpr again, if_true]

theorem fillMembers_fresh_iff (known : schema.field? key = some field) (fresh : field.name ∉ filled)
    {final : Record} :
    fillMembers schema filled ((key, value) :: rest) record = .ok final ↔
      ∃ middle, field.fill value record = .ok middle ∧
        fillMembers schema (field.name :: filled) rest middle = .ok final := by
  have skipped : ¬ filled.contains field.name = true :=
    fun again => fresh (List.contains_iff_mem.mp again)
  simp only [fillMembers, known, if_neg skipped]
  cases field.fill value record <;> simp

end Members

/-- The members of an object are taken if every slot takes the values under its names. -/
theorem Follows.fillMembers_eq_ok_iff (follows : schema.Follows layout)
    (members : List (String × Json)) (filled : List String) (record final : Record) :
    fillMembers schema filled members record = .ok final ↔
      ∀ slot ∈ layout, slot.TakesOnce filled (slot.get record) (slot.valuesIn members)
        (slot.get final) := by
  induction members generalizing filled record with
  | nil =>
      simp only [fillMembers, Except.ok.injEq, Slot.valuesIn_nil, Slot.TakesOnce, Slot.Takes,
        true_and, ite_self]
      exact follows.covers.eq_iff
  | cons member rest ih =>
      obtain ⟨key, value⟩ := member
      rcases find?_cases follows.fills key with ⟨unknown, foreign⟩ | ⟨field, slot, known, inside,
        fills, named⟩
      · rw [fillMembers_foreign unknown]
        refine (ih filled record).trans (forall₂_congr ?_)
        intro slot inside
        rw [slot.valuesIn_cons_of_not_mem (foreign slot inside)]
      · by_cases again : slot.name ∈ filled
        · -- the slot has been filled before
          have taken : field.name ∈ filled := fills.name.symm ▸ again
          rw [fillMembers_repeated known taken]
          refine ⟨nofun, ?_⟩
          intro told
          have empty := told slot inside
          rw [Slot.TakesOnce, if_pos again, slot.valuesIn_cons_of_mem named] at empty
          exact absurd empty.1 (List.cons_ne_nil _ _)
        · rw [fillMembers_fresh_iff known (fills.name.symm ▸ again)]
          simp only [ih, fills.name]
          apply fills.exists_fill_iff follows.covers inside fun other held =>
            other.TakesOnce (slot.name :: filled) held (other.valuesIn rest) (other.get final)
          · rw [slot.valuesIn_cons_of_mem named, Slot.takesOnce_cons_iff again]
          · intro other member different
            have foreign : key ∉ other.names := fun within =>
              different (congrArg Slot.name (follows.covers.eq_of_mem member inside within named))
            rw [Slot.takesOnce_cons_of_ne different, other.valuesIn_cons_of_not_mem foreign]

/-! ### Arrays -/

theorem valuesIn_zip_eq_nil {slot : Slot Record} {slots : Layout Record}
    (foreign : ∀ other ∈ slots, other.name ∉ slot.names) (values : List Json) :
    slot.valuesIn ((slots.map Slot.name).zip values) = [] := by
  rw [Slot.valuesIn, List.map_eq_nil_iff, List.filter_eq_nil_iff]
  rintro ⟨key, value⟩ paired
  obtain ⟨other, inside, rfl⟩ := List.mem_map.mp (List.of_mem_zip paired).1
  simpa using foreign other inside

/-- The value in the place of a slot is all that is given for it. -/
theorem valuesIn_zip {slots : Layout Record}
    (apart : slots.Pairwise fun one other => ∀ key ∈ one.names, key ∉ other.names)
    (values : List Json) {place : Nat} {slot : Slot Record} (found : slots[place]? = some slot) :
    slot.valuesIn ((slots.map Slot.name).zip values) = values[place]?.toList := by
  induction slots generalizing values place with
  | nil => cases found
  | cons first slots ih =>
      obtain ⟨own, others⟩ := List.pairwise_cons.mp apart
      cases values with
      | nil => simp
      | cons value rest =>
          rw [List.map_cons, List.zip_cons_cons]
          cases place with
          | zero =>
              obtain rfl : first = slot := by simpa using found
              have foreign : ∀ other ∈ slots, other.name ∉ first.names := fun other inside within =>
                own other inside _ within List.mem_cons_self
              rw [first.valuesIn_cons_of_mem List.mem_cons_self, valuesIn_zip_eq_nil foreign]
              rfl
          | succ place =>
              have inside : slot ∈ slots := List.mem_of_getElem? found
              rw [slot.valuesIn_cons_of_not_mem (own slot inside _ List.mem_cons_self),
                ih others rest found]
              rfl

/-- An array is taken as an object in which the slots have its values in turn. -/
theorem fillItems_eq_ok_iff (covers : layout.Covers) (length : Nat) {fields : List (Field Record)}
    {slots : Layout Record}
    (fills : List.Forall₂ (Field.Fills layout) fields slots) (within : slots ⊆ layout)
    (apart : slots.Pairwise fun one other => ∀ key ∈ one.names, key ∉ other.names)
    (values : List Json)
    (record final : Record) :
    fillItems length fields values record = .ok final ↔
      values.length ≤ slots.length ∧
        ∀ slot ∈ layout, slot.Takes (slot.get record)
          (slot.valuesIn ((slots.map Slot.name).zip values)) (slot.get final) := by
  induction fills generalizing values record with
  | nil => cases values <;> simp [fillItems, Slot.Takes, covers.eq_iff]
  | @cons field slot fields slots first rest ih =>
      cases values with
      | nil => simp [fillItems, Slot.Takes, covers.eq_iff]
      | cons value values =>
          obtain ⟨inside, within⟩ := List.cons_subset.mp within
          obtain ⟨own, apart⟩ := List.pairwise_cons.mp apart
          have step : fillItems length (field :: fields) (value :: values) record = .ok final ↔
              ∃ middle, field.fill value record = .ok middle ∧
                fillItems length fields values middle = .ok final := by
            simp only [fillItems]
            cases field.fill value record <;> simp
          have foreign : ∀ other ∈ slots, other.name ∉ slot.names := fun other inside named =>
            own other inside _ named List.mem_cons_self
          rw [step]
          simp only [ih within apart, and_left_comm, exists_and_left, List.length_cons,
            Nat.add_le_add_iff_right]
          apply and_congr_right
          intro _
          apply first.exists_fill_iff covers inside fun other held =>
            other.Takes held (other.valuesIn ((slots.map Slot.name).zip values)) (other.get final)
          · rw [List.map_cons, List.zip_cons_cons, slot.valuesIn_cons_of_mem List.mem_cons_self,
              valuesIn_zip_eq_nil foreign]
            simp [Slot.Takes]
          · intro other member different
            have skipped : slot.name ∉ other.names := fun named =>
              different (congrArg Slot.name
                (covers.eq_of_mem member inside named List.mem_cons_self))
            rw [List.map_cons, List.zip_cons_cons, other.valuesIn_cons_of_not_mem skipped]

/-- A schema accepts the values that tell a record by its layout, and comes to this record. -/
theorem Follows.reads (follows : schema.Follows layout) : Fit.Reads schema.fit layout.Tells := by
  intro value record
  cases value with
  | object members =>
      rw [Layout.tells_object_iff, fit, follows.fillMembers_eq_ok_iff]
      apply forall₂_congr
      intro slot inside
      rw [Slot.TakesOnce, if_neg List.not_mem_nil, follows.absent slot inside, Slot.Told]
  | array values =>
      rw [Layout.tells_array_iff, fit,
        fillItems_eq_ok_iff follows.covers _ follows.fills (List.Subset.refl _)
        follows.covers.apart]
      apply and_congr_right
      intro _
      rw [Layout.forall_mem_iff_getElem?]
      apply forall₃_congr
      intro place slot found
      rw [valuesIn_zip follows.covers.apart values found,
        follows.absent slot (List.mem_of_getElem? found), Slot.Told]
  | null | boolean _ | integer _ | double _ | string _ => exact ⟨nofun, nofun⟩

/-- Members that name no field are passed over. -/
theorem fillMembers_filter (filled : List String) (members : List (String × Json))
    (record : Record) :
    fillMembers schema filled (members.filter fun member => (schema.field? member.1).isSome)
      record =
      fillMembers schema filled members record := by
  induction members generalizing filled record with
  | nil => rfl
  | cons member rest ih =>
      obtain ⟨key, value⟩ := member
      cases known : schema.field? key with
      | none =>
          rw [List.filter_cons_of_neg (by simp [known]), ih]
          simp only [fillMembers, known]
      | some field =>
          rw [List.filter_cons_of_pos (by simp [known])]
          simp only [fillMembers, known, ih]

end Schema

/-! ## What a layout accepts -/

namespace Slot

variable {Record : Type} (slot : Slot Record) (members : List (String × Json))

def NamedOnce : Prop :=
  ∀ one ∈ slot.names, ∀ other ∈ slot.names, one ∈ members.map Prod.fst →
    other ∈ members.map Prod.fst → one = other

theorem namedOnce_of_no_aliases (single : slot.aliases = []) : slot.NamedOnce members := by
  intro one first other second _ _
  rw [names, single, List.mem_singleton] at first second
  rw [first, second]

theorem mem_valuesIn (value : Json) :
    value ∈ slot.valuesIn members ↔ ∃ key ∈ slot.names, (key, value) ∈ members := by
  simp [valuesIn, and_comm]

variable {slot members}

theorem length_le_one_iff {list : List String} (distinct : list.Nodup) :
    list.length ≤ 1 ↔ ∀ one ∈ list, ∀ other ∈ list, one = other := by
  cases list with
  | nil => simp
  | cons first rest =>
      cases rest with
      | nil => simp
      | cons second rest =>
          have apart : first ≠ second := by
            rintro rfl
            exact (List.nodup_cons.mp distinct).1 List.mem_cons_self
          refine ⟨fun few => absurd few (by simp), ?_⟩
          exact fun same => absurd
            (same first List.mem_cons_self second (List.mem_cons_of_mem _ List.mem_cons_self)) apart

/-- With distinct keys, two values are given for a slot just when two of its names are keys. -/
theorem length_valuesIn_le_one_iff (distinct : (members.map Prod.fst).Nodup) :
    (slot.valuesIn members).length ≤ 1 ↔ slot.NamedOnce members := by
  have keys_eq : (members.filter fun member => decide (member.1 ∈ slot.names)).map Prod.fst =
      (members.map Prod.fst).filter fun key => decide (key ∈ slot.names) := by
    rw [List.filter_map]
    rfl
  rw [valuesIn, List.length_map, ← List.length_map Prod.fst, keys_eq,
    length_le_one_iff (distinct.filter fun key => decide (key ∈ slot.names))]
  simp only [List.mem_filter, decide_eq_true_eq]
  constructor
  · exact fun same one first other second oneKey otherKey =>
      same one ⟨oneKey, first⟩ other ⟨otherKey, second⟩
  · rintro once one ⟨oneKey, first⟩ other ⟨otherKey, second⟩
    exact once one first other second oneKey otherKey

theorem exists_told_iff (values : List Json) :
    (∃ found, slot.Told values found) ↔ (∀ value ∈ values, ∃ found, slot.Means value found) ∧
      values.length ≤ 1 := by
  match values with
  | [] => simp [Told, Takes]
  | [value] => simp [Told, Takes]
  | _ :: _ :: _ => simp [Told, Takes]

end Slot

namespace Layout

variable {Record : Type} (layout : Layout Record)

/-- Every member that goes by a name of a slot has a value of the kind of this slot. -/
def Admits (members : List (String × Json)) : Prop :=
  ∀ slot ∈ layout, ∀ key ∈ slot.names, ∀ value, (key, value) ∈ members → ∃ found,
    slot.Means value found

def named (members : List (String × Json)) : List (String × Json) :=
  members.filter fun member => decide (∃ slot ∈ layout, member.1 ∈ slot.names)

variable {layout}

theorem tells_object_iff_admits (covers : layout.Covers) {members : List (String × Json)}
    (distinct : (members.map Prod.fst).Nodup) :
    (∃ record, layout.Tells (.object members) record) ↔
      layout.Admits members ∧ ∀ slot ∈ layout, slot.NamedOnce members := by
  have each : (∃ record, layout.Tells (.object members) record) ↔
      ∀ slot ∈ layout, ∃ found, slot.Told (slot.valuesIn members) found := by
    simp only [tells_object_iff]
    constructor
    · rintro ⟨record, told⟩ slot inside
      exact ⟨slot.get record, told slot inside⟩
    · exact covers.exists_record
  rw [each]
  simp only [Slot.exists_told_iff, Slot.length_valuesIn_le_one_iff distinct, Slot.mem_valuesIn]
  constructor
  · intro all
    refine ⟨?_, fun slot inside => (all slot inside).2⟩
    exact fun slot inside key isName value member => (all slot inside).1 value ⟨key, isName, member⟩
  · rintro ⟨admits, once⟩ slot inside
    refine ⟨?_, once slot inside⟩
    rintro value ⟨key, isName, member⟩
    exact admits slot inside key isName value member

/-- An array and an object in which each slot in turn has the same value tell the same. -/
theorem tells_array_iff_object {values : List Json} {members : List (String × Json)}
    (short : values.length ≤ layout.length)
    (same : ∀ (place : Nat) slot, layout[place]? = some slot →
      slot.valuesIn members = values[place]?.toList)
    (record : Record) : layout.Tells (.array values) record ↔
      layout.Tells (.object members) record := by
  rw [tells_array_iff, tells_object_iff, forall_mem_iff_getElem?, and_iff_right short]
  apply forall₃_congr
  intro place slot found
  rw [same place slot found]

/-- An array may end early. -/
theorem exists_tells_take (covers : layout.Covers) {values : List Json} {record : Record}
    (told : layout.Tells (.array values) record) (count : Nat) :
    ∃ front, layout.Tells (.array (values.take count)) front ∧
      ∀ (place : Nat) slot, layout[place]? = some slot →
        slot.get front = if place < count then slot.get record else slot.absent := by
  obtain ⟨short, each⟩ := (layout.tells_array_iff values record).mp told
  have chosen : ∀ slot ∈ layout, ∃ held, ∀ place : Nat, layout[place]? = some slot →
      held = if place < count then slot.get record else slot.absent := by
    intro slot inside
    obtain ⟨place, found⟩ := List.mem_iff_getElem?.mp inside
    refine ⟨if place < count then slot.get record else slot.absent, ?_⟩
    intro other again
    obtain ⟨bound, -⟩ := List.getElem?_eq_some_iff.mp found
    rw [(List.getElem?_inj bound covers.nodup).mp (found.trans again.symm)]
  obtain ⟨front, holds⟩ := covers.exists_record chosen
  refine ⟨front, (layout.tells_array_iff _ front).mpr ⟨?_, ?_⟩, ?_⟩
  · exact Nat.le_trans (List.length_take_le' count values) short
  · intro place slot found
    rw [holds slot (List.mem_of_getElem? found) place found]
    by_cases early : place < count
    · rw [if_pos early, List.getElem?_take_of_lt early]
      exact each place slot found
    · rw [if_neg early, List.getElem?_take_eq_none (Nat.not_lt.mp early)]
      rfl
  · exact fun place slot found => holds slot (List.mem_of_getElem? found) place found

/-- What a reader does with objects and arrays that reads records by a layout. -/
structure ReadBy (layout : Layout Record) (fit : Fit Record) : Prop where
  /-- It accepts the values that tell a record, and reads this record. -/
  reads : fit.Reads layout.Tells
  /-- Members that go by no name of a slot do not count. -/
  foreign : ∀ members others, layout.named members = layout.named others →
    fit (.object members) = fit (.object others)
  /-- Values in the order of the slots are read like the same values under their names. -/
  arrays : ∀ (values : List Json) (members : List (String × Json)), values.length ≤ layout.length →
    (∀ (place : Nat) slot, layout[place]? = some slot →
      slot.valuesIn members = values[place]?.toList) →
    ∀ record, fit (.array values) = .ok record ↔ fit (.object members) = .ok record
  /-- If the values end early, nothing is said about the slots for the rest. -/
  fronts : ∀ (values : List Json) record, fit (.array values) = .ok record → ∀ count,
    ∃ front, fit (.array (values.take count)) = .ok front ∧
      ∀ (place : Nat) slot, layout[place]? = some slot →
        slot.get front = if place < count then slot.get record else slot.absent

end Layout

namespace Schema

variable {Record : Type} {schema : Schema Record} {layout : Layout Record}

theorem Follows.isSome_field?_iff (follows : schema.Follows layout) (key : String) :
    (schema.field? key).isSome = true ↔ ∃ slot ∈ layout, key ∈ slot.names := by
  rw [field?]
  rcases find?_cases follows.fills key with ⟨unknown, foreign⟩ | ⟨field, slot, known, inside, -,
    named⟩
  · rw [unknown]
    refine ⟨nofun, ?_⟩
    rintro ⟨slot, inside, named⟩
    exact absurd named (foreign slot inside)
  · rw [known]
    exact ⟨fun _ => ⟨slot, inside, named⟩, fun _ => rfl⟩

theorem Follows.named_eq (follows : schema.Follows layout) (members : List (String × Json)) :
    layout.named members = members.filter fun member => (schema.field? member.1).isSome := by
  apply List.filter_congr
  intro member _
  rw [Bool.eq_iff_iff, decide_eq_true_eq, follows.isSome_field?_iff]

theorem Follows.readBy (follows : schema.Follows layout) : layout.ReadBy schema.fit where
  reads := follows.reads
  foreign members others same := by
    rw [follows.named_eq, follows.named_eq] at same
    rw [fit, fit, ← fillMembers_filter, same, fillMembers_filter]
  arrays values members short same record := by
    rw [follows.reads, follows.reads]
    exact Layout.tells_array_iff_object short same record
  fronts values record accepted count := by
    obtain ⟨front, told, held⟩ :=
      Layout.exists_tells_take follows.covers ((follows.reads _ record).mp accepted) count
    exact ⟨front, (follows.reads _ front).mpr told, held⟩

/-- An object is accepted if its members under the names of the slots are of their kinds and no slot
is named twice. -/
theorem Follows.accepts_iff (follows : schema.Follows layout) {members : List (String × Json)}
    (distinct : (members.map Prod.fst).Nodup) :
    (∃ record, schema.fit (.object members) = .ok record) ↔
      layout.Admits members ∧ ∀ slot ∈ layout, slot.NamedOnce members := by
  rw [← Layout.tells_object_iff_admits follows.covers distinct]
  exact exists_congr fun record => follows.reads _ record

end Schema

end RobotConsole.Report
